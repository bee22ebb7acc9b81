/-! What a script prints and what the interpreter reports. -/

namespace ScriptEngine

/-- A piece of output. -/
structure OutputChunk where
  text : String
  /-- Whether it is a report of the interpreter rather than output of the script. -/
  isDiagnostic : Bool
  deriving DecidableEq, Repr

/-- The text of all output in order, with each report on a line of its own. -/
def OutputChunk.render (chunks : List OutputChunk) : String :=
  String.join (chunks.map fun chunk => if chunk.isDiagnostic then chunk.text ++ "\n" else chunk.text)

end ScriptEngine
