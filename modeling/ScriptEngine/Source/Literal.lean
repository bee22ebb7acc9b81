import ScriptEngine.Number.Text
import ScriptEngine.Source.Cursor

/-! String and number literals at a cursor. -/

namespace ScriptEngine.Cursor

/-- The characters that a backslash and `escaped` stand for. -/
def unescape (escaped : Char) : List Char :=
  if escaped = 'n' then ['\n']
  else if escaped = 't' then ['\t']
  else if escaped = 'r' then ['\r']
  else if escaped = '"' ∨ escaped = '\\' ∨ escaped = '\'' then [escaped]
  else ['\\', escaped]

/-- The content of a literal behind its opening quote, and the number of characters up to the end of
its closing one. -/
def literalContent? : List Char → Option (List Char × Nat)
  | [] => none
  | '"' :: _ => some ([], 1)
  | '\\' :: [] => none
  | '\\' :: escaped :: rest =>
    (literalContent? rest).map fun (content, length) => (unescape escaped ++ content, length + 2)
  | c :: rest => (literalContent? rest).map fun (content, length) => (c :: content, length + 1)

/-- Reads the string literal at the cursor. -/
def readString (cursor : Cursor) : Read (String × Cursor) := do
  let inner ← cursor.expect '"'
  match literalContent? inner.rest with
  | some (content, length) => return (String.ofList content, inner.advanceBy length)
  | none => (finish cursor.source).refuse .unterminatedString

/-- Reads the number literal at the cursor. -/
def readNumber (cursor : Cursor) : Read (Float × Cursor) :=
  let length := Number.literalLength cursor.rest
  let text := cursor.rest.take length
  let behind := cursor.advanceBy length
  match Number.parse? text with
  | some number => .ok (number, behind)
  | none => behind.refuse (.invalidNumber (String.ofList text))

end ScriptEngine.Cursor
