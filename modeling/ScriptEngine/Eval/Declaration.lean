import ScriptEngine.Eval.Function

/-! Declarations of variables, enumerations, namespaces and compiled functions. -/

namespace ScriptEngine

/-- Declares the variables that `parts` list, each with its first value or null. -/
def declareVariables (eval : Evaluator) (cursor : Cursor) : List (List Char) → Eval Unit
  | [] => return ()
  | part :: rest => do
    let (name, init) := splitDefault part
    if !Text.isIdentifier name then
      Eval.refuse cursor (.invalidVariable (String.ofList name))
    let value ← match init with
      | some text => evaluateAs eval .initializer cursor.site text
      | none => pure .null
    modify (·.defineLocal (String.ofList name) (.variable value) cursor.file)
    declareVariables eval cursor rest

/-- Runs the `var` statement whose list is at a cursor. -/
def runVar (eval : Evaluator) (cursor : Cursor) : Eval (Value × Cursor) := do
  let (list, behind) := cursor.readUntil (· == ';')
  declareVariables eval behind (splitTopLevel list ',')
  return (.null, ← Eval.ofRead behind.endStatement)

/-- The number behind another one, within 64 bits. -/
def successor (number : Int) : Int := (number + 1).bmod UInt64.size

/-- Reads one entry of an enumeration; `next` is the number of an entry that gives none. -/
def readEntry (eval : Evaluator) (cursor : Cursor) (next : Int) (part : List Char) :
    Eval (List Char × Int) := do
  match splitDefault part with
  | (_, none) => return (part, next)
  | (name, some text) =>
    let value ← evaluateAs eval .enumEntry cursor.site text
    match value.number? with
    | some number => return (name, Value.toInteger number)
    | none => Eval.throwCause (.typeMismatch .number value.typeName)

/-- Reads the entries of an enumeration; an entry without a number follows the one before it. -/
def readEntries (eval : Evaluator) (cursor : Cursor) (next : Int) (entries : OrderedMap Int) :
    List (List Char) → Eval (OrderedMap Int)
  | [] => return entries
  | part :: rest => do
    let (name, number) ← readEntry eval cursor next part
    if !Text.isIdentifier name then
      Eval.refuse cursor (.invalidEnumEntry (String.ofList name))
    readEntries eval cursor (successor number) (entries.insert (String.ofList name) number) rest

/-- Declares the enumeration at a cursor. -/
def declareEnum (eval : Evaluator) (cursor : Cursor) : Eval (Value × Cursor) := do
  let (name, named) := cursor.readToken
  if name = "" then Eval.refuse named .missingEnumName
  let (body, behind) ← Eval.ofRead (named.readBalanced '{' '}')
  let entries ← readEntries eval behind 0 .empty (splitTopLevel body ',')
  let value := Value.ofData (.enumeration ⟨name, entries⟩)
  modify (·.defineDeclaration name (.variable value))
  return (.null, behind)

/-- Runs the namespace block at a cursor. -/
def runNamespace (eval : Evaluator) (cursor : Cursor) : Eval (Value × Cursor) := do
  let (name, named) := cursor.readToken
  if name = "" then Eval.refuse named .missingNamespaceName
  let (body, behind) ← Eval.ofRead (named.readBalanced '{' '}')
  modify fun engine => { engine with symbols := engine.symbols.ensureNamespace name }
  let value ← Eval.withFrame (.namespaceBlock name) (runText eval behind.site body)
  return (value.signalOrNull, behind)

/-- The failure of a compilation. -/
def compileFailure {α : Type} (function message : String) : Eval α :=
  Eval.throwCause (.compileFailure function message)

/-- Compiles and declares the function at a cursor. -/
def declareCompiled (cursor : Cursor) : Eval (Value × Cursor) := do
  let (name, named) := cursor.readToken
  if name = "" then Eval.refuse named .missingCompiledName
  let (header, headed) ← Eval.ofRead (named.readBalanced '(' ')')
  let params ← Eval.ofResult (TypedParam.ofTexts name (splitTopLevel header ','))
  let (body, behind) ← Eval.ofRead (headed.readBalanced '{' '}')
  match (← get).compiler with
  | none => compileFailure name "no compiler backend is registered"
  | some compiler =>
    match compiler.compile name params (String.ofList body) with
    | .error message => compileFailure name message
    | .ok invoke =>
      modify (·.defineDeclaration name (.compiled ⟨name, params, invoke⟩))
      return (.null, behind)

/-- Calls a compiled function with its arguments sorted by type. -/
def callCompiled (function : CompiledFunction) (arguments : List Value) : Eval Value := do
  let buckets ← Eval.ofResult (ArgBuckets.sort function.name function.params arguments)
  Eval.ofHost ((function.invoke buckets).mapError (·.inFrame function.name))

end ScriptEngine
