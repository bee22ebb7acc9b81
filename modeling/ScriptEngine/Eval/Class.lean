import ScriptEngine.Eval.Function

/-! Classes: their declaration and the creation of objects. -/

namespace ScriptEngine

/-- The class that a name stands for. -/
def Engine.class? (engine : Engine) (name file : String) : Option ClassDef :=
  match engine.resolve? name file with
  | some (.classDef definition) => some definition
  | _ => none

/-- Takes over the members of the named base classes in order. -/
def inheritAll (file : String) (definition : ClassDef) : List String → Eval ClassDef
  | [] => return definition
  | base :: rest => do
    match (← get).class? base file with
    | some found =>
      let inherited := definition.inherit found
      inheritAll file { inherited with bases := inherited.bases ++ [base] } rest
    | none => Eval.throwCause (.unknownSymbol base)

/-- Reads the value that a field starts with, which is null if none is given. -/
def readFieldDefault (eval : Evaluator) (cursor : Cursor) : Eval (Value × Cursor) :=
  match cursor.consume? "=" with
  | some operand => evaluateAt eval .fieldDefault operand
  | none => return (.null, cursor)

/-- Reads one field with the value it starts with; `token` is its first word. -/
def readField (eval : Evaluator) (definition : ClassDef) (token : String) (cursor : Cursor) :
    Eval (ClassDef × Cursor) := do
  let (name, named) := if token = "var" then cursor.readToken else (token, cursor)
  if !Text.isIdentifier name.toList then Eval.refuse named (.unexpectedMember definition.name)
  let (value, behind) ← readFieldDefault eval named.skipSpaces
  return (definition.addField name value, ← Eval.ofRead behind.endStatement)

/-- Reads at most `count` members of a class and all of them. -/
def readClassMembers (eval : Evaluator) : Nat → ClassDef → Cursor → Eval ClassDef
  | 0, _, _ => throw .exhausted
  | count + 1, definition, cursor => do
    let here := cursor.skipSpaces
    if here.atEnd then return definition
    else match here.consume? ";" with
      | some behind => readClassMembers eval count definition behind
      | none =>
        let (token, behind) := here.readToken
        if token = "function" then
          let (method, next) ← Eval.ofRead
            (readFunction (← get).activeScope? (some definition.name) behind)
          readClassMembers eval count (definition.addMethod method) next
        else
          let (changed, next) ← readField eval definition token behind
          readClassMembers eval count changed next

/-- Declares the class under a name with what its definition has so far and the members at a
cursor. -/
def declareMembers (eval : Evaluator) (name : String) (definition : ClassDef) (cursor : Cursor) :
    Eval (Value × Cursor) := do
  let (text, behind) ← Eval.ofRead (cursor.readBalanced '{' '}')
  let members := behind.child text
  let finished ← readClassMembers eval (members.left + 1) definition members
  modify (·.defineDeclaration name (.classDef finished))
  return (.null, behind)

/-- Declares the class at a cursor. -/
def declareClass (eval : Evaluator) (cursor : Cursor) : Eval (Value × Cursor) := do
  let (name, named) := cursor.readToken
  if name = "" then Eval.refuse named .missingClassName
  let here := named.skipSpaces
  match here.consume? ":" with
  | some list =>
    let (bases, headed) := list.readUntil (· == '{')
    let names := (splitTopLevel bases ',').map String.ofList
    declareMembers eval name (← inheritAll headed.file { name } names) headed
  | none => declareMembers eval name { name } here

/-- Creates an instance of a class and runs the constructor for the number of arguments. -/
def instantiate (eval : Evaluator) (definition : ClassDef) (args : List Arg) : Eval Value := do
  let engine ← get
  let (heap, value) := engine.heap.instantiate definition
  set { engine with heap }
  match definition.constructor? args.length with
  | some constructor =>
    let _ ← Eval.use .construction (← callFunction eval constructor args (some value))
    return value
  | none =>
    if args.isEmpty then return value
    else Eval.throwCause (.arguments definition.name (.noConstructor args.length))

end ScriptEngine
