import ScriptEngine.Value.Coercion

/-! Binary operators and indexing. -/

namespace ScriptEngine

/-- The binary operators that combine two values. -/
inductive BinaryOp where
  | equal
  | notEqual
  | less
  | lessOrEqual
  | greater
  | greaterOrEqual
  | add
  | subtract
  | multiply
  | divide
  | modulo
  deriving DecidableEq, Repr

namespace BinaryOp

/-- The spelling of an operator. -/
def symbol : BinaryOp → String
  | .equal => "=="
  | .notEqual => "!="
  | .less => "<"
  | .lessOrEqual => "<="
  | .greater => ">"
  | .greaterOrEqual => ">="
  | .add => "+"
  | .subtract => "-"
  | .multiply => "*"
  | .divide => "/"
  | .modulo => "%"

/-- All operators. -/
def all : List BinaryOp :=
  [.equal, .notEqual, .less, .lessOrEqual, .greater, .greaterOrEqual, .add, .subtract, .multiply,
    .divide, .modulo]

/-- The operator with a spelling. -/
def ofSymbol? (symbol : String) : Option BinaryOp := all.find? (·.symbol == symbol)

/-- The failure to apply an arithmetic operator to values that are not both numbers. -/
def needsNumbers (symbol : String) (left right : Value) : Result Value :=
  fail (.typeMismatch (.numbersFor symbol) (left.typeName ++ " and " ++ right.typeName))

/-- Applies an arithmetic operation, which needs two numbers. -/
def arithmetic (symbol : String) (operation : Float → Float → Float) (left right : Value) :
    Result Value :=
  match left.data, right.data with
  | .number a, .number b => .ok (.number (operation a b))
  | _, _ => needsNumbers symbol left right

/-- Applies an operator. Addition joins texts as soon as one side is a string. -/
def apply (op : BinaryOp) (left right : Value) : Result Value :=
  match op with
  | .equal => .ok (.ofBool (left == right))
  | .notEqual => .ok (.ofBool !(left == right))
  | .less => .ok (.ofBool (left.compare right == .lt))
  | .lessOrEqual => .ok (.ofBool (left.compare right != .gt))
  | .greater => .ok (.ofBool (left.compare right == .gt))
  | .greaterOrEqual => .ok (.ofBool (left.compare right != .lt))
  | .add =>
    if left.isString || right.isString then .ok (.string (left.display ++ right.display))
    else arithmetic op.symbol (· + ·) left right
  | .subtract => arithmetic op.symbol (· - ·) left right
  | .multiply => arithmetic op.symbol (· * ·) left right
  | .divide => arithmetic op.symbol (· / ·) left right
  | .modulo => arithmetic op.symbol Number.remainder left right

/-- Applies the operator with a spelling; an unknown spelling is only noticed between numbers. -/
def applySymbol (symbol : String) (left right : Value) : Result Value :=
  match ofSymbol? symbol with
  | some op => op.apply left right
  | none =>
    if left.isNumber && right.isNumber then fail (.syntaxError (.unknownOperator symbol) 0)
    else needsNumbers symbol left right

end BinaryOp

/-- Reads the element that an index selects. A string index is a key; reading where a collection or
string has nothing yields null, and an enumeration maps names and numbers to each other. -/
def Value.index (value index : Value) : Result Value :=
  match value.data with
  | .collection collection =>
    match index.data with
    | .string key => .ok ((collection.getKey? key).getD .null)
    | _ => do return (collection.get? (← index.toIndex)).getD .null
  | .string text => do
    return ((text.toList[← index.toIndex]?).map Value.ofChar).getD .null
  | .enumeration enumeration =>
    match index.data with
    | .string key =>
      match enumeration.valueOf? key with
      | some number => .ok (.ofInt number)
      | none => fail (.unknownSymbol (enumeration.name ++ "." ++ key))
    | _ =>
      let number := Value.toInteger index.toNumber
      match enumeration.nameOf? number with
      | some name => .ok (.string name)
      | none => fail (.unknownSymbol (enumeration.name ++ "[" ++ toString number ++ "]"))
  | _ => fail (.typeMismatch .indexable value.typeName)

end ScriptEngine
