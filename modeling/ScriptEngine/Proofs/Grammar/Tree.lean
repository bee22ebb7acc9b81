import ScriptEngine.Eval.Expression
import ScriptEngine.Proofs.Source.Nesting

/-! Expression trees: how they are written with no more brackets than precedence asks for, and what
they mean. -/

namespace ScriptEngine

/-- How tight an operator binds, which is the place of its level. -/
def Operator.precedence : Operator → Nat
  | .or => 0
  | .and => 1
  | .binary .equal => 2
  | .binary .notEqual => 2
  | .binary .less => 3
  | .binary .lessOrEqual => 3
  | .binary .greater => 3
  | .binary .greaterOrEqual => 3
  | .binary .add => 4
  | .binary .subtract => 4
  | .binary .multiply => 5
  | .binary .divide => 5
  | .binary .modulo => 5

/-- The spelling of a sign. -/
def Sign.symbol : Sign → Char
  | .not => '!'
  | .negate => '-'

/-- A decimal digit. -/
abbrev Digit := { c : Char // c.isDigit = true }

/-- Digits as they are written. -/
def digitsText (digits : List Digit) : List Char := digits.map (·.val)

@[simp]
theorem digitsText_cons (digit : Digit) (others : List Digit) :
    digitsText (digit :: others) = digit.val :: digitsText others := rfl

@[simp]
theorem digitsText_append (first second : List Digit) :
    digitsText (first ++ second) = digitsText first ++ digitsText second := List.map_append

@[simp]
theorem digitsText_eq_nil {digits : List Digit} : digitsText digits = [] ↔ digits = [] :=
  List.map_eq_nil_iff

@[simp]
theorem length_digitsText (digits : List Digit) : (digitsText digits).length = digits.length :=
  List.length_map _

/-- Digits are written as digits. -/
theorem isDigit_of_mem {digits : List Digit} {c : Char} (member : c ∈ digitsText digits) :
    c.isDigit = true := by
  obtain ⟨digit, _, rfl⟩ := List.mem_map.mp member
  exact digit.property

/-- The exponent of a number literal. -/
structure Exponent where
  mark : Char
  marks : mark = 'e' ∨ mark = 'E'
  sign : Option Char
  signs : sign = none ∨ sign = some '+' ∨ sign = some '-'
  digits : List Digit
  written : digits ≠ []

namespace Exponent

/-- An exponent as it is written. -/
def text (exponent : Exponent) : List Char :=
  exponent.mark :: (exponent.sign.toList ++ digitsText exponent.digits)

/-- The power of ten that an exponent stands for. -/
def value (exponent : Exponent) : Int :=
  let magnitude : Int := Number.digitsValue 0 (digitsText exponent.digits)
  if exponent.sign = some '-' then -magnitude else magnitude

end Exponent

/-- A number literal: digits with an optional point among them or in front, and an exponent. -/
structure Numeral where
  whole : List Digit
  /-- The digits behind the point; without any there is no point. -/
  fraction : List Digit
  written : whole ≠ [] ∨ fraction ≠ []
  exponent : Option Exponent

namespace Numeral

/-- The point of a number literal with the digits behind it. -/
def point (numeral : Numeral) : List Char :=
  if numeral.fraction = [] then [] else '.' :: digitsText numeral.fraction

/-- A number literal as it is written. -/
def text (numeral : Numeral) : List Char :=
  digitsText numeral.whole ++ (numeral.point ++ (numeral.exponent.map (·.text)).getD [])

/-- The number that a literal denotes: the double nearest to its decimal. -/
def value (numeral : Numeral) : Float :=
  Number.ofDecimal ⟨Number.digitsValue 0 (digitsText (numeral.whole ++ numeral.fraction)),
    (numeral.exponent.map (·.value)).getD 0 - numeral.fraction.length⟩

end Numeral

/-- A piece of a string literal. -/
inductive Piece where
  | plain (c : Char) (bare : c ≠ '"' ∧ c ≠ '\\')
  | escape (c : Char)

namespace Piece

/-- A piece as it is written. -/
def text : Piece → List Char
  | .plain c _ => [c]
  | .escape c => ['\\', c]

/-- The characters that a piece stands for. -/
def content : Piece → List Char
  | .plain c _ => [c]
  | .escape c => Cursor.unescape c

end Piece

/-- A word that names a constant. -/
inductive Constant where
  | yes
  | no
  | null
  deriving DecidableEq, Repr

namespace Constant

/-- A constant as it is written. -/
def word : Constant → String
  | .yes => "true"
  | .no => "false"
  | .null => "null"

/-- The value of a constant. -/
def value : Constant → Value
  | .yes => .ofBool true
  | .no => .ofBool false
  | .null => .null

end Constant

/-- An identifier. -/
abbrev Word := { text : List Char // Text.isIdentifier text = true }

/-- The name of a variable, with the namespaces in front of it. -/
structure Name where
  first : Word
  members : List Word
  free : constant? (String.ofList first.val) = none

namespace Name

/-- The words behind a scope as they are written. -/
def membersText (members : List Word) : List Char := members.flatMap fun member => '.' :: member.val

/-- A name as it is written. -/
def text (name : Name) : List Char := name.first.val ++ membersText name.members

/-- Whether all that stands in front of a point names a namespace. -/
def Qualifies (symbols : SymbolTable) : List Char → List Word → Prop
  | _, [] => True
  | scope, member :: rest =>
    symbols.hasNamespace (String.ofList scope) = true ∧
      Qualifies symbols (scope ++ '.' :: member.val) rest

end Name

/-- Whether no operand without brackets reaches past a character, whatever its level. -/
def endsAnyOperand (c : Char) : Bool := Cursor.endsOperand c || c == '|' || c == '&'

/-- The text of an operand that is not read as a tree, whatever it contains. -/
abbrev Unread := { text : List Char // Balanced endsAnyOperand text }

/-- An expression. -/
inductive Expr where
  | number (numeral : Numeral)
  | string (pieces : List Piece)
  | constant (literal : Constant)
  | named (name : Name)
  | sign (mark : Sign) (operand : Expr)
  | join (operator : Operator) (left right : Expr)
  | unread (text : Unread)

/-- A text, in brackets if that is needed. -/
def bracket (needed : Bool) (text : List Char) : List Char :=
  if needed then '(' :: (text ++ [')']) else text

/-- An operator in front of its operand; `gap` tells between which characters a space stands. -/
def prefixed (gap : Char → Char → Bool) (symbol text : List Char) : List Char :=
  match symbol.getLast?, text.head? with
  | some last, some next => if gap last next then symbol ++ ' ' :: text else symbol ++ text
  | _, _ => symbol ++ text

/-- Whether two characters would be a step operator if no space stood between them. -/
def adjacentSigns (last next : Char) : Bool :=
  (last == '+' || last == '-') && (next == '+' || next == '-')

namespace Expr

/-- How tight the outermost operator of an expression binds. Without one, only the operators that may
skip an operand leave one that is not read. -/
def level : Expr → Nat
  | join operator _ _ => operator.precedence
  | unread _ => 2
  | _ => 6

/-- An expression as it is written, with the brackets that precedence and associativity ask for. -/
def print (gap : Char → Char → Bool) : Expr → List Char
  | number numeral => numeral.text
  | string pieces => '"' :: (pieces.flatMap Piece.text ++ ['"'])
  | constant literal => literal.word.toList
  | named name => name.text
  | sign mark operand =>
    prefixed gap [mark.symbol] (bracket (operand.level < 6) (operand.print gap))
  | join operator left right =>
    bracket (left.level < operator.precedence) (left.print gap) ++
      prefixed gap operator.symbol.toList
        (bracket (right.level < operator.precedence + 1) (right.print gap))
  | unread text => text.val

/-- An expression as it is written where only operators from a level on stand without brackets. -/
def within (gap : Char → Char → Bool) (level : Nat) (expr : Expr) : List Char :=
  bracket (expr.level < level) (expr.print gap)

/-- The canonical text of an expression. -/
def text (expr : Expr) : List Char := expr.print adjacentSigns

/-- A bound on the brackets in an expression that are inside each other. -/
def height : Expr → Nat
  | sign _ operand => operand.height + 1
  | join _ left right => max left.height right.height + 1
  | _ => 0

/-- What an operator makes of the meanings on its two sides. A failure on its left is one of the whole,
and what cannot change the result needs no meaning. -/
def joined (operator : Operator) (left : Result Value) (right : Option (Result Value)) :
    Option (Result Value) :=
  match left, operator with
  | .error failure, _ => some (.error failure)
  | .ok value, .or =>
    if value.truthy then some (.ok (.ofBool true))
    else right.map fun result => result.map fun value => .ofBool value.truthy
  | .ok value, .and =>
    if value.truthy then right.map fun result => result.map fun value => .ofBool value.truthy
    else some (.ok (.ofBool false))
  | .ok value, .binary op => right.map fun result => result.bind (op.apply value)

/-- The meaning of an expression where variables have values: its operands from left to right, up to
the first failure and without those that cannot change the result. What is not read has none. -/
def value? (values : Name → Option Value) : Expr → Option (Result Value)
  | number numeral => some (.ok (.number numeral.value))
  | string pieces => some (.ok (.string (String.ofList (pieces.flatMap Piece.content))))
  | constant literal => some (.ok literal.value)
  | named name => (values name).map .ok
  | sign mark operand => (operand.value? values).map fun result => result.bind mark.apply
  | join operator left right =>
    (left.value? values).bind fun result => joined operator result (right.value? values)
  | unread _ => none

end Expr

end ScriptEngine
