import ScriptEngine.Proofs.Grammar.Normal
import ScriptEngine.Proofs.Grammar.Precedence

/-! The evaluation of a written expression yields its meaning. -/

namespace ScriptEngine

open Cursor

/-- The variables that expressions name have values in an interpreter, as seen from a file. -/
def Engine.Binds (engine : Engine) (file : String) (values : Name → Option Value) : Prop :=
  ∀ name value, values name = some value →
    Name.Qualifies engine.symbols name.first.val name.members ∧
      engine.resolve? (String.ofList name.text) file = some (.variable value)

variable {base : Engine} {file : String} {eval : Evaluator} {values : Name → Option Value}
  {text : List Char} {result : Result Value} {cursor next : Cursor}

/-- An operand that is found without steps behind it is evaluated. -/
theorem evaluateStepped_settles {value : Value} {place : Option Place} (stops : Stops 6 next.rest)
    (primary : Settles base (evaluatePrimary eval cursor) (.ok (value, place, next))) :
    Settles base (evaluateStepped eval cursor) (.ok (value, next)) := by
  unfold evaluateStepped
  refine primary.bind_ok ?_
  dsimp only
  rw [evaluateSteps_stops stops]
  exact .pure base _

/-- A text of one expression yields its result. -/
theorem EvaluatesTo.all {depth : Nat}
    (evaluates : EvaluatesTo base file (evaluator depth) 0 text result) (solid : text.head? ≠ some ' ')
    (inFile : cursor.file = file) (whole : cursor.rest = text) :
    Settles base (evaluateAll (evaluator (depth + 1)) cursor) result := by
  have here : cursor.rest = text ++ [] := by rw [whole, List.append_nil]
  let next := cursor.advanceBy text.length
  have ended : next.rest = [] := rest_advanceBy here
  have spans : cursor.skipSpaces.Spans text next := by
    refine ⟨by simp [next], ?_⟩
    rw [skipSpaces_eq (by rwa [whole]), ended]
    exact here
  have settles := evaluates inFile spans (.inl ended)
  unfold evaluateAll
  show Settles base (evaluateFrom (evaluator depth) 0 cursor >>= _) result
  cases result with
  | error failure => exact settles.bind_error
  | ok value =>
    -- Nothing is left behind the expression.
    refine settles.bind_ok ?_
    have atEnd : next.skipSpaces.current = none := by
      have stops : Stops 0 next.rest := .inl ended
      rw [stops.skipSpaces_eq, current, ended]
      rfl
    dsimp only
    rw [atEnd]
    exact .pure base value

/-- An expression in brackets is an operand without signs. -/
theorem EvaluatesTo.enclosed {depth : Nat}
    (evaluates : EvaluatesTo base file (evaluator depth) 0 text result) (begins : Begins text) (balanced : Balanced nothing text) :
    Signed base file (evaluator (depth + 1)) ('(' :: (text ++ [')'])) [] result := by
  refine Signed.plain rfl (by decide) fun {cursor next} inFile spans stops => ?_
  have shape : cursor.rest = '(' :: (text ++ ')' :: next.rest) := by
    rw [spans.2]
    simp
  have landed : next = cursor.advanceBy (text.length + 2) := by
    rw [spans.eq_advanceBy]
    simp
  -- The text between the brackets is an expression of its own.
  have inner : Settles base
      (evaluateText (evaluator (depth + 1)) (cursor.advanceBy (text.length + 2)).site text) result :=
    evaluates.all begins.head_ne_space (by simpa [Cursor.file, ofText, start, site] using inFile) rfl
  unfold evaluateStepped
  rw [evaluatePrimary_enclosed balanced shape, ← landed, bind_assoc]
  rw [← landed] at inner
  cases result with
  | error failure => exact inner.bind_error
  | ok value =>
    refine inner.bind_ok ?_
    rw [pure_bind]
    dsimp only
    rw [evaluateSteps_stops stops]
    exact .pure base _

/-- An expression is evaluated where its operators stand without brackets. -/
structure Evaluated (base : Engine) (file : String) (eval : Evaluator) (expr : Expr)
    (result : Result Value) : Prop where
  /-- Behind it, operators of its level go on with it. -/
  chains : expr.level < 6 → Chains base file eval expr.level expr.text result
  /-- In front of it, more signs can stand. -/
  signed : 6 ≤ expr.level → ∃ signs inner,
    result = inner.bind (fun value => applySigns value signs) ∧
      Signed base file eval expr.text signs inner

namespace Evaluated

variable {level : Nat} {expr : Expr}

/-- An operand without signs is an expression that is evaluated. -/
theorem ofSigned {signs : List Sign} {inner : Result Value} (tight : expr.level = 6)
    (same : result = inner.bind fun value => applySigns value signs)
    (signed : Signed base file eval expr.text signs inner) : Evaluated base file eval expr result :=
  ⟨fun below => absurd below (by omega), fun _ => ⟨signs, inner, same, signed⟩⟩

/-- An expression is an operand of its level and of every looser one. -/
theorem evaluates (evaluated : Evaluated base file eval expr result) (le : level ≤ expr.level) :
    EvaluatesTo base file eval level expr.text result := by
  -- Without an operator of its own, the signs are applied; otherwise the chain ends here.
  by_cases tight : 6 ≤ expr.level
  · obtain ⟨signs, inner, rfl, signed⟩ := evaluated.signed tight
    exact signed.evaluates.loosen (Nat.le_trans le expr.level_le) (Nat.le_refl _)
  · exact (evaluated.chains (Nat.lt_of_not_le tight)).evaluates.loosen le expr.level_le

end Evaluated

/-- The evaluation of an expression yields a result, on its own and as an operand of a larger one. -/
structure Expr.Yields (base : Engine) (file : String) (expr : Expr) (result : Result Value) : Prop where
  begins : Begins expr.text
  evaluated : ∀ depth, expr.height ≤ depth → Evaluated base file (evaluator depth) expr result

namespace Expr.Yields

variable {depth level : Nat} {expr : Expr}

/-- In brackets, an expression is evaluated one level deeper. -/
theorem enclosed (yields : expr.Yields base file result) (deep : expr.height < depth) :
    Signed base file (evaluator depth) ('(' :: (expr.text ++ [')'])) [] result := by
  cases depth with
  | zero => exact absurd deep (Nat.not_lt_zero _)
  | succ depth =>
    have inner : EvaluatesTo base file (evaluator depth) 0 expr.text result :=
      (yields.evaluated depth (Nat.le_of_lt_succ deep)).evaluates (Nat.zero_le _)
    exact inner.enclosed yields.begins (expr.print_balanced (Nat.zero_le _)).lax

/-- An expression is an operand of a level, in brackets if it is too loose. -/
theorem within (yields : expr.Yields base file result) (deep : expr.height < depth) (le : level ≤ 6) :
    EvaluatesTo base file (evaluator depth) level (expr.within adjacentSigns level) result := by
  -- Brackets make an operand of it, which has no signs of its own.
  unfold Expr.within bracket
  by_cases looser : expr.level < level
  · have unsigned : result.bind (fun value => applySigns value []) = result := by cases result <;> rfl
    have operand := (yields.enclosed deep).evaluates
    rw [unsigned] at operand
    simp only [looser, decide_true, if_true]
    exact operand.loosen le (Nat.le_refl _)
  · simp only [looser, decide_false, Bool.false_eq_true, if_false]
    exact (yields.evaluated depth (Nat.le_of_lt deep)).evaluates (Nat.le_of_not_lt looser)

/-- An expression starts a chain of operands of a level, in brackets if it is too loose. -/
theorem chains (yields : expr.Yields base file result) (deep : expr.height < depth) (below : level < 6) :
    Chains base file (evaluator depth) level (expr.within adjacentSigns level) result := by
  by_cases same : expr.level = level
  · -- The operators of its own level need no brackets.
    subst same
    simp only [Expr.within, bracket, Nat.lt_irrefl, decide_false, Bool.false_eq_true, if_false]
    exact (yields.evaluated depth (Nat.le_of_lt deep)).chains below
  · -- Any other expression needs the same brackets one level up.
    have tight : expr.within adjacentSigns level = expr.within adjacentSigns (level + 1) := by
      have needed : expr.level < level ↔ expr.level < level + 1 := by omega
      simp only [Expr.within, needed]
    have operand : EvaluatesTo base file (evaluator depth) (level + 1) _ result :=
      yields.within deep below
    rw [tight]
    exact operand.chains below

/-- More signs can stand in front of an expression that is in brackets if it has operators. -/
theorem signed (yields : expr.Yields base file result) (deep : expr.height < depth) :
    ∃ signs inner, result = inner.bind (fun value => applySigns value signs) ∧
      Signed base file (evaluator depth) (expr.within adjacentSigns 6) signs inner := by
  unfold Expr.within bracket
  by_cases looser : expr.level < 6
  · refine ⟨[], result, by cases result <;> rfl, ?_⟩
    simp only [looser, decide_true, if_true]
    exact yields.enclosed deep
  · simp only [looser, decide_false, Bool.false_eq_true, if_false]
    exact (yields.evaluated depth (Nat.le_of_lt deep)).signed (Nat.le_of_not_lt looser)

end Expr.Yields

/-- An expression can stand on the right of an operator. -/
theorem RightOperand.ofExpr {operator : Operator} {expr : Expr} {depth : Nat}
    (yields : ∀ result, expr.value? values = some result → expr.Yields base file result)
    (deep : expr.height < depth) :
    RightOperand base file (evaluator depth) operator
      (expr.within adjacentSigns (operator.precedence + 1)) (expr.value? values) where
  evaluates result found := (yields result found).within deep operator.precedence_lt
  begins known := by
    rcases known with tight | found
    · -- All operators that skip nothing bind tightly.
      refine expr.within_begins ?_
      cases operator with
      | or => exact absurd (.inl rfl) tight
      | and => exact absurd (.inr rfl) tight
      | binary op => cases op <;> decide
    · exact .bracket fun _ => Expr.print_begins values expr (.inr found)
  balanced := expr.within_balanced _

namespace Expr

variable {expr : Expr}

/-- An operand without signs and operators yields its value. -/
theorem Yields.operand {value : Value} (tight : expr.level = 6) (begins : Begins expr.text)
    (unsigned : ∀ c, expr.text.head? = some c → c ≠ '!' ∧ c ≠ '-')
    (primary : ∀ (eval : Evaluator) (cursor : Cursor) (rest : List Char), cursor.file = file →
      cursor.rest = expr.text ++ rest → Stops 6 rest → ∃ place,
        Settles base (evaluatePrimary eval cursor)
          (.ok (value, place, cursor.advanceBy expr.text.length))) :
    expr.Yields base file (.ok value) := by
  have same : (Except.ok value : Result Value) =
      (Except.ok value).bind fun value => applySigns value [] := rfl
  refine ⟨begins, fun depth _ => .ofSigned tight same ?_⟩
  obtain ⟨c, tail, shape, starts⟩ := begins
  -- The text starts with none of the signs, and so it is one operand without any.
  have clear : c ∉ [' ', '!', '-'] := by
    have head : expr.text.head? = some c := by rw [shape]; rfl
    simp [unsigned c head, startsOperand_ne_space starts]
  refine Signed.plain shape clear fun {cursor next} inFile spans stops => ?_
  obtain ⟨place, found⟩ := primary (evaluator depth) cursor next.rest inFile spans.2 stops
  rw [← spans.eq_advanceBy] at found
  exact evaluateStepped_settles stops found

/-- No word starts with a sign. -/
theorem identifier_unsigned {word rest : List Char} (identifier : Text.isIdentifier word = true)
    {c : Char} (head : (word ++ rest).head? = some c) : c ≠ '!' ∧ c ≠ '-' := by
  cases word with
  | nil => cases identifier
  | cons first others =>
    -- The first character starts a word.
    cases head
    rw [Text.isIdentifier, Bool.and_eq_true] at identifier
    constructor
    all_goals
      rintro rfl
      exact absurd identifier.1 (by decide)

/-- A number literal yields its number. -/
theorem Yields.number (numeral : Numeral) :
    (number numeral).Yields base file (.ok (.number numeral.value)) := by
  refine .operand rfl numeral.begins (fun c head => ?_) fun eval cursor rest _ shape stops => ⟨none, ?_⟩
  · obtain ⟨first, tail, shape, digital⟩ := numeral.head_eq
    obtain rfl : first = c := by
      have head : numeral.text.head? = some c := head
      rw [shape] at head
      exact Option.some.inj head
    -- Neither a digit nor a point is a sign.
    rcases digital with digit | ⟨rfl, _⟩
    · constructor
      all_goals
        rintro rfl
        exact absurd digit (by decide)
    · decide
  · rw [evaluatePrimary_number numeral shape stops]
    exact .pure base _

/-- A string literal yields what its pieces stand for. -/
theorem Yields.string (pieces : List Piece) :
    (string pieces).Yields base file (.ok (.string (String.ofList (pieces.flatMap Piece.content)))) := by
  refine .operand rfl ⟨'"', _, rfl, rfl⟩ (fun c head => ?_)
    fun eval cursor rest _ shape stops => ⟨none, ?_⟩
  · cases head
    decide
  · -- The quotes are part of the literal.
    have quoted : cursor.rest = '"' :: (pieces.flatMap Piece.text ++ '"' :: rest) := by
      rw [shape, text, print]
      simp
    have length : (text (.string pieces)).length = (pieces.flatMap Piece.text).length + 2 := by
      simp [text, print]
    rw [evaluatePrimary_string pieces quoted, length]
    exact .pure base _

/-- A word that names a constant yields that. -/
theorem Yields.constant (literal : Constant) :
    (constant literal).Yields base file (.ok literal.value) := by
  have identifier : Text.isIdentifier literal.word.toList = true := by cases literal <;> decide
  have begins : Begins (text (.constant literal)) :=
    print_begins (fun _ => none) (.constant literal) (.inr rfl)
  refine .operand rfl begins (fun c head => ?_) fun eval cursor rest _ shape stops => ⟨none, ?_⟩
  · have spelled : (literal.word.toList ++ []).head? = some c := by rwa [List.append_nil]
    exact identifier_unsigned identifier spelled
  · rw [evaluatePrimary_constant literal shape stops]
    exact .pure base _

/-- The name of a variable yields its value. -/
theorem Yields.named {name : Name} {value : Value}
    (qualifies : Name.Qualifies base.symbols name.first.val name.members)
    (resolved : base.resolve? (String.ofList name.text) file = some (.variable value)) :
    (named name).Yields base file (.ok value) := by
  refine .operand rfl name.begins (fun c head => identifier_unsigned name.first.property head)
    fun eval cursor rest inFile shape stops =>
      ⟨some { name := String.ofList name.text }, fun engine alike => ⟨engine, alike, ?_⟩⟩
  refine evaluatePrimary_named name shape stops ?_ ?_
  · rw [alike.symbols]
    exact qualifies
  · rw [alike.resolve?, inFile, resolved]

/-- A sign yields what it makes of its operand. -/
theorem Yields.sign {operand : Expr} (yields : operand.Yields base file result) (mark : Sign) :
    (sign mark operand).Yields base file (result.bind mark.apply) := by
  refine ⟨.sign adjacentSigns mark _, fun depth deep => ?_⟩
  obtain ⟨signs, inner, rfl, signed⟩ := yields.signed deep
  have begins : Begins (operand.within adjacentSigns 6) := .bracket fun _ => yields.begins
  have applied : ((inner.bind fun value => applySigns value signs).bind mark.apply) =
      inner.bind fun value => applySigns value (mark :: signs) := by
    cases inner <;> rfl
  -- The signs behind it are applied first.
  exact .ofSigned rfl applied (signed.sign begins mark)

/-- An operator yields what it makes of its operands, if the second one yields its meaning. -/
theorem Yields.join {operator : Operator} {left right : Expr} {first : Result Value}
    (yields : left.Yields base file first)
    (behind : ∀ second, right.value? values = some second → right.Yields base file second)
    (joins : joined operator first (right.value? values) = some result) :
    (join operator left right).Yields base file result := by
  refine ⟨.append (.bracket fun _ => yields.begins) _, fun depth deep => ?_⟩
  -- Both operands have brackets of their own at most one level deeper.
  have deepLeft : left.height < depth := Nat.lt_of_le_of_lt (Nat.le_max_left _ _) deep
  have deepRight : right.height < depth := Nat.lt_of_le_of_lt (Nat.le_max_right _ _) deep
  have tight := operator.precedence_lt
  have chains := yields.chains deepLeft tight
  have rightOperand : RightOperand base file (evaluator depth) operator _ _ := .ofExpr behind deepRight
  exact ⟨fun _ => chains.join rightOperand joins, fun loose => absurd tight (Nat.not_lt.mpr loose)⟩

/-- The evaluation of an expression yields its meaning. -/
theorem yields (binds : base.Binds file values) (meaning : expr.value? values = some result) :
    expr.Yields base file result := by
  induction expr generalizing result with
  | number numeral =>
    obtain rfl : Except.ok _ = result := Option.some.inj meaning
    exact .number numeral
  | string pieces =>
    obtain rfl : Except.ok _ = result := Option.some.inj meaning
    exact .string pieces
  | constant literal =>
    obtain rfl : Except.ok _ = result := Option.some.inj meaning
    exact .constant literal
  | named name =>
    obtain ⟨value, bound, rfl⟩ := Option.map_eq_some_iff.mp meaning
    obtain ⟨qualifies, resolved⟩ := binds name value bound
    exact .named qualifies resolved
  | sign mark operand ih =>
    obtain ⟨inside, found, rfl⟩ := Option.map_eq_some_iff.mp meaning
    exact .sign (ih found) mark
  | join operator left right ihLeft ihRight =>
    -- The right operand may have no meaning; then the left one decides.
    obtain ⟨first, found, joins⟩ := Option.bind_eq_some_iff.mp meaning
    exact .join (ihLeft found) (fun _ meaning => ihRight meaning) joins
  | unread text => cases meaning

/-- An expression that is all of a text is evaluated to what it yields. -/
theorem Yields.all {depth : Nat} (yields : expr.Yields base file result) (deep : expr.height < depth)
    (inFile : cursor.file = file) (whole : cursor.rest = expr.text) :
    Settles base (evaluateAll (evaluator depth) cursor) result := by
  cases depth with
  | zero => exact absurd deep (Nat.not_lt_zero _)
  | succ depth =>
    have evaluates : EvaluatesTo base file (evaluator depth) 0 expr.text result :=
      (yields.evaluated depth (Nat.le_of_lt_succ deep)).evaluates (Nat.zero_le _)
    exact evaluates.all yields.begins.head_ne_space inFile whole

end Expr

/-- The value of the variable. -/
def truthValue? (name : Name) : Option Value :=
  if name.first.val = ['x'] ∧ name.members = [] then some (.ofBool true) else none

/-- The name of the variable, as an operand. -/
def truthOperand : Expr := .named ⟨⟨['x'], by decide⟩, [], by decide⟩

end ScriptEngine
