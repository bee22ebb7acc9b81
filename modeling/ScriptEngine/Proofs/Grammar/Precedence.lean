import ScriptEngine.Proofs.Grammar.Operand
import ScriptEngine.Proofs.Grammar.Settling
import ScriptEngine.Proofs.Source.Skip

/-! The climbing of precedences: an operand of a level is one of the looser levels, and the operands of
a level are joined from left to right. -/

namespace ScriptEngine

open Cursor

variable {base : Engine} {file : String} {eval : Evaluator} {level : Nat} {text : List Char}
  {result : Result Value} {cursor next : Cursor}

/-- A text lies between two places. -/
def Cursor.Spans (cursor : Cursor) (text : List Char) (next : Cursor) : Prop :=
  next.source = cursor.source ∧ cursor.rest = text ++ next.rest

namespace Cursor.Spans

/-- The place behind a text is known. -/
theorem eq_advanceBy (spans : cursor.Spans text next) : next = cursor.advanceBy text.length :=
  eq_of_rest (by simp [spans.1]) (by rw [rest_advanceBy spans.2])

/-- A place lies behind the first part of a text. -/
theorem split {first second : List Char} (spans : cursor.Spans (first ++ second) next) :
    cursor.Spans first (cursor.advanceBy first.length) ∧
      (cursor.advanceBy first.length).Spans second next := by
  have shape : cursor.rest = first ++ (second ++ next.rest) := by rw [spans.2, List.append_assoc]
  refine ⟨⟨by simp, ?_⟩, by simp [spans.1], rest_advanceBy shape⟩
  rw [rest_advanceBy shape]
  exact shape

/-- Behind a symbol stands its operand, with a space in front of it between two signs. -/
theorem behindSymbol {symbol : List Char} (spans : cursor.Spans (prefixed adjacentSigns symbol text) next)
    (begins : Begins text) : (cursor.advanceBy symbol.length).skipSpaces.Spans text next := by
  refine ⟨by simp [spans.1], ?_⟩
  -- The space in front of the operand is skipped where there is one.
  rcases prefixed_cases adjacentSigns symbol text with same | ⟨_, c, tail, _, rfl, _, same⟩
  · have rest : (cursor.advanceBy symbol.length).rest = text ++ next.rest :=
      rest_advanceBy (by rw [spans.2, same, List.append_assoc])
    rw [begins.skipSpaces_eq rest, rest]
  · have rest : (cursor.advanceBy symbol.length).rest = ' ' :: c :: (tail ++ next.rest) :=
      rest_advanceBy (by simp [spans.2, same])
    obtain ⟨_, _, shape, starts⟩ := begins
    cases shape
    rw [skipSpaces, skipWhile_rest, rest]
    simp [startsOperand_ne_space starts]

end Cursor.Spans

/-- Evaluates the operands of a level and of the tighter ones. -/
def evaluateFrom (eval : Evaluator) (level : Nat) (cursor : Cursor) : Eval (Value × Cursor) :=
  evaluateLevels (evaluateOperand eval) (Operator.levels.drop level) cursor

/-- The operands of a level are joined. -/
theorem evaluateFrom_eq (below : level < 6) (cursor : Cursor) :
    evaluateFrom eval level cursor = (do
      let operand ← evaluateFrom eval (level + 1) cursor
      joinOperands (Operator.ofLevel level) (evaluateFrom eval (level + 1)) (operand.2.left + 1)
        operand.1 operand.2) := by
  unfold evaluateFrom
  rw [Operator.drop_levels below]
  rfl

/-- Where an operator of the level follows, the operand behind it is joined. -/
theorem joinOperands_found {operators : List Operator} {operator : Operator}
    {operand : Cursor → Eval (Value × Cursor)} (tight : cursor.skipSpaces = cursor)
    (found : cursor.operator? operators = some operator) (count : Nat) (left : Value) :
    joinOperands operators operand (count + 1) left cursor =
      joinOperand operand left operator (cursor.advanceBy operator.symbol.length) >>= fun joined =>
        joinOperands operators operand count joined.1 joined.2 := by
  rw [joinOperands, tight, found]

/-- Where no operator of the level follows, the operands are joined. -/
theorem joinOperands_none {operators : List Operator} {operand : Cursor → Eval (Value × Cursor)}
    (tight : cursor.skipSpaces = cursor) (none : cursor.operator? operators = none) (count : Nat)
    (left : Value) :
    joinOperands operators operand (count + 1) left cursor = pure (left, cursor) := by
  rw [joinOperands, tight, none]

/-- A text is evaluated as an operand of a level, wherever such an operand ends behind it. -/
def EvaluatesTo (base : Engine) (file : String) (eval : Evaluator) (level : Nat) (text : List Char)
    (result : Result Value) : Prop :=
  ∀ ⦃cursor next : Cursor⦄, cursor.file = file → cursor.skipSpaces.Spans text next →
    Stops level next.rest →
      Settles base (evaluateFrom eval level cursor) (result.map fun value => (value, next))

/-- A text starts a chain of operands of a level: behind it, the operands that follow are joined. -/
def Chains (base : Engine) (file : String) (eval : Evaluator) (level : Nat) (text : List Char)
    (result : Result Value) : Prop :=
  ∀ ⦃cursor next : Cursor⦄, cursor.file = file → cursor.skipSpaces.Spans text next →
    Stops (level + 1) next.rest → ∀ engine, base.Alike engine →
      ∃ after, base.Alike after ∧
        ((∃ failure, result = .error failure ∧
            evaluateFrom eval level cursor engine = .finished (.error (.failed failure)) after) ∨
          ∃ value count, result = .ok value ∧ next.left < count ∧
            evaluateFrom eval level cursor engine =
              joinOperands (Operator.ofLevel level) (evaluateFrom eval (level + 1)) count value next
                after)

/-- An operand of the next level starts a chain. -/
theorem EvaluatesTo.chains (below : level < 6)
    (evaluates : EvaluatesTo base file eval (level + 1) text result) :
    Chains base file eval level text result := by
  intro cursor next inFile spans stops engine alike
  -- The first operand is that of the next level; the loop is entered with its value.
  obtain ⟨after, alikeAfter, ran⟩ := evaluates inFile spans stops engine alike
  refine ⟨after, alikeAfter, ?_⟩
  rw [evaluateFrom_eq below]
  cases result with
  | error failure => exact .inl ⟨failure, rfl, Eval.bind_error ran _⟩
  | ok value => exact .inr ⟨value, next.left + 1, rfl, Nat.lt_succ_self _, Eval.bind_ok ran _⟩

/-- A chain that nothing follows is an operand of its level. -/
theorem Chains.evaluates (chains : Chains base file eval level text result) :
    EvaluatesTo base file eval level text result := by
  -- What the chain has come to is the value, since no operator of the level follows.
  intro cursor next inFile spans stops engine alike
  obtain ⟨after, alikeAfter, failed | joined⟩ :=
    chains inFile spans (stops.mono (Nat.le_succ _)) engine alike
  · -- The chain failed on the way.
    obtain ⟨failure, rfl, ran⟩ := failed
    exact ⟨after, alikeAfter, ran⟩
  · obtain ⟨value, count, rfl, enough, ran⟩ := joined
    refine ⟨after, alikeAfter, ran.trans ?_⟩
    cases count with
    | zero => exact absurd enough (Nat.not_lt_zero _)
    | succ count =>
      rw [joinOperands_none stops.skipSpaces_eq (stops.operator?_eq_none (Nat.le_refl _))]
      rfl

/-- An operand of a level is one of every looser level. -/
theorem EvaluatesTo.loosen {tight : Nat} (evaluates : EvaluatesTo base file eval tight text result)
    (le : level ≤ tight) (bound : tight ≤ 6) : EvaluatesTo base file eval level text result := by
  -- Each step goes one level down, where the operand is a chain that nothing follows.
  induction tight with
  | zero =>
    obtain rfl : level = 0 := Nat.le_zero.mp le
    exact evaluates
  | succ tight ih =>
    by_cases same : level = tight + 1
    · rw [same]
      exact evaluates
    · have chains : Chains base file eval tight text result := evaluates.chains (by omega)
      exact ih chains.evaluates (by omega) (by omega)

/-- The truth of an operand is that of its value. -/
theorem truthOf_settles {operand : Cursor → Eval (Value × Cursor)} {behind : Cursor}
    (evaluates : Settles base (operand behind) (result.map fun value => (value, next))) :
    Settles base (truthOf operand behind)
      ((result.map fun value => Value.ofBool value.truthy).map fun value => (value, next)) := by
  unfold truthOf
  cases result with
  | error failure => exact evaluates.bind_error
  | ok value =>
    refine evaluates.bind_ok ?_
    exact (Settles.use base .operand value).bind_ok (.pure base _)

/-- An operator joins the value on its left with the meaning of what stands on its right, or skips
what cannot change the result. -/
theorem joinOperand_settles {operand : Cursor → Eval (Value × Cursor)} {behind : Cursor}
    (operator : Operator) (left : Value) {right : Option (Result Value)}
    (evaluates : ∀ meaning, right = some meaning →
      Settles base (operand behind) (meaning.map fun value => (value, next)))
    (skips : operator.Skips → behind.skipOperand operator.skipTokens = next)
    (meaning : Expr.joined operator (.ok left) right = some result) :
    Settles base (joinOperand operand left operator behind) (result.map fun value => (value, next)) := by
  unfold joinOperand
  refine (Settles.use base .operand left).bind_ok ?_
  cases operator with
  | or =>
    have landed : behind.skipOperand ["||"] = next := skips (.inl rfl)
    cases truthy : left.truthy with
    | true =>
      -- The operand is skipped, whatever it means.
      simp only [Expr.joined, truthy, if_true, Option.some.injEq] at meaning ⊢
      subst meaning
      rw [landed]
      exact .pure base _
    | false =>
      simp only [Expr.joined, truthy, Bool.false_eq_true, if_false, Option.map_eq_some_iff] at meaning ⊢
      obtain ⟨value, found, rfl⟩ := meaning
      exact truthOf_settles (evaluates value found)
  -- The other operator may skip its operand in the other case.
  | and =>
    have landed : behind.skipOperand ["&&", "||"] = next := skips (.inr rfl)
    cases truthy : left.truthy with
    | true =>
      simp only [Expr.joined, truthy, if_true, Option.map_eq_some_iff] at meaning
      obtain ⟨value, found, rfl⟩ := meaning
      simp only [Bool.not_true, Bool.false_eq_true, if_false]
      exact truthOf_settles (evaluates value found)
    | false =>
      simp only [Expr.joined, truthy, Bool.false_eq_true, if_false, Option.some.injEq] at meaning
      subst meaning
      simp only [Bool.not_false, if_true]
      rw [landed]
      exact .pure base _
  | binary op =>
    simp only [Expr.joined, Option.map_eq_some_iff] at meaning
    obtain ⟨value, found, rfl⟩ := meaning
    have evaluated := evaluates value found
    -- A failure on the right is met before the operator is applied.
    cases value with
    | error failure => exact evaluated.bind_error
    | ok value =>
      refine evaluated.bind_ok ?_
      refine (Settles.use base .operand value).bind_ok ?_
      exact (Settles.ofResult base (op.apply left value)).map fun joined => (joined, next)

/-- An operator that may skip its operand has no space behind it. -/
theorem prefixed_skips {operator : Operator} (skips : operator.Skips) (text : List Char) :
    prefixed adjacentSigns operator.symbol.toList text = operator.symbol.toList ++ text := by
  rcases prefixed_cases adjacentSigns operator.symbol.toList text with
    same | ⟨last, _, _, ends, _, adjacent, _⟩
  · exact same
  · rcases skips with rfl | rfl
    · cases ends
      cases adjacent
    · cases ends
      cases adjacent

/-- What stands on the right of an operator: a text, and the meaning that it has, if it has one. -/
structure RightOperand (base : Engine) (file : String) (eval : Evaluator) (operator : Operator)
    (text : List Char) (meaning : Option (Result Value)) : Prop where
  /-- With a meaning, it is evaluated. -/
  evaluates : ∀ result, meaning = some result →
    EvaluatesTo base file eval (operator.precedence + 1) text result
  /-- Without one, it is only skipped. -/
  begins : ¬ operator.Skips ∨ meaning.isSome = true → Begins text
  balanced : Balanced (endsLevel (operator.precedence + 1)) text

namespace RightOperand

variable {operator : Operator} {meaning : Option (Result Value)}

/-- The operator in front of its operand is found. -/
theorem operator?_eq (right : RightOperand base file eval operator text meaning)
    (spans : cursor.Spans (prefixed adjacentSigns operator.symbol.toList text) next) :
    cursor.operator? (Operator.ofLevel operator.precedence) = some operator := by
  -- Where an operand may lack a meaning, nothing is known of how it begins, but the symbol is not
  -- the start of another token there.
  by_cases skips : operator.Skips
  · have shape : cursor.rest = operator.symbol.toList ++ (text ++ next.rest) := by
      rw [spans.2, prefixed_skips skips, List.append_assoc]
    exact operator?_symbol operator shape (skips.elim .inl fun same => .inr (.inl same))
  · obtain ⟨c, tail, rfl, starts⟩ := right.begins (.inl skips)
    obtain ⟨first, others, same, clear⟩ := prefixed_clear operator starts tail
    have shape : cursor.rest = operator.symbol.toList ++ (first :: (others ++ next.rest)) := by
      rw [spans.2, same, List.append_assoc, List.cons_append]
    exact operator?_symbol operator shape (.inr (.inr ⟨first, _, rfl, clear⟩))

/-- Behind the operator, its operand is evaluated. -/
theorem settles (right : RightOperand base file eval operator text meaning) (inFile : cursor.file = file)
    (spans : cursor.Spans (prefixed adjacentSigns operator.symbol.toList text) next)
    (stops : Stops (operator.precedence + 1) next.rest) {result : Result Value}
    (found : meaning = some result) :
    Settles base (evaluateFrom eval (operator.precedence + 1) (cursor.advanceBy operator.symbol.length))
      (result.map fun value => (value, next)) := by
  have begins : Begins text := right.begins (.inr (by rw [found]; rfl))
  have behind := spans.behindSymbol begins
  rw [String.length_toList] at behind
  exact right.evaluates result found (by simpa [Cursor.file] using inFile) behind stops

/-- Behind the operator, its operand is skipped. -/
theorem skips (right : RightOperand base file eval operator text meaning)
    (spans : cursor.Spans (prefixed adjacentSigns operator.symbol.toList text) next)
    (stops : Stops (operator.precedence + 1) next.rest) (skips : operator.Skips) :
    (cursor.advanceBy operator.symbol.length).skipOperand operator.skipTokens = next := by
  have shape : cursor.rest = operator.symbol.toList ++ (text ++ next.rest) := by
    rw [spans.2, prefixed_skips skips, List.append_assoc]
  have behind : (cursor.advanceBy operator.symbol.length).rest = text ++ next.rest := by
    rw [← String.length_toList]
    exact rest_advanceBy shape
  rw [skipOperand_text skips right.balanced behind stops]
  refine eq_of_rest (by simp [spans.1]) (rest_advanceBy behind)

end RightOperand

/-- A chain goes on with an operator and the operand behind it. -/
theorem Chains.join {operator : Operator} {leftText : List Char} {left : Result Value}
    {meaning : Option (Result Value)}
    (chains : Chains base file eval operator.precedence leftText left)
    (right : RightOperand base file eval operator text meaning)
    (joined : Expr.joined operator left meaning = some result) :
    Chains base file eval operator.precedence
      (leftText ++ prefixed adjacentSigns operator.symbol.toList text) result := by
  intro cursor next inFile spans stops engine alike
  -- The text in front of the operator is the chain so far.
  obtain ⟨before, behind⟩ := spans.split
  let middle := cursor.skipSpaces.advanceBy leftText.length
  have sameFile : middle.file = file := by simpa [middle, Cursor.file] using inFile
  obtain ⟨others, shape⟩ := prefixed_append adjacentSigns operator.symbol.toList text
  have shape : middle.rest = operator.symbol.toList ++ (others ++ next.rest) := by
    rw [behind.2, shape, List.append_assoc]
  have starts : Stops (operator.precedence + 1) middle.rest := by
    rw [shape]
    exact .symbol (Nat.lt_succ_self _) _
  obtain ⟨after, alikeAfter, failed | chained⟩ := chains inFile before starts engine alike
  · -- A failure on the left ends the evaluation.
    obtain ⟨failure, rfl, ran⟩ := failed
    cases joined
    exact ⟨after, alikeAfter, .inl ⟨failure, rfl, ran⟩⟩
  · obtain ⟨value, count, rfl, enough, ran⟩ := chained
    have enough : middle.left < count := enough
    -- The count of the loop suffices, since an operator takes a character.
    have shorter : next.left < middle.left := by
      obtain ⟨c, tail, symbol, _⟩ := operator.symbol_head
      rw [left_eq_length, left_eq_length, shape, symbol]
      simp only [List.length_append, List.length_cons]
      omega
    cases count with
    | zero => exact absurd enough (Nat.not_lt_zero _)
    | succ count =>
      have settled := joinOperand_settles operator value
        (fun meaning found => right.settles sameFile behind stops found) (right.skips behind stops) joined
      obtain ⟨final, alikeFinal, done⟩ := settled after alikeAfter
      -- One round of the loop joins the operand.
      rw [joinOperands_found starts.skipSpaces_eq (right.operator?_eq behind)] at ran
      refine ⟨final, alikeFinal, ?_⟩
      cases result with
      | error failure =>
        refine .inl ⟨failure, rfl, ran.trans (Eval.bind_error done _)⟩
      | ok result =>
        refine .inr ⟨result, count, rfl, by omega, ran.trans (Eval.bind_ok done _)⟩

/-! Signs in front of an operand. -/

/-- Evaluates an operand without its signs, with the steps behind it. -/
def evaluateStepped (eval : Evaluator) (cursor : Cursor) : Eval (Value × Cursor) := do
  let (value, place, behind) ← evaluatePrimary eval cursor
  evaluateSteps eval (behind.left + 1) (value, place, behind)

/-- In front of a character that is no sign, none is read, whatever the count is. -/
theorem readSigns_plain {c : Char} (first : cursor.skipSpaces.current = some c)
    (unsigned : c ≠ '!' ∧ c ≠ '-') (count : Nat) :
    cursor.readSigns count = ([], cursor.skipSpaces) := by
  -- Neither of the signs is there.
  have none : cursor.skipSpaces.sign? = none := by
    unfold sign?
    rw [first]
    split
    case h_1 same => exact absurd (Option.some.inj same) unsigned.1
    case h_2 same => exact absurd (Option.some.inj same) unsigned.2
    case h_3 => rfl
  cases count with
  | zero => rfl
  | succ count => rw [readSigns]; simp only [none]

/-- The signs in front of an operand are applied to its value. -/
theorem evaluateOperand_eq {signs : List Sign} {middle : Cursor}
    (read : cursor.readSigns cursor.left = (signs, middle)) :
    evaluateOperand eval cursor = (do
      let stepped ← evaluateStepped eval middle
      let taken ← if signs.isEmpty then pure stepped.1 else Eval.use .operand stepped.1
      return (← Eval.ofResult (applySigns taken signs), stepped.2)) := by
  unfold evaluateOperand evaluateStepped
  rw [read]
  simp only [bind_assoc]

/-- A text is evaluated as an operand whose value is to be changed by signs. -/
def Signed (base : Engine) (file : String) (eval : Evaluator) (text : List Char) (signs : List Sign)
    (inner : Result Value) : Prop :=
  ∀ ⦃cursor next : Cursor⦄, cursor.file = file → cursor.skipSpaces.Spans text next →
    Stops 6 next.rest →
      ∃ middle, (∀ count, text.length ≤ count → cursor.readSigns count = (signs, middle)) ∧
        Settles base (evaluateStepped eval middle) (inner.map fun value => (value, next))

namespace Signed

variable {signs : List Sign} {inner : Result Value}

/-- An operand has the value that its signs make of that behind them. -/
theorem evaluates (signed : Signed base file eval text signs inner) :
    EvaluatesTo base file eval 6 text (inner.bind fun value => applySigns value signs) := by
  intro cursor next inFile spans stops
  obtain ⟨middle, read, settles⟩ := signed inFile spans stops
  -- The count of the signs is that of the characters, which is enough for those of this text.
  have enough : text.length ≤ cursor.left := by
    have skipped := skipSpaces_left cursor
    rw [left_eq_length cursor.skipSpaces, spans.2, List.length_append] at skipped
    omega
  show Settles base (evaluateOperand eval cursor) _
  rw [evaluateOperand_eq (read _ enough)]
  cases inner with
  | error failure => exact settles.bind_error
  | ok value =>
    have signed : Settles base
        (do
          let made ← Eval.ofResult (applySigns value signs)
          return (made, next))
        ((applySigns value signs).map fun made => (made, next)) :=
      (Settles.ofResult base (applySigns value signs)).map fun made => (made, next)
    -- A value without signs is passed on, and one with signs is used for them.
    refine settles.bind_ok ?_
    dsimp only
    split
    · exact (Settles.pure base value).bind_ok signed
    · exact (Settles.use base .operand value).bind_ok signed

/-- What starts with no sign is an operand without signs. -/
theorem plain {c : Char} {tail : List Char} (shape : text = c :: tail) (unsigned : c ∉ [' ', '!', '-'])
    (settles : ∀ {cursor next : Cursor}, cursor.file = file → cursor.Spans text next →
      Stops 6 next.rest →
        Settles base (evaluateStepped eval cursor) (inner.map fun value => (value, next))) :
    Signed base file eval text [] inner := by
  intro cursor next inFile spans stops
  simp only [List.mem_cons, List.not_mem_nil, or_false, not_or] at unsigned
  have first : cursor.skipSpaces.current = some c := by
    rw [current, spans.2, shape]
    rfl
  exact ⟨cursor.skipSpaces, fun count _ => readSigns_plain first unsigned.2 count,
    settles (by simpa [Cursor.file] using inFile) spans stops⟩

/-- A sign in front of its operand is found. -/
theorem sign?_prefixed {here next : Cursor} (begins : Begins text) (mark : Sign)
    (spans : here.Spans (prefixed adjacentSigns [mark.symbol] text) next) :
    here.sign? = some mark := by
  obtain ⟨c, tail, rfl, starts⟩ := begins
  have current : here.current = some mark.symbol := by
    obtain ⟨others, same⟩ := prefixed_append adjacentSigns [mark.symbol] (c :: tail)
    rw [current, spans.2, same]
    rfl
  -- A space stands in front of another minus sign.
  have clear : here.peek 1 ≠ some '=' ∧ (mark = .negate → here.peek 1 ≠ some '-') := by
    have equals : c ≠ '=' := fun same => startsOperand_clear starts (by simp [same])
    have shape : prefixed adjacentSigns [mark.symbol] (c :: tail) =
        [mark.symbol] ++ ((if adjacentSigns mark.symbol c then [' '] else []) ++ c :: tail) :=
      prefixed_cons rfl tail
    rw [peek, spans.2, shape]
    by_cases adjacent : adjacentSigns mark.symbol c = true
    · simp [adjacent]
    · have apart : mark = .negate → c ≠ '-' := by
        rintro rfl rfl
        exact adjacent rfl
      simpa [adjacent, equals] using apart
  unfold sign?
  rw [current]
  cases mark with
  | not => simp [Sign.symbol, clear.1]
  | negate => simp [Sign.symbol, clear.1, clear.2 rfl]

/-- A sign in front of an operand is one of its signs. -/
theorem sign (signed : Signed base file eval text signs inner) (begins : Begins text) (mark : Sign) :
    Signed base file eval (prefixed adjacentSigns [mark.symbol] text) (mark :: signs) inner := by
  intro cursor next inFile spans stops
  have found := sign?_prefixed begins mark spans
  have inFileToo : cursor.skipSpaces.advance.file = file := by simpa [Cursor.file] using inFile
  obtain ⟨middle, read, settles⟩ := signed inFileToo (spans.behindSymbol begins) stops
  -- The sign is read first, and the others with one less to count.
  refine ⟨middle, fun count enough => ?_, settles⟩
  have longer := le_length_prefixed adjacentSigns [mark.symbol] text
  rw [List.length_singleton] at longer
  cases count with
  | zero => omega
  | succ count =>
    rw [readSigns]
    simp only [found, read count (by omega)]

end Signed

end ScriptEngine
