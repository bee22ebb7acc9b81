import ScriptEngine.Proofs.Fields.Operand

/-! Expressions in the bodies of methods are evaluated as is told of them. -/

namespace ScriptEngine.Activation

open Cursor

variable {act : Activation} {eval : Evaluator} {tell : Teller} {cursor next : Cursor}
  {text : List Char} {told : Told Value} {level : Nat}

/-- A text is evaluated as an operand of a level does as is told, wherever such an operand ends behind
it. -/
def Evaluates (act : Activation) (eval : Evaluator) (level : Nat) (text : List Char)
    (told : Told Value) : Prop :=
  ∀ ⦃cursor next : Cursor⦄, cursor.skipSpaces.Spans text next → Stops level next.rest →
    act.Follows (evaluateFrom eval level cursor) (told.upTo next)

/-- A text starts a chain of operands of a level: behind what is told of it, the operands that follow
are joined. -/
def Chains (act : Activation) (eval : Evaluator) (level : Nat) (text : List Char)
    (told : Told Value) : Prop :=
  ∀ ⦃cursor next : Cursor⦄, cursor.skipSpaces.Spans text next → Stops (level + 1) next.rest →
    ∀ view engine, act.Shows view engine → ∀ result after, told view = some (result, after) →
      ∃ final, act.Shows after final ∧
        ((∃ stop, result = .error stop ∧
            evaluateFrom eval level cursor engine = .finished (.error stop) final) ∨
          ∃ value count, result = .ok value ∧ next.left < count ∧
            evaluateFrom eval level cursor engine =
              joinOperands (Operator.ofLevel level) (evaluateFrom eval (level + 1)) count value next
                final)

/-- An operand of the next level starts a chain. -/
theorem Evaluates.chains (below : level < 6) (evaluates : act.Evaluates eval (level + 1) text told) :
    act.Chains eval level text told := by
  intro cursor next spans stops view engine shows result after tells
  obtain ⟨final, showsToo, ran⟩ :=
    evaluates spans stops view engine shows _ _ (Told.upTo_eq tells next)
  refine ⟨final, showsToo, ?_⟩
  rw [evaluateFrom_eq below]
  cases result with
  | error stop => exact .inl ⟨stop, rfl, Eval.bind_error ran _⟩
  | ok value => exact .inr ⟨value, next.left + 1, rfl, Nat.lt_succ_self _, Eval.bind_ok ran _⟩

/-- A chain that nothing follows is an operand of its level. -/
theorem Chains.evaluates (chains : act.Chains eval level text told) :
    act.Evaluates eval level text told := by
  intro cursor next spans stops
  refine .upTo fun view engine shows result after tells => ?_
  -- A chain stopped early, or its value stands where no operator of the level follows.
  obtain ⟨final, showsToo, failed | joined⟩ :=
    chains spans (stops.mono (Nat.le_succ _)) view engine shows result after tells
  · obtain ⟨stop, rfl, ran⟩ := failed
    exact ⟨final, showsToo, ran⟩
  · obtain ⟨value, count, rfl, enough, ran⟩ := joined
    refine ⟨final, showsToo, ran.trans ?_⟩
    cases count with
    | zero => exact absurd enough (Nat.not_lt_zero _)
    | succ count =>
      rw [joinOperands_none stops.skipSpaces_eq (stops.operator?_eq_none (Nat.le_refl _))]
      rfl

/-- An operand of a level is one of every looser level. -/
theorem Evaluates.loosen {tight : Nat} (evaluates : act.Evaluates eval tight text told)
    (le : level ≤ tight) (bound : tight ≤ 6) : act.Evaluates eval level text told := by
  -- Each step goes one level down, where the operand is a chain that nothing follows.
  induction tight with
  | zero =>
    obtain rfl : level = 0 := Nat.le_zero.mp le
    exact evaluates
  | succ tight ih =>
    by_cases same : level = tight + 1
    · rw [same]
      exact evaluates
    · have chains : act.Chains eval tight text told := evaluates.chains (by omega)
      exact ih chains.evaluates (by omega) (by omega)

/-- The truth of an operand is told as that of its value. -/
theorem truthOf_follows {operand : Cursor → Eval (Value × Cursor)}
    (follows : act.Follows (operand cursor) (told.upTo next)) :
    act.Follows (truthOf operand cursor) (Told.upTo (do return .ofBool (← told).truthy) next) := by
  rw [Told.upTo_bind]
  refine follows.bind_upTo fun value => ?_
  exact (Follows.use .operand value).bind_pure (.pure _)

/-- An operator joins a value and an operand as is told, or skips the operand. -/
theorem joinOperand_follows {operand : Cursor → Eval (Value × Cursor)} (operator : Operator)
    (left : Value) (follows : act.Follows (operand cursor) (told.upTo next))
    (skips : operator.Skips → cursor.skipOperand operator.skipTokens = next) :
    act.Follows (joinOperand operand left operator cursor)
      ((MethodExpr.tellJoin operator left told).upTo next) := by
  unfold joinOperand
  refine (Follows.use .operand left).bind_pure ?_
  -- The logical operators skip their operand if the left side decides already.
  cases operator with
  | or =>
    have landed : cursor.skipOperand ["||"] = next := skips (.inl rfl)
    cases truthy : left.truthy with
    | true =>
      simp only [MethodExpr.tellJoin, truthy, if_true, landed]
      exact .pure _
    | false =>
      simp only [MethodExpr.tellJoin, truthy, Bool.false_eq_true, if_false]
      exact truthOf_follows follows
  | and =>
    have landed : cursor.skipOperand ["&&", "||"] = next := skips (.inr rfl)
    cases truthy : left.truthy with
    | true =>
      simp only [MethodExpr.tellJoin, truthy, Bool.not_true, Bool.false_eq_true, if_false]
      exact truthOf_follows follows
    | false =>
      simp only [MethodExpr.tellJoin, truthy, Bool.not_false, if_true, landed]
      exact .pure _
  | binary op =>
    simp only [MethodExpr.tellJoin]
    rw [Told.upTo_bind]
    refine follows.bind_upTo fun value => ?_
    refine (Follows.use .operand value).bind_pure ?_
    exact (Follows.ofResult (op.apply left value)).bind fun joined => .pure _

/-- Between an operator and an operand without a sign, no space is needed. -/
theorem prefixed_unsigned (begins : BeginsUnsigned text) (symbol : List Char) :
    prefixed adjacentSigns symbol text = symbol ++ text := by
  -- Only a sign behind a sign would need a space.
  obtain ⟨c, tail, rfl, starts, _, minus⟩ := begins
  have plus : c ≠ '+' := fun same => startsOperand_clear starts (by simp [same])
  rcases prefixed_cases adjacentSigns symbol (c :: tail) with
    same | ⟨last, _, _, _, same, adjacent, _⟩
  · exact same
  · cases same
    simp [adjacentSigns, plus, minus] at adjacent

/-- In front of an operand without a sign, an operator is found as it is written. -/
theorem operator?_unsigned {operator : Operator} {rest : List Char} (begins : BeginsUnsigned text)
    (shape : cursor.rest = operator.symbol.toList ++ (text ++ rest)) :
    cursor.operator? (Operator.ofLevel operator.precedence) = some operator := by
  obtain ⟨c, tail, rfl, startsOperand, signs⟩ := begins
  obtain ⟨first, others, same, clear⟩ := prefixed_clear operator startsOperand tail
  rw [prefixed_unsigned ⟨c, tail, rfl, startsOperand, signs⟩] at same
  cases List.append_cancel_left same
  exact operator?_symbol operator shape (.inr (.inr ⟨_, _, rfl, clear⟩))

/-- What an operator skips is its operand. -/
theorem skipOperand_spans {operator : Operator} (skips : operator.Skips)
    (balanced : Balanced (endsLevel (operator.precedence + 1)) text)
    (spans : cursor.Spans (operator.symbol.toList ++ text) next)
    (stops : Stops (operator.precedence + 1) next.rest) :
    (cursor.advanceBy operator.symbol.length).skipOperand operator.skipTokens = next := by
  have shape : cursor.rest = operator.symbol.toList ++ (text ++ next.rest) := by
    rw [spans.2, List.append_assoc]
  have rest : (cursor.advanceBy operator.symbol.length).rest = text ++ next.rest := by
    rw [← String.length_toList]
    exact rest_advanceBy shape
  rw [skipOperand_text skips balanced rest stops]
  exact eq_of_rest (by simp [spans.1]) (rest_advanceBy rest)

/-- Less is left behind an operator, which takes at least a character. -/
theorem left_lt_of_operator {operator : Operator}
    (spans : cursor.Spans (operator.symbol.toList ++ text) next) : next.left < cursor.left := by
  obtain ⟨c, tail, symbol, _⟩ := operator.symbol_head
  rw [left_eq_length, left_eq_length, spans.2, symbol]
  simp only [List.length_append, List.length_cons]
  omega

/-- A chain goes on with an operator and the operand behind it. -/
theorem Chains.join {operator : Operator} {leftText : List Char} {left : Told Value}
    (chains : act.Chains eval operator.precedence leftText left)
    (right : act.Evaluates eval (operator.precedence + 1) text told) (begins : BeginsUnsigned text)
    (balanced : Balanced (endsLevel (operator.precedence + 1)) text) :
    act.Chains eval operator.precedence (leftText ++ (operator.symbol.toList ++ text))
      (do MethodExpr.tellJoin operator (← left) told) := by
  intro cursor next spans stops view engine shows result after tells
  obtain ⟨before, behind⟩ := spans.split
  let middle := cursor.skipSpaces.advanceBy leftText.length
  have shape : middle.rest = operator.symbol.toList ++ (text ++ next.rest) := by
    rw [behind.2, List.append_assoc]
  have starts : Stops (operator.precedence + 1) middle.rest := by
    rw [shape]
    exact .symbol (Nat.lt_succ_self _) _
  change Option.bind (left view) _ = _ at tells
  obtain ⟨⟨reached, between⟩, tellsFirst, tells⟩ := Option.bind_eq_some_iff.mp tells
  obtain ⟨final, showsToo, failed | chained⟩ := chains before starts view engine shows _ _ tellsFirst
  · -- A failure on the left ends the evaluation.
    obtain ⟨stop, rfl, ran⟩ := failed
    cases tells
    exact ⟨final, showsToo, .inl ⟨stop, rfl, ran⟩⟩
  · obtain ⟨value, count, rfl, enough, ran⟩ := chained
    have enough : middle.left < count := enough
    have found : middle.operator? (Operator.ofLevel operator.precedence) = some operator :=
      operator?_unsigned begins shape
    have skips : operator.Skips →
        (middle.advanceBy operator.symbol.length).skipOperand operator.skipTokens = next :=
      fun skips => skipOperand_spans skips balanced behind stops
    -- The count of the loop suffices, since an operator takes a character.
    have shorter : next.left < middle.left := left_lt_of_operator behind
    have spaced : (middle.advanceBy operator.symbol.length).skipSpaces.Spans text next := by
      rw [← prefixed_unsigned begins] at behind
      have after := behind.behindSymbol begins.begins
      rwa [String.length_toList] at after
    cases count with
    | zero => exact absurd enough (Nat.not_lt_zero _)
    | succ count =>
      -- One round of the loop joins the operand.
      have joins := joinOperand_follows operator value (right spaced stops) skips
      obtain ⟨last, shows, joined⟩ := joins _ _ showsToo _ _ (Told.upTo_eq tells next)
      rw [joinOperands_found starts.skipSpaces_eq found] at ran
      refine ⟨last, shows, ?_⟩
      cases result with
      | error stop => exact .inl ⟨stop, rfl, ran.trans (Eval.bind_error joined _)⟩
      | ok result => exact .inr ⟨result, count, rfl, by omega, ran.trans (Eval.bind_ok joined _)⟩

/-! Operands. -/

/-- What is an operand with the steps behind it is one that no sign stands in front of. -/
theorem Evaluates.ofStepped (begins : BeginsUnsigned text)
    (stepped : ∀ {cursor next : Cursor}, cursor.Spans text next → Stops 6 next.rest →
      act.Follows (evaluateStepped eval cursor) (told.upTo next)) :
    act.Evaluates eval 6 text told := by
  intro cursor next spans stops
  obtain ⟨c, tail, shape, _, unsigned⟩ := begins
  have first : cursor.skipSpaces.current = some c := by
    rw [current, spans.2, shape]
    rfl
  show act.Follows (evaluateOperand eval cursor) _
  rw [evaluateOperand_eq (readSigns_plain first unsigned cursor.left)]
  exact (stepped spans stops).bind_upTo fun value => .pure _

/-- A number literal is an operand. -/
theorem evaluates_number (numeral : Numeral) :
    act.Evaluates eval 6 numeral.text (return .number numeral.value) := by
  refine .ofStepped numeral.beginsUnsigned fun {cursor next} spans stops => ?_
  unfold evaluateStepped
  rw [evaluatePrimary_number numeral spans.2 stops, ← spans.eq_advanceBy, pure_bind]
  dsimp only
  rw [evaluateSteps_stops stops]
  exact .pure _

/-- An expression in brackets is an operand. -/
theorem Nested.enclosed (nested : Nested eval tell act) (expr : MethodExpr) :
    act.Evaluates eval 6 ('(' :: (expr.text ++ [')'])) (tell (.expression expr)) := by
  refine .ofStepped ⟨'(', _, rfl, rfl, by decide, by decide⟩ fun {cursor next} spans stops => ?_
  have shape : cursor.rest = '(' :: (expr.text ++ ')' :: next.rest) := by
    rw [spans.2]
    simp
  have landed : cursor.advanceBy (expr.text.length + 2) = next := by
    rw [spans.eq_advanceBy]
    simp
  unfold evaluateStepped
  rw [evaluatePrimary_enclosed (expr.balanced (Nat.zero_le _)).lax shape, landed, bind_assoc]
  refine (nested.evaluateText next.site expr).bind fun value => ?_
  rw [pure_bind]
  dsimp only
  rw [evaluateSteps_stops stops]
  exact .pure _

/-- An expression is evaluated as is told where its operators stand without brackets. -/
structure Evaluated (act : Activation) (eval : Evaluator) (expr : MethodExpr) (told : Told Value) :
    Prop where
  /-- Behind it, operators of its level go on with it. -/
  chains : expr.level < 6 → act.Chains eval expr.level expr.text told
  operand : 6 ≤ expr.level → act.Evaluates eval 6 expr.text told

/-- No expression binds tighter than one without an operator. -/
theorem level_le (expr : MethodExpr) : expr.level ≤ 6 := by
  cases expr with
  | join operator left right => exact Nat.le_of_lt operator.precedence_lt
  | number | argument | field | call => exact Nat.le_refl _

namespace Evaluated

variable {expr : MethodExpr}

/-- An expression is an operand of its level and of every looser one. -/
theorem evaluates (evaluated : act.Evaluated eval expr told) (le : level ≤ expr.level) :
    act.Evaluates eval level expr.text told := by
  by_cases tight : 6 ≤ expr.level
  · exact (evaluated.operand tight).loosen (Nat.le_trans le (level_le expr)) (Nat.le_refl _)
  · exact (evaluated.chains (Nat.lt_of_not_le tight)).evaluates.loosen le (level_le expr)

/-- An expression is an operand of a level, in brackets if it is too loose. -/
theorem within (evaluated : act.Evaluated eval expr told) (nested : Nested eval tell act) (le : level ≤ 6) :
    act.Evaluates eval level (bracket (expr.level < level) expr.text)
      (if expr.level < level then tell (.expression expr) else told) := by
  unfold bracket
  by_cases looser : expr.level < level
  · simp only [looser, decide_true, if_true]
    exact (nested.enclosed expr).loosen le (Nat.le_refl _)
  · simp only [looser, decide_false, Bool.false_eq_true, if_false]
    exact evaluated.evaluates (Nat.le_of_not_lt looser)

/-- An expression starts a chain of operands of a level, in brackets if it is too loose. -/
theorem chainsWithin (evaluated : act.Evaluated eval expr told) (nested : Nested eval tell act)
    (below : level < 6) :
    act.Chains eval level (bracket (expr.level < level) expr.text)
      (if expr.level < level then tell (.expression expr) else told) := by
  by_cases same : expr.level = level
  · -- The operators of its own level need no brackets.
    subst same
    simp only [bracket, Nat.lt_irrefl, decide_false, Bool.false_eq_true, if_false]
    exact evaluated.chains below
  · -- Any other expression needs the same brackets one level up.
    have needed : expr.level < level ↔ expr.level < level + 1 := by omega
    have operand := evaluated.within nested (Nat.succ_le_of_lt below)
    simp only [← needed] at operand
    exact operand.chains below

end Evaluated

/-- An expression is evaluated as is told of it. -/
theorem evaluated (sound : act.Sound) (nested : Nested eval tell act)
    (bodies : RunsBodies eval tell act.table act.engine.config) : ∀ expr : MethodExpr,
    act.Evaluated eval expr (expr.tells act.table act.engine.config tell)
  | .number numeral => ⟨fun below => absurd below (Nat.lt_irrefl 6), fun _ => evaluates_number numeral⟩
  | .argument name => ⟨fun below => absurd below (Nat.lt_irrefl 6),
      fun _ => .ofStepped name.begins (evaluateStepped_argument sound name)⟩
  | .field access name => ⟨fun below => absurd below (Nat.lt_irrefl 6),
      fun _ => .ofStepped (access.begins name) (evaluateStepped_field sound access name)⟩
  | .call access name args => by
    refine ⟨fun below => absurd below (Nat.lt_irrefl 6), fun _ => ?_⟩
    refine .ofStepped ((access.begins name).append _) fun spans stops => ?_
    rw [MethodExpr.tells]
    cases found : act.table.find? name.name with
    | some method => exact evaluateStepped_call sound nested bodies access name args found spans stops
    | none =>
      refine .upTo fun view engine shows result after tells => ?_
      cases tells
  | .join operator left right => by
    refine ⟨fun _ => ?_, fun tight => absurd operator.precedence_lt (Nat.not_lt.mpr tight)⟩
    have balanced : Balanced (endsLevel (operator.precedence + 1))
        (bracket (right.level < operator.precedence + 1) right.text) := balanced_bracket right.balanced
    have first := (evaluated sound nested bodies left).chainsWithin nested operator.precedence_lt
    have second := (evaluated sound nested bodies right).within nested operator.precedence_lt
    rw [MethodExpr.tells]
    exact first.join second right.begins.bracket balanced

/-- The expression at a cursor is evaluated as is told of it. -/
theorem evaluateExpression_follows (sound : act.Sound) (nested : Nested eval tell act)
    (bodies : RunsBodies eval tell act.table act.engine.config) (expr : MethodExpr)
    (spans : cursor.skipSpaces.Spans expr.text next) (stops : Stops 0 next.rest) :
    act.Follows (evaluateExpression eval cursor)
      ((expr.tells act.table act.engine.config tell).upTo next) :=
  (evaluated sound nested bodies expr).evaluates (Nat.zero_le _) spans stops

end ScriptEngine.Activation
