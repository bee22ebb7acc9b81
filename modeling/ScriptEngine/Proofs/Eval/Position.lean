import ScriptEngine.Proofs.Returns
import ScriptEngine.Proofs.Source.Passage

/-! The text that an evaluation passes on its way: as long as no statement is run as an operand, it is
balanced and no semicolon ends it. -/

namespace ScriptEngine

/-- Since an interpreter, no keyword of a statement was run as an operand within a text. -/
def Unembedded (source : SourceText) (start now : Engine) : Prop :=
  ∃ fresh, now.events = fresh ++ start.events ∧
    ∀ keyword cursor, Event.embedded keyword cursor ∈ fresh → cursor.source = source →
      keyword.startsExpression = true

/-- What follows a cursor closes some groups and is balanced otherwise. -/
def Cursor.Nested (cursor : Cursor) : Prop := ∃ due, cursor.Within due

/-- An evaluation at a cursor has grown the log and has come to a place, and between the two lies a
balanced text without a semicolon if no statement was run as an operand. -/
def Moves (cursor : Cursor) (start : Engine) (behind : Cursor) (now : Engine) : Prop :=
  Grows start now ∧
    (cursor.Nested → Unembedded cursor.source start now → cursor.Passes (· == ';') behind)

/-- Semicolons structure a text. -/
theorem marks_semicolon : Marks (· == ';') := marks_single (by decide)

variable {start middle final : Engine} {cursor behind next : Cursor} {source : SourceText}
  {eval : Evaluator} {value : Value}

/-- What holds of a log holds of its parts. -/
theorem Unembedded.split (clear : Unembedded source start final) (first : Grows start middle)
    (second : Grows middle final) :
    Unembedded source start middle ∧ Unembedded source middle final := by
  obtain ⟨fresh, same, clear⟩ := clear
  obtain ⟨early, sameEarly⟩ := first
  obtain ⟨late, sameLate⟩ := second
  -- What is new in the whole log is what the second part has added to what the first has.
  have parts : fresh = late ++ early := by
    rw [sameLate, sameEarly, ← List.append_assoc] at same
    exact (List.append_cancel_right same).symm
  subst parts
  exact ⟨⟨early, sameEarly, fun keyword cursor member =>
      clear keyword cursor (List.mem_append_right late member)⟩,
    ⟨late, sameLate, fun keyword cursor member =>
      clear keyword cursor (List.mem_append_left early member)⟩⟩

namespace Moves

/-- Nothing has been evaluated. -/
theorem refl (cursor : Cursor) (engine : Engine) : Moves cursor engine cursor engine :=
  ⟨.refl engine, fun _ _ => .refl _ cursor⟩

/-- An evaluation goes on where another one has come to. -/
theorem trans {place : Cursor} (first : Moves cursor start place middle)
    (second : Moves place middle behind final) : Moves cursor start behind final := by
  refine ⟨first.1.trans second.1, fun nested clear => ?_⟩
  obtain ⟨early, late⟩ := clear.split first.1 second.1
  have passes := first.2 nested early
  obtain ⟨due, within⟩ := nested
  rw [← passes.1] at late
  exact passes.trans (second.2 ⟨due, passes.within within⟩ late)

/-- What was read passes text. -/
theorem read (passes : ∀ due, cursor.Within due → cursor.Passes (· == ';') behind) (engine : Engine) :
    Moves cursor engine behind engine :=
  ⟨.refl engine, fun ⟨due, within⟩ _ => passes due within⟩

/-- What was read passes text, whatever follows. -/
theorem plain (passes : cursor.Passes (· == ';') behind) (engine : Engine) :
    Moves cursor engine behind engine :=
  read (fun _ _ => passes) engine

/-- An evaluation elsewhere only makes the log grow. -/
theorem aside (moves : Moves cursor start behind middle) (grows : Grows middle final) :
    Moves cursor start behind final :=
  moves.trans ⟨grows, fun _ _ => .refl _ behind⟩

/-- An evaluation elsewhere comes first. -/
theorem after (grows : Grows start middle) (moves : Moves cursor middle behind final) :
    Moves cursor start behind final :=
  (refl cursor start).aside grows |>.trans moves

end Moves

/-- The members behind the name of a namespace are passed. -/
theorem readMembers_passes (symbols : SymbolTable) (count : Nat) :
    ∀ (name : String) (cursor : Cursor),
      cursor.Passes (· == ';') (Cursor.readMembers symbols count name cursor).2 := by
  -- The induction is on the number of members that may still follow.
  induction count with
  | zero => exact fun _ cursor => .refl _ cursor
  | succ count ih =>
    intro name cursor
    unfold Cursor.readMembers
    split
    case isTrue member =>
      have point := Cursor.advance_passes marks_semicolon member.1 (by decide)
      exact point.trans ((Cursor.readToken_passes marks_semicolon _).trans (ih _ _))
    case isFalse => exact .refl _ cursor

/-- A name with the namespaces in front of it is passed. -/
theorem readQualified_passes (symbols : SymbolTable) (cursor : Cursor) :
    cursor.Passes (· == ';') (cursor.readQualified symbols).2 :=
  (Cursor.readToken_passes marks_semicolon cursor).trans (readMembers_passes symbols _ _ _)

/-- A group that is read is passed. -/
theorem readBalanced_moves {opener closer : Char} {text : List Char}
    (read : cursor.readBalanced opener closer = .ok (text, behind))
    (opens : Canonical.closer? opener = some closer) (engine : Engine) :
    Moves cursor engine behind engine := by
  refine .read (fun due within => ?_) engine
  refine Cursor.readBalanced_passes marks_semicolon opens ?_ within read
  unfold Canonical.closer? at opens
  split at opens <;> cases opens <;> decide

/-- Spaces are passed. -/
theorem skipSpaces_moves (cursor : Cursor) (engine : Engine) :
    Moves cursor engine cursor.skipSpaces engine :=
  .plain (.skipSpaces marks_semicolon) engine

/-- A word is passed. -/
theorem readToken_moves (cursor : Cursor) (engine : Engine) :
    Moves cursor engine cursor.readToken.2 engine :=
  .plain (Cursor.readToken_passes marks_semicolon cursor) engine

/-- The name of a property is passed with the point in front of it. -/
theorem readProperty_moves (property : cursor.startsProperty = true) (engine : Engine) :
    Moves cursor engine cursor.advance.readToken.2 engine := by
  simp only [Cursor.startsProperty, Bool.and_eq_true, beq_iff_eq] at property
  have point := Cursor.advance_passes marks_semicolon property.1 (by decide)
  exact (Moves.plain point engine).trans (readToken_moves cursor.advance engine)

variable (lawful : eval.Lawful false)

include lawful

/-- Whatever text is evaluated for a value makes the log grow. -/
theorem evaluateAs_grows {use : Use} {site : Site} {text : List Char}
    (returns : Returns (evaluateAs eval use site text) start value final) : Grows start final :=
  returns.grows (evaluateAs_runs lawful (tidy_of_lax start) use site text)

/-- Whatever text is evaluated makes the log grow. -/
theorem evaluateText_grows {site : Site} {text : List Char}
    (returns : Returns (evaluateText eval site text) start value final) : Grows start final :=
  returns.grows (evaluateAll_yields lawful (tidy_of_lax start) _)

/-- Arguments are passed. -/
theorem readArgs_moves {args : List Arg}
    (returns : Returns (readArgs eval cursor) start (args, behind) final) :
    Moves cursor start behind final := by
  have spaced := skipSpaces_moves cursor start
  unfold readArgs at returns
  dsimp only at returns
  split at returns
  · obtain ⟨⟨text, next⟩, read, returns⟩ := returns.read
    obtain ⟨found, middle, evaluated, returns⟩ := returns.bind
    obtain ⟨same, rfl⟩ := returns.done
    cases same
    -- The arguments are evaluated in a text of their own, so that only the log shows it.
    have grows := evaluated.grows (evaluateArgs_runs lawful _ _ (tidy_of_lax start))
    exact (spaced.trans (readBalanced_moves read rfl start)).aside grows
  · obtain ⟨same, rfl⟩ := returns.done
    cases same
    exact spaced

/-- The creation of an object passes the name of the class and the arguments. -/
theorem runNew_moves (returns : Returns (runNew eval cursor) start (value, behind) final) :
    Moves cursor start behind final := by
  unfold runNew at returns
  have returns := returns.look
  dsimp only at returns
  split at returns
  · exact returns.failed.elim
  obtain ⟨⟨args, next⟩, middle, read, returns⟩ := returns.bind
  have moves := (Moves.plain (readQualified_passes start.symbols cursor) start).trans
    (readArgs_moves lawful read)
  have returns := returns.look
  dsimp only at returns
  split at returns
  · -- The name is that of a class of the script or of a type of the host.
    obtain ⟨object, called, same⟩ := returns.mapped
    cases same
    exact moves.aside (called.grows
      (instantiate_yields lawful (tidy_of_lax middle) (.inl (.inl rfl)) (.inl (.inl rfl))))
  · split at returns
    · obtain ⟨state, _, returns⟩ := returns.host
      obtain ⟨same, rfl⟩ := returns.replace.done
      cases same
      exact moves.aside ⟨[], rfl⟩
    · exact returns.failed.elim

omit lawful in
/-- The launch of a worker passes its expression. -/
theorem runWorker_moves {detached : Bool}
    (returns : Returns (runWorker detached cursor) start (value, behind) final) :
    Moves cursor start behind final := by
  obtain ⟨⟨text, next⟩, read, returns⟩ := returns.read
  dsimp only at returns
  split at returns
  · exact returns.failed.elim
  · obtain ⟨same, rfl⟩ := returns.look.replace.done
    cases same
    exact (readBalanced_moves read rfl start).aside ⟨[], rfl⟩

omit lawful in
/-- A statement that was run as an operand shows in the log. -/
theorem Unembedded.startsExpression {keyword : Keyword}
    (clear : Unembedded cursor.source start final)
    (grows : Grows (start.note (.embedded keyword cursor)) final) :
    keyword.startsExpression = true := by
  obtain ⟨fresh, same, clear⟩ := clear
  obtain ⟨late, sameLate⟩ := grows
  have parts : fresh = late ++ [.embedded keyword cursor] := by
    rw [sameLate, Engine.note, List.append_cons] at same
    exact (List.append_cancel_right same).symm
  exact clear keyword cursor (by simp [parts]) rfl

/-- A keyword that is run as an operand passes its operands if it starts an expression. -/
theorem embedded_moves {keyword : Keyword}
    (returns : Returns (runKeyword eval keyword cursor) (start.note (.embedded keyword cursor))
      (value, behind) final) : Moves cursor start behind final := by
  have noted : Grows start (start.note (.embedded keyword cursor)) := ⟨[_], rfl⟩
  have grows := returns.grows (runKeyword_yields lawful (tidy_of_lax _) keyword cursor)
  -- That no statement is run as an operand is only known for the whole evaluation.
  refine ⟨noted.trans grows, fun nested clear => ?_⟩
  have moves : Moves cursor start behind final := by
    have expression := clear.startsExpression grows
    cases keyword with
    | newKeyword => exact .after noted (runNew_moves lawful returns)
    | threadKeyword => exact .after noted (runWorker_moves returns)
    | spawnKeyword => exact .after noted (runWorker_moves returns)
    | _ => cases expression
  exact moves.2 nested clear

/-- What is called with the arguments that were read passes these. -/
theorem called_moves {args : List Arg} {body : Eval Value}
    (read : Returns (readArgs eval cursor) start (args, next) middle)
    (returns : Returns (do return (← body, next)) middle (value, behind) final)
    (grows : ∀ {result}, Returns body middle result final → Grows middle final) :
    Moves cursor start behind final := by
  obtain ⟨result, called, same⟩ := returns.mapped
  cases same
  exact (readArgs_moves lawful read).aside (grows called)

/-- What a name stands for passes its arguments. -/
theorem evaluateHandler_moves {handler : Handler}
    (returns : Returns (evaluateHandler eval handler cursor) start (value, behind) final) :
    Moves cursor start behind final := by
  have free : ∀ {engine : Engine}, engine.Exempt false := .inl rfl
  have tidy := tidy_of_lax
  -- A name stands for a value at once, or its arguments are passed first.
  cases handler with
  | keyword keyword => exact embedded_moves lawful returns.change
  | «variable» value =>
    obtain ⟨same, rfl⟩ := returns.done
    cases same
    exact .refl cursor start
  | native native =>
    obtain ⟨⟨args, next⟩, middle, read, returns⟩ := returns.bind
    exact called_moves lawful read returns
      (·.grows (callNative_yields lawful (tidy _) _ _ (.inl free)))
  | function function =>
    obtain ⟨⟨args, next⟩, middle, read, returns⟩ := returns.bind
    exact called_moves lawful read returns.look
      (·.grows (callFunction_yields lawful (tidy _) function (.inl free) fun _ _ => .inl free))
  | compiled function =>
    obtain ⟨⟨args, next⟩, middle, read, returns⟩ := returns.bind
    exact called_moves lawful read returns
      (·.grows (callCompiled_yields (tidy _) function _ free))
  | classDef definition =>
    obtain ⟨⟨args, next⟩, middle, read, returns⟩ := returns.bind
    exact called_moves lawful read returns
      (·.grows (instantiate_yields lawful (tidy _) (.inl free) (.inl free)))
  | action action => exact returns.failed.elim

/-- A name is passed with the arguments behind it. -/
theorem evaluateName_moves {place : Option Place}
    (returns : Returns (evaluateName eval cursor) start (value, place, behind) final) :
    Moves cursor start behind final := by
  have returns := returns.look
  dsimp only at returns
  split at returns
  · -- The name is a constant, a variable, or something that takes arguments.
    obtain ⟨same, rfl⟩ := returns.done
    cases same
    exact readToken_moves cursor start
  · have name := Moves.plain (readQualified_passes start.symbols cursor) start
    split at returns
    · obtain ⟨same, rfl⟩ := returns.done
      cases same
      exact name
    · obtain ⟨⟨result, next⟩, middle, handled, returns⟩ := returns.bind
      obtain ⟨same, rfl⟩ := returns.done
      cases same
      exact name.trans (evaluateHandler_moves lawful handled)
    · exact returns.failed.elim

/-- An operand without signs and steps is passed. -/
theorem evaluatePrimary_moves {place : Option Place}
    (returns : Returns (evaluatePrimary eval cursor) start (value, place, behind) final) :
    Moves cursor start behind final := by
  have spaced := skipSpaces_moves cursor start
  have tidy := tidy_of_lax
  unfold evaluatePrimary at returns
  dsimp only at returns
  split at returns
  · exact returns.failed.elim
  · -- What is in a group is evaluated as a text of its own, so that only the log shows it.
    obtain ⟨⟨text, next⟩, read, returns⟩ := returns.read
    obtain ⟨result, evaluated, same⟩ := returns.mapped
    cases same
    exact (spaced.trans (readBalanced_moves read rfl start)).aside (evaluateText_grows lawful evaluated)
  · obtain ⟨⟨text, next⟩, read, returns⟩ := returns.read
    obtain ⟨same, rfl⟩ := returns.done
    cases same
    exact spaced.trans (.plain (Cursor.readString_passes marks_semicolon rfl read) start)
  · obtain ⟨⟨text, next⟩, read, returns⟩ := returns.read
    obtain ⟨elements, evaluated, same⟩ := returns.mapped
    cases same
    exact (spaced.trans (readBalanced_moves read rfl start)).aside
      (evaluated.grows (evaluateElements_runs lawful _ _ (tidy start)))
  · obtain ⟨⟨text, next⟩, read, returns⟩ := returns.read
    obtain ⟨entries, evaluated, same⟩ := returns.mapped
    cases same
    exact (spaced.trans (readBalanced_moves read rfl start)).aside
      (evaluated.grows (evaluateEntries_runs lawful _ _ (tidy start)))
  · -- Without an opening mark the operand is a number or a name.
    split at returns
    · obtain ⟨⟨number, next⟩, read, returns⟩ := returns.read
      obtain ⟨same, rfl⟩ := returns.done
      cases same
      exact spaced.trans (.plain (Cursor.readNumber_passes marks_semicolon read) start)
    · split at returns
      · exact spaced.trans (evaluateName_moves lawful returns)
      · exact returns.failed.elim

/-- The steps behind an operand are passed. -/
theorem evaluateSteps_moves (count : Nat) :
    ∀ {start : Engine} {operand : Operand},
      Returns (evaluateSteps eval count operand) start (value, behind) final →
      Moves operand.2.2 start behind final := by
  have free : ∀ {engine : Engine}, engine.Exempt false := .inl rfl
  have tidy := tidy_of_lax
  -- The induction is on the number of steps that may still follow.
  induction count with
  | zero =>
    intro start operand returns
    obtain ⟨_, _, returns⟩ := returns.use
    exact returns.failed.elim
  | succ count ih =>
    intro start ⟨found, place, cursor⟩ returns
    unfold evaluateSteps at returns
    split at returns
    · -- An index is evaluated elsewhere, and so are the arguments of a method.
      obtain ⟨⟨text, next⟩, _, read, returns⟩ := returns.bind
      obtain ⟨group, rfl⟩ := read.ofReadBehind
      obtain ⟨_, used, returns⟩ := returns.use
      obtain ⟨index, _, evaluated, returns⟩ := returns.bind
      obtain ⟨element, _, returns⟩ := returns.compute
      have grows := used.trans (evaluateAs_grows lawful evaluated)
      exact ((readBalanced_moves group rfl start).aside grows).trans (ih returns)
    · split at returns
      case isTrue property =>
        have name := readProperty_moves property start
        dsimp only at returns
        split at returns
        · obtain ⟨_, used, returns⟩ := returns.use
          obtain ⟨⟨args, next⟩, _, read, returns⟩ := returns.bind
          obtain ⟨result, _, called, returns⟩ := returns.bind
          have method := (name.aside used).trans (readArgs_moves lawful read) |>.aside
            (called.grows (callMethod_yields lawful (tidy _) _ place _ (.inl free) (.inl free)))
          exact method.trans (ih returns)
        · obtain ⟨_, used, returns⟩ := returns.use
          obtain ⟨result, _, got, returns⟩ := returns.bind
          have got := got.grows (getProperty_yields lawful (tidy _) _ _ (.inl free))
          exact (name.aside (used.trans got)).trans (ih returns)
      case isFalse =>
        obtain ⟨same, rfl⟩ := returns.done
        cases same
        exact .refl _ start

omit lawful in
/-- Signs are passed. -/
theorem readSigns_passes (count : Nat) :
    ∀ cursor : Cursor, cursor.Passes (· == ';') (cursor.readSigns count).2 := by
  -- The induction is on the number of signs that may still follow.
  induction count with
  | zero => exact fun cursor => .skipSpaces marks_semicolon
  | succ count ih =>
    intro cursor
    have spaced : cursor.Passes (· == ';') cursor.skipSpaces := .skipSpaces marks_semicolon
    unfold Cursor.readSigns
    dsimp only
    split
    case h_1 sign found =>
      refine spaced.trans (Cursor.Passes.trans ?_ (ih _))
      unfold Cursor.sign? at found
      split at found
      case h_1 bang => exact Cursor.advance_passes marks_semicolon bang (by decide)
      case h_2 minus => exact Cursor.advance_passes marks_semicolon minus (by decide)
      case h_3 => cases found
    case h_2 => exact spaced

/-- An operand is passed with the signs in front of it and the steps behind it. -/
theorem evaluateOperand_moves
    (returns : Returns (evaluateOperand eval cursor) start (value, behind) final) :
    Moves cursor start behind final := by
  have signs := Moves.plain (readSigns_passes cursor.left cursor) start
  unfold evaluateOperand at returns
  dsimp only at returns
  obtain ⟨⟨found, place, next⟩, _, primary, returns⟩ := returns.bind
  obtain ⟨⟨stepped, next⟩, _, steps, returns⟩ := returns.bind
  have moves := signs.trans (evaluatePrimary_moves lawful primary) |>.trans
    (evaluateSteps_moves lawful _ steps)
  dsimp only at returns
  split at returns
  · -- The signs only compute with the value.
    rw [pure_bind] at returns
    obtain ⟨result, _, returns⟩ := returns.compute
    obtain ⟨same, rfl⟩ := returns.done
    cases same
    exact moves
  · obtain ⟨_, used, returns⟩ := returns.use
    obtain ⟨result, _, returns⟩ := returns.compute
    obtain ⟨same, rfl⟩ := returns.done
    cases same
    exact moves.aside used

omit lawful

/-- An operand is passed wherever it is evaluated. -/
abbrev MovesAnywhere (operand : Cursor → Eval (Value × Cursor)) : Prop :=
  ∀ {cursor start value behind final}, Returns (operand cursor) start (value, behind) final →
    Moves cursor start behind final

variable {operand : Cursor → Eval (Value × Cursor)}

/-- An operand whose truth is taken is passed. -/
theorem truthOf_moves (moves : MovesAnywhere operand)
    (returns : Returns (truthOf operand cursor) start (value, behind) final) :
    Moves cursor start behind final := by
  obtain ⟨⟨found, next⟩, _, evaluated, returns⟩ := returns.bind
  obtain ⟨_, used, returns⟩ := returns.use
  obtain ⟨same, rfl⟩ := returns.done
  cases same
  exact (moves evaluated).aside used

/-- An operand that is skipped is passed. -/
theorem skipOperand_moves (operators : List String) (cursor : Cursor) (engine : Engine) :
    Moves cursor engine (cursor.skipOperand operators) engine :=
  .read (fun _ within => Cursor.skipOperand_passes operators within) engine

/-- The operand behind an operator is passed, evaluated or not. -/
theorem joinOperand_moves (moves : MovesAnywhere operand) {left : Value} {operator : Operator}
    (returns : Returns (joinOperand operand left operator cursor) start (value, behind) final) :
    Moves cursor start behind final := by
  obtain ⟨middle, used, returns⟩ := returns.use
  refine .after used ?_
  cases operator with
  | or =>
    dsimp only at returns
    split at returns
    · -- What decides the operator leaves the right operand to be skipped.
      obtain ⟨same, rfl⟩ := returns.done
      cases same
      exact skipOperand_moves _ cursor middle
    · exact truthOf_moves moves returns
  | and =>
    dsimp only at returns
    split at returns
    · obtain ⟨same, rfl⟩ := returns.done
      cases same
      exact skipOperand_moves _ cursor middle
    · exact truthOf_moves moves returns
  | binary op =>
    obtain ⟨⟨right, next⟩, _, evaluated, returns⟩ := returns.bind
    obtain ⟨_, used, returns⟩ := returns.use
    obtain ⟨result, _, returns⟩ := returns.compute
    obtain ⟨same, rfl⟩ := returns.done
    cases same
    exact (moves evaluated).aside used

/-- An operator is passed. -/
theorem operator?_passes {operators : List Operator} {operator : Operator}
    (found : cursor.operator? operators = some operator) :
    cursor.Passes (· == ';') (cursor.advanceBy operator.symbol.length) := by
  have starts : cursor.startsWith operator.symbol = true := by
    -- The operator found stands here, unless it starts a longer one or an assignment.
    obtain ⟨other, first, found⟩ := Option.bind_eq_some_iff.mp found
    have starts := List.find?_some first
    split at found
    · split at found
      · cases found
      · cases found
        exact starts
    · cases found
      exact starts
  refine Cursor.token_passes marks_semicolon starts (clear_of_all ?_)
  cases operator with
  | or => decide
  | and => decide
  | binary op => cases op <;> decide

/-- Operands of one level are passed. -/
theorem joinOperands_moves (moves : MovesAnywhere operand) (operators : List Operator) (count : Nat) :
    ∀ {cursor start left},
      Returns (joinOperands operators operand count left cursor) start (value, behind) final →
      Moves cursor start behind final := by
  -- The induction is on the number of operands that may still follow.
  induction count with
  | zero => exact fun returns => returns.failed.elim
  | succ count ih =>
    intro cursor start left returns
    have spaced := skipSpaces_moves cursor start
    unfold joinOperands at returns
    dsimp only at returns
    split at returns
    · obtain ⟨same, rfl⟩ := returns.done
      cases same
      exact spaced
    case h_2 operator found =>
      obtain ⟨⟨joined, next⟩, _, operands, returns⟩ := returns.bind
      have symbol := Moves.plain (operator?_passes found) start
      exact (spaced.trans symbol).trans ((joinOperand_moves moves operands).trans (ih returns))

/-- The operands of all levels are passed. -/
theorem evaluateLevels_moves (moves : MovesAnywhere operand) (levels : List (List Operator)) :
    MovesAnywhere (evaluateLevels operand levels) := by
  -- The induction is on the levels, the loosest one first.
  induction levels with
  | nil => exact moves
  | cons operators tighter ih =>
    intro cursor start value behind final returns
    obtain ⟨⟨first, next⟩, _, evaluated, returns⟩ := returns.bind
    exact (ih evaluated).trans (joinOperands_moves ih operators _ returns)

/-- An expression is passed. -/
theorem evaluator_moves (depth : Nat) : MovesAnywhere (evaluator depth .expression) := by
  intro cursor start value behind final returns
  cases depth with
  | zero => exact returns.failed.elim
  | succ depth =>
    exact evaluateLevels_moves (evaluateOperand_moves (evaluator_lawful depth)) _ returns

end ScriptEngine
