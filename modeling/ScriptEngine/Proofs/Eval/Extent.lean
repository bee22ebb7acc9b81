import ScriptEngine.Proofs.Eval.Position
import ScriptEngine.Proofs.Source.Landing

/-! How far a statement goes that has run: to where skipping it comes out. -/

namespace ScriptEngine

variable {start final : Engine} {cursor behind next : Cursor} {eval : Evaluator} {value : Value}
  {depth : Nat}

/-- An evaluation at a cursor has come to where a statement ends. -/
def Finishes (cursor : Cursor) (start : Engine) (behind : Cursor) (final : Engine) : Prop :=
  ∃ place now, Moves cursor start place now ∧ Grows now final ∧ place.endStatement = .ok behind

/-- The actions of an interpreter have tokens that do not structure a text. -/
def PlainActions (engine : Engine) : Prop :=
  ∀ action ∈ engine.symbols.actions.values, ∀ c ∈ action.token.toList, c ∉ structural

namespace Finishes

/-- What comes in front of a statement that has come to its end belongs to it. -/
theorem after {place : Cursor} {middle : Engine} (moves : Moves cursor start place middle)
    (finishes : Finishes place middle behind final) : Finishes cursor start behind final := by
  obtain ⟨last, now, rest, grows, ends⟩ := finishes
  exact ⟨last, now, moves.trans rest, grows, ends⟩

/-- The log of a statement that has come to its end has grown. -/
theorem grows (finishes : Finishes cursor start behind final) : Grows start final := by
  obtain ⟨last, now, moves, grows, _⟩ := finishes
  exact moves.1.trans grows

/-- A statement that has come to its end ends where the next one starts. -/
theorem nextStatement (finishes : Finishes cursor start behind final) (nested : cursor.Nested)
    (clear : Unembedded cursor.source start final) : cursor.nextStatement = behind := by
  obtain ⟨place, now, moves, grows, ends⟩ := finishes
  exact Cursor.nextStatement_eq (moves.2 nested (clear.split moves.1 grows).1) ends

end Finishes

/-- A `throw` returns nothing. -/
theorem runThrow_fails (returns : Returns (runThrow eval cursor) start (value, behind) final) :
    False := by
  obtain ⟨_, _, _, returns⟩ := returns.bind
  obtain ⟨_, _, returns⟩ := returns.read
  exact returns.failed

/-- A statement that is an expression comes to its end. -/
theorem runExpression_finishes
    (returns : Returns (runExpression (evaluator depth) cursor) start (value, behind) final) :
    Finishes cursor start behind final := by
  obtain ⟨⟨found, place⟩, middle, evaluated, returns⟩ := returns.bind
  obtain ⟨next, ended, same⟩ := returns.mapped
  cases same
  obtain ⟨ends, rfl⟩ := ended.ofReadBehind
  exact ⟨place, middle, evaluator_moves depth evaluated, .refl middle, ends⟩

/-- A `return` comes to its end. -/
theorem runReturn_finishes
    (returns : Returns (runReturn (evaluator depth) cursor) start (value, behind) final) :
    Finishes cursor start behind final := by
  -- What is behind the operand, if there is one.
  have ended : ∀ {operand : Value} {place : Cursor} {middle : Engine},
      Moves cursor start place middle →
      Returns (do
        let returned ← takeReturned operand
        return (Value.returnSignal returned, ← Eval.ofReadBehind returned place.endStatement))
        middle (value, behind) final → Finishes cursor start behind final := by
    intro operand place middle moves returns
    obtain ⟨returned, now, taken, returns⟩ := returns.bind
    obtain ⟨next, ended, same⟩ := returns.mapped
    cases same
    obtain ⟨ends, rfl⟩ := ended.ofReadBehind
    have grows : Grows middle now := by
      unfold takeReturned at taken
      split at taken
      · exact taken.done.2 ▸ .refl middle
      · exact taken.used
    exact ⟨place, middle, moves, grows, ends⟩
  have spaced := skipSpaces_moves cursor start
  unfold runReturn at returns
  dsimp only at returns
  split at returns
  · rw [pure_bind] at returns
    exact ended spaced returns
  · obtain ⟨⟨operand, place⟩, _, evaluated, returns⟩ := returns.bind
    exact ended (spaced.trans (evaluator_moves depth evaluated)) returns

/-- A statement that is a keyword comes to its end. -/
theorem runSignal_finishes {signal : Value}
    (returns : Returns (runSignal signal cursor) start (value, behind) final) :
    Finishes cursor start behind final := by
  obtain ⟨next, ends, returns⟩ := returns.read
  obtain ⟨same, rfl⟩ := returns.done
  cases same
  exact ⟨cursor, start, .refl cursor start, .refl start, ends⟩

/-- A `quit` comes to its end. -/
theorem runQuit_finishes
    (returns : Returns (runQuit (evaluator depth) cursor) start (value, behind) final) :
    Finishes cursor start behind final := by
  -- What is behind the code, if there is one.
  have ended : ∀ {code : Int} {place : Cursor} {middle : Engine},
      Moves cursor start place middle →
      Returns (do
        let next ← Eval.ofRead place.endStatement
        Eval.note (.quit code)
        return (Value.quitSignal code, next)) middle (value, behind) final →
      Finishes cursor start behind final := by
    intro code place middle moves returns
    obtain ⟨next, ends, returns⟩ := returns.read
    obtain ⟨same, rfl⟩ := returns.change.done
    cases same
    exact ⟨place, middle, moves, ⟨[_], rfl⟩, ends⟩
  have spaced := skipSpaces_moves cursor start
  unfold runQuit at returns
  dsimp only at returns
  split at returns
  · obtain ⟨⟨text, place⟩, read, returns⟩ := returns.read
    have code := spaced.trans (readBalanced_moves read rfl start)
    dsimp only at returns
    split at returns
    · rw [pure_bind] at returns
      exact ended code returns
    · obtain ⟨number, _, evaluated, returns⟩ := returns.bind
      rw [pure_bind] at returns
      exact ended (code.aside (evaluateAs_grows (evaluator_lawful depth) evaluated)) returns
  · rw [pure_bind] at returns
    exact ended spaced returns

/-- A `var` comes to its end. -/
theorem runVar_finishes
    (returns : Returns (runVar (evaluator depth) cursor) start (value, behind) final) :
    Finishes cursor start behind final := by
  obtain ⟨_, middle, declared, returns⟩ := returns.bind
  obtain ⟨next, ends, returns⟩ := returns.read
  obtain ⟨same, rfl⟩ := returns.done
  cases same
  -- The list is passed as it was read; its values are evaluated elsewhere.
  have list : Moves cursor start (cursor.readUntil (· == ';')).2 start :=
    .read (fun _ within => Cursor.readUntil_passes _ within) start
  have grows := declared.grows
    (declareVariables_runs (evaluator_lawful depth) _ _ (tidy_of_lax start))
  exact ⟨_, middle, list.aside grows, .refl middle, ends⟩

/-- The steps of a place are passed. -/
theorem readSegments_moves (count : Nat) (engine : Engine) :
    ∀ {cursor : Cursor} {segments : List WrittenSegment} {found : Option (List WrittenSegment)},
      Cursor.readSegments count segments cursor = .ok (found, behind) →
      Moves cursor engine behind engine := by
  -- The induction is on the number of steps that may still follow.
  induction count with
  | zero =>
    intro cursor segments found read
    cases read
    exact .refl behind engine
  | succ count ih =>
    intro cursor segments found read
    unfold Cursor.readSegments at read
    split at read
    · obtain ⟨⟨text, place⟩, group, read⟩ := ok_of_bind read
      exact (readBalanced_moves group rfl engine).trans (ih read)
    · split at read
      case isTrue property =>
        have name := readProperty_moves property engine
        dsimp only at read
        split at read
        · cases read
          exact name
        · exact name.trans (ih read)
      case isFalse =>
        cases read
        exact .refl behind engine

/-- A place is passed. -/
theorem readPlace_moves {symbols : SymbolTable} {place : Option WrittenPlace} (engine : Engine)
    (read : cursor.readPlace symbols = .ok (place, behind)) : Moves cursor engine behind engine := by
  have spaced := skipSpaces_moves cursor engine
  unfold Cursor.readPlace at read
  dsimp only at read
  split at read
  · obtain ⟨⟨segments, next⟩, steps, read⟩ := ok_of_bind read
    have name := Moves.plain (readQualified_passes symbols cursor.skipSpaces) engine
    cases read
    exact (spaced.trans name).trans (readSegments_moves _ engine steps)
  · cases read
    exact spaced

/-- The token of an action is passed. -/
theorem matchAction?_passes {count : Nat} {action : Action} (plain : PlainActions start)
    (found : start.symbols.matchAction? (cursor.rest.take count) = some action) :
    cursor.Passes (· == ';') (cursor.advanceBy action.token.length) := by
  obtain ⟨member, fits⟩ := SymbolTable.matchAction?_found found
  refine Cursor.token_passes marks_semicolon ?_ (plain action member)
  have starts := (Bool.and_eq_true_iff.mp fits).1
  have first := List.isPrefixOf_iff_prefix.mp starts
  exact List.isPrefixOf_iff_prefix.mpr (first.trans (List.take_prefix ..))

/-- An action passes its operand. -/
theorem applyAction_moves {place : Place} {action : Action}
    (returns : Returns (applyAction (evaluator depth) cursor place action) start (value, behind)
      final) : Moves cursor start behind final := by
  have lawful : (evaluator depth).Lawful false := evaluator_lawful depth
  -- Behind the operand the target is read and written, which only the log shows.
  have stores : ∀ {operand current : Value} {next : Cursor} {middle : Engine},
      Moves cursor start next middle →
      Returns (do
        let value ← Eval.ofHost (action.apply current operand)
        store (evaluator depth) next.site place value
        return (value, next)) middle (value, behind) final → Moves cursor start behind final := by
    intro operand current next middle moves returns
    obtain ⟨result, _, returns⟩ := returns.host
    obtain ⟨_, stored, same⟩ := returns.mapped
    cases same
    exact moves.aside
      (stored.grows (store_runs lawful (tidy_of_lax middle) _ place (.inl (.inl rfl))))
  have reads : ∀ {operand : Value} {next : Cursor} {middle : Engine},
      Moves cursor start next middle →
      Returns (do
        let current ←
          if action.readsTarget then load (evaluator depth) next.site place else pure .null
        let value ← Eval.ofHost (action.apply current operand)
        store (evaluator depth) next.site place value
        return (value, next)) middle (value, behind) final → Moves cursor start behind final := by
    intro operand next middle moves returns
    dsimp only at returns
    split at returns
    · obtain ⟨current, _, loaded, returns⟩ := returns.bind
      have grows := loaded.grows (load_runs lawful (tidy_of_lax middle) next.site place)
      exact stores (moves.aside grows) returns
    · exact stores moves returns
  unfold applyAction at returns
  dsimp only at returns
  split at returns
  · obtain ⟨⟨operand, next⟩, _, evaluated, returns⟩ := returns.bind
    obtain ⟨⟨found, place⟩, _, evaluated, taken⟩ := evaluated.bind
    obtain ⟨_, used, done⟩ := taken.use
    obtain ⟨same, rfl⟩ := done.done
    cases same
    exact reads ((evaluator_moves depth evaluated).aside used) returns
  · exact reads (.refl cursor start) returns

/-- An assignment comes to its end. -/
theorem runAssignment?_finishes (plain : PlainActions start)
    (returns : Returns (runAssignment? (evaluator depth) cursor) start (some (value, behind)) final) :
    Finishes cursor start behind final := by
  have lawful : (evaluator depth).Lawful false := evaluator_lawful depth
  obtain ⟨⟨found, place⟩, read, returns⟩ := returns.look.read
  cases found with
  | none => cases returns.done.1
  | some written =>
    dsimp only at returns
    split at returns
    case h_1 => cases returns.done.1
    case h_2 action found =>
      obtain ⟨target, middle, evaluated, returns⟩ := returns.bind
      obtain ⟨⟨result, next⟩, now, applied, returns⟩ := returns.bind
      obtain ⟨last, ends, returns⟩ := returns.read
      obtain ⟨same, rfl⟩ := returns.done
      cases same
      -- The place, the spaces behind it and the token of the action come in this order.
      have token := Moves.plain (matchAction?_passes plain found) start
      have target := (readPlace_moves start read).trans ((skipSpaces_moves place start).trans token)
      have grows := evaluated.grows (evaluatePlace_runs lawful (tidy_of_lax start) _ written)
      exact ⟨next, now, (target.aside grows).trans (applyAction_moves applied), .refl now, ends⟩

/-- A statement that starts with a step operator comes to its end. -/
theorem runStep_finishes (plain : PlainActions start)
    (returns : Returns (runStep (evaluator depth) cursor) start (value, behind) final) :
    Finishes cursor start behind final := by
  have lawful : (evaluator depth).Lawful false := evaluator_lawful depth
  have returns := returns.look
  dsimp only at returns
  split at returns
  case h_1 => exact returns.failed.elim
  case h_2 action found =>
    obtain ⟨⟨found, place⟩, read, returns⟩ := returns.read
    cases found with
    | none => exact returns.failed.elim
    | some written =>
      obtain ⟨target, middle, evaluated, returns⟩ := returns.bind
      obtain ⟨⟨result, next⟩, now, applied, returns⟩ := returns.bind
      obtain ⟨last, ends, returns⟩ := returns.read
      obtain ⟨same, rfl⟩ := returns.done
      cases same
      -- The token stands in front of the place.
      have token := Moves.plain (matchAction?_passes plain ‹_›) start
      have grows := evaluated.grows (evaluatePlace_runs lawful (tidy_of_lax start) _ written)
      exact ⟨next, now, ((token.trans (readPlace_moves start read)).aside grows).trans
        (applyAction_moves applied), .refl now, ends⟩

end ScriptEngine
