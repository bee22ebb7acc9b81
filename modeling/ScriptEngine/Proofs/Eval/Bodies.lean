import ScriptEngine.Proofs.Returns
import ScriptEngine.Proofs.Source.Landing

/-! How far a statement with bodies goes that has run: it reads its header and its bodies where they
would be skipped. -/

namespace ScriptEngine

variable {start final : Engine} {cursor behind : Cursor} {eval : Evaluator} {value : Value}
  {due : List Char}

namespace Cursor

/-- The end of a statement is where the semicolon that may follow is passed. -/
theorem endStatement_consume (ends : cursor.endStatement = .ok behind) :
    (cursor.skipSpaces.consume? ";").getD cursor.skipSpaces = behind := by
  unfold endStatement at ends
  dsimp only at ends
  split at ends
  -- Only a semicolon is taken along; the end and a brace stay.
  case h_1 semicolon =>
    cases ends
    have consumed : cursor.skipSpaces.consume? ";" = some cursor.skipSpaces.advance := by
      unfold consume? startsWith
      rw [rest_of_current semicolon]
      rfl
    rw [consumed]
    rfl
  case h_2 nothing =>
    cases ends
    have empty : cursor.skipSpaces.rest = [] := List.head?_eq_none_iff.mp nothing
    unfold consume? startsWith
    rw [empty]
    rfl
  case h_3 brace =>
    cases ends
    unfold consume? startsWith
    rw [rest_of_current brace]
    rfl
  case h_4 => cases ends

end Cursor

/-- An `if` chain ends where skipping its branches comes out, whichever of them has run. -/
theorem runChain_skips (clauses : Nat) :
    ∀ {cursor : Cursor} {start : Engine},
      Returns (runChain eval clauses cursor) start (value, behind) final →
      (do Cursor.skipElseChain (← Cursor.skipGuarded Cursor.skipStatement cursor)) = .ok behind := by
  -- The induction is on the number of conditions that may still follow.
  induction clauses with
  | zero => exact fun returns => returns.failed.elim
  | succ clauses ih =>
    intro cursor start returns
    obtain ⟨⟨condition, headed⟩, header, returns⟩ := returns.read
    obtain ⟨found, middle, _, returns⟩ := returns.bind
    dsimp only at returns
    split at returns
    · -- The condition holds: the branch is read, and the clauses behind it are skipped.
      obtain ⟨⟨body, place⟩, branch, returns⟩ := returns.read
      obtain ⟨_, _, _, returns⟩ := returns.bind
      obtain ⟨next, chain, same⟩ := returns.mapped
      cases same
      rw [Cursor.skipGuarded_eq header (Cursor.readBody_skip branch)]
      exact chain.ofReadBehind.1
    · -- It does not: the branch is skipped, and the next clause decides.
      obtain ⟨next, skipped, returns⟩ := returns.read
      rw [Cursor.skipGuarded_eq header skipped]
      change next.skipElseChain = .ok behind
      split at returns
      case h_1 word =>
        rw [Cursor.skipElseChain_elif word]
        exact ih returns
      case h_2 word =>
        split at returns
        case isTrue second =>
          rw [Cursor.skipElseChain_elseIf word second]
          exact ih returns
        case isFalse second =>
          obtain ⟨⟨body, place⟩, branch, returns⟩ := returns.read
          obtain ⟨_, _, same⟩ := returns.mapped
          cases same
          rw [Cursor.skipElseChain_else word second]
          exact Cursor.readBody_skip branch
      case h_3 elif other =>
        obtain ⟨same, rfl⟩ := returns.done
        cases same
        exact Cursor.skipElseChain_done elif other

/-- An `if` statement ends where skipping it comes out. -/
theorem runIf_skips (returns : Returns (runIf eval cursor) start (value, behind) final) :
    Cursor.skipHeaded Cursor.skipStatement "if" cursor = .ok behind := by
  have chain := runChain_skips _ returns
  obtain ⟨branch, first, _⟩ := ok_of_bind chain
  obtain ⟨⟨text, middle⟩, header, _⟩ := ok_of_bind first
  rw [Cursor.skipHeaded_if header]
  exact chain

/-- A `while` loop ends where skipping it comes out. -/
theorem runWhile_skips (returns : Returns (runWhile eval cursor) start (value, behind) final) :
    Cursor.skipHeaded Cursor.skipStatement "while" cursor = .ok behind := by
  obtain ⟨⟨condition, headed⟩, header, returns⟩ := returns.read
  obtain ⟨⟨text, place⟩, body, returns⟩ := returns.read
  obtain ⟨limit, _, _, returns⟩ := returns.bind
  obtain ⟨_, _, same⟩ := returns.mapped
  cases same
  exact Cursor.skipHeaded_eq (by decide) (Cursor.skipHeader_eq header) (Cursor.readBody_skip body)

/-- A `for` loop ends where skipping it comes out. -/
theorem runFor_skips (returns : Returns (runFor eval cursor) start (value, behind) final) :
    Cursor.skipHeaded Cursor.skipStatement "for" cursor = .ok behind := by
  obtain ⟨⟨header, headed⟩, read, returns⟩ := returns.read
  obtain ⟨⟨text, place⟩, body, returns⟩ := returns.read
  -- What the loop does depends on the parts of its header, and where it ends does not.
  have ended : place = behind := by
    dsimp only at returns
    split at returns
    · obtain ⟨_, _, _, returns⟩ := returns.bind
      exact (Prod.mk.inj returns.done.1).2
    · obtain ⟨_, _, _, returns⟩ := returns.bind
      exact (Prod.mk.inj returns.done.1).2
    · obtain ⟨_, _, refused, _⟩ := returns.bind
      exact refused.failed.elim
  subst ended
  exact Cursor.skipHeaded_eq (by decide) (Cursor.skipHeader_eq read) (Cursor.readBody_skip body)

/-- A `lock` statement ends where skipping it comes out. -/
theorem runLock_skips (returns : Returns (runLock eval cursor) start (value, behind) final) :
    Cursor.skipHeaded Cursor.skipStatement "lock" cursor = .ok behind := by
  obtain ⟨headed, header, returns⟩ := returns.read
  obtain ⟨⟨text, place⟩, body, returns⟩ := returns.read
  obtain ⟨_, _, same⟩ := returns.mapped
  cases same
  exact Cursor.skipHeaded_eq (by decide) header (Cursor.readBody_skip body)

/-- A `switch` statement ends where skipping it comes out. -/
theorem runSwitch_skips (returns : Returns (runSwitch eval cursor) start (value, behind) final) :
    Cursor.skipHeaded Cursor.skipStatement "switch" cursor = .ok behind := by
  obtain ⟨⟨text, headed⟩, header, returns⟩ := returns.read
  obtain ⟨subject, _, _, returns⟩ := returns.bind
  obtain ⟨⟨text, place⟩, block, returns⟩ := returns.read
  obtain ⟨_, _, same⟩ := returns.mapped
  cases same
  exact Cursor.skipHeaded_eq (by decide) (Cursor.skipHeader_eq header)
    (Cursor.skipStatement_block block)

/-- A `do` loop ends where skipping it comes out. -/
theorem runDo_skips (returns : Returns (runDo eval cursor) start (value, behind) final) :
    Cursor.skipDo Cursor.skipStatement cursor = .ok behind := by
  obtain ⟨⟨text, next⟩, body, returns⟩ := returns.read
  dsimp only at returns
  split at returns
  · obtain ⟨_, _, refused, _⟩ := returns.bind
    exact refused.failed.elim
  case isFalse word =>
    obtain ⟨⟨text, headed⟩, condition, returns⟩ := returns.read
    obtain ⟨place, ends, returns⟩ := returns.read
    obtain ⟨limit, _, _, returns⟩ := returns.bind
    obtain ⟨_, _, same⟩ := returns.mapped
    cases same
    -- The condition that was read is the one that is skipped.
    have skipped : next.skipCondition = .ok headed := by
      have named : next.peekToken = "while" := Classical.not_not.mp word
      have condition : next.skipToken.readBalanced '(' ')' = .ok (text, headed) := condition
      unfold Cursor.skipCondition
      rw [if_pos named, condition]
      rfl
    unfold Cursor.skipDo
    rw [Cursor.readBody_skip body]
    change (do
      let tail ← next.skipCondition
      return (tail.skipSpaces.consume? ";").getD tail.skipSpaces) = .ok behind
    rw [skipped, ← Cursor.endStatement_consume ends]
    rfl

/-- A `try` statement ends where skipping it comes out. -/
theorem runTry_skips (returns : Returns (runTry eval cursor) start (value, behind) final) :
    Cursor.skipTry Cursor.skipStatement cursor = .ok behind := by
  obtain ⟨⟨text, next⟩, body, returns⟩ := returns.read
  dsimp only at returns
  split at returns
  · -- Without `catch` behind the body the statement is refused.
    obtain ⟨_, _, refused, _⟩ := returns.bind
    exact refused.failed.elim
  case isFalse word =>
    obtain ⟨⟨header, headed⟩, names, returns⟩ := returns.read
    dsimp only at returns
    split at returns
    · obtain ⟨_, _, refused, _⟩ := returns.bind
      exact refused.failed.elim
    · obtain ⟨⟨text, place⟩, handler, returns⟩ := returns.read
      obtain ⟨_, _, same⟩ := returns.mapped
      cases same
      -- The handler is skipped with its header as what `catch` guards.
      have named : next.peekToken = "catch" := Classical.not_not.mp word
      unfold Cursor.skipTry
      rw [Cursor.readBody_skip body]
      change (if next.peekToken = "catch" then
        Cursor.skipGuarded Cursor.skipStatement next.skipToken else pure next) = .ok place
      rw [if_pos named]
      exact Cursor.skipGuarded_eq names (Cursor.readBody_skip handler)

/-- Braces structure a text. -/
theorem marks_brace : Marks (· == '{') := marks_single (by decide)

/-- A header in parentheses is passed, with the braces in it. -/
theorem readHeader_passes {text : List Char} (within : cursor.Within due)
    (read : cursor.readBalanced '(' ')' = .ok (text, behind)) : cursor.Passes (· == '{') behind :=
  Cursor.readBalanced_passes marks_brace rfl (by decide) within read

/-- A function that is read ends with the block that is its body. -/
theorem readFunction_ends {scope owner : Option String} {function : ScriptFunction}
    (within : cursor.Within due)
    (read : readFunction scope owner cursor = .ok (function, behind)) :
    cursor.EndsWithBlock behind := by
  have named := Cursor.readToken_passes marks_brace cursor
  unfold readFunction at read
  dsimp only at read
  split at read
  · cases (ok_of_bind read).choose_spec.1
  · obtain ⟨⟨header, headed⟩, group, read⟩ := ok_of_bind read
    obtain ⟨params, _, read⟩ := ok_of_bind read
    obtain ⟨⟨body, place⟩, block, same⟩ := ok_of_bind read
    cases same
    -- The spaces in front of the body are not part of it.
    rw [Cursor.readBalanced_skipSpaces] at block
    exact ⟨headed, body, named.trans (readHeader_passes (named.within within) group), block⟩

/-- The declaration of a function ends with its body. -/
theorem declareFunction_ends (within : cursor.Within due)
    (returns : Returns (declareFunction cursor) start (value, behind) final) :
    cursor.EndsWithBlock behind := by
  obtain ⟨⟨function, place⟩, read, returns⟩ := returns.look.read
  obtain ⟨same, rfl⟩ := returns.change.done
  cases same
  exact readFunction_ends within read

/-- The declaration of a compiled function ends with its body. -/
theorem declareCompiled_ends (within : cursor.Within due)
    (returns : Returns (declareCompiled cursor) start (value, behind) final) :
    cursor.EndsWithBlock behind := by
  have named := Cursor.readToken_passes marks_brace cursor
  unfold declareCompiled at returns
  dsimp only at returns
  split at returns
  · exact returns.failed.elim
  · obtain ⟨⟨header, headed⟩, group, returns⟩ := returns.read
    obtain ⟨params, _, returns⟩ := returns.compute
    obtain ⟨⟨body, place⟩, block, returns⟩ := returns.read
    -- Whatever has been compiled, the declaration goes on behind the body.
    have ended : place = behind := by
      have returns := returns.look
      dsimp only at returns
      split at returns
      · exact returns.failed.elim
      · split at returns
        · exact returns.failed.elim
        · exact (Prod.mk.inj returns.change.done.1).2
    subst ended
    exact ⟨headed, body, named.trans (readHeader_passes (named.within within) group), block⟩

/-- The members of a class end with the block that they are in. -/
theorem declareMembers_ends {name : String} {definition : ClassDef}
    (returns : Returns (declareMembers eval name definition cursor) start (value, behind) final) :
    ∃ text, cursor.readBalanced '{' '}' = .ok (text, behind) := by
  obtain ⟨⟨text, place⟩, block, returns⟩ := returns.read
  obtain ⟨finished, _, _, returns⟩ := returns.bind
  obtain ⟨same, rfl⟩ := returns.change.done
  cases same
  exact ⟨text, block⟩

/-- The declaration of a class ends with its members. -/
theorem declareClass_ends (within : cursor.Within due)
    (returns : Returns (declareClass eval cursor) start (value, behind) final) :
    cursor.EndsWithBlock behind := by
  have named := (Cursor.readToken_passes marks_brace cursor).trans (.skipSpaces marks_brace)
  unfold declareClass at returns
  dsimp only at returns
  split at returns
  · exact returns.failed.elim
  · split at returns
    -- The bases are passed up to the brace, and without a colon the brace comes at once.
    case h_1 list colon =>
      obtain ⟨definition, _, _, returns⟩ := returns.bind
      obtain ⟨text, block⟩ := declareMembers_ends returns
      have bases := named.trans (Cursor.consume?_passes marks_brace colon (clear_of_all (by decide)))
      exact ⟨_, text, bases.trans (Cursor.readUntil_passes _ (bases.within within)), block⟩
    case h_2 =>
      obtain ⟨text, block⟩ := declareMembers_ends returns
      exact ⟨_, text, named, block⟩

/-- A namespace ends with its block. -/
theorem runNamespace_ends
    (returns : Returns (runNamespace eval cursor) start (value, behind) final) :
    cursor.EndsWithBlock behind := by
  unfold runNamespace at returns
  dsimp only at returns
  split at returns
  · exact returns.failed.elim
  · obtain ⟨⟨text, place⟩, block, returns⟩ := returns.read
    obtain ⟨_, _, same⟩ := returns.change.mapped
    cases same
    exact ⟨_, text, Cursor.readToken_passes marks_brace cursor, block⟩

/-- The declaration of an enumeration ends with its entries. -/
theorem declareEnum_ends
    (returns : Returns (declareEnum eval cursor) start (value, behind) final) :
    cursor.EndsWithBlock behind := by
  unfold declareEnum at returns
  dsimp only at returns
  split at returns
  · exact returns.failed.elim
  · obtain ⟨⟨text, place⟩, block, returns⟩ := returns.read
    obtain ⟨_, _, _, returns⟩ := returns.bind
    obtain ⟨same, rfl⟩ := returns.change.done
    cases same
    exact ⟨_, text, Cursor.readToken_passes marks_brace cursor, block⟩

end ScriptEngine
