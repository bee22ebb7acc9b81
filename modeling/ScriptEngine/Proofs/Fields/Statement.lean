import ScriptEngine.Proofs.Fields.Assignment

/-! Statements in the bodies of methods run as is told of them, and so do whole bodies. -/

namespace ScriptEngine

open Cursor

variable {eval : Evaluator} {tell : Teller} {cursor next : Cursor} {text rest : List Char} {c : Char}

/-! How statements that are expressions start. -/

/-- A text starts like no word, or with a member that it goes on behind as an expression does. -/
inductive Leads (value : MethodExpr) : List Char → Prop where
  | symbol {c : Char} (tail : List Char) (outside : Text.isWordStart c = false) : Leads value (c :: tail)
  | member (access : Access) (member : Ident) {behind : List Char}
    (goes : behind = [] ∨ GoesOn behind) (known : access = .bare → value.lead? = some member) :
    Leads value (access.text member ++ behind)

namespace MethodExpr

/-- A member with nothing behind it starts a statement. -/
theorem leads_alone {value : MethodExpr} (access : Access) (member : Ident)
    (known : access = .bare → value.lead? = some member) : Leads value (access.text member) := by
  have alone : Leads value (access.text member ++ []) :=
    .member access member (.inl rfl) known
  rwa [List.append_nil] at alone

/-- An expression starts like no word or with a member. -/
theorem leads : ∀ value : MethodExpr, Leads value value.text
  | number numeral => by
    obtain ⟨c, tail, shape, digital⟩ := numeral.head_eq
    have outside : Text.isWordStart c = false := by
      rcases digital with digit | ⟨rfl, _⟩
      · refine Bool.eq_false_iff.mpr fun starts => ?_
        rw [isDigit_of_wordStart starts] at digit
        cases digit
      · decide
    rw [text, shape]
    exact .symbol tail outside
  | argument name => leads_alone .bare name fun _ => rfl
  | field access name => leads_alone access name fun bare => by rw [bare, lead?]
  | call access name args => .member access name (.inr (.calls _)) fun bare => by rw [bare, lead?]
  | join operator left right => by
    rw [text]
    -- In brackets the left side starts with one, and otherwise the whole starts as the left side does.
    by_cases looser : left.level < operator.precedence
    · simp only [bracket, looser, decide_true, if_true]
      exact .symbol _ (by decide)
    · simp only [bracket, looser, decide_false, Bool.false_eq_true, if_false]
      have begins : BeginsUnsigned (bracket (right.level < operator.precedence + 1) right.text) :=
        right.begins.bracket
      have same : (join operator left right).lead? = left.lead? := by rw [lead?, if_neg looser]
      have first := left.leads
      revert first
      generalize left.text = first
      rintro (⟨tail, outside⟩ | ⟨access, member, goes, known⟩)
      · exact .symbol _ outside
      · rw [List.append_assoc]
        refine .member access member (.inr ?_) fun bare => same.trans (known bare)
        rcases goes with rfl | goes
        · exact .joins operator begins
        · exact goes.append _

end MethodExpr

namespace Activation

variable {act : Activation} {view : FieldView} {engine : Engine} {told : Told (Value × Cursor)}

/-! What stands in front of statements. -/

/-- No end has been asked for while a method runs. -/
theorem checkCancelled_follows (sound : act.Sound) : act.Follows Eval.checkCancelled (pure ⟨⟩) := by
  rintro view engine ⟨names, fields, holds, noted⟩
  refine .finished ⟨names, fields, holds, noted⟩ ?_
  obtain ⟨calm, unasked⟩ : engine.cancelled = false ∧ engine.hostRequest = none := by
    obtain ⟨events, uses, log, milestones, lastId, rfl⟩ := noted
    exact sound.ready.calm
  -- Without a request of the host, a look at it changes nothing.
  have looked : engine.look = engine := by
    unfold Engine.look
    rw [unasked]
  have looks : (modify (·.look) : Eval PUnit) engine = .finished (.ok ⟨⟩) engine := by
    show Step.finished (.ok PUnit.unit) engine.look = _
    rw [looked]
  unfold Eval.checkCancelled
  refine (Eval.bind_ok looks _).trans ?_
  rw [Eval.get_bind, calm]
  rfl

/-- No other thread is at work while a method runs. -/
theorem giveWay_follows (sound : act.Sound) : act.Follows Eval.giveWay (pure ⟨⟩) := by
  rintro view engine ⟨names, fields, holds, noted⟩
  refine .finished ⟨names, fields, holds, noted⟩ ?_
  have alone : engine.isAlone = true := by
    obtain ⟨events, uses, log, milestones, lastId, rfl⟩ := noted
    exact sound.ready.alone
  unfold Eval.giveWay
  rw [Eval.get_bind, alone]
  rfl

/-- The first character of an operand is none that a statement of another kind starts with. -/
theorem startsOperand_apart (starts : startsOperand c = true) :
    c ≠ ' ' ∧ c ≠ ';' ∧ c ≠ '{' ∧ c ≠ '}' ∧ c ≠ '+' := by
  have apart : c ∉ [' ', ';', '{', '}', '+'] := not_mem_of_none (by decide) starts
  simpa using apart

/-- A statement that starts like an operand is run by its first word, or as an expression. -/
theorem runStatement_follows_start (sound : act.Sound) (begins : BeginsUnsigned text)
    (shape : cursor.rest = text ++ rest)
    (word : ∀ c tail, text = c :: tail → Text.isWordStart c = true → act.Follows (runWord eval cursor) told)
    (other : ∀ c tail, text = c :: tail → Text.isWordStart c = false →
      act.Follows (runExpression eval cursor) told) :
    act.Follows (runStatement eval cursor) told := by
  obtain ⟨c, tail, rfl, starts, _, minus⟩ := begins
  obtain ⟨space, semicolon, brace, _, plus⟩ := startsOperand_apart starts
  have shape : cursor.rest = c :: (tail ++ rest) := shape
  have here : cursor.skipSpaces = cursor := skipSpaces_cons shape space
  have current : cursor.current = some c := by rw [current, shape]; rfl
  have unstepped : (cursor.startsWith "++" || cursor.startsWith "--") = false := by
    simp [startsWith, shape, List.isPrefixOf, Ne.symm plus, Ne.symm minus]
  unfold runStatement
  -- Nothing that starts an operand ends a statement or opens a block.
  refine (checkCancelled_follows sound).bind_pure ?_
  dsimp only
  rw [here]
  refine (Follows.noting fun _ => ⟨_, _, _, _, _, rfl⟩).bind_pure ?_
  split
  case h_1 ended => rw [current] at ended; cases ended
  case h_2 same => rw [current] at same; exact absurd (Option.some.inj same) semicolon
  case h_3 same => rw [current] at same; exact absurd (Option.some.inj same) brace
  case h_4 first _ _ same =>
    rw [current] at same
    cases same
    rw [unstepped, if_neg Bool.false_ne_true]
    split
    case isTrue starts => exact word c tail rfl starts
    case isFalse starts => exact other c tail rfl (Bool.eq_false_iff.mpr starts)

/-- A statement that starts with a word is run by that. -/
theorem runStatement_follows_word (sound : act.Sound) (word : Ident) (shape : cursor.rest = word.text ++ rest)
    (follows : act.Follows (runWord eval cursor) told) : act.Follows (runStatement eval cursor) told := by
  refine runStatement_follows_start sound word.begins shape (fun _ _ _ _ => follows) ?_
  intro c tail same outside
  obtain ⟨first, others, shape, starts⟩ := word.starts
  cases same.symm.trans shape
  rw [starts] at outside
  cases outside

/-- A statement that starts with a member is run by its word. -/
theorem runStatement_follows_member (sound : act.Sound) (access : Access) (member : Ident)
    (shape : cursor.rest = access.text member ++ rest)
    (follows : act.Follows (runWord eval cursor) told) : act.Follows (runStatement eval cursor) told := by
  obtain ⟨behind, same, _⟩ := access.text_eq member
  exact runStatement_follows_word sound (access.lead member)
    (by rw [shape, same, List.append_assoc]) follows

/-! Statements in a row. -/

/-- Statements run one behind the other as is told of them. -/
theorem Nested.runStatements (nested : Nested eval tell act) (statements : List MethodStatement)
    (last : Value) {count : Nat} (shape : cursor.rest = MethodStatement.allText statements)
    (enough : cursor.left < count) :
    act.Follows (runStatements eval count last cursor) (tellAll tell last statements) := by
  -- The induction is on the statements that are left; each takes at least one character.
  induction statements generalizing cursor count last with
  | nil =>
    cases count with
    | zero => exact absurd enough (Nat.not_lt_zero _)
    | succ count =>
      have shape : cursor.rest = [] := shape
      have here : cursor.skipSpaces = cursor := skipSpaces_eq (by simp [shape])
      have ended : cursor.current = none := by rw [current, shape]; rfl
      unfold ScriptEngine.runStatements
      dsimp only
      rw [here, ended]
      exact .pure _
  | cons statement others ih =>
    cases count with
    | zero => exact absurd enough (Nat.not_lt_zero _)
    | succ count =>
      have shape : cursor.rest = statement.text ++ MethodStatement.allText others := shape
      let next := cursor.advanceBy statement.text.length
      have behind : next.rest = MethodStatement.allText others := rest_advanceBy shape
      have spans : cursor.Spans statement.text next :=
        ⟨advanceBy_source cursor _, by rw [behind]; exact shape⟩
      have first := nested.statement statement spans
      obtain ⟨c, tail, same, starts, _⟩ := statement.begins
      obtain ⟨space, _, _, brace, _⟩ := startsOperand_apart starts
      have opened : cursor.rest = c :: (tail ++ MethodStatement.allText others) := by rw [shape, same]; rfl
      have here : cursor.skipSpaces = cursor := skipSpaces_cons opened space
      have current : cursor.current = some c := by rw [current, opened]; rfl
      have shorter : next.left < cursor.left := by
        rw [left_eq_length, left_eq_length, behind, opened]
        simp
      unfold ScriptEngine.runStatements
      dsimp only
      rw [here, current]
      split
      case h_1 ended => cases ended
      case h_2 closes => exact absurd (Option.some.inj closes) brace
      case h_3 =>
        refine first.bind_upTo fun value => ?_
        dsimp only
        split
        · exact .pure _
        · exact ih value behind (by omega)

/-- The text of statements runs as is told of them. -/
theorem Nested.runText (nested : Nested eval tell act) (site : Site) (statements : List MethodStatement) :
    act.Follows (runText eval site (MethodStatement.allText statements))
      (tellAll tell .null statements) :=
  nested.runStatements statements .null rfl (Nat.lt_succ_self _)

/-! Assignments and expressions. -/

/-- The operand of an assignment is evaluated as is told of it. -/
theorem Nested.evaluateFor (nested : Nested eval tell act) (use : Use) (value : MethodExpr)
    (spans : cursor.Spans value.text next) (stops : Stops 0 next.rest) :
    act.Follows (evaluateAt eval use cursor) ((tell (.expression value)).upTo next) := by
  have here : cursor.skipSpaces = cursor := value.begins.begins.skipSpaces_eq spans.2
  have parts : act.Follows (evaluateAt eval use cursor) (tell (.expression value) >>= fun value =>
      pure (value, next)) := by
    refine (nested.expression value (by rwa [here]) stops).bind_upTo fun value => ?_
    exact (Follows.use use value).bind_pure (.pure _)
  exact parts

/-- A statement that gives a field a value runs as is told of it. -/
theorem runStatement_assign (sound : act.Sound) (nested : Nested eval tell act) (access : Access)
    (field : Ident) (action : PreludeAction true) (value : MethodExpr)
    (spans : cursor.Spans (MethodStatement.assign access field action value).text next) :
    act.Follows (runStatement eval cursor)
      ((MethodStatement.tellKnown access field action.val (tell (.expression value))).upTo next) := by
  obtain ⟨before, behind⟩ := spans.split
  obtain ⟨token, last⟩ := behind.split
  obtain ⟨operand, closes, ended⟩ := last.semicolon
  -- The operand starts like one, so that the action is read up to its end.
  rw [String.length_toList] at operand closes ended
  obtain ⟨c, tail, same, starts, _⟩ := value.begins
  have single : c ≠ '=' := fun equal => startsOperand_clear starts (by simp [equal])
  have shape : cursor.rest = access.text field ++ (action.val.token.toList ++
      c :: (tail ++ ';' :: next.rest)) := by
    rw [spans.2, MethodStatement.text_assign, same]
    simp
  have reads : act.Follows
      (if action.val.takesOperand then
        evaluateAt eval .assigned
          ((cursor.advanceBy (access.text field).length).advanceBy action.val.token.length)
      else pure (.null, (cursor.advanceBy (access.text field).length).advanceBy action.val.token.length))
      ((tell (.expression value)).upTo
        (((cursor.advanceBy (access.text field).length).advanceBy action.val.token.length).advanceBy
          value.text.length)) := by
    rw [if_pos action.property.2]
    exact nested.evaluateFor .assigned value operand (by rw [closes]; exact .semicolon 0 _)
  exact runStatement_follows_member sound access field shape
    (runWord_assignment sound access field action.property.1 shape single reads ended)

/-- A statement that changes a field by an action alone runs as is told of it. -/
theorem runStatement_step (sound : act.Sound) (access : Access) (field : Ident)
    (action : PreludeAction false)
    (spans : cursor.Spans (MethodStatement.step access field action).text next) :
    act.Follows (runStatement eval cursor)
      ((MethodStatement.tellKnown access field action.val (return .null)).upTo next) := by
  obtain ⟨before, behind⟩ := spans.split
  obtain ⟨token, closes, ended⟩ := behind.semicolon
  rw [String.length_toList] at ended
  have shape : cursor.rest = access.text field ++ (action.val.token.toList ++ ';' :: next.rest) := by
    rw [spans.2, MethodStatement.text_step]
    simp
  -- An action of this kind takes no operand.
  have reads : act.Follows
      (if action.val.takesOperand then
        evaluateAt eval .assigned
          ((cursor.advanceBy (access.text field).length).advanceBy action.val.token.length)
      else pure (.null, (cursor.advanceBy (access.text field).length).advanceBy action.val.token.length))
      (Told.upTo (return .null)
        ((cursor.advanceBy (access.text field).length).advanceBy action.val.token.length)) := by
    rw [if_neg (by simp [action.property.2])]
    exact .pure _
  exact runStatement_follows_member sound access field shape
    (runWord_assignment sound access field action.property.1 shape (by decide) reads ended)

/-- A statement that is an expression runs as is told of it. -/
theorem runStatement_evaluate (sound : act.Sound) (nested : Nested eval tell act) (value : MethodExpr)
    (spans : cursor.Spans (MethodStatement.evaluate value).text next) :
    act.Follows (runStatement eval cursor)
      ((MethodStatement.tellEvaluate act.table tell value).upTo next) := by
  have spans : cursor.Spans (value.text ++ [';']) next := spans
  have follows := nested.runExpression value spans
  unfold MethodStatement.tellEvaluate
  rw [Told.upTo_bind]
  have leads := value.leads
  have begins := value.begins
  -- How the expression starts tells which way the statement is read.
  revert leads begins
  have shape : cursor.rest = value.text ++ ';' :: next.rest := by rw [spans.2]; simp
  revert shape
  generalize value.text = text
  rintro shape (⟨tail, outside⟩ | ⟨access, member, goes, known⟩) begins
  · refine runStatement_follows_start sound begins shape (fun c behind same starts => ?_)
      fun _ _ _ _ => .allow fun view engine shows _ => follows view engine shows
    cases same
    rw [starts] at outside
    cases outside
  · rename_i behind
    have goesOn : GoesOn (behind ++ ';' :: next.rest) := by
      rcases goes with rfl | goes
      · exact .ends _
      · exact goes.append _
    have opened : cursor.rest = access.text member ++ (behind ++ ';' :: next.rest) := by
      rw [shape, List.append_assoc]
    obtain ⟨c, tail, same, ends⟩ := goesOn.endsMember
    refine runStatement_follows_member sound access member opened ?_
    refine .allow fun view engine shows knows => (follows view engine shows).congr ?_
    -- The word is one of the body, and no action stands behind the member.
    rw [runWord_member sound shows access member (fun bare => knows _ (known bare))
      (by rw [opened, same]) ends]
    exact Eval.bind_ok (runAssignment?_none sound shows access member opened goesOn) _

end Activation

/-- Bodies run as is told of them if what is nested in them does. -/
theorem RunsBodies.of_nested {table : MethodTable} {config : Config}
    (nested : ∀ act : Activation, act.Sound → act.table = table → act.engine.config = config →
      Activation.Nested eval tell act) : RunsBodies eval tell table config :=
  fun act site statements sound same alike => (nested act sound same alike).runText site statements

end ScriptEngine
