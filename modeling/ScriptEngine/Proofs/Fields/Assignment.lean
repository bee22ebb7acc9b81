import ScriptEngine.Proofs.Fields.Expression

/-! Assignments to fields in the bodies of methods are run as is told of them, and what starts with a
member and goes on like an expression is none. -/

namespace ScriptEngine

open Cursor SymbolTable

variable {eval : Evaluator} {tell : Teller} {symbols : SymbolTable} {cursor next : Cursor}
  {text rest : List Char} {c : Char}

/-! The actions of the language. -/

/-- The actions are kept in the order of the language. -/
theorem values_actions :
    (preludeActions.foldl SymbolTable.setAction {}).actions.values = preludeActions := rfl

namespace SymbolTable.Plain

/-- The action is found whose token starts a text, unless that is one equals sign of two. -/
theorem matchAction?_token (plain : symbols.Plain) {action : Action} (listed : action ∈ preludeActions)
    (single : c ≠ '=') (rest : List Char) :
    symbols.matchAction? ((action.token.toList ++ c :: rest).take actionWindow) = some action := by
  have other : ('=' == c) = false := beq_false_of_ne (Ne.symm single)
  unfold matchAction?
  rw [plain.actions, values_actions]
  simp only [preludeActions, List.mem_cons, List.not_mem_nil, or_false] at listed
  rcases listed with rfl | rfl | rfl | rfl | rfl | rfl | rfl | rfl
  all_goals
    simp [preludeActions, Action.assignment, Action.binary, Action.unary, matchesToken, actionWindow,
      List.isPrefixOf, other]

/-- No action is found where no token of one starts a text. -/
theorem matchAction?_eq_none (plain : symbols.Plain)
    (absent : ∀ action ∈ preludeActions, matchesToken text action.token = false) :
    symbols.matchAction? text = none := by
  unfold matchAction?
  rw [plain.actions, values_actions]
  revert absent
  generalize preludeActions = actions
  intro absent
  -- Nothing is ever found on the way through the actions.
  induction actions with
  | nil => rfl
  | cons action rest ih =>
    rw [List.forall_mem_cons] at absent
    rw [List.foldl_cons, absent.1]
    exact ih absent.2

end SymbolTable.Plain

/-- What goes on behind a member where a statement is no assignment: nothing more, the arguments of a
call, or an operator in front of its operand. -/
inductive GoesOn : List Char → Prop where
  | ends (rest : List Char) : GoesOn (';' :: rest)
  | calls (rest : List Char) : GoesOn ('(' :: rest)
  | joins (operator : Operator) {text : List Char} (begins : BeginsUnsigned text) :
    GoesOn (operator.symbol.toList ++ text)

namespace GoesOn

/-- What goes on with an operator is more than the symbol. -/
theorem append (goes : GoesOn text) (rest : List Char) : GoesOn (text ++ rest) := by
  cases goes with
  | ends behind => exact .ends _
  | calls behind => exact .calls _
  | joins operator begins =>
    rw [List.append_assoc]
    exact .joins operator (begins.append rest)

/-- No action stands where an expression goes on. -/
theorem matchAction?_eq_none (goes : GoesOn text) (plain : symbols.Plain) :
    symbols.matchAction? (text.take actionWindow) = none := by
  refine plain.matchAction?_eq_none ?_
  -- What an operator begins with could also begin an action; the operand behind it rules that out.
  cases goes with
  | ends rest | calls rest =>
    simp [preludeActions, Action.assignment, Action.binary, Action.unary, matchesToken, actionWindow,
      List.isPrefixOf]
  | joins operator begins =>
    obtain ⟨c, tail, rfl, starts, _, minus⟩ := begins
    have clear := startsOperand_clear starts
    simp only [List.mem_cons, List.not_mem_nil, or_false, not_or] at clear
    have equals : ('=' == c) = false := beq_false_of_ne (Ne.symm clear.1)
    have plus : ('+' == c) = false := beq_false_of_ne (Ne.symm clear.2.1)
    have minus : ('-' == c) = false := beq_false_of_ne (Ne.symm minus)
    cases operator with
    | or | and =>
      simp [preludeActions, Action.assignment, Action.binary, Action.unary, matchesToken, actionWindow,
        List.isPrefixOf, Operator.symbol]
    | binary op =>
      cases op <;>
        simp [preludeActions, Action.assignment, Action.binary, Action.unary, matchesToken,
          actionWindow, List.isPrefixOf, Operator.symbol, BinaryOp.symbol, equals, plus, minus]

end GoesOn

/-! Places. -/

/-- Whether a character ends a member that it stands behind. -/
def EndsMember (c : Char) : Prop := Text.isWordChar c = false ∧ c ∉ [' ', '[', '.']

/-- Every action ends the member in front of it. -/
theorem endsMember_token {action : Action} (listed : action ∈ preludeActions) :
    ∃ c tail, action.token.toList = c :: tail ∧ EndsMember c ∧ c ≠ '(' := by
  simp only [preludeActions, List.mem_cons, List.not_mem_nil, or_false] at listed
  rcases listed with rfl | rfl | rfl | rfl | rfl | rfl | rfl | rfl
  all_goals exact ⟨_, _, rfl, ⟨by decide, by decide⟩, by decide⟩

/-- What goes on behind a member ends it. -/
theorem GoesOn.endsMember (goes : GoesOn text) : ∃ c tail, text = c :: tail ∧ EndsMember c := by
  cases goes with
  | ends rest | calls rest => exact ⟨_, rest, rfl, by decide, by decide⟩
  | joins operator begins =>
    cases operator with
    | or | and => exact ⟨_, _, rfl, by decide, by decide⟩
    | binary op => cases op <;> exact ⟨_, _, rfl, by decide, by decide⟩

namespace Access

/-- The word that a member starts with. -/
def lead (access : Access) (member : Ident) : Ident :=
  match access with
  | .bare => member
  | .qualified => thisWord

/-- The place of a member as it is written. -/
def written (access : Access) (member : Ident) : WrittenPlace :=
  match access with
  | .bare => ⟨member.name, []⟩
  | .qualified => ⟨"this", [.property member.name]⟩

variable (access : Access) (member : Ident)

/-- A member starts with a word. -/
theorem text_eq : ∃ behind, access.text member = (access.lead member).text ++ behind ∧
    ∀ c tail, Text.isWordChar c = false →
      ∀ d, (behind ++ c :: tail).head? = some d → Text.isWordChar d = false := by
  cases access with
  | bare =>
    refine ⟨[], (List.append_nil _).symm, ?_⟩
    rintro c tail outside d ⟨⟩
    exact outside
  | qualified =>
    refine ⟨'.' :: member.text, rfl, ?_⟩
    rintro c tail outside d ⟨⟩
    decide

/-- Nothing is to be evaluated for the place of a member. -/
theorem evaluate_written (site : Site) :
    (access.written member).evaluate eval site = pure (access.place member) := by
  cases access <;> rfl

end Access

/-- No step follows where a member ends. -/
theorem readSegments_ends (current : cursor.current = some c) (ends : EndsMember c) (count : Nat)
    (segments : List WrittenSegment) :
    readSegments count segments cursor = .ok (some segments, cursor) := by
  have apart := ends.2
  simp only [List.mem_cons, List.not_mem_nil, or_false, not_or] at apart
  cases count with
  | zero => rfl
  | succ count =>
    have bracket : cursor.current ≠ some '[' := by simpa [current] using apart.2.1
    have property : cursor.startsProperty = false := by simp [startsProperty, current, apart.2.2]
    rw [readSegments, if_neg bracket, property, if_neg (by decide)]

/-- A place is read from the word that it starts with. -/
theorem readPlace_word (word : Ident) (shape : cursor.rest = word.text ++ rest)
    (ends : ∀ c, rest.head? = some c → Text.isWordChar c = false)
    (alone : rest.head? = some '.' → symbols.hasNamespace word.name = false) :
    cursor.readPlace symbols =
      (do
        let behind := cursor.advanceBy word.text.length
        let (segments, next) ← readSegments behind.left [] behind
        return (segments.map fun segments => ⟨word.name, segments⟩, next)) := by
  have start : (cursor.current.map Text.isWordStart).getD false = true := by
    obtain ⟨c, tail, same, starts⟩ := word.starts
    simp [current, shape, same, starts]
  unfold readPlace
  simp only [word.begins.begins.skipSpaces_eq shape, start, if_true]
  rw [readQualified_ident word shape ends alone]

/-- A bare name is a place. -/
theorem readPlace_bare (member : Ident) (shape : cursor.rest = member.text ++ c :: rest)
    (ends : EndsMember c) :
    cursor.readPlace symbols =
      .ok (some (Access.bare.written member), cursor.advanceBy member.text.length) := by
  -- The word ends at the character behind it, and nothing is read below it.
  have landed : (cursor.advanceBy member.text.length).current = some c := by
    rw [current, rest_advanceBy shape]
    rfl
  have point : (c :: rest).head? = some '.' → symbols.hasNamespace member.name = false := by
    rintro ⟨⟩
    exact absurd ends.2 (by decide)
  rw [readPlace_word member shape (endsWord_cons ends.1 rest) point]
  dsimp only
  rw [readSegments_ends landed ends _ _]
  rfl

/-- A member of `this` is a place, unless it is called. -/
theorem readPlace_qualified (alone : symbols.hasNamespace "this" = false) (member : Ident)
    (shape : cursor.rest = Access.qualified.text member ++ c :: rest) (ends : EndsMember c) :
    cursor.readPlace symbols =
      .ok (if c = '(' then none else some (Access.qualified.written member),
        cursor.advanceBy (Access.qualified.text member).length) := by
  have landed : (cursor.advanceBy (Access.qualified.text member).length).current = some c := by
    rw [current, rest_advanceBy shape]
    rfl
  have spans : cursor.Spans (Access.qualified.text member)
      (cursor.advanceBy (Access.qualified.text member).length) :=
    ⟨by simp, by rw [rest_advanceBy shape]; exact shape⟩
  obtain ⟨whole, point, same⟩ := spans_this spans
  rw [rest_advanceBy shape] at whole point
  rw [readPlace_word thisWord whole (endsWord_cons (by decide) _) fun _ => alone]
  obtain ⟨property, read, behind⟩ := readToken_property member point (endsWord_cons ends.1 rest)
  -- Something is left to read, so that at least one segment is.
  obtain ⟨count, left⟩ : ∃ count, (cursor.advanceBy 4).left = count + 1 := by
    rw [left_eq_length, point]
    exact ⟨_, rfl⟩
  -- A property is read behind `this`, as its text starts with a point.
  have bracket : (cursor.advanceBy 4).current ≠ some '[' := by
    rw [current, point]
    rintro ⟨⟩
  have first : readSegments (cursor.advanceBy 4).left [] (cursor.advanceBy 4) =
      .ok (if c = '(' then none else some [.property member.name],
        cursor.advanceBy (Access.qualified.text member).length) := by
    rw [left, readSegments, if_neg bracket, property, if_pos rfl, read]
    dsimp only
    rw [behind, same]
    by_cases called : c = '('
    · simp [called]
    · simp only [List.head?_cons, Option.some.injEq, called, if_false]
      exact readSegments_ends landed ends _ _
  show (do
    let (segments, next) ← readSegments (cursor.advanceBy 4).left [] (cursor.advanceBy 4)
    return (segments.map fun segments => (⟨"this", segments⟩ : WrittenPlace), next) :
      Read (Option WrittenPlace × Cursor)) = _
  rw [first]
  by_cases called : c = '(' <;> simp [called, Access.written]

/-- A member is a place, unless it is called through `this`. -/
theorem readPlace_member (alone : symbols.hasNamespace "this" = false) (access : Access)
    (member : Ident) (shape : cursor.rest = access.text member ++ c :: rest) (ends : EndsMember c) :
    cursor.readPlace symbols =
      .ok (if access = .qualified ∧ c = '(' then none else some (access.written member),
        cursor.advanceBy (access.text member).length) := by
  cases access with
  | bare =>
    rw [if_neg fun called => nomatch called.1]
    exact readPlace_bare member shape ends
  | qualified => simpa using readPlace_qualified alone member shape ends

/-- Behind a text stands the semicolon that ends a statement. -/
theorem Cursor.Spans.semicolon (spans : cursor.Spans (text ++ [';']) next) :
    cursor.Spans text (cursor.advanceBy text.length) ∧
      (cursor.advanceBy text.length).rest = ';' :: next.rest ∧
      (cursor.advanceBy text.length).endStatement = .ok next := by
  obtain ⟨before, behind⟩ := spans.split
  have shape : (cursor.advanceBy text.length).rest = ';' :: next.rest := behind.2
  have current : (cursor.advanceBy text.length).current = some ';' := by
    rw [current, shape]
    rfl
  refine ⟨before, shape, ?_⟩
  unfold endStatement
  simp only [skipSpaces_cons shape (by decide), current]
  exact congrArg _ behind.eq_advanceBy.symm

/-- An operand ends in front of a semicolon. -/
theorem Stops.semicolon (level : Nat) (rest : List Char) : Stops level (';' :: rest) :=
  .inr (.inl rfl)

namespace Activation

variable {act : Activation} {engine : Engine} {view : FieldView}

/-- A member stands for no keyword. -/
theorem statementKeyword?_member (sound : act.Sound) (shows : act.Shows view engine) (access : Access)
    (member : Ident) (known : access = .bare → view.knows act.table member.name = true) (file : String) :
    engine.statementKeyword? (access.lead member).name file = none := by
  obtain ⟨names, fields, holds, noted⟩ := shows
  -- The frame binds the word to a variable or to a method.
  obtain ⟨handler, bound, other⟩ : ∃ handler,
      names.get? (access.lead member).name = some handler ∧ ∀ keyword, handler ≠ .keyword keyword := by
    cases access with
    | qualified => exact ⟨_, holds.binds.this, nofun⟩
    | bare =>
      have known := known rfl
      simp only [FieldView.knows, Bool.or_eq_true, List.contains_iff_mem] at known
      rcases known with (field | argument) | method
      · obtain ⟨value, copied⟩ := holds.copied field
        exact ⟨_, copied, nofun⟩
      · obtain ⟨value, found⟩ := Option.isSome_iff_exists.mp argument
        exact ⟨_, (holds.binds.argument _ _ found).1, nofun⟩
      · obtain ⟨method, found⟩ := Option.isSome_iff_exists.mp method
        have named : method.name.name = member.name := by simpa using List.find?_some found
        have bound := holds.binds.method method (List.mem_of_find?_eq_some found)
        rw [named] at bound
        exact ⟨_, bound, nofun⟩
  unfold Engine.statementKeyword?
  rw [noted.resolve?, resolve?_bound sound (access.lead member).unqualified bound]
  split
  case h_1 keyword same => exact absurd (Option.some.inj same) (other keyword)
  case h_2 => rfl

/-- A statement that starts with a member is an assignment or an expression. -/
theorem runWord_member (sound : act.Sound) (shows : act.Shows view engine) (access : Access)
    (member : Ident) (known : access = .bare → view.knows act.table member.name = true)
    (shape : cursor.rest = access.text member ++ c :: rest) (ends : EndsMember c) :
    runWord eval cursor engine =
      (do
        match ← runAssignment? eval cursor with
        | some finished => return finished
        | none => runExpression eval cursor : Eval (Value × Cursor)) engine := by
  obtain ⟨behind, same, wordEnds⟩ := access.text_eq member
  have word : cursor.rest = (access.lead member).text ++ (behind ++ c :: rest) := by
    rw [shape, same, List.append_assoc]
  -- The word is no keyword of statements, so that an assignment is tried first.
  unfold runWord
  rw [readToken_text (access.lead member).identifier word (wordEnds c rest ends.1)]
  dsimp only
  rw [Eval.get_bind]
  have none : engine.statementKeyword? (String.ofList (access.lead member).text) cursor.file = none :=
    statementKeyword?_member sound shows access member known cursor.file
  generalize engine.statementKeyword? _ cursor.file = keyword at none ⊢
  subst none
  rfl

/-- An action behind a field is applied to that. -/
theorem runAssignment?_action (sound : act.Sound) (shows : act.Shows view engine) (access : Access)
    (field : Ident) {action : Action} (listed : action ∈ preludeActions)
    (shape : cursor.rest = access.text field ++ (action.token.toList ++ c :: rest))
    (single : c ≠ '=') :
    runAssignment? eval cursor engine =
      (do
        let (value, next) ← applyAction eval
          ((cursor.advanceBy (access.text field).length).advanceBy action.token.length)
          (access.place field) action
        return some (value, ← Eval.ofRead next.endStatement) : Eval (Option (Value × Cursor)))
          engine := by
  -- The access is read first, and then the action from what stands behind it.
  obtain ⟨names, fields, holds, noted⟩ := shows
  have plain : engine.symbols.Plain := noted.symbols ▸ sound.ready.plain
  obtain ⟨first, tail, token, ends, other⟩ := endsMember_token listed
  have opened : cursor.rest = access.text field ++ first :: (tail ++ c :: rest) := by
    rw [shape, token]
    rfl
  have behind : (cursor.advanceBy (access.text field).length).rest =
      action.token.toList ++ c :: rest := rest_advanceBy shape
  have tight : (cursor.advanceBy (access.text field).length).skipSpaces =
      cursor.advanceBy (access.text field).length := by
    have opens : (cursor.advanceBy (access.text field).length).rest = first :: (tail ++ c :: rest) := by
      rw [behind, token]
      rfl
    refine skipSpaces_cons opens ?_
    rintro rfl
    exact absurd ends.2 (by decide)
  unfold runAssignment?
  rw [Eval.get_bind]
  dsimp only
  rw [readPlace_member plain.alone access field opened ends, if_neg fun called => other called.2]
  dsimp only [Eval.ofRead]
  rw [pure_bind]
  dsimp only
  rw [tight, behind, plain.matchAction?_token listed single]
  dsimp only
  rw [access.evaluate_written, pure_bind]

/-- What goes on like an expression is no assignment. -/
theorem runAssignment?_none (sound : act.Sound) (shows : act.Shows view engine) (access : Access)
    (member : Ident) (shape : cursor.rest = access.text member ++ text) (goes : GoesOn text) :
    runAssignment? eval cursor engine = .finished (.ok none) engine := by
  obtain ⟨names, fields, holds, noted⟩ := shows
  have plain : engine.symbols.Plain := noted.symbols ▸ sound.ready.plain
  obtain ⟨first, tail, same, ends⟩ := goes.endsMember
  have behind : (cursor.advanceBy (access.text member).length).rest = text := rest_advanceBy shape
  have tight : (cursor.advanceBy (access.text member).length).skipSpaces =
      cursor.advanceBy (access.text member).length := by
    refine skipSpaces_cons (behind.trans same) ?_
    rintro rfl
    exact absurd ends.2 (by decide)
  have opened : cursor.rest = access.text member ++ first :: tail := by rw [shape, same]
  unfold runAssignment?
  rw [Eval.get_bind]
  dsimp only
  rw [readPlace_member plain.alone access member opened ends]
  dsimp only [Eval.ofRead]
  rw [pure_bind]
  -- A call is no place; for any other text there is no action.
  by_cases called : access = .qualified ∧ first = '('
  · rw [if_pos called]
    rfl
  · rw [if_neg called]
    dsimp only
    rw [tight, behind, goes.matchAction?_eq_none plain]
    rfl

/-- An action is applied to a field as is told. -/
theorem applyAction_follows (sound : act.Sound) (access : Access) (field : Ident) (action : Action)
    {operand : Told Value}
    (first : act.Follows
      (if action.takesOperand then evaluateAt eval .assigned cursor else pure (.null, cursor))
      (operand.upTo next)) :
    act.Follows (applyAction eval cursor (access.place field) action)
      ((MethodStatement.tellAction access field action operand).upTo next) := by
  -- The target is only read for actions that need its value.
  have reads : act.Follows
      (if action.readsTarget then load eval next.site (access.place field) else pure .null)
      (if action.readsTarget then Told.read access field else pure .null) := by
    split
    · exact load_follows eval next.site sound access field
    · exact .pure _
  let acts : Value × Cursor → Eval (Value × Cursor) := fun found =>
    (if action.readsTarget then load eval found.2.site (access.place field) else pure .null) >>=
      fun current => do
        let result ← Eval.ofHost (action.apply current found.1)
        store eval found.2.site (access.place field) result
        return (result, found.2)
  -- From the operand on, both sides compute the result and write it.
  have goesOn : ∀ value, act.Follows (acts (value, next))
      (Told.upTo ((if action.readsTarget then Told.read access field else pure .null) >>=
        fun current => do
          let result ← Told.ofResult (action.apply current value)
          Told.write access field result
          return result) next) := by
    intro value
    rw [Told.upTo_bind]
    refine reads.bind fun current => ?_
    rw [Told.upTo_bind]
    refine (Follows.ofHost (action.apply current value)).bind fun result => ?_
    rw [Told.upTo_bind]
    exact (store_follows eval next.site sound access field result).bind fun _ => .pure _
  have whole := first.bind_upTo goesOn
  rw [← Told.upTo_bind] at whole
  unfold applyAction MethodStatement.tellAction
  -- The choices are made before what goes on behind them.
  by_cases takes : action.takesOperand = true <;> by_cases target : action.readsTarget = true <;>
    simp only [acts, takes, target, if_true, if_false, Bool.false_eq_true] at whole ⊢ <;> exact whole

/-- A statement that is an assignment to a field runs as is told of that. -/
theorem runWord_assignment (sound : act.Sound) (access : Access) (field : Ident) {action : Action}
    (listed : action ∈ preludeActions) {operand : Told Value} {behind : Cursor}
    (shape : cursor.rest = access.text field ++ (action.token.toList ++ c :: rest))
    (single : c ≠ '=')
    (first : act.Follows
      (if action.takesOperand then
        evaluateAt eval .assigned
          ((cursor.advanceBy (access.text field).length).advanceBy action.token.length)
      else pure (.null, (cursor.advanceBy (access.text field).length).advanceBy action.token.length))
      (operand.upTo behind))
    (ended : behind.endStatement = .ok next) :
    act.Follows (runWord eval cursor)
      ((MethodStatement.tellKnown access field action operand).upTo next) := by
  unfold MethodStatement.tellKnown
  rw [Told.upTo_bind]
  refine .allow fun view engine shows there => ?_
  have applied := applyAction_follows sound access field action first
  have follows : act.Follows
      (do
        let (value, next) ← applyAction eval
          ((cursor.advanceBy (access.text field).length).advanceBy action.token.length)
          (access.place field) action
        return (value, ← Eval.ofRead next.endStatement) : Eval (Value × Cursor))
      ((MethodStatement.tellAction access field action operand).upTo next) := by
    refine applied.bind_upTo fun value => ?_
    dsimp only
    rw [ended]
    exact .pure _
  refine (follows view engine shows).congr ?_
  -- It remains that the word leads to the action, and that an expression is not tried behind it.
  obtain ⟨head, tail, token, ends, _⟩ := endsMember_token listed
  have opened : cursor.rest = access.text field ++ head :: (tail ++ c :: rest) := by
    rw [shape, token]
    rfl
  have known : access = .bare → view.knows act.table field.name = true :=
    fun _ => by simp [FieldView.knows, there]
  rw [runWord_member sound shows access field known opened ends]
  refine (Eval.bind_congr_at
    (runAssignment?_action sound shows access field listed shape single) _).trans ?_
  simp only [bind_assoc, pure_bind]

/-- A statement that is an expression runs as is told of that. -/
theorem Nested.runExpression (nested : Nested eval tell act) (value : MethodExpr)
    (spans : cursor.Spans (value.text ++ [';']) next) :
    act.Follows (runExpression eval cursor) ((tell (.expression value)).upTo next) := by
  obtain ⟨before, behind, ended⟩ := spans.semicolon
  have stops : Stops 0 (cursor.advanceBy value.text.length).rest := by
    rw [behind]
    exact .semicolon 0 _
  have here : cursor.skipSpaces = cursor := value.begins.begins.skipSpaces_eq before.2
  unfold ScriptEngine.runExpression
  refine (nested.expression value (by rwa [here]) stops).bind_upTo fun result => ?_
  dsimp only
  rw [ended]
  exact .pure _

end Activation

end ScriptEngine
