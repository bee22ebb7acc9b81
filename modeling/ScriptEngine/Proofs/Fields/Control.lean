import ScriptEngine.Proofs.Fields.Statement

/-! The statements of methods that start with a keyword run as is told of them: what gives a value back,
what chooses between blocks and what repeats one. -/

namespace ScriptEngine

open Cursor

variable {eval : Evaluator} {tell : Teller} {cursor next : Cursor} {text rest : List Char} {c : Char}

/-! Blocks. -/

/-- What stands behind a text in brackets. -/
theorem rest_behind_group {opener closer : Char} (shape : cursor.rest = opener :: (text ++ closer :: rest)) :
    (cursor.advanceBy (text.length + 2)).rest = rest := by
  have whole : cursor.rest = (opener :: text ++ [closer]) ++ rest := by simp [shape]
  have behind := rest_advanceBy whole
  simpa using behind

/-- A block is read as a body and skipped as a statement. -/
theorem readBody_block (balanced : Balanced nothing text) (shape : cursor.rest = '{' :: (text ++ '}' :: rest)) :
    cursor.readBody = .ok (text, cursor.advanceBy (text.length + 2)) ∧
      cursor.skipStatement = .ok (cursor.advanceBy (text.length + 2)) ∧
      (cursor.advanceBy (text.length + 2)).rest = rest := by
  -- Both ways to pass the block read what stands between its braces.
  have read : cursor.readBalanced '{' '}' = .ok (text, cursor.advanceBy (text.length + 2)) :=
    readBalanced_text rfl balanced shape
  have here : cursor.skipSpaces = cursor := skipSpaces_cons shape (by decide)
  have opened : cursor.current = some '{' := by rw [current, shape]; rfl
  refine ⟨?_, ?_, rest_behind_group shape⟩
  · unfold readBody
    simp only [here, opened, if_true, read]
  · unfold skipStatement skipNested skipWith
    simp only [here, opened, skipBlock, read]
    rfl

/-- No word starts with a brace. -/
theorem readToken_brace (shape : cursor.rest = '{' :: rest) : cursor.readToken = ("", cursor) := by
  have none : cursor.rest.takeWhile Text.isWordChar = [] := by
    rw [shape, List.takeWhile_cons_of_neg (by decide)]
  unfold readToken
  simp only [skipSpaces_cons shape (by decide), none]
  have stays : cursor.advanceBy 0 = cursor := eq_of_rest (by simp) (by simp)
  exact Prod.ext rfl stays

/-- The word in front of the other block. -/
def elseWord : Ident := ⟨"else".toList, by decide, by decide⟩

/-- The other block is found behind its word. -/
theorem readToken_else (shape : cursor.rest = elseWord.text ++ '{' :: rest) :
    cursor.readToken = ("else", cursor.advanceBy 4) ∧ (cursor.advanceBy 4).rest = '{' :: rest ∧
      (cursor.advanceBy 4).peekToken = "" := by
  have behind : (cursor.advanceBy 4).rest = '{' :: rest := rest_advanceBy shape
  refine ⟨readToken_text elseWord.identifier shape (endsWord_cons (by decide) _), behind, ?_⟩
  rw [peekToken, readToken_brace behind]

/-- The other block is skipped behind the first one. -/
theorem skipElseChain_block (balanced : Balanced nothing text)
    (shape : cursor.rest = elseWord.text ++ '{' :: (text ++ '}' :: rest)) :
    cursor.skipElseChain = .ok ((cursor.advanceBy 4).advanceBy (text.length + 2)) := by
  obtain ⟨word, behind, unnamed⟩ := readToken_else shape
  obtain ⟨_, skipped, _⟩ := readBody_block balanced behind
  have peek : cursor.peekToken = "else" := congrArg Prod.fst word
  have skip : cursor.skipToken = cursor.advanceBy 4 := congrArg Prod.snd word
  unfold skipElseChain skipClauses
  simp only [peek, skip, unnamed, skipped]
  rfl

namespace Activation

variable {act : Activation} {view : FieldView} {engine : Engine} {told : Told (Value × Cursor)}

/-! Keywords. -/

/-- A statement that starts with a keyword is run by that. -/
theorem runStatement_keyword (sound : act.Sound) (word : Ident) (member : word.name ∈ MethodTable.keywords)
    {keyword : Keyword} (named : Keyword.ofName? word.name = some keyword)
    (plain : keyword.startsExpression = false) (shape : cursor.rest = word.text ++ rest)
    (ends : ∀ c, rest.head? = some c → Text.isWordChar c = false)
    (follows : act.Follows (runKeyword eval keyword (cursor.advanceBy word.text.length)) told) :
    act.Follows (runStatement eval cursor) told := by
  refine runStatement_follows_word sound word shape (.alike ?_ follows)
  rintro view engine ⟨names, fields, holds, noted⟩
  -- The keyword is free in the frame, and so it is found as a statement.
  have found : engine.statementKeyword? word.name cursor.file = some keyword := by
    unfold Engine.statementKeyword?
    rw [noted.resolve?, resolve?_keyword sound member (holds.binds.keyword _ member), named,
      Option.map_some]
    simp [plain]
  unfold runWord
  rw [readToken_text word.identifier shape ends]
  dsimp only
  rw [Eval.get_bind]
  have here : engine.statementKeyword? (String.ofList word.text) cursor.file = some keyword := found
  simp only [here]

/-- The word of a statement that gives a value back. -/
def returnWord : Ident := ⟨"return".toList, by decide, by decide⟩

/-- The word of a statement that chooses between two blocks. -/
def ifWord : Ident := ⟨"if".toList, by decide, by decide⟩

/-- The word of a statement that repeats a block. -/
def whileWord : Ident := ⟨"while".toList, by decide, by decide⟩

/-- The value that a method gives back is at most noted. -/
theorem takeReturned_follows (value : Value) : act.Follows (takeReturned value) (pure value) := by
  unfold takeReturned
  split
  · exact .pure value
  · exact .use .returned value

/-- A text behind a space starts where the spaces end. -/
theorem spans_space (spans : cursor.Spans (' ' :: (text ++ rest)) next) (begins : BeginsUnsigned text) :
    cursor.skipSpaces.Spans (text ++ rest) next := by
  obtain ⟨c, tail, rfl, starts, _⟩ := begins
  obtain ⟨solid, _⟩ := startsOperand_apart starts
  refine ⟨by simp [spans.1], ?_⟩
  rw [skipSpaces, skipWhile_rest, spans.2]
  simp [solid]

/-- A statement that gives a value back runs as is told of it. -/
theorem runStatement_giveBack (sound : act.Sound) (nested : Nested eval tell act) (value : MethodExpr)
    (spans : cursor.Spans (MethodStatement.giveBack value).text next) :
    act.Follows (runStatement eval cursor)
      (Told.upTo (do return .returnSignal (← tell (.expression value))) next) := by
  have whole : cursor.Spans (returnWord.text ++ ' ' :: (value.text ++ [';'])) next := spans
  obtain ⟨before, behind⟩ := whole.split
  have shape : cursor.rest = returnWord.text ++ (' ' :: (value.text ++ [';']) ++ next.rest) := by
    rw [whole.2, List.append_assoc]
  refine runStatement_keyword sound returnWord (by decide) rfl rfl shape (endsWord_cons (by decide) _) ?_
  have operand := spans_space behind value.begins
  obtain ⟨inner, closes, ended⟩ := operand.semicolon
  obtain ⟨c, tail, same, starts, _⟩ := value.begins
  obtain ⟨_, semicolon, _, brace, _⟩ := startsOperand_apart starts
  have first : (cursor.advanceBy returnWord.text.length).skipSpaces.current = some c := by
    rw [current, operand.2, same]
    rfl
  -- Something stands behind the word, so that a value is given back.
  have present : (cursor.advanceBy returnWord.text.length).skipSpaces.endsHere = false := by
    simp [endsHere, first, semicolon, brace]
  show act.Follows (runReturn eval _) _
  unfold runReturn
  rw [Told.upTo_bind]
  dsimp only
  rw [present, if_neg Bool.false_ne_true]
  have here : (cursor.advanceBy returnWord.text.length).skipSpaces.skipSpaces =
      (cursor.advanceBy returnWord.text.length).skipSpaces := skipSpaces_skipSpaces _
  have stops : Stops 0 ((cursor.advanceBy returnWord.text.length).skipSpaces.advanceBy
      value.text.length).rest := by
    rw [closes]
    exact .semicolon 0 _
  refine (nested.expression value (by rwa [here]) stops).bind_upTo fun result => ?_
  refine (takeReturned_follows result).bind_pure ?_
  rw [ended]
  exact .pure _

/-! Headers. -/

/-- A header in brackets is read. -/
theorem readBalanced_header (condition : MethodExpr)
    (shape : cursor.rest = '(' :: (condition.text ++ ')' :: rest)) :
    cursor.readBalanced '(' ')' = .ok (condition.text, cursor.advanceBy (condition.text.length + 2)) ∧
      (cursor.advanceBy (condition.text.length + 2)).rest = rest :=
  ⟨readBalanced_text rfl (condition.balanced (Nat.zero_le _)).lax shape, rest_behind_group shape⟩

/-- A statement that chooses between two blocks runs as is told of it. -/
theorem runStatement_branch (sound : act.Sound) (nested : Nested eval tell act)
    (bodies : RunsBodies eval tell act.table act.engine.config) (condition : MethodExpr)
    (yes no : List MethodStatement)
    (spans : cursor.Spans (MethodStatement.branch condition yes no).text next) :
    act.Follows (runStatement eval cursor)
      (Told.upTo (do
        let chosen := if (← tell (.expression condition)).truthy then yes else no
        return (← tellAll tell .null chosen).signalOrNull) next) := by
  have shape : cursor.rest = ifWord.text ++ ('(' :: (condition.text ++ ')' ::
      ('{' :: (MethodStatement.allText yes ++ '}' ::
        (elseWord.text ++ '{' :: (MethodStatement.allText no ++ '}' :: next.rest)))))) := by
    rw [spans.2, MethodStatement.text_branch, ifWord, elseWord]
    simp
  refine runStatement_keyword sound ifWord (by decide) rfl rfl shape (endsWord_cons (by decide) _) ?_
  obtain ⟨header, behind⟩ := readBalanced_header condition (rest_advanceBy shape)
  obtain ⟨read, skipped, other⟩ := readBody_block (MethodStatement.allBalanced yes) behind
  obtain ⟨word, opened, unnamed⟩ := readToken_else other
  obtain ⟨readOther, _, landed⟩ := readBody_block (MethodStatement.allBalanced no) opened
  have chain := skipElseChain_block (MethodStatement.allBalanced no) other
  -- Whichever block runs, the other one is skipped, and both ways end behind the statement.
  let headed := (cursor.advanceBy ifWord.text.length).advanceBy (condition.text.length + 2)
  let second := headed.advanceBy ((MethodStatement.allText yes).length + 2)
  have ended : (second.advanceBy 4).advanceBy ((MethodStatement.allText no).length + 2) = next :=
    eq_of_rest (by simp [second, headed, spans.1]) landed
  rw [ended] at readOther chain
  show act.Follows (runIf eval _) _
  unfold runIf runChain
  rw [header]
  dsimp only [Eval.ofRead]
  rw [pure_bind, Told.upTo_bind]
  refine (nested.evaluateAs .condition headed.site condition).bind fun value => ?_
  cases value.truthy with
  | true =>
    simp only [if_true]
    rw [read]
    dsimp only [Eval.ofRead]
    rw [pure_bind, Told.upTo_bind]
    refine (bodies act second.site yes sound rfl rfl).bind fun result => ?_
    rw [chain]
    exact .pure _
  | false =>
    simp only [Bool.false_eq_true, if_false]
    rw [skipped]
    dsimp only [Eval.ofRead]
    have peek : second.peekToken = "else" := congrArg Prod.fst word
    have skip : second.skipToken = second.advanceBy 4 := congrArg Prod.snd word
    rw [pure_bind, peek, skip, unnamed, if_neg (by decide), readOther]
    dsimp only
    rw [pure_bind, Told.upTo_bind]
    refine (bodies act next.site no sound rfl rfl).bind fun result => ?_
    exact .pure _

/-! Loops. -/

/-- What a condition decides is told by its value. -/
theorem Nested.holds_follows {β : Type} {yes no : Eval β} {tellYes tellNo : Told β}
    (nested : Nested eval tell act) (site : Site) (condition : MethodExpr)
    (first : act.Follows yes tellYes) (second : act.Follows no tellNo) :
    act.Follows (do if ← holds eval site condition.text then yes else no)
      (do if (← tell (.expression condition)).truthy then tellYes else tellNo) := by
  -- A condition is never empty.
  have part := MethodExpr.isPart [condition] condition.text List.mem_cons_self
  have solid : (Text.trim condition.text).isEmpty = false := by
    obtain ⟨c, tail, shape, _⟩ := condition.begins
    rw [part.trimmed, shape]
    rfl
  unfold holds
  rw [solid, if_neg Bool.false_ne_true, bind_assoc]
  refine (nested.evaluateAs .condition site condition).bind fun value => ?_
  rw [pure_bind]
  cases value.truthy with
  | true => exact first
  | false => exact second

/-- Another pass is admitted where the limit leaves one. -/
theorem admitPass_follows (sound : act.Sound) (left : Nat) :
    act.Follows (admitPass (left + 1)) (pure ⟨⟩) := by
  unfold admitPass
  refine (giveWay_follows sound).bind_pure ?_
  refine (checkCancelled_follows sound).bind_pure ?_
  rw [if_neg (Nat.succ_ne_zero left)]
  exact Follows.noting fun _ => ⟨_, _, _, _, _, rfl⟩

/-- The limit on passes is that of the configuration. -/
theorem config_of_shows (shows : act.Shows view engine) : engine.config = act.engine.config := by
  obtain ⟨names, fields, holds, events, uses, log, milestones, lastId, rfl⟩ := shows
  rfl

/-- No pass is admitted beyond the limit. -/
theorem admitPass_refuses (sound : act.Sound) :
    act.Follows (admitPass 0)
      (throw (.failed ⟨.infiniteLoop act.engine.config.maxLoopIterations, []⟩)) := by
  unfold admitPass
  refine (giveWay_follows sound).bind_pure ?_
  refine (checkCancelled_follows sound).bind_pure ?_
  rw [if_pos rfl]
  refine .alike (fun view engine shows => ?_) (.throw _)
  rw [Eval.get_bind, config_of_shows shows]
  rfl

/-- A loop runs as is told of it. -/
theorem whileLoop_follows (sound : act.Sound) (nested : Nested eval tell act)
    (bodies : RunsBodies eval tell act.table act.engine.config) (site : Site) (condition : MethodExpr)
    (body : List MethodStatement) (left : Nat) :
    act.Follows
      (whileLoop (holds eval site condition.text) (runPass eval site (MethodStatement.allText body))
        (pure ()) left)
      (MethodStatement.tellLoop act.engine.config tell condition body left) := by
  -- The induction is on the passes that are left.
  induction left with
  | zero =>
    have refused : act.Follows (do admitPass 0; return .null)
        (do
          throw (.failed ⟨.infiniteLoop act.engine.config.maxLoopIterations, []⟩)
          return .null : Told Value) := (admitPass_refuses sound).bind fun _ => .pure _
    exact nested.holds_follows site condition refused (.pure Value.null)
  | succ left ih =>
    refine nested.holds_follows site condition ?_ (.pure Value.null)
    refine (admitPass_follows sound left).bind_pure ?_
    unfold runPass
    rw [bind_assoc]
    refine (bodies act site body sound rfl rfl).bind fun value => ?_
    rw [pure_bind]
    -- Only a signal keeps the loop from going on.
    obtain ⟨data, fields, computed⟩ := value
    cases data with
    | breakSignal | returnSignal inner | quitSignal code => exact .pure _
    | _ => exact ih

/-- A statement that repeats a block runs as is told of it. -/
theorem runStatement_loop (sound : act.Sound) (nested : Nested eval tell act)
    (bodies : RunsBodies eval tell act.table act.engine.config) (condition : MethodExpr)
    (body : List MethodStatement) (spans : cursor.Spans (MethodStatement.loop condition body).text next) :
    act.Follows (runStatement eval cursor)
      ((MethodStatement.tellLoop act.engine.config tell condition body
        act.engine.config.maxLoopIterations).upTo next) := by
  have shape : cursor.rest = whileWord.text ++ ('(' :: (condition.text ++ ')' ::
      ('{' :: (MethodStatement.allText body ++ '}' :: next.rest)))) := by
    rw [spans.2, MethodStatement.text_loop, whileWord]
    simp
  refine runStatement_keyword sound whileWord (by decide) rfl rfl shape (endsWord_cons (by decide) _) ?_
  obtain ⟨header, behind⟩ := readBalanced_header condition (rest_advanceBy shape)
  obtain ⟨read, _, landed⟩ := readBody_block (MethodStatement.allBalanced body) behind
  have ended : ((cursor.advanceBy whileWord.text.length).advanceBy (condition.text.length + 2)).advanceBy
      ((MethodStatement.allText body).length + 2) = next := eq_of_rest (by simp [spans.1]) landed
  rw [ended] at read
  -- The limit is read from the engine that the loop starts in, which has the configuration of the call.
  have limit : act.Follows passLimit (pure act.engine.config.maxLoopIterations) := by
    refine .alike (fun view engine shows => ?_) (.pure _)
    rw [← config_of_shows shows]
    rfl
  show act.Follows (runWhile eval _) _
  unfold runWhile
  rw [header]
  dsimp only [Eval.ofRead]
  rw [pure_bind, read]
  dsimp only
  rw [pure_bind]
  refine limit.bind_pure ?_
  exact (whileLoop_follows sound nested bodies next.site condition body _).bind fun value => .pure _

/-- A statement runs as is told of it. -/
theorem runStatement_follows (sound : act.Sound) (nested : Nested eval tell act)
    (bodies : RunsBodies eval tell act.table act.engine.config) (statement : MethodStatement)
    (spans : cursor.Spans statement.text next) :
    act.Follows (runStatement eval cursor)
      ((statement.tells act.table act.engine.config tell).upTo next) := by
  cases statement with
  | assign access field action value => exact runStatement_assign sound nested access field action value spans
  | step access field action => exact runStatement_step sound access field action spans
  | giveBack value => exact runStatement_giveBack sound nested value spans
  | evaluate value => exact runStatement_evaluate sound nested value spans
  | branch condition yes no => exact runStatement_branch sound nested bodies condition yes no spans
  | loop condition body => exact runStatement_loop sound nested bodies condition body spans

/-! All of them. -/

/-- Phrases are evaluated as is told of them, however deep they are nested. -/
theorem nested_evaluator (table : MethodTable) (config : Config) (depth : Nat) :
    ∀ act : Activation, act.Sound → act.table = table → act.engine.config = config →
      Nested (evaluator depth) (table.tell config depth) act := by
  -- The induction is on the depth, which is lower by one inside of each phrase.
  induction depth with
  | zero => exact fun act _ _ _ => ⟨fun _ _ _ _ _ => .throw _, fun _ _ _ _ => .throw _⟩
  | succ depth ih =>
    intro act sound same alike
    have bodies := RunsBodies.of_nested ih
    have nested := ih act sound same alike
    subst same alike
    exact ⟨fun expr _ _ spans stops => evaluateExpression_follows sound nested bodies expr spans stops,
      fun statement _ _ spans => runStatement_follows sound nested bodies statement spans⟩

end Activation

/-- The bodies of methods run as is told of them. -/
theorem runsBodies_evaluator (table : MethodTable) (config : Config) (depth : Nat) :
    RunsBodies (evaluator depth) (table.tell config depth) table config :=
  .of_nested (Activation.nested_evaluator table config depth)

end ScriptEngine
