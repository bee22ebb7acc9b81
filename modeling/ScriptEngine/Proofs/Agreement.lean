import ScriptEngine.Proofs.Eval.Bodies
import ScriptEngine.Proofs.Eval.Extent
import ScriptEngine.Proofs.Source.Canonical

/-! Skipping a statement agrees with running it, unless the statement is a declaration with a brace in
its header. -/

namespace ScriptEngine

variable {start final : Engine} {cursor behind next : Cursor} {value : Value} {depth : Nat}
  {keyword : Keyword} {word : String}

/-- In a file the names of keywords stand for these, and no other names do. -/
def Engine.KeepsKeywords (engine : Engine) (file : String) : Prop :=
  ∀ word keyword,
    engine.resolve? word file = some (.keyword keyword) ↔ Keyword.ofName? word = some keyword

/-- What a keyword starts when it is skipped: a keyword has one spelling, but for that to quit. -/
theorem Keyword.spelled (named : Keyword.ofName? word = some keyword) :
    word = keyword.name ∨ keyword = .quitKeyword ∧ word = "exit" := by
  have listed : ∀ entry ∈ spellings,
      entry.1 = entry.2.name ∨ entry.2 = .quitKeyword ∧ entry.1 = "exit" := by decide
  obtain ⟨before, others, same, _⟩ := List.lookup_eq_some_iff.mp named
  exact listed (word, keyword) (by simp [same])

/-- A new interpreter knows its natives and the keywords. -/
theorem resolve?_new (config : Config) (files : FileTree) (word file : String) :
    (Engine.new config files).resolve? word file =
      if word.toList.contains '.' then none
      else ((preludeNatives.map fun native => (native.name, Handler.native native)).lookup word).or
        ((Keyword.ofName? word).map .keyword) := by
  unfold Engine.resolve?
  split
  · change (SymbolTable.splitQualified? word).bind (fun _ => none) = none
    cases SymbolTable.splitQualified? word <;> rfl
  · rfl

/-- In a new interpreter the names of keywords stand for these. -/
theorem keepsKeywords_new (config : Config) (files : FileTree) (file : String) :
    (Engine.new config files).KeepsKeywords file := by
  intro word keyword
  -- No spelling is qualified or the name of a native.
  have free : ∀ entry ∈ Keyword.spellings, entry.1.toList.contains '.' = false ∧
      ∀ native ∈ preludeNatives, native.name ≠ entry.1 := by decide
  rw [resolve?_new]
  constructor
  · intro resolved
    split at resolved
    · cases resolved
    · rcases Option.or_eq_some_iff.mp resolved with native | ⟨_, spelled⟩
      · obtain ⟨before, others, same, _⟩ := List.lookup_eq_some_iff.mp native
        have member : (word, Handler.keyword keyword) ∈
            preludeNatives.map fun native => (native.name, Handler.native native) := by simp [same]
        obtain ⟨_, _, differs⟩ := List.mem_map.mp member
        cases differs
      · obtain ⟨_, named, same⟩ := Option.map_eq_some_iff.mp spelled
        cases same
        exact named
  · intro named
    obtain ⟨before, others, same, _⟩ := List.lookup_eq_some_iff.mp named
    obtain ⟨unqualified, unnative⟩ := free (word, keyword) (by simp [same])
    have missing : (preludeNatives.map fun native =>
        (native.name, Handler.native native)).lookup word = none := by
      rw [List.lookup_eq_none_iff]
      intro entry member
      obtain ⟨native, listed, rfl⟩ := List.mem_map.mp member
      simpa using Ne.symm (unnative native listed)
    rw [if_neg (by rw [unqualified]; decide), missing, named]
    rfl

/-- The actions of a new interpreter have tokens that do not structure a text. -/
theorem plainActions_new (config : Config) (files : FileTree) :
    PlainActions (Engine.new config files) := by
  have listed : ∀ action ∈ preludeActions, ∀ c ∈ action.token.toList, c ∉ structural := by
    intro action member
    have clear : preludeActions.all (fun action =>
        action.token.toList.all fun c => !structural.contains c) = true := by decide
    exact clear_of_all (List.all_eq_true.mp clear action member)
  exact listed

/-- A word that starts no statement of its own is skipped like an expression. -/
theorem plain_of_expression {file : String} (intact : start.KeepsKeywords file)
    (expression : start.statementKeyword? word file = none) : word ∉ Cursor.compoundWords := by
  intro compound
  -- Each of the words that statements are made of is such a keyword.
  have listed : ∀ word ∈ Cursor.compoundWords,
      (Keyword.ofName? word).any (!·.startsExpression) = true := by decide
  have named := listed word compound
  cases found : Keyword.ofName? word with
  | none =>
    rw [found] at named
    cases named
  | some keyword =>
    rw [found] at named
    have statement : keyword.startsExpression = false := by simpa using named
    unfold Engine.statementKeyword? at expression
    rw [(intact word keyword).mpr found] at expression
    simp [statement] at expression

/-- The keyword that starts a statement is one of the language. -/
theorem statementKeyword?_spelled {file : String} (intact : start.KeepsKeywords file)
    (found : start.statementKeyword? word file = some keyword) :
    Keyword.ofName? word = some keyword ∧ keyword.startsExpression = false := by
  unfold Engine.statementKeyword? at found
  split at found
  case h_1 other resolved =>
    split at found
    · cases found
    case isFalse statement =>
      cases found
      exact ⟨(intact word keyword).mp resolved, by simpa using statement⟩
  case h_2 => cases found

/-- A statement without parts that has run ends where skipping it comes out. -/
theorem Finishes.skips (plain : cursor.readToken.1 ∉ Cursor.compoundWords)
    (finishes : Finishes cursor start behind final) (nested : cursor.Nested)
    (clear : Unembedded cursor.source start final) :
    Cursor.skipWord Cursor.skipStatement cursor = .ok behind := by
  rw [Cursor.skipWord_plain plain, finishes.nextStatement nested clear]

/-- A statement without parts that a keyword starts ends where skipping it comes out. -/
theorem Finishes.skips_spelled (named : Keyword.ofName? cursor.readToken.1 = some keyword)
    (plain : keyword.name ∉ Cursor.compoundWords) (nested : cursor.Nested)
    (clear : Unembedded cursor.source start final)
    (finishes : Finishes cursor.readToken.2 start behind final) :
    Cursor.skipWord Cursor.skipStatement cursor = .ok behind := by
  refine Finishes.skips ?_ (finishes.after (readToken_moves cursor start)) nested clear
  rcases Keyword.spelled named with word | ⟨_, word⟩
  · exact word ▸ plain
  · rw [word]
    decide

/-- A statement with a header is skipped by the keyword that starts it. -/
theorem Cursor.skipWord_spelled (word : cursor.readToken.1 = keyword.name)
    (headed : headedKeywords.contains keyword.name = true)
    (skipped : Cursor.skipHeaded Cursor.skipStatement keyword.name cursor.readToken.2 = .ok behind) :
    Cursor.skipWord Cursor.skipStatement cursor = .ok behind := by
  rw [Cursor.skipWord_headed (word ▸ headed), word]
  exact skipped

/-- A statement behind a keyword that declares nothing ends where skipping it comes out. -/
theorem runKeyword_skips (named : Keyword.ofName? cursor.readToken.1 = some keyword)
    (statement : keyword.startsExpression = false)
    (other : declarationKeywords.contains cursor.readToken.1 = false)
    (returns : Returns (runKeyword (evaluator depth) keyword cursor.readToken.2) start
      (value, behind) final) (nested : cursor.Nested)
    (clear : Unembedded cursor.source start final) :
    Cursor.skipWord Cursor.skipStatement cursor = .ok behind := by
  -- A keyword without parts, by where its statement has come to an end.
  have plain : keyword.name ∉ Cursor.compoundWords → Finishes cursor.readToken.2 start behind final →
      Cursor.skipWord Cursor.skipStatement cursor = .ok behind :=
    fun plain => Finishes.skips_spelled named plain nested clear
  -- A keyword with one spelling is known by it.
  have word : keyword ≠ .quitKeyword → cursor.readToken.1 = keyword.name := fun different =>
    (Keyword.spelled named).resolve_right fun quit => different quit.1
  cases keyword with
  | ifKeyword => exact Cursor.skipWord_spelled (word nofun) (by decide) (runIf_skips returns)
  | whileKeyword => exact Cursor.skipWord_spelled (word nofun) (by decide) (runWhile_skips returns)
  | forKeyword => exact Cursor.skipWord_spelled (word nofun) (by decide) (runFor_skips returns)
  | switchKeyword => exact Cursor.skipWord_spelled (word nofun) (by decide) (runSwitch_skips returns)
  | lockKeyword => exact Cursor.skipWord_spelled (word nofun) (by decide) (runLock_skips returns)
  | doKeyword =>
    rw [Cursor.skipWord_do (word nofun)]
    exact runDo_skips returns
  | tryKeyword =>
    rw [Cursor.skipWord_try (word nofun)]
    exact runTry_skips returns
  | throwKeyword => exact (runThrow_fails returns).elim
  | returnKeyword => exact plain (by decide) (runReturn_finishes returns)
  | breakKeyword => exact plain (by decide) (runSignal_finishes returns)
  | continueKeyword => exact plain (by decide) (runSignal_finishes returns)
  | quitKeyword => exact plain (by decide) (runQuit_finishes returns)
  | varKeyword => exact plain (by decide) (runVar_finishes returns)
  | elifKeyword => exact returns.failed.elim
  | elseKeyword => exact returns.failed.elim
  | caseKeyword => exact returns.failed.elim
  | defaultKeyword => exact returns.failed.elim
  | catchKeyword => exact returns.failed.elim
  | newKeyword => cases statement
  | threadKeyword => cases statement
  | spawnKeyword => cases statement
  | _ =>
    -- The other keywords declare something.
    rw [word nofun] at other
    cases other

/-- A declaration that has run ends with a block. -/
theorem runKeyword_ends {due : List Char} {place : Cursor}
    (named : Keyword.ofName? word = some keyword)
    (declares : declarationKeywords.contains word = true) (within : place.Within due)
    (returns : Returns (runKeyword (evaluator depth) keyword place) start (value, behind) final) :
    place.EndsWithBlock behind := by
  cases keyword with
  | functionKeyword => exact declareFunction_ends within returns
  | cfunctionKeyword => exact declareCompiled_ends within returns
  | classKeyword => exact declareClass_ends within returns
  | namespaceKeyword => exact runNamespace_ends returns
  | enumKeyword => exact declareEnum_ends returns
  | _ =>
    -- No other keyword is spelled like these.
    rcases Keyword.spelled named with rfl | ⟨_, rfl⟩ <;> exact absurd declares (by decide)

/-- Skipping the word at a cursor comes out where a statement ends, unless the word starts a
declaration with a brace in its header; then it comes out elsewhere. -/
structure Cursor.Agrees (cursor behind : Cursor) : Prop where
  skips : ¬ cursor.BracedHeader → skipWord skipStatement cursor = .ok behind
  misses : ∀ {next}, cursor.BracedHeader → skipWord skipStatement cursor = .ok next →
    next.skipSpaces ≠ behind.skipSpaces

/-- Skipping agrees with running where no declaration starts. -/
theorem Cursor.Agrees.of_skips
    (skips : skipWord skipStatement cursor = .ok behind)
    (other : declarationKeywords.contains cursor.readToken.1 = false) : cursor.Agrees behind where
  skips _ := skips
  misses header := by
    have declares := header.1
    rw [other] at declares
    cases declares

/-- Skipping agrees with running for a declaration. -/
theorem Cursor.Agrees.of_ends {due : List Char} (ends : cursor.readToken.2.EndsWithBlock behind)
    (declares : declarationKeywords.contains cursor.readToken.1 = true) (within : cursor.Within due) :
    cursor.Agrees behind where
  skips header := by
    rw [skipWord_declaration declares]
    exact ends.skips fun brace => header ⟨declares, brace⟩
  misses header skipped := by
    rw [skipWord_declaration declares] at skipped
    have token : cursor.Passes nothing cursor.readToken.2 := readToken_passes marks_nothing cursor
    exact ends.misses header.2 (token.within within) skipped

/-- What has no parts declares nothing. -/
theorem not_declares (plain : word ∉ Cursor.compoundWords) :
    declarationKeywords.contains word = false := by
  simp only [Cursor.compoundWords, List.mem_append, not_or] at plain
  simpa using plain.2

/-- Skipping agrees with running for a statement that starts with a word. -/
theorem runWord_agrees (intact : start.KeepsKeywords cursor.file) (plain : PlainActions start)
    (returns : Returns (runWord (evaluator depth) cursor) start (value, behind) final)
    (nested : cursor.Nested) (clear : Unembedded cursor.source start final) :
    cursor.Agrees behind := by
  have returns := returns.look
  split at returns
  case h_1 keyword found =>
    obtain ⟨named, statement⟩ := statementKeyword?_spelled intact found
    obtain ⟨due, within⟩ := nested
    cases declares : declarationKeywords.contains cursor.readToken.1 with
    | false =>
      exact .of_skips (runKeyword_skips named statement declares returns ⟨due, within⟩ clear) declares
    | true =>
      have token := Cursor.readToken_passes Cursor.marks_nothing cursor
      exact .of_ends (runKeyword_ends named declares (token.within within) returns) declares within
  case h_2 other =>
    have single := plain_of_expression intact other
    -- An assignment, or an expression behind the attempt to read one.
    have finishes : Finishes cursor start behind final := by
      obtain ⟨found, middle, assigned, returns⟩ := returns.bind
      cases found with
      | some finished =>
        obtain ⟨rfl, rfl⟩ := returns.done
        exact runAssignment?_finishes plain assigned
      | none =>
        have grows := assigned.grows
          (runAssignment_runs (evaluator_lawful depth) (tidy_of_lax start) cursor)
        exact (runExpression_finishes returns).after ((Moves.refl cursor start).aside grows)
    exact .of_skips (finishes.skips single nested clear) (not_declares single)

/-- No spaces stand behind spaces that were skipped. -/
theorem Cursor.skipSpaces_tight {c : Char} (starts : cursor.skipSpaces.current = some c) : c ≠ ' ' := by
  have stopped := List.head?_dropWhile_not (· == ' ') cursor.rest
  unfold current skipSpaces at starts
  rw [skipWhile_rest] at starts
  rw [starts] at stopped
  simpa using stopped

/-- A place where a step operator stands is not in front of a word. -/
theorem step_not_word {c : Char} (starts : cursor.current = some c)
    (step : (cursor.startsWith "++" || cursor.startsWith "--") = true) :
    Text.isWordStart c = false := by
  simp only [Cursor.startsWith, Cursor.rest_of_current starts, Bool.or_eq_true] at step
  rcases step with plus | minus
  · cases (List.cons_prefix_cons.mp (List.isPrefixOf_iff_prefix.mp plus)).1
    decide
  · cases (List.cons_prefix_cons.mp (List.isPrefixOf_iff_prefix.mp minus)).1
    decide

/-- What does not start with a word is none that starts a statement with parts. -/
theorem not_compound {c : Char} (starts : cursor.current = some c) (tight : c ≠ ' ')
    (other : Text.isWordStart c = false) : cursor.readToken.1 ∉ Cursor.compoundWords := by
  intro compound
  rw [Cursor.compound_starts starts tight compound] at other
  cases other

/-- Skipping agrees with running for a statement that starts with neither a brace nor a semicolon. -/
theorem runUnbraced_agrees {c : Char} (starts : cursor.current = some c) (tight : c ≠ ' ')
    (intact : start.KeepsKeywords cursor.file) (plain : PlainActions start)
    (returns : Returns
      (if cursor.startsWith "++" || cursor.startsWith "--" then runStep (evaluator depth) cursor
      else if Text.isWordStart c then runWord (evaluator depth) cursor
      else runExpression (evaluator depth) cursor) start (value, behind) final)
    (nested : cursor.Nested)
    (clear : Grows start final → Unembedded cursor.source start final) : cursor.Agrees behind := by
  -- What does not start with a word has no parts.
  have bare : Text.isWordStart c = false → Finishes cursor start behind final →
      cursor.Agrees behind := by
    intro other finishes
    have single := not_compound starts tight other
    exact .of_skips (finishes.skips single nested (clear finishes.grows)) (not_declares single)
  split at returns
  case isTrue step => exact bare (step_not_word starts step) (runStep_finishes plain returns)
  case isFalse =>
    split at returns
    case isTrue =>
      have yields := runWord_yields (evaluator_lawful depth) (tidy_of_lax start) cursor
      exact runWord_agrees intact plain returns nested (clear (returns.grows yields))
    case isFalse other => exact bare (by simpa using other) (runExpression_finishes returns)

/-- Skipping agrees with running for each statement. -/
theorem runStatement_agrees {c : Char} (starts : cursor.skipSpaces.current = some c)
    (intact : start.KeepsKeywords cursor.file) (plain : PlainActions start)
    (returns : Returns (runStatement (evaluator depth) cursor) start (value, behind) final)
    (nested : cursor.Nested) (clear : Unembedded cursor.source start final) :
    (¬ cursor.skipSpaces.BracedHeader → cursor.skipStatement = .ok behind) ∧
      ∀ next, cursor.skipSpaces.BracedHeader → cursor.skipStatement = .ok next →
        next.skipSpaces ≠ behind.skipSpaces := by
  have tight := Cursor.skipSpaces_tight starts
  -- A brace or a semicolon starts no declaration.
  have headless : Text.isWordStart c = false → ¬ cursor.skipSpaces.BracedHeader := by
    intro other header
    have declares := header.1
    rw [not_declares (not_compound starts tight other)] at declares
    cases declares
  obtain ⟨_, returns⟩ := returns.checked
  obtain ⟨cancelled, hostRequest, milestones, looked⟩ := start.look_eq
  rw [looked] at returns
  have returns := returns.change
  split at returns
  case h_1 none => cases starts.symm.trans none
  case h_2 semicolon =>
    cases starts.symm.trans semicolon
    obtain ⟨same, rfl⟩ := returns.done
    cases same
    have skipped : cursor.skipStatement = .ok cursor.skipSpaces.advance := by
      rw [Cursor.skipStatement_eq]
      unfold Cursor.skipWith
      simp only [semicolon]
    exact ⟨fun _ => skipped, fun next header _ => absurd header (headless (by decide))⟩
  case h_3 brace =>
    cases starts.symm.trans brace
    obtain ⟨⟨body, place⟩, block, returns⟩ := returns.read
    obtain ⟨_, _, same⟩ := returns.mapped
    cases same
    rw [Cursor.readBalanced_skipSpaces] at block
    exact ⟨fun _ => Cursor.skipStatement_block block,
      fun next header _ => absurd header (headless (by decide))⟩
  case h_4 first semicolon brace current =>
    cases starts.symm.trans current
    have spaced : cursor.Passes nothing cursor.skipSpaces := .skipSpaces Cursor.marks_nothing
    have here := nested.imp fun _ within => spaced.within within
    have file : cursor.file = cursor.skipSpaces.file :=
      congrArg SourceText.file cursor.skipSpaces_source.symm
    rw [file] at intact
    rw [← Cursor.skipSpaces_source] at clear
    -- What is noted of the start of the statement changes no name and no token.
    let noted := ({ start with cancelled, hostRequest, milestones } : Engine).startStatement
      cursor.skipSpaces.site
    have keeps : noted.KeepsKeywords cursor.skipSpaces.file := intact
    have tokens : PlainActions noted := plain
    have late : Grows noted final → Unembedded cursor.skipSpaces.source noted final :=
      fun grows => (clear.split ⟨[_], rfl⟩ grows).2
    have agrees : cursor.skipSpaces.Agrees behind :=
      runUnbraced_agrees starts tight keeps tokens returns here late
    rw [Cursor.skipStatement_word starts (fun same => brace same) (fun same => semicolon same)]
    exact ⟨agrees.skips, fun _ => agrees.misses⟩

namespace Cursor

/-- A place in canonical text outside literals, or in the text of a group that is read there. -/
inductive InCanonical (canonical : Canonical) (file : String) : Cursor → Prop where
  | whole {cursor : Cursor} (source : cursor.source = (ofCanonical canonical file).source)
      (outside : (cursor.source.text.take cursor.pos).foldl Quoting.next .outside = .outside) :
    InCanonical canonical file cursor
  | group {cursor behind place : Cursor} {opener closer : Char} {text : List Char}
      (within : InCanonical canonical file cursor) (opens : Canonical.closer? opener = some closer)
      (read : cursor.readBalanced opener closer = .ok (text, behind))
      (source : place.source = (behind.child text).source)
      (outside : (place.source.text.take place.pos).foldl Quoting.next .outside = .outside) :
    InCanonical canonical file place

/-- Skipping the statement at a cursor succeeds, comes further and comes out at a place, up to the
spaces there. -/
def SkipsTo (cursor behind : Cursor) : Prop :=
  ∃ next, cursor.skipStatement = .ok next ∧ cursor.pos < next.pos ∧ next.skipSpaces = behind.skipSpaces

/-- A place in canonical text is nested in the groups that are open there. -/
theorem InCanonical.nested {source file : String} {canonical : Canonical}
    (accepted : Canonical.ofSource source file = .ok canonical)
    (inside : cursor.InCanonical canonical file) : cursor.Nested := by
  -- The induction is on the groups that the place is in.
  induction inside with
  | whole source outside =>
    refine within_of_balanced ?_ outside
    rw [source]
    exact Canonical.ofSource_balanced accepted
  | group _ opens read source outside ih =>
    obtain ⟨due, within⟩ := ih
    refine within_of_balanced ?_ outside
    rw [source]
    exact readBalanced_balanced opens within read

end Cursor

/-- Wherever a statement starts in canonical text, skipping it comes out where running it ends, exactly
unless the statement is a declaration with a brace in its header; for an interpreter whose keywords
have kept their names and whose actions have plain tokens, and if no statement is run as an operand of
the one in question. The search for a label in a block ends, unless it comes to such a declaration. -/
theorem skipping_agrees_with_running {source file : String} {canonical : Canonical}
    (accepted : Canonical.ofSource source file = .ok canonical) {cursor : Cursor}
    (inside : cursor.InCanonical canonical file) :
    (∀ {depth start final value behind c}, cursor.skipSpaces.current = some c → c ≠ '}' →
      start.KeepsKeywords cursor.file → PlainActions start →
      (evaluator depth .statement cursor start).MayEnd KeepsOwn (.ok (value, behind)) final →
      Unembedded cursor.source start final →
      (cursor.SkipsTo behind ↔ ¬ cursor.skipSpaces.BracedHeader)) ∧
    ∀ {body behind place}, cursor.readBalanced '{' '}' = .ok (body, behind) →
      (behind.child body).Passes nothing place →
      place.skipToLabel (place.left + 1) = .ok none → place.Strays := by
  have nested := inside.nested accepted
  -- Where the braces of the source close, so do those around the statement.
  constructor
  · intro depth start final value behind c starts brace intact plain ends clear
    cases depth with
    | zero => cases ends
    | succ depth =>
      obtain ⟨skips, misses⟩ := runStatement_agrees starts intact plain ends nested clear
      constructor
      · rintro ⟨next, skipped, _, same⟩ header
        exact misses next header skipped same
      · intro level
        have skipped := skips level
        have further := Cursor.skipStatement_lt starts brace skipped
        exact ⟨behind, skipped,
          Cursor.pos_lt_of_left_lt (Cursor.skipStatement_forward skipped).1 further, rfl⟩
  · intro body behind place read passes endless
    obtain ⟨due, within⟩ := nested
    have closed : (behind.child body).Within [] := Cursor.readBalanced_balanced rfl within read
    exact Cursor.skipToLabel_ends (passes.within closed) (Nat.lt_succ_self _) endless

/-- Whether an entry of a log tells of a keyword that was run as an operand. -/
def Event.isEmbedding : Event → Bool
  | .embedded .. => true
  | _ => false

/-- The canonical text of a script of one line. -/
def oneLine (text : String) : Canonical := ⟨text.toList.map (·, 1)⟩

/-- The start of the declaration of a function whose parameter has an empty map as its default. -/
def bracedFunction : Cursor := .ofCanonical (oneLine "function f(a={}){return a;}") "main"

/-- The start of a block with the same declaration. -/
def bracedBlock : Cursor := .ofCanonical (oneLine "{function f(a={}){return a;}}") "main"

set_option maxRecDepth 4000 in
/-- The declaration runs, and skipping it does not come out behind it. In the block the search for a
label does not come to an end. -/
theorem skipping_agrees_with_running_header :
    (∃ value behind final, (evaluator 2 .statement bracedFunction (.new {} {})).MayEnd KeepsOwn
        (.ok (value, behind)) final ∧ behind.atEnd = true ∧ ¬ bracedFunction.SkipsTo behind) ∧
      ∃ body behind, bracedBlock.readBalanced '{' '}' = .ok (body, behind) ∧
        (behind.child body).Strays := by
  constructor
  · have accepted : Canonical.ofSource "function f(a = {}) { return a; }" "main" =
        .ok (oneLine "function f(a={}){return a;}") := rfl
    have starts : bracedFunction.skipSpaces.current = some 'f' := rfl
    -- The run ends behind the whole text, without a statement as an operand.
    have ran : ((evaluator 2 .statement bracedFunction (.new {} {})).ended?.map
        fun ended => ended.1.2.atEnd && !ended.2.events.any Event.isEmbedding) = some true := by
      decide +kernel
    obtain ⟨⟨⟨value, behind⟩, final⟩, ended, found⟩ := Option.map_eq_some_iff.mp ran
    simp only [Bool.and_eq_true, Bool.not_eq_true', List.any_eq_false] at found
    have ends := Returns.of_ended ended
    refine ⟨value, behind, final, ends, found.1, ?_⟩
    have agrees : bracedFunction.SkipsTo behind ↔ ¬ bracedFunction.skipSpaces.BracedHeader :=
      (skipping_agrees_with_running accepted (.whole rfl rfl)).1 starts (by decide)
      (keepsKeywords_new _ _ _) (plainActions_new _ _) ends
      ⟨final.events, (List.append_nil _).symm, fun keyword cursor member _ =>
        absurd rfl (found.2 _ member)⟩
    rw [agrees, Classical.not_not]
    exact ⟨by decide +kernel, 13, rfl, by decide +kernel⟩
  · have accepted : Canonical.ofSource "{ function f(a = {}) { return a; } }" "main" =
        .ok (oneLine "{function f(a={}){return a;}}") := rfl
    have read : bracedBlock.readBalanced '{' '}' =
        .ok ("function f(a={}){return a;}".toList, bracedBlock.advanceBy 29) := by rfl
    exact ⟨_, _, read, (skipping_agrees_with_running accepted (.whole rfl rfl)).2 read (.refl _ _) rfl⟩

end ScriptEngine
