import ScriptEngine.Proofs.Source.Passage

/-! Skipping a statement: the bound on its nesting plays no part, and it always comes further. -/

namespace ScriptEngine

namespace Cursor

variable {cursor middle next behind : Cursor} {skip other : Cursor → Read Cursor}

/-- A skip never comes back. -/
def Forward (skip : Cursor → Read Cursor) : Prop :=
  ∀ {cursor next}, skip cursor = .ok next → next.source = cursor.source ∧ next.left ≤ cursor.left

@[simp]
theorem advanceBy_left (cursor : Cursor) (count : Nat) :
    (cursor.advanceBy count).left = cursor.left - count := by
  simp [left_eq_length]

/-- A place is no further than one behind spaces. -/
theorem skipSpaces_left (cursor : Cursor) : cursor.skipSpaces.left ≤ cursor.left := by
  unfold skipSpaces skipWhile
  rw [advanceBy_left]
  omega

@[simp]
theorem readToken_source (cursor : Cursor) : cursor.readToken.2.source = cursor.source := by
  simp [readToken]

/-- A place is no further than one behind a word. -/
theorem readToken_left (cursor : Cursor) : cursor.readToken.2.left ≤ cursor.left := by
  have spaced := cursor.skipSpaces_left
  simp only [readToken, advanceBy_left]
  omega

@[simp]
theorem skipToken_source (cursor : Cursor) : cursor.skipToken.source = cursor.source :=
  cursor.readToken_source

/-- A place is no further than one behind a word that is skipped. -/
theorem skipToken_left (cursor : Cursor) : cursor.skipToken.left ≤ cursor.left :=
  cursor.readToken_left

/-- Behind a word that is not empty less follows. -/
theorem readToken_left_lt (word : cursor.readToken.1 ≠ "") :
    cursor.readToken.2.left < cursor.left := by
  have spaced := cursor.skipSpaces_left
  -- A word has a character, which is passed.
  have some : cursor.skipSpaces.rest.takeWhile Text.isWordChar ≠ [] := by
    intro none
    exact word (by simp [readToken, none])
  have taken := List.length_pos_iff.mpr some
  have bound := (List.takeWhile_prefix Text.isWordChar (l := cursor.skipSpaces.rest)).length_le
  rw [← left_eq_length] at bound
  simp only [readToken, advanceBy_left]
  omega

/-- Behind a group less follows than in front of it. -/
theorem readBalanced_left {opener closer : Char} {text : List Char}
    (read : cursor.readBalanced opener closer = .ok (text, behind)) :
    behind.source = cursor.source ∧ behind.left < cursor.left := by
  -- The opening bracket is passed at least.
  have starts := readBalanced_starts read
  have shape := congrArg List.length (rest_of_current starts)
  have spaced := cursor.skipSpaces_left
  unfold readBalanced at read
  simp only [starts, if_true] at read
  split at read
  · cases read
    refine ⟨by simp, ?_⟩
    rw [← left_eq_length, List.length_cons, ← left_eq_length] at shape
    rw [advanceBy_left]
    omega
  · cases read

/-- A header in parentheses is passed forward. -/
theorem skipHeader_left (read : cursor.skipHeader = .ok next) :
    next.source = cursor.source ∧ next.left ≤ cursor.left := by
  have spaced := cursor.skipSpaces_left
  unfold skipHeader at read
  dsimp only at read
  -- There is a group to pass, or only spaces are.
  split at read
  · obtain ⟨⟨text, behind⟩, group, same⟩ := ok_of_bind read
    cases same
    obtain ⟨source, less⟩ := readBalanced_left group
    rw [skipSpaces_source] at source
    exact ⟨source, Nat.le_trans (Nat.le_of_lt less) spaced⟩
  · cases read
    exact ⟨cursor.skipSpaces_source, spaced⟩

/-- The next statement is no further back. -/
theorem nextStatement_left (cursor : Cursor) :
    cursor.nextStatement.source = cursor.source ∧ cursor.nextStatement.left ≤ cursor.left := by
  unfold nextStatement
  dsimp only
  split
  · -- The end of the statement is passed with its semicolon, and else all that is left.
    split
    · simp only [advance, advanceBy_left, advanceBy_source, true_and]
      omega
    · simp only [advanceBy_left, advanceBy_source, true_and]
      omega
  · exact ⟨rfl, by simp [left_eq_length]⟩

/-- The first of some characters that follow is found behind some text. -/
theorem findFirst?_found {delimiters : List Char} {offset : Nat}
    (found : cursor.findFirst? delimiters = some offset) :
    ∃ taken c rest, cursor.rest = taken ++ c :: rest ∧ offset = cursor.pos + taken.length ∧
      taken.foldl Quoting.next .outside = .outside ∧ delimiters.contains c = true := by
  obtain ⟨taken, rest, _, same, place, outside, here⟩ := Nesting.scan_found found
  cases rest with
  | nil => cases here
  | cons c rest => exact ⟨taken, c, rest, same, place, outside, here⟩

/-- The first of some characters is found no later than where one of them stands outside literals. -/
theorem findFirst?_le {delimiters taken rest : List Char} {c : Char}
    (same : cursor.rest = taken ++ c :: rest) (member : delimiters.contains c = true)
    (outside : taken.foldl Quoting.next .outside = .outside) :
    ∃ offset, cursor.findFirst? delimiters = some offset ∧ offset ≤ cursor.pos + taken.length := by
  unfold findFirst?
  rw [same]
  exact Nesting.scan_le (fun _ => member) outside

/-- A statement behind parentheses is skipped forward. -/
theorem skipGuarded_left (forward : Forward skip) (skipped : skipGuarded skip cursor = .ok next) :
    next.source = cursor.source ∧ next.left < cursor.left := by
  obtain ⟨⟨text, body⟩, read, skipped⟩ := ok_of_bind skipped
  have group := readBalanced_left read
  have branch := forward skipped
  exact ⟨branch.1.trans group.1, Nat.lt_of_le_of_lt branch.2 group.2⟩

/-- Clauses are skipped forward if statements are. -/
theorem skipClauses_forward (forward : Forward skip) (clauses : Nat) :
    Forward (skipClauses skip clauses) := by
  -- The induction is on the clauses that may still follow.
  induction clauses with
  | zero =>
    intro cursor next skipped
    cases skipped
    exact ⟨rfl, Nat.le_refl _⟩
  | succ clauses ih =>
    intro cursor next skipped
    have token := cursor.skipToken_left
    have second := cursor.skipToken.skipToken_left
    unfold skipClauses at skipped
    split at skipped
    · obtain ⟨body, branch, skipped⟩ := ok_of_bind skipped
      have branch := skipGuarded_left forward branch
      have others := ih skipped
      exact ⟨others.1.trans (branch.1.trans cursor.skipToken_source), by omega⟩
    · dsimp only at skipped
      split at skipped
      · obtain ⟨body, branch, skipped⟩ := ok_of_bind skipped
        have branch := skipGuarded_left forward branch
        have others := ih skipped
        exact ⟨others.1.trans (branch.1.trans (by simp)), by omega⟩
      · have branch := forward skipped
        exact ⟨branch.1.trans cursor.skipToken_source, Nat.le_trans branch.2 token⟩
    · cases skipped
      exact ⟨rfl, Nat.le_refl _⟩

/-- A headed statement is skipped forward if those in it are. -/
theorem skipHeaded_forward (forward : Forward skip) (keyword : String) :
    Forward (skipHeaded skip keyword) := by
  intro cursor next skipped
  obtain ⟨headed, header, skipped⟩ := ok_of_bind skipped
  obtain ⟨branch, body, skipped⟩ := ok_of_bind skipped
  have header := skipHeader_left header
  -- Header and body are passed in turn, and none of them goes back.
  have body := forward body
  split at skipped
  · have clauses := skipClauses_forward forward _ skipped
    exact ⟨clauses.1.trans (body.1.trans header.1), by omega⟩
  · cases skipped
    exact ⟨body.1.trans header.1, by omega⟩

/-- A `try` statement is skipped forward if those in it are. -/
theorem skipTry_forward (forward : Forward skip) : Forward (skipTry skip) := by
  intro cursor next skipped
  obtain ⟨behind, body, skipped⟩ := ok_of_bind skipped
  have body := forward body
  have token := behind.skipToken_left
  -- Behind the body there may be a clause for failures.
  split at skipped
  · have handler := skipGuarded_left forward skipped
    exact ⟨handler.1.trans (by simp [body.1]), by omega⟩
  · cases skipped
    exact body

/-- The semicolon that may follow is passed forward. -/
theorem consume?_left (token : String) :
    ((cursor.consume? token).getD cursor).source = cursor.source ∧
      ((cursor.consume? token).getD cursor).left ≤ cursor.left := by
  unfold consume?
  split
  · simp
  · exact ⟨rfl, Nat.le_refl _⟩

/-- The condition of a `do` statement is skipped forward. -/
theorem skipCondition_left (skipped : cursor.skipCondition = .ok next) :
    next.source = cursor.source ∧ next.left ≤ cursor.left := by
  unfold skipCondition at skipped
  -- The condition is a group behind a word, if there is one.
  split at skipped
  · obtain ⟨⟨text, behind⟩, group, same⟩ := ok_of_bind skipped
    cases same
    have token := cursor.skipToken_left
    have group := readBalanced_left group
    exact ⟨group.1.trans cursor.skipToken_source, Nat.le_trans (Nat.le_of_lt group.2) token⟩
  · cases skipped
    exact ⟨rfl, Nat.le_refl _⟩

/-- A `do` statement is skipped forward if those in it are. -/
theorem skipDo_forward (forward : Forward skip) : Forward (skipDo skip) := by
  intro cursor next skipped
  obtain ⟨behind, body, skipped⟩ := ok_of_bind skipped
  -- Body, condition, spaces and semicolon are passed in turn.
  obtain ⟨tail, condition, same⟩ := ok_of_bind skipped
  cases same
  have body := forward body
  have condition := skipCondition_left condition
  have spaced := tail.skipSpaces_left
  have ended := tail.skipSpaces.consume?_left ";"
  rw [skipSpaces_source] at ended
  exact ⟨ended.1.trans (condition.1.trans body.1), by omega⟩

/-- A block is skipped forward. -/
theorem skipBlock_left (skipped : cursor.skipBlock = .ok next) :
    next.source = cursor.source ∧ next.left < cursor.left := by
  obtain ⟨⟨text, behind⟩, group, same⟩ := ok_of_bind skipped
  cases same
  exact readBalanced_left group

/-- A declaration is skipped forward. -/
theorem skipDeclaration_left (skipped : cursor.skipDeclaration = .ok next) :
    next.source = cursor.source ∧ next.left < cursor.left := by
  unfold skipDeclaration at skipped
  split at skipped
  case h_1 offset found =>
    -- The block starts at the first brace, behind the start of the declaration.
    obtain ⟨taken, _, _, _, rfl, _⟩ := findFirst?_found found
    have block := skipBlock_left skipped
    rw [moveTo_source, left_eq_length (moveTo ..), moveTo_rest, List.length_drop,
      ← left_eq_length] at block
    exact ⟨block.1, by omega⟩
  case h_2 => cases skipped

/-- The statement that starts with a word is skipped forward if those in it are, and beyond the word
if that has more than an operand behind it. -/
theorem skipWord_forward (forward : Forward skip) : Forward (skipWord skip) := by
  intro cursor next skipped
  have token := cursor.readToken_left
  have source := cursor.readToken_source
  -- What comes further from behind the word comes further from the word.
  have further : next.source = cursor.readToken.2.source ∧ next.left ≤ cursor.readToken.2.left →
      next.source = cursor.source ∧ next.left ≤ cursor.left :=
    fun ⟨same, less⟩ => ⟨same.trans source, Nat.le_trans less token⟩
  unfold skipWord at skipped
  dsimp only at skipped
  split at skipped
  · exact further (skipHeaded_forward forward _ skipped)
  split at skipped
  · exact further (forward skipped)
  split at skipped
  · exact further (skipTry_forward forward skipped)
  split at skipped
  · exact further (skipDo_forward forward skipped)
  split at skipped
  · exact further ((skipDeclaration_left skipped).imp_right Nat.le_of_lt)
  · cases skipped
    exact cursor.nextStatement_left

/-- A statement is skipped forward if those in it are. -/
theorem skipWith_forward (forward : Forward skip) : Forward (skipWith skip) := by
  intro cursor next skipped
  have spaced := cursor.skipSpaces_left
  have source := cursor.skipSpaces_source
  unfold skipWith at skipped
  dsimp only at skipped
  -- Nothing is passed in front of a closing brace; a block and a word are passed whole.
  split at skipped
  · cases skipped
    exact ⟨source, spaced⟩
  · have block := skipBlock_left skipped
    exact ⟨block.1.trans source, by omega⟩
  · cases skipped
    simp only [advance, advanceBy_left, advanceBy_source, source, true_and]
    omega
  · have word := skipWord_forward forward skipped
    exact ⟨word.1.trans source, by omega⟩

/-- Whatever the bound on the nesting, a skip comes forward. -/
theorem skipNested_forward (depth : Nat) : Forward (skipNested depth) := by
  induction depth with
  | zero =>
    intro cursor next skipped
    cases skipped
    exact ⟨rfl, Nat.le_refl _⟩
  | succ depth ih => exact skipWith_forward ih

/-- A statement is skipped forward. -/
theorem skipStatement_forward : Forward skipStatement := fun skipped =>
  skipNested_forward _ skipped

/-- Two ways to skip agree on all places behind which less than a bound follows. -/
def AgreeBelow (bound : Nat) (skip other : Cursor → Read Cursor) : Prop :=
  ∀ {cursor : Cursor}, cursor.left < bound → skip cursor = other cursor

section Congruence

variable {bound : Nat}

/-- What is skipped behind parentheses depends only on what follows there. -/
theorem skipGuarded_congr (agree : AgreeBelow bound skip other) (near : cursor.left ≤ bound) :
    skipGuarded skip cursor = skipGuarded other cursor := by
  refine bind_congr_ok fun ⟨text, body⟩ read => ?_
  exact agree (Nat.lt_of_lt_of_le (readBalanced_left read).2 near)

/-- How clauses are skipped depends only on what follows. -/
theorem skipClauses_congr (agree : AgreeBelow bound skip other) (forward : Forward other)
    (clauses : Nat) :
    ∀ {cursor : Cursor}, cursor.left ≤ bound →
      skipClauses skip clauses cursor = skipClauses other clauses cursor := by
  induction clauses with
  | zero => exact fun _ => rfl
  | succ clauses ih =>
    intro cursor near
    have token := cursor.skipToken_left
    have second := cursor.skipToken.skipToken_left
    -- A clause with a condition, and the clauses behind it.
    have guarded : ∀ {start : Cursor}, start.left ≤ bound →
        (do skipClauses skip clauses (← skipGuarded skip start)) =
          (do skipClauses other clauses (← skipGuarded other start)) := by
      intro start near
      rw [skipGuarded_congr agree near]
      refine bind_congr_ok fun next skipped => ih ?_
      have further := skipGuarded_left forward skipped
      omega
    unfold skipClauses
    split
    · exact guarded (Nat.le_trans token near)
    case h_2 word =>
      dsimp only
      split
      · exact guarded (Nat.le_trans second (Nat.le_trans token near))
      · have less : cursor.readToken.2.left < cursor.left := by
          refine readToken_left_lt ?_
          rw [show cursor.readToken.1 = "else" from word]
          decide
        exact agree (Nat.lt_of_lt_of_le less near)
    · rfl

/-- How a headed statement is skipped depends only on what follows its keyword. -/
theorem skipHeaded_congr (agree : AgreeBelow bound skip other) (forward : Forward other)
    (keyword : String) (near : cursor.left < bound) :
    skipHeaded skip keyword cursor = skipHeaded other keyword cursor := by
  refine bind_congr_ok fun headed header => ?_
  have header := skipHeader_left header
  rw [agree (Nat.lt_of_le_of_lt header.2 near)]
  refine bind_congr_ok fun next skipped => ?_
  have body := forward skipped
  rw [skipClauses_congr agree forward next.left (by omega)]

/-- How a `try` statement is skipped depends only on what follows its keyword. -/
theorem skipTry_congr (agree : AgreeBelow bound skip other) (forward : Forward other)
    (near : cursor.left < bound) : skipTry skip cursor = skipTry other cursor := by
  unfold skipTry
  rw [agree near]
  refine bind_congr_ok fun next skipped => ?_
  have body := forward skipped
  have token := next.skipToken_left
  rw [skipGuarded_congr agree (by omega)]

/-- How the statement that starts with a word is skipped depends only on what follows the word. -/
theorem skipWord_congr (agree : AgreeBelow cursor.left skip other) (forward : Forward other) :
    skipWord skip cursor = skipWord other cursor := by
  -- Behind a word that is one of the keywords less follows.
  have less : ∀ {word}, cursor.readToken.1 = word → word ≠ "" →
      cursor.readToken.2.left < cursor.left := fun same word =>
    readToken_left_lt (same ▸ word)
  unfold skipWord
  dsimp only
  split
  case isTrue headed =>
    have word : cursor.readToken.1 ≠ "" := by
      intro none
      rw [none] at headed
      revert headed
      decide
    exact skipHeaded_congr agree forward _ (less rfl word)
  split
  case isTrue word => exact agree (less word (by decide))
  split
  case isTrue word => exact skipTry_congr agree forward (less word (by decide))
  split
  case isTrue word =>
    unfold skipDo
    rw [agree (less word (by decide))]
  · rfl

/-- How a statement is skipped depends only on what follows its first character. -/
theorem skipWith_congr (agree : AgreeBelow cursor.left skip other) (forward : Forward other) :
    skipWith skip cursor = skipWith other cursor := by
  have spaced := cursor.skipSpaces_left
  unfold skipWith
  dsimp only
  -- Only a word leads to statements further inside.
  split
  · rfl
  · rfl
  · rfl
  · exact skipWord_congr (fun near => agree (Nat.lt_of_lt_of_le near spaced)) forward

end Congruence

/-- A bound on the nesting beyond what follows is no bound. -/
theorem skipNested_eq {depth more : Nat} (enough : cursor.left < depth) (plenty : cursor.left < more) :
    skipNested depth cursor = skipNested more cursor := by
  -- The induction is on the first bound; what is skipped inside starts further on.
  induction depth generalizing cursor more with
  | zero => omega
  | succ depth ih =>
    cases more with
    | zero => omega
    | succ more =>
      refine skipWith_congr (fun near => ih ?_ ?_) (skipNested_forward more)
      · omega
      · omega

/-- A statement is skipped by skipping the statements in it. -/
theorem skipStatement_eq (cursor : Cursor) :
    cursor.skipStatement = skipWith skipStatement cursor :=
  skipWith_congr (fun near => skipNested_eq near (Nat.lt_succ_self _)) skipStatement_forward

/-- No clause starts where nothing follows. -/
theorem skipClauses_done (done : cursor.left = 0) (clauses : Nat) :
    skipClauses skip clauses cursor = .ok cursor := by
  -- A word would have characters.
  have less : ∀ {word}, cursor.peekToken = word → word ≠ "" → False := by
    rintro _ rfl some
    have further := readToken_left_lt some
    omega
  cases clauses with
  | zero => rfl
  | succ clauses =>
    unfold skipClauses
    split
    case h_1 word => exact (less word (by decide)).elim
    case h_2 word => exact (less word (by decide)).elim
    case h_3 => rfl

/-- A bound on the number of clauses beyond what follows is no bound. -/
theorem skipClauses_eq (forward : Forward skip) {clauses more : Nat}
    (enough : cursor.left ≤ clauses) (plenty : cursor.left ≤ more) :
    skipClauses skip clauses cursor = skipClauses skip more cursor := by
  induction clauses generalizing cursor more with
  | zero => rw [skipClauses_done (by omega), skipClauses_done (by omega)]
  | succ clauses ih =>
    cases more with
    | zero => rw [skipClauses_done (by omega), skipClauses_done (by omega)]
    | succ more =>
      have token := cursor.skipToken_left
      have second := cursor.skipToken.skipToken_left
      -- A clause with a condition takes at least one character.
      have guarded : ∀ {start : Cursor}, start.left ≤ cursor.left →
          (do skipClauses skip clauses (← skipGuarded skip start)) =
            (do skipClauses skip more (← skipGuarded skip start)) := by
        intro start near
        refine bind_congr_ok fun next skipped => ?_
        have further := skipGuarded_left forward skipped
        exact ih (by omega) (by omega)
      unfold skipClauses
      split
      · exact guarded token
      · dsimp only
        split
        · exact guarded (Nat.le_trans second token)
        · rfl
      · rfl

/-- Behind the first branch of an `if` its clauses are skipped. -/
theorem skipElseChain_eq (cursor : Cursor) :
    cursor.skipElseChain = skipClauses skipStatement cursor.left cursor :=
  skipClauses_eq skipStatement_forward (Nat.le_succ _) (Nat.le_refl _)

/-- The next statement is further on unless a block ends where the cursor stands. -/
theorem nextStatement_lt {c : Char} (starts : cursor.current = some c) (brace : c ≠ '}') :
    cursor.nextStatement.left < cursor.left := by
  have shape := rest_of_current starts
  have some := congrArg List.length shape
  rw [← left_eq_length, List.length_cons] at some
  unfold nextStatement
  dsimp only
  split
  case h_1 distance found =>
    split
    · simp only [advance, advanceBy_left]
      omega
    case isFalse other =>
      -- Only a semicolon could have been found at once.
      have further : distance ≠ 0 := by
        rintro rfl
        obtain ⟨taken, rest, nested, same, zero, _, stops⟩ := Nesting.scan_found found
        cases List.eq_nil_of_length_eq_zero (show taken.length = 0 by omega)
        rw [← same.trans (List.nil_append rest), shape] at stops
        simp only [headIs, Bool.and_eq_true, Bool.or_eq_true, beq_iff_eq, brace, or_false] at stops
        refine other ?_
        rw [current, advanceBy_rest, List.drop_zero, shape, stops.2]
        rfl
      rw [advanceBy_left]
      omega
  · rw [left_eq_length, finish_rest, List.length_nil]
    omega

/-- The statement that starts with a word is skipped further than its first character. -/
theorem skipWord_lt (forward : Forward skip) {c : Char} (starts : cursor.current = some c)
    (brace : c ≠ '}') (skipped : skipWord skip cursor = .ok next) : next.left < cursor.left := by
  have less : ∀ {word}, cursor.readToken.1 = word → word ≠ "" →
      next.left ≤ cursor.readToken.2.left → next.left < cursor.left := by
    rintro _ rfl some bound
    exact Nat.lt_of_le_of_lt bound (readToken_left_lt some)
  -- None of the keywords is empty.
  have listed : ∀ {words : List String}, words.contains "" = false →
      words.contains cursor.readToken.1 = true → cursor.readToken.1 ≠ "" := by
    intro words none found same
    rw [same, none] at found
    cases found
  unfold skipWord at skipped
  dsimp only at skipped
  -- Each kind of statement is passed from behind its word at least.
  split at skipped
  case isTrue word =>
    exact less rfl (listed (by decide) word) (skipHeaded_forward forward _ skipped).2
  split at skipped
  case isTrue word => exact less word (by decide) (forward skipped).2
  split at skipped
  case isTrue word => exact less word (by decide) (skipTry_forward forward skipped).2
  split at skipped
  case isTrue word => exact less word (by decide) (skipDo_forward forward skipped).2
  split at skipped
  case isTrue word =>
    exact less rfl (listed (by decide) word) (Nat.le_of_lt (skipDeclaration_left skipped).2)
  · cases skipped
    exact nextStatement_lt starts brace

/-- A statement is skipped further than where it starts. -/
theorem skipStatement_lt {c : Char} (starts : cursor.skipSpaces.current = some c) (brace : c ≠ '}')
    (skipped : cursor.skipStatement = .ok next) : next.left < cursor.left := by
  have spaced := cursor.skipSpaces_left
  have shape := congrArg List.length (rest_of_current starts)
  rw [← left_eq_length, List.length_cons] at shape
  rw [skipStatement_eq] at skipped
  unfold skipWith at skipped
  -- There is something to pass, and it is no closing brace.
  dsimp only at skipped
  split at skipped
  case h_1 none =>
    rw [starts] at none
    cases none
  case h_2 =>
    have block := skipBlock_left skipped
    omega
  case h_3 =>
    cases skipped
    simp only [advance, advanceBy_left]
    omega
  case h_4 =>
    have word := skipWord_lt skipStatement_forward starts brace skipped
    omega

/-- There are no spaces behind spaces that were skipped. -/
theorem skipSpaces_skipSpaces (cursor : Cursor) : cursor.skipSpaces.skipSpaces = cursor.skipSpaces := by
  refine eq_of_rest (by simp) ?_
  have stopped := List.head?_dropWhile_not (· == ' ') cursor.rest
  unfold skipSpaces
  rw [skipWhile_rest, skipWhile_rest]
  -- What is left starts with another character than a space, or is nothing.
  cases same : cursor.rest.dropWhile (· == ' ') with
  | nil => rfl
  | cons c rest =>
    rw [same] at stopped
    exact List.dropWhile_cons_of_neg (by simpa using stopped)

/-- Spaces in front of a statement do not matter. -/
theorem skipStatement_skipSpaces (cursor : Cursor) :
    cursor.skipSpaces.skipStatement = cursor.skipStatement := by
  rw [skipStatement_eq, skipStatement_eq]
  unfold skipWith
  rw [skipSpaces_skipSpaces]

/-- A body is read as far as it would be skipped. -/
theorem readBody_skip {body : List Char} (read : cursor.readBody = .ok (body, next)) :
    cursor.skipStatement = .ok next := by
  unfold readBody at read
  dsimp only at read
  -- The body is a block in braces, or one statement.
  split at read
  case isTrue brace =>
    rw [skipStatement_eq]
    unfold skipWith
    simp only [brace, skipBlock, read]
    rfl
  case isFalse =>
    obtain ⟨behind, skipped, same⟩ := ok_of_bind read
    cases same
    rw [← skipStatement_skipSpaces]
    exact skipped

/-- A group is read behind spaces as in front of them. -/
theorem readBalanced_skipSpaces (cursor : Cursor) (opener closer : Char) :
    cursor.skipSpaces.readBalanced opener closer = cursor.readBalanced opener closer := by
  unfold readBalanced
  rw [skipSpaces_skipSpaces]

/-- A header that is read is skipped. -/
theorem skipHeader_eq {text : List Char} (read : cursor.readBalanced '(' ')' = .ok (text, next)) :
    cursor.skipHeader = .ok next := by
  have starts := readBalanced_starts read
  rw [← readBalanced_skipSpaces] at read
  unfold skipHeader
  simp only [starts, if_true, read]
  rfl

/-- A block that is read is skipped. -/
theorem skipStatement_block {text : List Char} (read : cursor.readBalanced '{' '}' = .ok (text, next)) :
    cursor.skipStatement = .ok next := by
  have starts := readBalanced_starts read
  rw [← readBalanced_skipSpaces] at read
  rw [skipStatement_eq]
  unfold skipWith
  simp only [starts, skipBlock, read]
  rfl

/-- A statement behind parentheses that are read is skipped. -/
theorem skipGuarded_eq {text : List Char} (read : cursor.readBalanced '(' ')' = .ok (text, middle))
    (skipped : skip middle = .ok next) : skipGuarded skip cursor = .ok next := by
  unfold skipGuarded
  rw [read]
  exact skipped

/-- A headed statement with only one body is skipped with that. -/
theorem skipHeaded_eq {keyword : String} (alone : ¬ (keyword = "if" ∨ keyword = "elif"))
    (header : cursor.skipHeader = .ok middle) (skipped : skip middle = .ok next) :
    skipHeaded skip keyword cursor = .ok next := by
  unfold skipHeaded
  rw [header]
  simp only [bind, Except.bind, skipped, if_neg alone]
  rfl

/-- An `if` statement is skipped with its first branch and all clauses. -/
theorem skipHeaded_if {text : List Char} (read : cursor.readBalanced '(' ')' = .ok (text, middle)) :
    skipHeaded skipStatement "if" cursor =
      (do skipElseChain (← skipGuarded skipStatement cursor)) := by
  have first : skipGuarded skipStatement cursor = middle.skipStatement := by
    unfold skipGuarded
    rw [read]
    rfl
  unfold skipHeaded
  rw [skipHeader_eq read, first]
  change (middle.skipStatement >>= _) = _
  -- The clauses behind the branch are those of a chain.
  refine bind_congr_ok fun next _ => ?_
  rw [if_pos (.inl rfl), skipElseChain_eq]

/-- A clause with a condition, and the clauses behind it. -/
theorem skipElseChain_elif (word : cursor.peekToken = "elif") :
    cursor.skipElseChain =
      (do skipElseChain (← skipGuarded skipStatement cursor.skipToken)) := by
  have token := cursor.skipToken_left
  have same : cursor.skipElseChain =
      (do skipClauses skipStatement cursor.left (← skipGuarded skipStatement cursor.skipToken)) := by
    rw [skipElseChain, skipClauses]
    simp only [word]
  rw [same]
  -- The bound on the number of clauses is still large enough behind the clause.
  refine bind_congr_ok fun next skipped => ?_
  have further := skipGuarded_left skipStatement_forward skipped
  exact skipClauses_eq skipStatement_forward (by omega) (by omega)

/-- A clause of two words with a condition, and the clauses behind it. -/
theorem skipElseChain_elseIf (word : cursor.peekToken = "else")
    (second : cursor.skipToken.peekToken = "if") :
    cursor.skipElseChain =
      (do skipElseChain (← skipGuarded skipStatement cursor.skipToken.skipToken)) := by
  have token := cursor.skipToken_left
  have tokens := cursor.skipToken.skipToken_left
  have same : cursor.skipElseChain = (do
      skipClauses skipStatement cursor.left
        (← skipGuarded skipStatement cursor.skipToken.skipToken)) := by
    rw [skipElseChain, skipClauses]
    simp only [word, second, if_true]
  rw [same]
  -- The bound on the number of clauses is still large enough behind the clause.
  refine bind_congr_ok fun next skipped => ?_
  have further := skipGuarded_left skipStatement_forward skipped
  exact skipClauses_eq skipStatement_forward (by omega) (by omega)

/-- The clause without a condition is the last one. -/
theorem skipElseChain_else (word : cursor.peekToken = "else")
    (second : cursor.skipToken.peekToken ≠ "if") :
    cursor.skipElseChain = cursor.skipToken.skipStatement := by
  unfold skipElseChain skipClauses
  simp only [word, second, if_false]

/-- Behind the last clause there is nothing to skip. -/
theorem skipElseChain_done (elif : cursor.peekToken ≠ "elif") (other : cursor.peekToken ≠ "else") :
    cursor.skipElseChain = .ok cursor := by
  unfold skipElseChain skipClauses
  split
  case h_1 word => exact absurd word elif
  case h_2 word => exact absurd word other
  case h_3 => rfl

/-- The words that start a statement with a header, a body or a block. -/
def compoundWords : List String := headedKeywords ++ ["else", "try", "do"] ++ declarationKeywords

/-- A statement without parts is skipped up to the next one. -/
theorem skipWord_plain (plain : cursor.readToken.1 ∉ compoundWords) :
    skipWord skip cursor = .ok cursor.nextStatement := by
  simp only [compoundWords, List.mem_append, not_or] at plain
  obtain ⟨⟨headed, single⟩, declaration⟩ := plain
  unfold skipWord
  dsimp only
  -- The word is none of those that start a statement with parts.
  rw [if_neg (by simpa using headed), if_neg, if_neg, if_neg, if_neg (by simpa using declaration)]
  all_goals
    intro same
    rw [same] at single
    exact single (by decide)

/-- A headed statement is skipped behind its keyword. -/
theorem skipWord_headed (headed : headedKeywords.contains cursor.readToken.1 = true) :
    skipWord skip cursor = skipHeaded skip cursor.readToken.1 cursor.readToken.2 := by
  unfold skipWord
  dsimp only
  rw [if_pos headed]

/-- A `try` statement is skipped behind its keyword. -/
theorem skipWord_try (word : cursor.readToken.1 = "try") :
    skipWord skip cursor = skipTry skip cursor.readToken.2 := by
  unfold skipWord
  dsimp only
  rw [word]
  rfl

/-- A `do` statement is skipped behind its keyword. -/
theorem skipWord_do (word : cursor.readToken.1 = "do") :
    skipWord skip cursor = skipDo skip cursor.readToken.2 := by
  unfold skipWord
  dsimp only
  rw [word]
  rfl

/-- A declaration is skipped behind its keyword. -/
theorem skipWord_declaration (declares : declarationKeywords.contains cursor.readToken.1 = true) :
    skipWord skip cursor = cursor.readToken.2.skipDeclaration := by
  have apart : ∀ word ∈ declarationKeywords, headedKeywords.contains word = false ∧ word ≠ "else" ∧
      word ≠ "try" ∧ word ≠ "do" := by decide
  obtain ⟨headed, others⟩ := apart _ (List.contains_iff_mem.mp declares)
  unfold skipWord
  dsimp only
  rw [if_neg (by simp only [headed]; decide), if_neg others.1, if_neg others.2.1, if_neg others.2.2,
    if_pos declares]

/-- A statement that starts with neither a brace nor a semicolon is skipped by its first word. -/
theorem skipStatement_word {c : Char} (starts : cursor.skipSpaces.current = some c) (brace : c ≠ '{')
    (semicolon : c ≠ ';') : cursor.skipStatement = skipWord skipStatement cursor.skipSpaces := by
  rw [skipStatement_eq]
  unfold skipWith
  dsimp only
  -- The first character decides, and it is none of those that stand alone.
  split
  case h_1 none => cases starts.symm.trans none
  case h_2 same => exact absurd (Option.some.inj (starts.symm.trans same)) brace
  case h_3 same => exact absurd (Option.some.inj (starts.symm.trans same)) semicolon
  case h_4 => rfl

/-- The word in front of which a cursor stands starts with the current character. -/
theorem compound_starts {c : Char} (starts : cursor.current = some c) (tight : c ≠ ' ')
    (compound : cursor.readToken.1 ∈ compoundWords) : Text.isWordStart c = true := by
  have shape := rest_of_current starts
  have here : cursor.skipSpaces = cursor := skipSpaces_cons shape tight
  -- The word is read from here on, so that it starts with the current character.
  have word : cursor.readToken.1 = String.ofList (cursor.rest.takeWhile Text.isWordChar) := by
    unfold readToken
    rw [here]
  -- No word of the list is empty, and each starts as an identifier does.
  have listed : ∀ word ∈ compoundWords, word.toList.head?.any Text.isWordStart = true := by
    decide
  have first := listed _ compound
  rw [word, String.toList_ofList, shape, List.takeWhile_cons] at first
  split at first
  · exact first
  · cases first

end Cursor

end ScriptEngine
