import ScriptEngine.Proofs.Source.Skip

/-! Where the skipping of a statement comes out: at the depth where the statement starts, unless the
first brace of a declaration stands in its header. -/

namespace ScriptEngine

namespace Cursor

variable {avoid : Char → Bool} {due : List Char} {cursor middle next behind : Cursor}
  {skip : Cursor → Read Cursor}

/-- No word lies across the border between two texts. -/
def Apart (taken rest : List Char) : Prop :=
  ∀ {last first : Char}, taken.getLast? = some last → rest.head? = some first →
    Text.isWordChar last = true → Text.isWordChar first = false

/-- Whole groups, literals and words lie between two places. -/
def Follows (cursor behind : Cursor) : Prop :=
  behind.source = cursor.source ∧
    ∃ taken, Balanced nothing taken ∧ Apart taken behind.rest ∧ cursor.rest = taken ++ behind.rest

/-- The first brace behind a cursor stands within a group that is not open at the cursor. -/
def BraceWithin (cursor : Cursor) : Prop :=
  ∃ offset, cursor.findFirst? ['{'] = some offset ∧ ¬ Balanced nothing (cursor.slice cursor.pos offset)

/-- A declaration starts at a cursor, and the first brace behind its keyword is part of its header. -/
def BracedHeader (cursor : Cursor) : Prop :=
  declarationKeywords.contains cursor.readToken.1 = true ∧ cursor.readToken.2.BraceWithin

/-- A block stands behind a header without a brace on its own level. -/
def EndsWithBlock (cursor behind : Cursor) : Prop :=
  ∃ block text, cursor.Passes (· == '{') block ∧ block.readBalanced '{' '}' = .ok (text, behind)

/-- A declaration with a brace in its header follows on the same level. -/
def Strays (cursor : Cursor) : Prop := ∃ place, cursor.Follows place ∧ place.BracedHeader

namespace Follows

/-- A place follows itself. -/
theorem refl (cursor : Cursor) : cursor.Follows cursor := by
  refine ⟨rfl, [], .nil, ?_, rfl⟩
  intro last first none
  cases none

/-- What follows a place that follows another follows that one, too. -/
theorem trans (first : cursor.Follows middle) (second : middle.Follows behind) :
    cursor.Follows behind := by
  obtain ⟨source, taken, balanced, apart, same⟩ := first
  obtain ⟨sourceToo, takenToo, balancedToo, apartToo, sameToo⟩ := second
  refine ⟨sourceToo.trans source, taken ++ takenToo, balanced.append balancedToo, ?_, ?_⟩
  · intro last first ends starts
    -- The border is that of the second part, unless it is empty.
    cases takenToo with
    | nil =>
      rw [List.append_nil] at ends
      exact apart ends (by rw [sameToo]; exact starts)
    | cons c rest =>
      have some := List.getLast?_eq_some_getLast (List.cons_ne_nil c rest)
      rw [List.getLast?_append, some, Option.some_or, ← some] at ends
      exact apartToo ends starts
  · rw [same, sameToo, List.append_assoc]

/-- What follows is balanced if what follows an earlier place is. -/
theorem closed (follows : cursor.Follows behind) (closed : Balanced nothing cursor.rest) :
    Balanced nothing behind.rest := by
  obtain ⟨_, taken, balanced, _, same⟩ := follows
  unfold Balanced at closed
  rwa [same, balanced.read?_append] at closed

/-- What strays behind a place that follows strays behind the first one. -/
theorem strays (follows : cursor.Follows middle) (strays : middle.Strays) : cursor.Strays := by
  obtain ⟨place, behind, header⟩ := strays
  exact ⟨place, follows.trans behind, header⟩

/-- What comes out or strays behind a place that follows does so behind the first one. -/
theorem andThen (follows : cursor.Follows middle) (rest : middle.Follows next ∨ middle.Strays) :
    cursor.Follows next ∨ cursor.Strays :=
  rest.imp follows.trans follows.strays

/-- What lies behind the characters of one kind follows, if no words have characters of both kinds. -/
theorem skipWhile {p : Char → Bool} (clear : ∀ c, p c = true → c ∉ structural)
    (parts : ∀ last first, p last = true → p first = false → Text.isWordChar last = true →
      Text.isWordChar first = false) : cursor.Follows (cursor.skipWhile p) := by
  refine ⟨cursor.advanceBy_source _, cursor.rest.takeWhile p, .plain nofun fun c member => ?_, ?_, ?_⟩
  · exact clear c (List.all_eq_true.mp List.all_takeWhile c member)
  · -- What was passed ends with a character of the kind, and what is left starts with another one.
    intro last first ends starts
    have taken := List.all_eq_true.mp List.all_takeWhile last (List.mem_of_getLast? ends)
    have left := List.head?_dropWhile_not p cursor.rest
    rw [skipWhile_rest] at starts
    rw [starts] at left
    exact parts last first taken (by simpa using left)
  · rw [skipWhile_rest, List.takeWhile_append_dropWhile]

/-- What lies behind spaces follows. -/
theorem skipSpaces (cursor : Cursor) : cursor.Follows cursor.skipSpaces := by
  refine skipWhile (fun c space => ?_) fun last first space _ word => ?_
  · rw [eq_of_beq space]
    decide
  · rw [eq_of_beq space] at word
    exact absurd word (by decide)

/-- What lies behind a word follows. -/
theorem readToken (cursor : Cursor) : cursor.Follows cursor.readToken.2 :=
  (skipSpaces cursor).trans (skipWhile (fun _ => word_not_structural) fun _ _ _ other _ => other)

/-- What lies behind a group follows. -/
theorem readBalanced {opener closer : Char} {text : List Char}
    (opens : Canonical.closer? opener = some closer) (closed : Balanced nothing cursor.rest)
    (read : cursor.readBalanced opener closer = .ok (text, behind)) : cursor.Follows behind := by
  obtain ⟨text, behind, same, source, balanced, shape⟩ :=
    readBalanced_within opens closed (readBalanced_starts read)
  cases same.symm.trans read
  refine (skipSpaces cursor).trans ⟨?_, opener :: text ++ [closer], balanced.group opens rfl, ?_, ?_⟩
  · rw [source, skipSpaces_source]
  · intro last first ends _ word
    rw [List.getLast?_concat] at ends
    cases ends
    -- The closing bracket is no part of a word.
    exact absurd (by unfold Canonical.closer? at opens; split at opens <;> cases opens <;> decide)
      (word_not_structural word)
  · simpa using shape

/-- What lies behind a semicolon follows. -/
theorem semicolon (starts : cursor.current = some ';') : cursor.Follows cursor.advance := by
  refine ⟨cursor.advance_source, [';'], rfl, ?_, rest_of_current starts⟩
  intro last first ends _ word
  cases ends
  exact absurd (by decide) (word_not_structural word)

/-- What lies behind a statement without parts follows. -/
theorem nextStatement (closed : Balanced nothing cursor.rest) :
    cursor.Follows cursor.nextStatement := by
  unfold Cursor.nextStatement
  -- No group is open, and nothing is to be avoided.
  have ends : ∀ c rest, ([] : List Char).head? = some c → Canonical.isCloser c = true →
      headIs (fun c => c == ';' || c == '}') (c :: rest) = true := nofun
  have seen : ∀ c rest, nothing c = true →
      headIs (fun c => c == ';' || c == '}') (c :: rest) = true := nofun
  rcases Nesting.distanceTo?_stops ends seen closed with
    ⟨taken, rest, same, balanced, stops, found⟩ | ⟨_, _, found⟩
  · -- The statement ends at a semicolon or in front of a brace.
    simp only [found]
    have here : (cursor.advanceBy taken.length).rest = rest := by simp [same]
    have reaches : cursor.Follows (cursor.advanceBy taken.length) := by
      refine ⟨by simp, taken, balanced, ?_, by rw [here, same]⟩
      -- Neither of these is part of a word.
      intro last first _ starts _
      cases rest with
      | nil => cases stops
      | cons c rest =>
        rw [here] at starts
        cases starts
        simp only [headIs, Bool.or_eq_true, beq_iff_eq] at stops
        rcases stops with rfl | rfl <;> decide
    split
    case isTrue semi => exact reaches.trans (semicolon semi)
    case isFalse => exact reaches
  · -- There is nothing behind the statement.
    simp only [found]
    refine ⟨rfl, cursor.rest, closed, ?_, by simp⟩
    intro last first _ none
    cases none

end Follows

/-- A skip comes out behind whole groups and words where all groups are whole, or else it comes to a
declaration with a brace in its header. -/
def Lands (skip : Cursor → Read Cursor) : Prop :=
  ∀ {cursor next}, Balanced nothing cursor.rest → skip cursor = .ok next →
    cursor.Follows next ∨ cursor.Strays

/-- Where a statement behind parentheses comes out. -/
theorem skipGuarded_lands (lands : Lands skip) : Lands (skipGuarded skip) := by
  intro cursor next closed skipped
  obtain ⟨⟨text, body⟩, read, skipped⟩ := ok_of_bind skipped
  have group := Follows.readBalanced rfl closed read
  exact group.andThen (lands (group.closed closed) skipped)

/-- Where clauses come out. -/
theorem skipClauses_lands (lands : Lands skip) (clauses : Nat) : Lands (skipClauses skip clauses) := by
  induction clauses with
  | zero =>
    intro cursor next closed skipped
    cases skipped
    exact .inl (.refl cursor)
  | succ clauses ih =>
    intro cursor next closed skipped
    -- A clause with a condition, and the clauses behind it.
    have guarded : ∀ {start : Cursor}, cursor.Follows start →
        (do skipClauses skip clauses (← skipGuarded skip start)) = .ok next →
        cursor.Follows next ∨ cursor.Strays := by
      intro start follows skipped
      obtain ⟨behind, branch, skipped⟩ := ok_of_bind skipped
      have closed := follows.closed closed
      rcases skipGuarded_lands lands closed branch with branch | strays
      · exact (follows.trans branch).andThen (ih (branch.closed closed) skipped)
      · exact .inr (follows.strays strays)
    have token := Follows.readToken cursor
    unfold skipClauses at skipped
    split at skipped
    · exact guarded token skipped
    · dsimp only at skipped
      split at skipped
      · exact guarded (token.trans (.readToken _)) skipped
      · exact token.andThen (lands (token.closed closed) skipped)
    · cases skipped
      exact .inl (.refl cursor)

/-- A header in parentheses is followed by what is behind it. -/
theorem skipHeader_follows (closed : Balanced nothing cursor.rest)
    (skipped : cursor.skipHeader = .ok next) : cursor.Follows next := by
  have spaced := Follows.skipSpaces cursor
  unfold skipHeader at skipped
  dsimp only at skipped
  split at skipped
  · -- The header is a group, or there is none.
    obtain ⟨⟨text, behind⟩, group, same⟩ := ok_of_bind skipped
    cases same
    exact spaced.trans (.readBalanced rfl (spaced.closed closed) group)
  · cases skipped
    exact spaced

/-- Where a headed statement comes out. -/
theorem skipHeaded_lands (lands : Lands skip) (keyword : String) : Lands (skipHeaded skip keyword) := by
  intro cursor next closed skipped
  obtain ⟨headed, header, skipped⟩ := ok_of_bind skipped
  obtain ⟨branch, body, skipped⟩ := ok_of_bind skipped
  have header := skipHeader_follows closed header
  have closed := header.closed closed
  refine header.andThen ?_
  -- The branch is passed, or the cursor has already gone astray in it.
  rcases lands closed body with body | strays
  · -- Further clauses follow behind it, if the keyword can have some.
    split at skipped
    · exact body.andThen (skipClauses_lands lands _ (body.closed closed) skipped)
    · cases skipped
      exact .inl body
  · exact .inr strays

/-- Where a `try` statement comes out. -/
theorem skipTry_lands (lands : Lands skip) : Lands (skipTry skip) := by
  intro cursor next closed skipped
  obtain ⟨behind, body, skipped⟩ := ok_of_bind skipped
  rcases lands closed body with body | strays
  · -- The clause is announced by a word, behind which it is passed.
    split at skipped
    · have token := body.trans (.readToken behind)
      exact token.andThen (skipGuarded_lands lands (token.closed closed) skipped)
    · cases skipped
      exact .inl body
  · exact .inr strays

/-- The condition of a `do` statement is followed by what is behind it. -/
theorem skipCondition_follows (closed : Balanced nothing cursor.rest)
    (skipped : cursor.skipCondition = .ok next) : cursor.Follows next := by
  unfold skipCondition at skipped
  split at skipped
  · obtain ⟨⟨text, behind⟩, group, same⟩ := ok_of_bind skipped
    cases same
    have token := Follows.readToken cursor
    exact token.trans (.readBalanced rfl (token.closed closed) group)
  · cases skipped
    exact .refl cursor

/-- The semicolon that may follow is followed by what is behind it. -/
theorem consumeSemicolon_follows (cursor : Cursor) :
    cursor.Follows ((cursor.consume? ";").getD cursor) := by
  unfold consume?
  split
  case isTrue starts =>
    refine Follows.semicolon ?_
    obtain ⟨rest, same⟩ := List.isPrefixOf_iff_prefix.mp starts
    rw [current, ← same]
    rfl
  case isFalse => exact .refl cursor

/-- Where a `do` statement comes out. -/
theorem skipDo_lands (lands : Lands skip) : Lands (skipDo skip) := by
  intro cursor next closed skipped
  obtain ⟨behind, body, skipped⟩ := ok_of_bind skipped
  obtain ⟨tail, condition, same⟩ := ok_of_bind skipped
  cases same
  -- Behind the body come the condition and at most one semicolon.
  rcases lands closed body with body | strays
  · have condition := skipCondition_follows (body.closed closed) condition
    refine .inl (body.trans (condition.trans ?_))
    exact (Follows.skipSpaces tail).trans (consumeSemicolon_follows _)
  · exact .inr strays

/-- The text of a header up to its first brace. -/
theorem slice_eq {taken rest : List Char} (same : cursor.rest = taken ++ rest) :
    cursor.slice cursor.pos (cursor.pos + taken.length) = taken := by
  unfold slice
  rw [← cursor.rest_eq, same, Nat.add_sub_cancel_left, List.take_left]

/-- The first brace behind a keyword and the block that its declaration ends with: the block starts
with that brace, or the brace comes earlier. -/
structure Header (cursor block : Cursor) (taken more rest : List Char) : Prop where
  found : cursor.findFirst? ['{'] = some (cursor.pos + taken.length)
  outside : taken.foldl Quoting.next .outside = .outside
  balanced : Balanced (· == '{') (taken ++ more)
  source : block.source = cursor.source
  text : cursor.rest = taken ++ (more ++ '{' :: rest)
  block : block.rest = '{' :: rest
  earlier : more.head? = none ∨ more.head? = some '{'

/-- A declaration that ends with a block has a first brace. -/
theorem EndsWithBlock.header (ends : cursor.EndsWithBlock behind) :
    ∃ block text taken more rest, Header cursor block taken more rest ∧
      block.readBalanced '{' '}' = .ok (text, behind) := by
  obtain ⟨block, text, passes, read⟩ := ends
  have starts := rest_of_current (readBalanced_starts read)
  have spaces : block.Passes (· == '{') block.skipSpaces := .skipSpaces (marks_single (by decide))
  obtain ⟨source, whole, balanced, same⟩ := passes.trans spaces
  rw [starts] at same
  -- The search stops at the brace of the block at the latest.
  obtain ⟨offset, found, bound⟩ := findFirst?_le same (show (['{'] : List Char).contains '{' = true from rfl)
     balanced.outside
  obtain ⟨taken, c, rest, shape, rfl, outside, brace⟩ := findFirst?_found found
  obtain rfl : c = '{' := by simpa using brace
  -- The two ways to split the text agree up to the first brace.
  have parts : ∃ more, whole = taken ++ more ∧ more ++ '{' :: block.skipSpaces.advance.rest =
      '{' :: rest := by
    rcases List.append_eq_append_iff.mp (same.symm.trans shape) with ⟨extra, early, late⟩ | found
    · have none : extra = [] := by
        have size := congrArg List.length early
        rw [List.length_append] at size
        exact List.eq_nil_of_length_eq_zero (by omega)
      subst none
      exact ⟨[], by simpa using early.symm, late⟩
    · exact ⟨found.choose, found.choose_spec.1, found.choose_spec.2.symm⟩
  -- Either this is the brace of the block, or it stands in the text in front of that.
  obtain ⟨more, rfl, later⟩ := parts
  refine ⟨block.skipSpaces, text, taken, more, block.skipSpaces.advance.rest,
    ⟨found, outside, balanced, source, ?_, starts, ?_⟩, ?_⟩
  · rw [same, List.append_assoc]
  · cases more with
    | nil => exact .inl rfl
    | cons first more =>
      cases later
      exact .inr rfl
  · rw [readBalanced_skipSpaces]
    exact read

namespace Header

variable {block : Cursor} {taken more rest : List Char}

/-- The text in front of the first brace of a header. -/
theorem slice (header : Header cursor block taken more rest) :
    cursor.slice cursor.pos (cursor.pos + taken.length) = taken :=
  slice_eq header.text

/-- A declaration is skipped from the first brace on. -/
theorem skips (header : Header cursor block taken more rest) :
    cursor.skipDeclaration = (cursor.moveTo (cursor.pos + taken.length)).skipBlock := by
  unfold skipDeclaration
  rw [header.found]

/-- The first brace is that of the block, unless it comes within a group of the header. -/
theorem block_eq (header : Header cursor block taken more rest) (level : ¬ cursor.BraceWithin) :
    cursor.moveTo (cursor.pos + taken.length) = block := by
  have balanced : Balanced nothing taken := by
    rw [← header.slice]
    exact Classical.not_not.mp fun unbalanced => level ⟨_, header.found, unbalanced⟩
  -- A brace on the level of the header does not come before that of the block.
  have none : more = [] := by
    obtain ⟨middle, first, last⟩ :=
      Option.bind_eq_some_iff.mp ((Nesting.read?_append taken more).symm.trans header.balanced)
    have bare : middle = {} := by
      have lax := Nesting.read?_lax [] first
      rw [List.append_nil, List.append_nil] at lax
      exact Option.some.inj (lax.symm.trans balanced)
    subst bare
    cases more with
    | nil => rfl
    | cons c more =>
      obtain ⟨_, step, _⟩ := Option.bind_eq_some_iff.mp last
      have allowed := (Nesting.step?_bare step).1
      rcases header.earlier with found | found <;> cases found
      cases allowed
  refine eq_of_rest ?_ ?_
  · rw [moveTo_source, header.source]
  · rw [moveTo_rest, header.text, none, header.block]
    simp

/-- More groups are open at a first brace that comes within a group of the header. -/
theorem within (header : Header cursor block taken more rest) (brace : cursor.BraceWithin)
    (within : cursor.Within due) :
    ∃ opened, opened ≠ [] ∧ (cursor.moveTo (cursor.pos + taken.length)).Within (opened ++ due) := by
  obtain ⟨offset, found, unbalanced⟩ := brace
  cases found.symm.trans header.found
  rw [header.slice] at unbalanced
  -- Reading up to the first brace leaves the groups open that it stands in.
  obtain ⟨⟨opened, quoting⟩, first, _⟩ := Option.bind_eq_some_iff.mp
    ((Nesting.read?_append taken more).symm.trans header.balanced.lax)
  obtain rfl : quoting = .outside := (Nesting.read?_quoting first).trans header.outside
  refine ⟨opened, ?_, ?_⟩
  · -- If none were open, the text up to the brace would be balanced.
    rintro rfl
    exact unbalanced first
  · -- Those that were open before stay open further out.
    have inner := Nesting.read?_lax due first
    rw [List.nil_append] at inner
    unfold Within at *
    rw [header.text, Nesting.read?_append, inner] at within
    rw [moveTo_rest, header.text, List.drop_left]
    exact within

end Header

namespace EndsWithBlock

/-- A declaration is skipped to where it ends, unless the first brace comes within a group of its
header. -/
theorem skips (ends : cursor.EndsWithBlock behind) (level : ¬ cursor.BraceWithin) :
    cursor.skipDeclaration = .ok behind := by
  obtain ⟨block, text, taken, more, rest, header, read⟩ := ends.header
  rw [header.skips, header.block_eq level]
  unfold skipBlock
  rw [read]
  rfl

/-- If the first brace comes within a group of the header, the skip does not come out where the
declaration ends. -/
theorem misses (ends : cursor.EndsWithBlock behind) (brace : cursor.BraceWithin)
    (within : cursor.Within due) (skipped : cursor.skipDeclaration = .ok next) :
    next.skipSpaces ≠ behind.skipSpaces := by
  obtain ⟨block, text, taken, more, rest, header, read⟩ := ends.header
  obtain ⟨opened, some, inner⟩ := header.within brace within
  rw [header.skips] at skipped
  obtain ⟨⟨inside, place⟩, group, same⟩ := ok_of_bind skipped
  cases same
  -- The groups that are open where the skip comes out are not those where the declaration ends.
  have outer : block.Within due := by
    have passed : cursor.Passes (· == '{') block :=
      ⟨header.source, taken ++ more, header.balanced, by
        rw [header.text, header.block, List.append_assoc]⟩
    exact passed.within within
  have there := (Passes.skipSpaces marks_nothing).within
    ((readBalanced_passes marks_nothing rfl rfl inner group).within inner)
  have here := (Passes.skipSpaces marks_nothing).within
    ((readBalanced_passes marks_nothing rfl rfl outer read).within outer)
  intro same
  rw [same] at there
  have equal := congrArg List.length (Nesting.due_unique there here)
  rw [List.length_append] at equal
  exact some (List.eq_nil_of_length_eq_zero (by omega))

end EndsWithBlock

/-- Where a declaration comes out. -/
theorem skipDeclaration_lands (word : declarationKeywords.contains cursor.readToken.1 = true)
    (closed : Balanced nothing cursor.rest)
    (skipped : cursor.readToken.2.skipDeclaration = .ok next) :
    cursor.Follows next ∨ cursor.Strays := by
  have token := Follows.readToken cursor
  -- The declaration has a brace in its header, or its block is what the first brace opens.
  by_cases header : cursor.BracedHeader
  · exact .inr ⟨cursor, .refl cursor, header⟩
  · refine .inl (token.trans ?_)
    unfold skipDeclaration at skipped
    split at skipped
    case h_1 offset found =>
      obtain ⟨⟨text, behind⟩, group, same⟩ := ok_of_bind skipped
      cases same
      obtain ⟨taken, c, rest, shape, rfl, _, brace⟩ := findFirst?_found found
      -- The brace is in no group, and so the text up to it is balanced.
      have balanced : Balanced nothing taken := by
        rw [← slice_eq shape]
        exact Classical.not_not.mp fun unbalanced => header ⟨word, _, found, unbalanced⟩
      have here := moveTo_rest cursor.readToken.2 taken.length
      rw [shape, List.drop_left] at here
      have block : cursor.readToken.2.Follows
          (cursor.readToken.2.moveTo (cursor.readToken.2.pos + taken.length)) := by
        -- A brace is no part of a word.
        refine ⟨moveTo_source .., taken, balanced, ?_, shape.trans (by rw [here])⟩
        intro last first _ starts _
        rw [here] at starts
        cases starts
        rw [List.contains_iff_mem, List.mem_singleton] at brace
        rw [brace]
        decide
      exact block.trans (.readBalanced rfl (block.closed (token.closed closed)) group)
    case h_2 => cases skipped

/-- Where the statement that starts with a word comes out. -/
theorem skipWord_lands (lands : Lands skip) : Lands (skipWord skip) := by
  intro cursor next closed skipped
  have token := Follows.readToken cursor
  have behind := token.closed closed
  -- One case for each kind of keyword; a word that is none starts a statement without parts.
  unfold skipWord at skipped
  dsimp only at skipped
  split at skipped
  · exact token.andThen (skipHeaded_lands lands _ behind skipped)
  split at skipped
  · exact token.andThen (lands behind skipped)
  split at skipped
  · exact token.andThen (skipTry_lands lands behind skipped)
  split at skipped
  · exact token.andThen (skipDo_lands lands behind skipped)
  split at skipped
  case isTrue word => exact skipDeclaration_lands word closed skipped
  · cases skipped
    exact .inl (.nextStatement closed)

/-- Where a statement comes out. -/
theorem skipWith_lands (lands : Lands skip) : Lands (skipWith skip) := by
  intro cursor next closed skipped
  have spaced := Follows.skipSpaces cursor
  have here := spaced.closed closed
  refine spaced.andThen ?_
  unfold skipWith at skipped
  dsimp only at skipped
  -- At the end there is nothing to pass, in front of a brace a block, and at a semicolon only this.
  split at skipped
  · cases skipped
    exact .inl (.refl _)
  · obtain ⟨⟨text, behind⟩, group, same⟩ := ok_of_bind skipped
    cases same
    exact .inl (.readBalanced rfl here group)
  case h_3 semi =>
    cases skipped
    exact .inl (.semicolon semi)
  · exact skipWord_lands lands here skipped

/-- Where a statement comes out. -/
theorem skipStatement_lands : Lands skipStatement := by
  -- The induction is on the nesting that is allowed; without any, nothing is passed.
  have nested : ∀ depth, Lands (skipNested depth) := by
    intro depth
    induction depth with
    | zero =>
      intro cursor next closed skipped
      cases skipped
      exact .inl (.refl cursor)
    | succ depth ih => exact skipWith_lands ih
  intro cursor next closed skipped
  exact nested _ closed skipped

/-- The search for a label comes to an end, unless a declaration with a brace in its header is among
what it skips. -/
theorem skipToLabel_ends {count : Nat} (closed : Balanced nothing cursor.rest)
    (enough : cursor.left < count) (endless : cursor.skipToLabel count = .ok none) :
    cursor.Strays := by
  -- Each statement takes at least one character.
  induction count generalizing cursor with
  | zero => omega
  | succ count ih =>
    have spaced := Follows.skipSpaces cursor
    have here := spaced.closed closed
    unfold skipToLabel at endless
    dsimp only at endless
    split at endless
    · cases endless
    case isFalse goesOn =>
      obtain ⟨next, skipped, endless⟩ := ok_of_bind endless
      refine spaced.strays ?_
      rcases skipStatement_lands here skipped with follows | strays
      · refine follows.strays (ih (follows.closed here) ?_ endless)
        cases shape : cursor.skipSpaces.rest with
        | nil => simp [atEnd, shape] at goesOn
        | cons c rest =>
          rw [shape] at here
          obtain ⟨_, first, _⟩ := Option.bind_eq_some_iff.mp here
          have opened := (Nesting.step?_bare first).2
          have starts : cursor.skipSpaces.skipSpaces.current = some c := by
            rw [skipSpaces_skipSpaces, current, shape]
            rfl
          have less := skipStatement_lt starts (by rintro rfl; cases opened) skipped
          have bound := cursor.skipSpaces_left
          omega
      · exact strays

end Cursor

end ScriptEngine
