import ScriptEngine.Proofs.Source.Literal
import ScriptEngine.Proofs.Source.Nesting
import ScriptEngine.Source.Literal
import ScriptEngine.Source.Statement

/-! Reading at a cursor passes balanced text. -/

namespace ScriptEngine

variable {avoid weaker : Char → Bool} {due : List Char} {cursor middle behind : Cursor}

namespace Cursor

/-- What follows a cursor closes the groups in `due` and is balanced otherwise. -/
def Within (due : List Char) (cursor : Cursor) : Prop :=
  Nesting.read? nothing ⟨due, .outside⟩ cursor.rest = some {}

/-- A balanced text lies between two places. -/
def Passes (avoid : Char → Bool) (cursor behind : Cursor) : Prop :=
  behind.source = cursor.source ∧
    ∃ taken, Balanced avoid taken ∧ cursor.rest = taken ++ behind.rest

@[simp]
theorem finish_source (source : SourceText) : (finish source).source = source := rfl

@[simp]
theorem finish_rest (source : SourceText) : (finish source).rest = [] := rfl

@[simp]
theorem place_source (source : SourceText) (pos : Nat) (rest : List Char)
    (rest_eq : rest = source.text.drop pos) : (place source pos rest rest_eq).source = source := by
  unfold place
  split <;> rfl

@[simp]
theorem place_rest (source : SourceText) (pos : Nat) (rest : List Char)
    (rest_eq : rest = source.text.drop pos) : (place source pos rest rest_eq).rest = rest := by
  unfold place
  split
  case isTrue empty => exact empty.symm
  case isFalse => rfl

@[simp]
theorem advanceBy_source (cursor : Cursor) (count : Nat) :
    (cursor.advanceBy count).source = cursor.source := place_source ..

@[simp]
theorem advanceBy_rest (cursor : Cursor) (count : Nat) :
    (cursor.advanceBy count).rest = cursor.rest.drop count := place_rest ..

@[simp]
theorem advance_source (cursor : Cursor) : cursor.advance.source = cursor.source :=
  cursor.advanceBy_source 1

@[simp]
theorem advance_rest (cursor : Cursor) : cursor.advance.rest = cursor.rest.tail := by
  simp [advance]

@[simp]
theorem moveTo_source (cursor : Cursor) (pos : Nat) : (cursor.moveTo pos).source = cursor.source :=
  place_source ..

@[simp]
theorem moveTo_rest (cursor : Cursor) (count : Nat) :
    (cursor.moveTo (cursor.pos + count)).rest = cursor.rest.drop count := by
  simp [moveTo, cursor.rest_eq, List.drop_drop]

@[simp]
theorem skipSpaces_source (cursor : Cursor) : cursor.skipSpaces.source = cursor.source :=
  cursor.advanceBy_source _

@[simp]
theorem skipWhile_rest (cursor : Cursor) (p : Char → Bool) :
    (cursor.skipWhile p).rest = cursor.rest.dropWhile p := by
  have whole := List.takeWhile_append_dropWhile (p := p) (l := cursor.rest)
  have dropped : (cursor.rest.takeWhile p ++ cursor.rest.dropWhile p).drop
      (cursor.rest.takeWhile p).length = cursor.rest.dropWhile p := List.drop_left
  rw [whole] at dropped
  simpa [skipWhile] using dropped

/-- A place is known by its text and by what follows it there. -/
theorem eq_of_rest (source : behind.source = cursor.source) (rest : behind.rest = cursor.rest) :
    behind = cursor := by
  obtain ⟨text, pos, rest₁, drop, bound⟩ := cursor
  obtain ⟨_, other, _, dropToo, boundToo⟩ := behind
  cases source
  cases rest
  -- What follows has the same length, and both positions are within the text.
  have same : other = pos := by
    have lengths := congrArg List.length (drop.symm.trans dropToo)
    simp only [List.length_drop] at lengths
    omega
  cases same
  rfl

/-- No spaces are skipped where none stands. -/
theorem skipSpaces_eq (tight : cursor.rest.head? ≠ some ' ') : cursor.skipSpaces = cursor := by
  refine eq_of_rest (by simp) ?_
  rw [skipSpaces, skipWhile_rest]
  -- No character is dropped in front of another one than a space.
  cases shape : cursor.rest with
  | nil => rfl
  | cons c others =>
    have solid : (c == ' ') = false := by
      rw [shape] at tight
      simpa using tight
    simp [List.dropWhile, solid]

/-- No spaces are skipped in front of a character that is none. -/
theorem skipSpaces_cons {c : Char} {rest : List Char} (shape : cursor.rest = c :: rest) (tight : c ≠ ' ') :
    cursor.skipSpaces = cursor := by
  refine skipSpaces_eq ?_
  rw [shape]
  simpa using tight

/-- Less follows behind a place further on. -/
theorem pos_lt_of_left_lt (source : behind.source = cursor.source) (less : behind.left < cursor.left) :
    cursor.pos < behind.pos := by
  simp only [left, length, source] at less
  omega

namespace Passes

/-- Nothing lies between a place and itself. -/
theorem refl (avoid : Char → Bool) (cursor : Cursor) : cursor.Passes avoid cursor :=
  ⟨rfl, [], .nil, rfl⟩

/-- What lies between places adds up. -/
theorem trans (first : cursor.Passes avoid middle) (second : middle.Passes avoid behind) :
    cursor.Passes avoid behind := by
  obtain ⟨source, text, balanced, same⟩ := first
  obtain ⟨sourceToo, textToo, balancedToo, sameToo⟩ := second
  exact ⟨sourceToo.trans source, text ++ textToo, balanced.append balancedToo, by
    rw [same, sameToo, List.append_assoc]⟩

/-- The same groups are open behind what is passed. -/
theorem within (passes : cursor.Passes avoid behind) (within : cursor.Within due) :
    behind.Within due := by
  obtain ⟨source, text, balanced, same⟩ := passes
  unfold Within at *
  rwa [same, balanced.read?_append] at within

/-- Balanced text that follows is passed by an advance over it. -/
theorem advanceBy {count : Nat} (balanced : Balanced avoid (cursor.rest.take count)) :
    cursor.Passes avoid (cursor.advanceBy count) :=
  ⟨cursor.advanceBy_source count, _, balanced, by simp⟩

/-- An advance over text without structure. -/
theorem plain (marks : Marks avoid) {count : Nat}
    (clear : ∀ c ∈ cursor.rest.take count, c ∉ structural) :
    cursor.Passes avoid (cursor.advanceBy count) :=
  advanceBy (.plain marks clear)

/-- An advance over the characters that satisfy a property. -/
theorem skipWhile (marks : Marks avoid) {p : Char → Bool} (clear : ∀ c, p c = true → c ∉ structural) :
    cursor.Passes avoid (cursor.skipWhile p) := by
  refine plain marks fun c member => clear c ?_
  rw [← List.prefix_iff_eq_take.mp (List.takeWhile_prefix p)] at member
  exact List.all_eq_true.mp List.all_takeWhile c member

/-- An advance over spaces. -/
theorem skipSpaces (marks : Marks avoid) : cursor.Passes avoid cursor.skipSpaces := by
  refine skipWhile marks fun c space => ?_
  rw [eq_of_beq space]
  decide

end Passes

/-- Where nothing is to be avoided, nothing structures a text that must not. -/
theorem marks_nothing : Marks nothing := nofun

/-- No part of a word structures a text. -/
theorem word_not_structural {c : Char} (word : Text.isWordChar c = true) : c ∉ structural :=
  not_mem_of_none (by decide) word

/-- A word is passed, with the spaces in front of it. -/
theorem readToken_passes (marks : Marks avoid) (cursor : Cursor) :
    cursor.Passes avoid cursor.readToken.2 :=
  (Passes.skipSpaces marks).trans (Passes.skipWhile marks fun _ => word_not_structural)

/-- A token without structure is passed. -/
theorem token_passes (marks : Marks avoid) {token : String}
    (starts : token.toList.isPrefixOf cursor.rest = true)
    (clear : ∀ c ∈ token.toList, c ∉ structural) :
    cursor.Passes avoid (cursor.advanceBy token.length) := by
  refine Passes.plain marks fun c member => clear c ?_
  have same := List.prefix_iff_eq_take.mp (List.isPrefixOf_iff_prefix.mp starts)
  rwa [String.length, ← same] at member

/-- A token that may follow is passed. -/
theorem consume?_passes (marks : Marks avoid) {token : String} (found : cursor.consume? token = some behind)
    (clear : ∀ c ∈ token.toList, c ∉ structural) : cursor.Passes avoid behind := by
  unfold consume? at found
  split at found
  case isTrue starts =>
    cases found
    exact token_passes marks starts clear
  case isFalse => cases found

/-- What follows a cursor starts with the current character. -/
theorem rest_of_current {c : Char} (starts : cursor.current = some c) :
    cursor.rest = c :: cursor.advance.rest := by
  unfold current at starts
  -- There is a current character, and so something follows.
  cases same : cursor.rest with
  | nil =>
    rw [same] at starts
    cases starts
  | cons first rest =>
    rw [same] at starts
    cases starts
    simp [same]

/-- One character without structure is passed. -/
theorem advance_passes (marks : Marks avoid) {c : Char} (current : cursor.current = some c)
    (clear : c ∉ structural) : cursor.Passes avoid cursor.advance := by
  refine Passes.plain marks fun other member => ?_
  rw [rest_of_current current] at member
  simp only [List.take_succ_cons, List.take_zero, List.mem_singleton] at member
  rwa [member]

/-- A place outside literals in balanced text is within the groups that are open there. -/
theorem within_of_balanced (balanced : Balanced nothing cursor.source.text)
    (outside : (cursor.source.text.take cursor.pos).foldl Quoting.next .outside = .outside) :
    ∃ due, cursor.Within due := by
  unfold Balanced at balanced
  -- The text is read in two parts, in front of the place and behind it.
  rw [← List.take_append_drop cursor.pos cursor.source.text, Nesting.read?_append] at balanced
  obtain ⟨⟨due, quoting⟩, first, last⟩ := Option.bind_eq_some_iff.mp balanced
  obtain rfl : quoting = .outside := (Nesting.read?_quoting first).trans outside
  refine ⟨due, ?_⟩
  unfold Within
  rw [cursor.rest_eq]
  exact last

/-- A group that starts at a cursor is read to its end and passed. -/
theorem readBalanced_within {opener closer : Char} (opens : Canonical.closer? opener = some closer)
    (within : cursor.Within due) (starts : cursor.skipSpaces.current = some opener) :
    ∃ text behind, cursor.readBalanced opener closer = .ok (text, behind) ∧
      behind.source = cursor.source ∧ Balanced nothing text ∧
      cursor.skipSpaces.rest = opener :: text ++ closer :: behind.rest := by
  have here := (Passes.skipSpaces marks_nothing).within within
  have shape := rest_of_current starts
  have regrouped : Nesting.regroup? due opener = some (closer :: due) := by
    simp [Nesting.regroup?, opens]
  -- No bracket is a quote.
  have unquoted : opener ≠ '"' := by
    unfold Canonical.closer? at opens
    split at opens <;> cases opens <;> decide
  unfold Within at here
  rw [shape, Nesting.read?_outside regrouped fun _ => rfl] at here
  simp only [Quoting.next, if_neg unquoted] at here
  -- Nothing is to be avoided in a group.
  have seen : ∀ c rest, nothing c = true → headIs (· == closer) (c :: rest) = true := by
    intro c rest avoided
    cases avoided
  -- The search for the closing bracket stops at it, since the group has to be closed.
  rcases Nesting.distanceTo?_stops (fun c rest head _ => by simpa [headIs] using head.symm) seen here
    with ⟨text, rest, same, balanced, stops, found⟩ | ⟨none, _⟩
  · cases rest with
    | nil => cases stops
    | cons c rest =>
      cases eq_of_beq stops
      refine ⟨text, cursor.skipSpaces.advance.advanceBy (text.length + 1), ?_, ?_, balanced, ?_⟩
      · unfold readBalanced
        simp only [starts, if_true, found]
        rw [same, List.take_left]
      · simp
      · rw [shape, advanceBy_rest, same]
        simp
  · -- It cannot come to the end, because a group is open.
    cases none

/-- What was read as a group starts with its opening bracket. -/
theorem readBalanced_starts {opener closer : Char} {text : List Char}
    (read : cursor.readBalanced opener closer = .ok (text, behind)) :
    cursor.skipSpaces.current = some opener := by
  unfold readBalanced at read
  dsimp only at read
  split at read
  case isTrue starts => exact starts
  case isFalse => cases read

/-- A group that was read is passed. -/
theorem readBalanced_passes (marks : Marks avoid) {opener closer : Char} {text : List Char}
    (opens : Canonical.closer? opener = some closer) (allowed : avoid opener = false)
    (within : cursor.Within due) (read : cursor.readBalanced opener closer = .ok (text, behind)) :
    cursor.Passes avoid behind := by
  obtain ⟨text, behind, same, source, balanced, shape⟩ :=
    readBalanced_within opens within (readBalanced_starts read)
  cases same.symm.trans read
  refine (Passes.skipSpaces marks).trans ⟨?_, opener :: text ++ [closer], ?_, ?_⟩
  · rw [source, skipSpaces_source]
  · exact balanced.group opens allowed
  · simpa using shape

/-- What is in a group that was read is balanced. -/
theorem readBalanced_balanced {opener closer : Char} {text : List Char}
    (opens : Canonical.closer? opener = some closer) (within : cursor.Within due)
    (read : cursor.readBalanced opener closer = .ok (text, behind)) : Balanced nothing text := by
  obtain ⟨text, behind, same, _, balanced, _⟩ :=
    readBalanced_within opens within (readBalanced_starts read)
  cases same.symm.trans read
  exact balanced

/-- Text up to where a scan stops is passed, and all of it if the scan does not stop. -/
theorem distance_passes {stop : List Char → Bool} (within : cursor.Within due)
    (ends : ∀ c rest, Canonical.isCloser c = true → stop (c :: rest) = true)
    (seen : ∀ c rest, avoid c = true → stop (c :: rest) = true) :
    cursor.Passes avoid (cursor.advanceBy ((distanceTo? cursor.rest stop).getD cursor.left)) := by
  refine Passes.advanceBy ?_
  -- Up to a place to stop, or to the end of the text.
  rcases Nesting.distanceTo?_stops (fun c rest _ => ends c rest) seen within with
    ⟨text, rest, same, balanced, _, found⟩ | ⟨rfl, balanced, found⟩
  · rw [same] at found ⊢
    rw [found, Option.getD_some, List.take_left]
    exact balanced
  · rw [found, Option.getD_none, left_eq_length, List.take_length]
    exact balanced

/-- What is read up to a character is passed. -/
theorem readUntil_passes (stop : Char → Bool) (within : cursor.Within due) :
    cursor.Passes stop (cursor.readUntil stop).2 :=
  distance_passes within (by simp +contextual [headIs]) (by simp +contextual [headIs])

/-- An operand that is skipped is passed, which no semicolon ends within. -/
theorem skipOperand_passes (operators : List String) (within : cursor.Within due) :
    cursor.Passes (· == ';') (cursor.skipOperand operators) := by
  refine distance_passes within (fun c rest closing => ?_) (fun c rest semicolon => ?_)
  · simp [headIs, endsOperand, closing]
  · simp only [beq_iff_eq] at semicolon
    simp [headIs, endsOperand, semicolon]

/-- A literal behind its opening quote is read to its end. -/
theorem literalContent?_read {text content : List Char} {length : Nat}
    (found : literalContent? text = some (content, length)) :
    Nesting.read? avoid ⟨[], .inside⟩ (text.take length) = some {} := by
  -- The induction follows the reader, through plain characters and escapes up to the quote.
  induction text using literalContent?.induct generalizing content length with
  | case1 => cases found
  | case2 rest =>
    cases found
    simp [Nesting.read?, Nesting.step?, Quoting.next]
  | case3 => cases found
  | case4 escaped rest ih =>
    simp only [literalContent?, Option.map_eq_some_iff] at found
    obtain ⟨⟨inner, count⟩, found, same⟩ := found
    cases same
    simpa [Nesting.read?, Nesting.step?, Quoting.next] using ih found
  | case5 c rest quote slash other ih =>
    rw [literalContent?, Option.map_eq_some_iff] at found
    obtain ⟨⟨inner, count⟩, found, same⟩ := found
    cases same
    have plain := unescaped_of_clauses slash other
    have unquoted : c ≠ '"' := quote
    simpa [Nesting.read?, Nesting.step?, Quoting.next, plain, unquoted] using ih found
    all_goals assumption

/-- A string literal that was read is passed. -/
theorem readString_passes (marks : Marks avoid) (allowed : avoid '"' = false) {text : String}
    (read : cursor.readString = .ok (text, behind)) : cursor.Passes avoid behind := by
  unfold readString expect at read
  dsimp only at read
  split at read
  case isFalse => cases read
  -- The opening quote is what the cursor has been at.
  case isTrue quoted =>
    refine (Passes.skipSpaces marks).trans ?_
    cases found : literalContent? cursor.skipSpaces.advance.rest with
    | none =>
      simp only [bind, Except.bind, found] at read
      cases read
    | some result =>
      obtain ⟨content, length⟩ := result
      simp only [found, bind, Except.bind, pure, Except.pure, Except.ok.injEq, Prod.mk.injEq] at read
      obtain ⟨_, rfl⟩ := read
      refine ⟨by simp, '"' :: cursor.skipSpaces.advance.rest.take length, ?_, ?_⟩
      · unfold Balanced
        have regrouped : Nesting.regroup? [] '"' = some [] := rfl
        rw [Nesting.read?_outside regrouped fun _ => allowed]
        exact literalContent?_read found
      · rw [rest_of_current quoted, advanceBy_rest, List.cons_append, List.take_append_drop]

/-- A number literal that was read is passed. -/
theorem readNumber_passes (marks : Marks avoid) {number : Float}
    (read : cursor.readNumber = .ok (number, behind)) : cursor.Passes avoid behind := by
  unfold readNumber at read
  dsimp only at read
  split at read
  · cases read
    refine Passes.plain marks fun c member => ?_
    exact not_mem_of_none (by decide) (Number.literalLength_numeral _ c member)
  · cases read

/-- Where a statement ends behind text without a semicolon, the next one starts. -/
theorem nextStatement_eq (passes : cursor.Passes (· == ';') middle)
    (ends : middle.endStatement = .ok behind) : cursor.nextStatement = behind := by
  have spaced := passes.trans (Passes.skipSpaces (marks_single (by decide)))
  obtain ⟨source, taken, balanced, same⟩ := spaced
  -- The search stops at nothing that lies within the statement.
  have unseen : ∀ c rest, (c == ';') = false → Canonical.isCloser c = false →
      headIs (fun c => c == ';' || c == '}') (c :: rest) = false := by
    intro c rest semicolon closing
    simp only [headIs, semicolon, Bool.false_or]
    simp only [Canonical.isCloser, Bool.or_eq_false_iff] at closing
    exact closing.2
  have scanned := Nesting.scan_passes unseen balanced 0 middle.skipSpaces.rest
  have here : cursor.advanceBy taken.length = middle.skipSpaces :=
    eq_of_rest (by simp [← source]) (by simp [same])
  -- Where the statement ends at a semicolon or in front of a brace, the search stops as well.
  have stopped : ∀ {c}, middle.skipSpaces.current = some c → c = ';' ∨ c = '}' →
      distanceTo? cursor.rest (headIs fun c => c == ';' || c == '}') = some taken.length := by
    intro c starts ended
    have shape := rest_of_current starts
    unfold distanceTo?
    rw [same]
    refine scanned.trans ?_
    rw [shape]
    rcases ended with rfl | rfl <;> simp [scan, headIs]
  unfold endStatement at ends
  unfold nextStatement
  dsimp only at ends
  split at ends
  case h_1 semicolon =>
    cases ends
    simp only [stopped semicolon (.inl rfl), here, semicolon, if_true]
  case h_2 none =>
    cases ends
    have empty : middle.skipSpaces.rest = [] := List.head?_eq_none_iff.mp none
    -- At the end of the text neither is found.
    have unstopped : distanceTo? cursor.rest (headIs fun c => c == ';' || c == '}') = Option.none := by
      unfold distanceTo?
      rw [same]
      refine scanned.trans ?_
      rw [empty]
      simp [scan]
    simp only [unstopped]
    exact eq_of_rest (by simp [← source]) (by simp [empty])
  case h_3 brace =>
    cases ends
    simp only [stopped brace (.inr rfl), here, brace]
    rfl
  case h_4 => cases ends

end Cursor

end ScriptEngine
