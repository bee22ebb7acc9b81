import ScriptEngine.Proofs.Grammar.Layout

/-! A written expression is canonical already, but for spaces that part no signs. -/

namespace ScriptEngine

namespace Text

/-- A code point in one of some ranges. -/
theorem exists_of_inRanges {code : Nat} {ranges : List (Nat × Nat)}
    (found : inRanges code ranges = true) : ∃ range ∈ ranges, range.1 ≤ code ∧ code ≤ range.2 := by
  -- The ranges are gone through in ascending order.
  induction ranges with
  | nil => cases found
  | cons range ranges ih =>
    rw [inRanges] at found
    split at found
    · cases found
    · by_cases here : code ≤ range.2
      · exact ⟨range, List.mem_cons_self, by omega, here⟩
      · simp only [here, decide_false, Bool.false_or] at found
        obtain ⟨other, member, bounds⟩ := ih found
        exact ⟨other, List.mem_cons_of_mem _ member, bounds⟩

/-- The blank characters. -/
def blanks : List Char :=
  (blankRanges.flatMap fun range => List.range' range.1 (range.2 + 1 - range.1)).map Char.ofNat

/-- A blank character is one of those that are listed. -/
theorem mem_blanks {c : Char} (blank : isBlank c = true) : c ∈ blanks := by
  obtain ⟨range, listed, low, high⟩ := exists_of_inRanges blank
  -- The ranges are listed code point by code point.
  have code : c.toNat ∈ List.range' range.1 (range.2 + 1 - range.1) := by
    rw [List.mem_range'_1]
    omega
  exact List.mem_map.mpr ⟨c.toNat, List.mem_flatMap.mpr ⟨range, listed, code⟩, Char.ofNat_toNat c⟩

/-- Whether a character is one of a word, of a number or of an operator. -/
def isInert (c : Char) : Bool :=
  isWordChar c || Cursor.isNumeral c || ['=', '!', '<', '>', '*', '%', '|', '&'].contains c

/-- The characters that a reader of code does not just copy. -/
def meaningful : List Char := ['\n', '"', '\'', '/', '(', ')', '[', ']', '{', '}'] ++ blanks

/-- The characters of words, numbers and operators are just copied. -/
theorem inert_clear {c : Char} (inert : isInert c = true) : c ∉ meaningful :=
  not_mem_of_none (by decide +kernel) inert

end Text

namespace Canonical

open Text

variable {gap : Char → Char → Bool} {file : String} {progress : Progress} {rest : List Char} {c : Char}

/-- Where no white space stands, none is settled. -/
theorem join_unparted (unparted : progress.parted = false) (c : Char) : progress.join c = progress := by
  obtain ⟨emitted, opened, line, parted⟩ := progress
  cases unparted
  rfl

/-- A character of code that starts no comment is taken by itself. -/
theorem continueFrom_code (plain : c = '/' → ∀ next, rest.head? = some next → next ≠ '/' ∧ next ≠ '*') :
    continueFrom file .code progress (c :: rest) =
      if c = '\n' then continueFrom file .code progress.nextLine.part rest
      else if isBlank c then continueFrom file .code progress.part rest
      else if c = '"' ∨ c = '\'' then
        continueFrom file (.literal c (progress.join c).line) ((progress.join c).emit '"') rest
      else
        (progress.take? c).elim (fail (.imbalance .brackets file progress.line)) fun taken =>
          continueFrom file .code taken rest := by
  rw [continueFrom]
  · cases progress.take? c with
    | none => rfl
    | some taken => rfl
  · -- The clauses for comments are not reached.
    rintro tail rfl rfl
    exact (plain rfl '/' rfl).1 rfl
  · rintro tail rfl rfl
    exact (plain rfl '*' rfl).2 rfl

/-- The white space in front of a character that is not blank is settled before it is taken. -/
theorem continueFrom_join (solid : c ∉ ['\n', '/'] ++ blanks) :
    continueFrom file .code progress (c :: rest) =
      continueFrom file .code (progress.join c) (c :: rest) := by
  have clear : c ≠ '\n' ∧ c ≠ '/' ∧ isBlank c = false := by
    simp only [List.cons_append, List.nil_append, List.mem_cons, not_or] at solid
    exact ⟨solid.1, solid.2.1, Bool.eq_false_iff.mpr fun blank => solid.2.2 (mem_blanks blank)⟩
  have settled : (progress.join c).join c = progress.join c := join_unparted rfl c
  have line : (progress.join c).line = progress.line := by
    unfold Progress.join
    dsimp only
    split <;> rfl
  -- Both sides are taken apart alike, as settling twice is settling once.
  rw [continueFrom_code fun slash => absurd slash clear.2.1,
    continueFrom_code fun slash => absurd slash clear.2.1]
  simp only [clear.1, clear.2.2, Bool.false_eq_true, if_false, settled, line]
  have taken : (progress.join c).take? c = progress.take? c := by
    unfold Progress.take?
    rw [settled]
  rw [taken]

/-- A character that is neither blank nor a quote and starts no comment is taken. -/
theorem continueFrom_take {taken : Progress} (clear : c ∉ ['\n', '"', '\''] ++ blanks)
    (plain : c = '/' → ∀ next, rest.head? = some next → next ≠ '/' ∧ next ≠ '*')
    (take : progress.take? c = some taken) :
    continueFrom file .code progress (c :: rest) = continueFrom file .code taken rest := by
  simp only [List.cons_append, List.nil_append, List.mem_cons, not_or] at clear
  obtain ⟨line, double, single, blank⟩ := clear
  have solid : isBlank c = false := Bool.eq_false_iff.mpr fun found => blank (mem_blanks found)
  rw [continueFrom_code plain, take]
  simp [line, solid, double, single]

/-- A character that is no bracket is written as it is. -/
theorem take_emit (unparted : progress.parted = false) (opener : closer? c = none)
    (closer : isCloser c = false) : progress.take? c = some (progress.emit c) := by
  simp [Progress.take?, join_unparted unparted, opener, closer]

/-- A character of a word, a number or an operator is copied. -/
theorem continueFrom_inert (inert : isInert c = true) (unparted : progress.parted = false) :
    continueFrom file .code progress (c :: rest) = continueFrom file .code (progress.emit c) rest := by
  have clear := inert_clear inert
  simp only [meaningful, List.cons_append, List.nil_append, List.mem_cons, not_or] at clear
  obtain ⟨line, double, single, slash, paren, closeParen, bracket, closeBracket, brace, closeBrace,
    blank⟩ := clear
  -- The character is no bracket.
  have opener : closer? c = none := by
    unfold closer?
    split <;> first | rfl | contradiction
  have closer : isCloser c = false := by simp [isCloser, closeParen, closeBracket, closeBrace]
  exact continueFrom_take (by simp [line, double, single, blank]) (fun same => absurd same slash)
    (take_emit unparted opener closer)

/-- A reader has written a text, no white space is left to settle, and the same brackets are open. -/
structure Writes (progress : Progress) (text : List Char) (after : Progress) : Prop where
  emitted : after.emitted.map (·.1) = text.reverse ++ progress.emitted.map (·.1)
  opened : after.opened = progress.opened
  unparted : after.parted = false

/-- A reader of code takes a text and writes another one for it, whatever stands around it. -/
def Copies (source text : List Char) : Prop :=
  ∀ (file : String) (progress : Progress) (rest : List Char), progress.parted = false →
    ∃ after, Writes progress text after ∧
      continueFrom file .code progress (source ++ rest) = continueFrom file .code after rest

namespace Writes

variable {middle after : Progress} {text more : List Char}

/-- One text is written behind another. -/
theorem trans (first : Writes progress text middle) (second : Writes middle more after) :
    Writes progress (text ++ more) after where
  emitted := by simp [second.emitted, first.emitted]
  opened := second.opened.trans first.opened
  unparted := second.unparted

/-- A character is written. -/
theorem emit (unparted : progress.parted = false) (c : Char) : Writes progress [c] (progress.emit c) :=
  ⟨rfl, rfl, unparted⟩

/-- A line feed in a literal only counts lines. -/
theorem lines (written : Writes progress text after) (feeds : Prop) [Decidable feeds] :
    Writes progress text (if feeds then after.nextLine else after) := by
  split
  · exact ⟨written.emitted, written.opened, written.unparted⟩
  · exact written

end Writes

namespace Copies

variable {source text first second firstText secondText : List Char}

/-- Texts side by side are copied if each is. -/
theorem append (copies : Copies first firstText) (copiesToo : Copies second secondText) :
    Copies (first ++ second) (firstText ++ secondText) := by
  -- The second text is read where the first one ends.
  intro file progress rest unparted
  obtain ⟨middle, written, ran⟩ := copies file progress (second ++ rest) unparted
  obtain ⟨after, writtenToo, ranToo⟩ := copiesToo file middle rest written.unparted
  refine ⟨after, written.trans writtenToo, ?_⟩
  rw [List.append_assoc, ran, ranToo]

/-- The characters of words, numbers and operators are copied. -/
theorem inert (inert : ∀ c ∈ text, isInert c = true) : Copies text text := by
  -- The induction is on the text.
  induction text with
  | nil => exact fun file progress rest unparted => ⟨progress, ⟨rfl, rfl, unparted⟩, rfl⟩
  | cons c text ih =>
    intro file progress rest unparted
    obtain ⟨after, written, ran⟩ :=
      ih (fun other member => inert other (List.mem_cons_of_mem _ member)) file (progress.emit c) rest
        unparted
    refine ⟨after, (Writes.emit unparted c).trans written, ?_⟩
    rw [List.cons_append, continueFrom_inert (inert c List.mem_cons_self) unparted, ran]

/-- A group in brackets is copied if what is in it is. -/
theorem enclosed (copies : Copies source text) :
    Copies ('(' :: (source ++ [')'])) ('(' :: (text ++ [')'])) := by
  intro file progress rest unparted
  -- The bracket is open while its content is read.
  let inside : Progress := { progress with opened := ('(', progress.line) :: progress.opened }.emit '('
  obtain ⟨middle, written, ran⟩ := copies file inside (')' :: rest) unparted
  let closed : Progress := { middle with opened := progress.opened }
  refine ⟨closed.emit ')', ⟨?_, rfl, written.unparted⟩, ?_⟩
  · simp [closed, inside, Progress.emit, written.emitted]
  · have opens : progress.take? '(' = some inside := by
      simp [Progress.take?, join_unparted unparted, closer?, inside]
    have closes : middle.take? ')' = some (closed.emit ')') := by
      have innermost : middle.opened = ('(', progress.line) :: progress.opened := written.opened
      simp [Progress.take?, join_unparted written.unparted, Progress.close?, innermost, closer?,
        isCloser, closed]
    have group : '(' :: (source ++ [')']) ++ rest = '(' :: (source ++ ')' :: rest) := by simp
    rw [group, continueFrom_take (by decide) (fun same => absurd same (by decide)) opens, ran,
      continueFrom_take (by decide) (fun same => absurd same (by decide)) closes]

/-- The pieces of a string literal are copied up to the quote behind them. -/
theorem pieces (file : String) (opened : Nat) (pieces : List Piece) (rest : List Char)
    (unparted : progress.parted = false) :
    ∃ after, Writes progress (pieces.flatMap Piece.text ++ ['"']) after ∧
      continueFrom file (.literal '"' opened) progress (pieces.flatMap Piece.text ++ '"' :: rest) =
        continueFrom file .code after rest := by
  -- The induction is on the pieces; the literal stays open until its quote.
  induction pieces generalizing progress with
  | nil =>
    refine ⟨_, .emit unparted '"', ?_⟩
    rw [List.flatMap_nil, List.nil_append, continueFrom, if_pos rfl]
    all_goals intros; contradiction
  | cons piece pieces ih =>
    rw [List.flatMap_cons, List.append_assoc, List.append_assoc]
    cases piece with
    | plain c bare =>
      have step : continueFrom file (.literal '"' opened) progress
          (c :: (pieces.flatMap Piece.text ++ '"' :: rest)) =
          continueFrom file (.literal '"' opened)
            ((if c = '\n' then progress.nextLine else progress).emit c)
            (pieces.flatMap Piece.text ++ '"' :: rest) := by
        -- A plain piece is written as it stands.
        rw [continueFrom]
        · simp only [bare.1, if_false]
        · exact fun same => absurd same bare.2
        · exact fun _ _ same => absurd same bare.2
      have none : Writes progress [] progress := ⟨rfl, rfl, unparted⟩
      have written := none.lines (c = '\n')
      have copied := written.trans (.emit written.unparted c)
      obtain ⟨after, more, ran⟩ := ih copied.unparted
      exact ⟨after, copied.trans more, step.trans ran⟩
    | escape c =>
      have step : continueFrom file (.literal '"' opened) progress
          ('\\' :: c :: (pieces.flatMap Piece.text ++ '"' :: rest)) =
          continueFrom file (.literal '"' opened)
            (if c = '\n' then ((progress.emit '\\').emit c).nextLine else (progress.emit '\\').emit c)
            (pieces.flatMap Piece.text ++ '"' :: rest) := by
        -- So is an escape, with its backslash.
        rw [continueFrom]
        simp
      have slash := Writes.emit unparted '\\'
      have copied := (slash.trans (.emit slash.unparted c)).lines (c = '\n')
      obtain ⟨after, more, ran⟩ := ih copied.unparted
      exact ⟨after, copied.trans more, step.trans ran⟩

/-- A string literal between double quotes is copied. -/
theorem literal (pieces : List Piece) :
    Copies ('"' :: (pieces.flatMap Piece.text ++ ['"']))
      ('"' :: (pieces.flatMap Piece.text ++ ['"'])) := by
  intro file progress rest unparted
  have quoted := Writes.emit unparted '"'
  obtain ⟨after, written, ran⟩ := Copies.pieces file progress.line pieces rest quoted.unparted
  refine ⟨after, quoted.trans written, ?_⟩
  -- The quote opens the literal, and its pieces go up to the other one.
  have whole : '"' :: (pieces.flatMap Piece.text ++ ['"']) ++ rest =
      '"' :: (pieces.flatMap Piece.text ++ '"' :: rest) := by simp
  rw [whole, ← ran, continueFrom_code fun same => absurd same (by decide)]
  have solid : isBlank '"' = false := by decide
  simp [solid, join_unparted unparted]

/-- The symbol of a sign or of an operator is copied in front of an operand. -/
theorem spelled (file : String) {symbol : List Char} (next : Char) (rest : List Char)
    (unparted : progress.parted = false)
    (known : symbol.all isInert = true ∨ symbol = ['/']) (plain : next ≠ '/' ∧ next ≠ '*') :
    ∃ after, Writes progress symbol after ∧
      continueFrom file .code progress (symbol ++ next :: rest) =
        continueFrom file .code after (next :: rest) := by
  rcases known with inertSymbol | rfl
  · exact Copies.inert (List.all_eq_true.mp inertSymbol) file progress (next :: rest) unparted
  · -- A slash starts a comment only in front of another one or of a star.
    refine ⟨_, .emit unparted '/', ?_⟩
    refine continueFrom_take (by decide) (fun _ other head => ?_) (take_emit unparted rfl rfl)
    cases head
    exact plain

/-- The white space behind a sign or an operator only stays between two signs. -/
theorem needsSpace_symbol {emitted : List (Char × Nat)} {last next : Char}
    (ends : (emitted.map (·.1)).head? = some last) (apart : isWordChar last = false) :
    needsSpace emitted next = adjacentSigns last next := by
  cases emitted with
  | nil => cases ends
  | cons mark others =>
    obtain ⟨c, line⟩ := mark
    cases ends
    have outside : isWordChar c = false := apart
    simp [needsSpace, outside, adjacentSigns, Bool.beq_eq_decide_eq]

/-- White space between an operator and its operand becomes a space between two signs, and nothing
otherwise. -/
theorem space (file : String) {last next : Char} (rest : List Char)
    (ends : (progress.emitted.map (·.1)).head? = some last) (apart : isWordChar last = false)
    (solid : next ∉ ['\n', '/'] ++ blanks) :
    ∃ after, Writes progress (if adjacentSigns last next then [' '] else []) after ∧
      continueFrom file .code progress (' ' :: next :: rest) =
        continueFrom file .code after (next :: rest) := by
  refine ⟨progress.part.join next, ?_, ?_⟩
  · -- Whether the space is kept is decided by the characters on both sides.
    have needed : needsSpace progress.part.emitted next = adjacentSigns last next :=
      needsSpace_symbol ends apart
    unfold Progress.join
    rw [needed]
    cases adjacentSigns last next with
    | true => exact ⟨rfl, rfl, rfl⟩
    | false => exact ⟨rfl, rfl, rfl⟩
  · have blank : isBlank ' ' = true := by decide
    rw [continueFrom_code fun same => absurd same (by decide)]
    simp only [blank, if_true]
    exact continueFrom_join solid

/-- An operator and its operand are copied with a space between two signs. -/
theorem prefixed {symbol : List Char} {last next : Char}
    (separates : ∀ last next, adjacentSigns last next = true → gap last next = true)
    (known : symbol.all isInert = true ∨ symbol = ['/'])
    (ends : symbol.getLast? = some last) (apart : isWordChar last = false)
    (solid : next ∉ ['\n', '/', '*'] ++ blanks)
    (copies : Copies (next :: first) (next :: firstText)) :
    Copies (prefixed gap symbol (next :: first)) (prefixed adjacentSigns symbol (next :: firstText)) := by
  intro file progress rest unparted
  rw [prefixed_cons ends, prefixed_cons ends]
  have alone : next ≠ '\n' ∧ next ≠ '/' ∧ next ≠ '*' ∧ next ∉ blanks := by simpa using solid
  by_cases parted : gap last next = true
  · -- The space is read behind the symbol, and may go again.
    obtain ⟨middle, written, ran⟩ :=
      spelled file ' ' (next :: (first ++ rest)) unparted known (by decide)
    have head : (middle.emitted.map (·.1)).head? = some last := by
      rw [written.emitted, List.head?_append, List.head?_reverse, ends]
      rfl
    obtain ⟨settled, spaced, ranSpace⟩ := space file (first ++ rest) head apart (by simpa using
      ⟨alone.1, alone.2.1, alone.2.2.2⟩)
    obtain ⟨after, more, ranToo⟩ := copies file settled rest spaced.unparted
    refine ⟨after, written.trans (spaced.trans more), ?_⟩
    rw [if_pos parted]
    simpa using (ran.trans ranSpace).trans ranToo
  · -- Where no space stands there are no two signs.
    have single : adjacentSigns last next = false :=
      Bool.eq_false_iff.mpr fun adjacent => parted (separates last next adjacent)
    obtain ⟨middle, written, ran⟩ :=
      spelled file next (first ++ rest) unparted known ⟨alone.2.1, alone.2.2.1⟩
    obtain ⟨after, more, ranToo⟩ := copies file middle rest written.unparted
    refine ⟨after, ?_, ?_⟩
    · rw [single]
      exact written.trans more
    · rw [if_neg parted]
      simpa using ran.trans ranToo

end Copies

end Canonical

open Canonical Text

namespace Expr

variable {gap : Char → Char → Bool} {values : Name → Option Value} {level : Nat}

end Expr

end ScriptEngine
