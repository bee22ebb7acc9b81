import ScriptEngine.Proofs.Grammar.Normal

/-! White space, comments and the choice of quotes leave no trace in canonical text. -/

namespace ScriptEngine

/-- A piece of what can stand between two tokens. -/
inductive Filler where
  | blank (c : Char) (blank : Text.isBlank c = true)
  | lineComment (body : List Char) (inLine : '\n' ∉ body)
  | blockComment (body : List Char) (inside : ¬ ['*', '/'] <:+: body)

/-- A piece of what stands between two tokens, as it is written. -/
def Filler.text : Filler → List Char
  | .blank c _ => [c]
  | .lineComment body _ => '/' :: '/' :: (body ++ ['\n'])
  | .blockComment body _ => '/' :: '*' :: (body ++ ['*', '/'])

/-- What stands between two tokens, as it is written. -/
def gapText (gap : List Filler) : List Char := gap.flatMap Filler.text

/-- A string as it is written between quotes: a backslash stands in front of each backslash and of each
quote of the same kind. -/
def escapedText (quote : Char) (content : List Char) : List Char :=
  content.flatMap fun c => if c = '\\' ∨ c = quote then ['\\', c] else [c]

/-- The pieces of a string between double quotes. -/
def literalPieces (content : List Char) : List Piece :=
  content.map fun c =>
    if special : c = '"' ∨ c = '\\' then .escape c else .plain c (not_or.mp special)

/-- The piece that a character of a string is written as. -/
def literalPiece (c : Char) : Piece :=
  if special : c = '"' ∨ c = '\\' then .escape c else .plain c (not_or.mp special)

theorem literalPieces_cons (c : Char) (content : List Char) :
    literalPieces (c :: content) = literalPiece c :: literalPieces content := rfl

/-- The pieces of a string stand for its characters. -/
theorem content_literalPieces (content : List Char) :
    (literalPieces content).flatMap Piece.content = content := by
  induction content with
  | nil => rfl
  | cons c content ih =>
    rw [literalPieces_cons, List.flatMap_cons, ih, literalPiece]
    by_cases special : c = '"' ∨ c = '\\'
    · rcases special with rfl | rfl <;> simp [Piece.content, Cursor.unescape]
    · simp [special, Piece.content]

namespace Canonical

open Text

variable {file : String} {progress after : Progress} {rest source text : List Char} {c : Char}

/-! What stands between tokens. -/

/-- A line comment is passed together with the end of its line. -/
theorem continueFrom_lineComment {body : List Char} (inLine : '\n' ∉ body) (rest : List Char) :
    continueFrom file .lineComment progress (body ++ '\n' :: rest) =
      continueFrom file .code progress.nextLine.part rest := by
  induction body with
  | nil => simp [continueFrom]
  | cons c body ih =>
    simp only [List.mem_cons, not_or] at inLine
    rw [List.cons_append, continueFrom, if_neg (Ne.symm inLine.1), ih inLine.2]

/-- A reader has written a text, and the same brackets are open. -/
structure Adds (progress : Progress) (text : List Char) (after : Progress) : Prop where
  emitted : after.emitted.map (·.1) = text.reverse ++ progress.emitted.map (·.1)
  opened : after.opened = progress.opened

/-- One text is added behind another. -/
theorem Adds.trans {middle : Progress} {more : List Char} (first : Adds progress text middle)
    (second : Adds middle more after) : Adds progress (text ++ more) after where
  emitted := by simp [second.emitted, first.emitted]
  opened := second.opened.trans first.opened

/-- Passes a text from which nothing is emitted. -/
def Progress.pass (progress : Progress) (text : List Char) : Progress :=
  { progress with line := progress.line + text.count '\n', parted := true }

/-- Nothing is added for what is passed. -/
theorem Progress.pass_adds (progress : Progress) (text : List Char) :
    Adds progress [] (progress.pass text) :=
  ⟨rfl, rfl⟩

/-- A line feed is counted where it is passed. -/
theorem Progress.nextLine_line (progress : Progress) (c : Char) :
    (if c = '\n' then progress.nextLine else progress) =
      { progress with line := progress.line + [c].count '\n' } := by
  by_cases feed : c = '\n'
  · subst feed
    rfl
  · rw [if_neg feed, List.count_singleton, if_neg (by simpa using feed), Nat.add_zero]

/-- A block comment is passed together with its closing mark. -/
theorem continueFrom_blockComment (file : String) (progress : Progress) {body : List Char}
    (inside : ¬ ['*', '/'] <:+: body) (rest : List Char) :
    continueFrom file .blockComment progress (body ++ '*' :: '/' :: rest) =
      continueFrom file .code { progress with line := progress.line + body.count '\n' } rest := by
  induction body generalizing progress with
  | nil => rw [List.nil_append, continueFrom, List.count_nil, Nat.add_zero]
  | cons c body ih =>
    have within : ¬ ['*', '/'] <:+: body := fun found => inside (List.infix_cons found)
    have feeds : (c :: body).count '\n' = [c].count '\n' + body.count '\n' := by
      rw [← List.count_append, List.singleton_append]
    -- The mark does not start at this character.
    rw [List.cons_append, continueFrom]
    · rw [Progress.nextLine_line, ih _ within, feeds, ← Nat.add_assoc]
    · rintro behind rfl found
      cases body with
      | nil => cases found
      | cons second body =>
        cases found
        exact inside ⟨[], body, rfl⟩

/-- A piece between tokens is passed. -/
theorem continueFrom_filler (file : String) (progress : Progress) (filler : Filler)
    (rest : List Char) :
    continueFrom file .code progress (filler.text ++ rest) =
      continueFrom file .code (progress.pass filler.text) rest := by
  -- White space is passed character by character, and a comment from its mark to its end.
  cases filler with
  | blank c blank =>
    have plain : c ≠ '/' := by
      rintro rfl
      exact absurd blank (by decide)
    simp only [Filler.text, List.singleton_append]
    rw [continueFrom_code fun same => absurd same plain]
    by_cases feed : c = '\n'
    · subst feed
      exact if_pos rfl
    · rw [if_neg feed, if_pos blank, Progress.pass, List.count_singleton, if_neg (by simpa using feed)]
      rfl
  | lineComment body inLine =>
    have feeds : (Filler.lineComment body inLine).text.count '\n' = 1 := by
      simp [Filler.text, List.count_eq_zero_of_not_mem inLine]
    rw [Progress.pass, feeds]
    simp only [Filler.text, List.cons_append, List.append_assoc, List.nil_append]
    rw [continueFrom, continueFrom_lineComment inLine]
    rfl
  | blockComment body inside =>
    have feeds : (Filler.blockComment body inside).text.count '\n' = body.count '\n' := by
      simp [Filler.text]
    rw [Progress.pass, feeds]
    simp only [Filler.text, List.cons_append, List.append_assoc, List.nil_append]
    rw [continueFrom, continueFrom_blockComment file _ inside]
    rfl

/-- What stands between tokens is passed. -/
theorem continueFrom_gap (file : String) (progress : Progress) (gap : List Filler)
    (rest : List Char) : ∃ after, Adds progress [] after ∧
    continueFrom file .code progress (gapText gap ++ rest) = continueFrom file .code after rest := by
  induction gap generalizing progress with
  | nil => exact ⟨progress, ⟨rfl, rfl⟩, rfl⟩
  | cons filler gap ih =>
    obtain ⟨after, second, ran⟩ := ih (progress.pass filler.text)
    refine ⟨after, (progress.pass_adds filler.text).trans second, ?_⟩
    unfold gapText at ran ⊢
    rw [List.flatMap_cons, List.append_assoc, continueFrom_filler, ran]

/-! Where no space is kept. -/

/-- Whether no keyword that keeps a space ends with a character. -/
def endsNoKeyword (c : Char) : Bool :=
  spacedKeywords.all fun word => word.toList.getLast? != some c

/-- A value can start here: the text so far ends with no word and with no sign. -/
def Progress.Fresh (progress : Progress) : Prop :=
  ∀ last, (progress.emitted.map (·.1)).head? = some last →
    isWordChar last = false ∧ last ≠ '+' ∧ last ≠ '-'

/-- A value can end here: the text so far ends with no keyword that keeps a space. -/
def Progress.Settled (progress : Progress) : Prop :=
  ∀ last, (progress.emitted.map (·.1)).head? = some last → endsNoKeyword last = true

/-- A character ends no keyword that keeps a space if it is of another kind than their last ones. -/
theorem endsNoKeyword_of_kind (kind : Char → Bool)
    (kinds : (spacedKeywords.all fun word => word.toList.getLast?.all kind) = true)
    (other : kind c = false) : endsNoKeyword c = true := by
  unfold endsNoKeyword
  rw [List.all_eq_true] at kinds ⊢
  -- The keywords end with characters of one kind, and this one is of another.
  intro word member
  rw [bne_iff_ne]
  intro ends
  have same := kinds word member
  rw [ends, Option.all_some, other] at same
  cases same

/-- A keyword that keeps a space ends with a character of words. -/
theorem endsNoKeyword_of_apart (apart : isWordChar c = false) : endsNoKeyword c = true :=
  endsNoKeyword_of_kind isWordChar (by decide) apart

/-- Where a value can start, no space is kept in front of it. -/
theorem Progress.Fresh.join (fresh : progress.Fresh) (c : Char) :
    progress.join c = { progress with parted := false } := by
  -- What keeps a space is a word or a sign in front of it.
  have none : needsSpace progress.emitted c = false := by
    unfold needsSpace
    split
    · rfl
    · next last line others same =>
      obtain ⟨apart, plus, minus⟩ := fresh last (by rw [same]; rfl)
      simp [apart, plus, minus]
  simp [Progress.join, none]

/-- The marks that follow a value. -/
def closingMarks : List Char := [',', ':', ')', ']', '}']

/-- Where a value can end, no space is kept in front of the mark behind it. -/
theorem Progress.Settled.join (settled : progress.Settled) (mark : c ∈ closingMarks) :
    progress.join c = { progress with parted := false } := by
  have plain : isWordChar c = false ∧ c ≠ '+' ∧ c ≠ '-' := by
    have all : (closingMarks.all fun c => !isWordChar c && c != '+' && c != '-') = true := by
      decide
    simpa [and_assoc] using List.all_eq_true.mp all c mark
  have none : needsSpace progress.emitted c = false := by
    unfold needsSpace
    split
    · rfl
    · next last line others same =>
      have ends := settled last (by rw [same]; rfl)
      cases word : isWordChar last with
      | false => simp [plain]
      | true =>
        -- The word that the text ends with would be a keyword that ends with the same character.
        have unspaced : ∀ taken : List Char, (String.ofList taken).push last ∉ spacedKeywords := by
          intro taken member
          have other := List.all_eq_true.mp ends _ member
          simp at other
        simp [same, plain, word, unspaced]
  simp [Progress.join, none]

/-- A text that was added decides where a value can end. -/
theorem Adds.settled (adds : Adds progress text after) (fresh : progress.Fresh)
    (closed : ∀ c, text.getLast? = some c → endsNoKeyword c = true) : after.Settled := by
  intro last head
  rw [adds.emitted, List.head?_append, List.head?_reverse] at head
  -- The text that was added ends with a character of its own, or it is empty and the text so far
  -- was.
  cases ends : text.getLast? with
  | some c =>
    rw [ends] at head
    cases head
    exact closed last ends
  | none =>
    rw [ends] at head
    exact endsNoKeyword_of_apart (fresh last head).1

/-! Texts between which there can be gaps. -/

/-- A reader of code takes a text where a value can start, and adds another one for it. -/
def Carries (source text : List Char) : Prop :=
  ∀ (file : String) (progress : Progress) (rest : List Char), progress.Fresh →
    ∃ after, Adds progress text after ∧
      continueFrom file .code progress (source ++ rest) = continueFrom file .code after rest

namespace Carries

/-- What is copied where no white space stands is copied behind a gap too. -/
theorem ofCopies {tail : List Char} (copies : Copies (c :: tail) text)
    (solid : c ∉ ['\n', '/'] ++ blanks) : Carries (c :: tail) text := by
  intro file progress rest fresh
  obtain ⟨after, written, ran⟩ := copies file { progress with parted := false } rest rfl
  refine ⟨after, ⟨written.emitted, written.opened⟩, ?_⟩
  rw [List.cons_append, continueFrom_join solid, fresh.join]
  exact ran

/-- A gap adds nothing. -/
theorem gap (gap : List Filler) : Carries (gapText gap) [] :=
  fun file progress rest _ => continueFrom_gap file progress gap rest

/-- Gaps can stand in front of a text and behind it. -/
theorem spaced (carries : Carries source text) (front behind : List Filler) :
    Carries (gapText front ++ (source ++ gapText behind)) text := by
  intro file progress rest fresh
  obtain ⟨start, none, ranFront⟩ := continueFrom_gap file progress front
    (source ++ (gapText behind ++ rest))
  have still : start.Fresh := by
    intro last head
    rw [none.emitted] at head
    exact fresh last head
  -- The gap in front has added nothing, so that a value can still start.
  obtain ⟨middle, adds, ran⟩ := carries file start (gapText behind ++ rest) still
  obtain ⟨after, noneToo, ranBehind⟩ := continueFrom_gap file middle behind rest
  refine ⟨after, ?_, ?_⟩
  · have whole := (none.trans adds).trans noneToo
    rwa [List.nil_append, List.append_nil] at whole
  · simp only [List.append_assoc]
    rw [ranFront, ran, ranBehind]

/-- A mark behind a value is taken as it is. -/
theorem continueFrom_mark (settled : progress.Settled) (mark : c ∈ [',', ':']) (rest : List Char) :
    continueFrom file .code progress (c :: rest) =
      continueFrom file .code ({ progress with parted := false }.emit c) rest := by
  simp only [List.mem_cons, List.not_mem_nil, or_false] at mark
  obtain ⟨clear, solid, closing, plain⟩ : c ∉ ['\n', '"', '\''] ++ blanks ∧ c ≠ '/' ∧
      c ∈ closingMarks ∧ closer? c = none ∧ isCloser c = false := by
    rcases mark with rfl | rfl <;> decide
  refine continueFrom_take clear (fun same => absurd same solid) ?_
  simp [Progress.take?, settled.join closing, plain]

/-- A mark can stand between two texts. -/
theorem marked {secondSource secondText : List Char} (first : Carries source text)
    (closed : ∀ c, text.getLast? = some c → endsNoKeyword c = true) (mark : c ∈ [',', ':'])
    (second : Carries secondSource secondText) :
    Carries (source ++ c :: secondSource) (text ++ c :: secondText) := by
  intro file progress rest fresh
  obtain ⟨middle, adds, ran⟩ := first file progress (c :: (secondSource ++ rest)) fresh
  -- Neither mark is a part of a word or a sign.
  have apart : isWordChar c = false ∧ c ≠ '+' ∧ c ≠ '-' := by
    simp only [List.mem_cons, List.not_mem_nil, or_false] at mark
    rcases mark with rfl | rfl <;> decide
  have emits : Adds middle [c] ({ middle with parted := false }.emit c) := ⟨rfl, rfl⟩
  have again : Progress.Fresh ({ middle with parted := false }.emit c) := by
    intro last head
    cases head
    exact apart
  -- Behind the mark a value can start again.
  obtain ⟨after, addsToo, ranToo⟩ := second file _ rest again
  refine ⟨after, ?_, ?_⟩
  · have whole := adds.trans (emits.trans addsToo)
    rwa [List.singleton_append] at whole
  · rw [List.append_assoc, List.cons_append, ran, continueFrom_mark (adds.settled fresh closed) mark,
      ranToo]

/-- A text can stand in brackets. -/
theorem enclosed {opener closer : Char} (matched : closer? opener = some closer)
    (carries : Carries source text)
    (closed : ∀ c, text.getLast? = some c → endsNoKeyword c = true) :
    Carries (opener :: (source ++ [closer])) (opener :: (text ++ [closer])) := by
  intro file progress rest fresh
  -- What is to be known of brackets holds of each pair.
  obtain ⟨solid, solidEnd, apart, mark, closes⟩ :
      (opener ∉ '/' :: ['\n', '"', '\''] ++ blanks) ∧ (closer ∉ '/' :: ['\n', '"', '\''] ++ blanks) ∧
        (isWordChar opener = false ∧ opener ≠ '+' ∧ opener ≠ '-') ∧ closer ∈ closingMarks ∧
          closer? closer = none ∧ isCloser closer = true := by
    unfold closer? at matched
    split at matched <;> cases matched <;> decide
  simp only [List.cons_append, List.mem_cons, not_or] at solid solidEnd
  let inside : Progress :=
    { progress with parted := false, opened := (opener, progress.line) :: progress.opened }.emit opener
  have opens : progress.take? opener = some inside := by
    simp [Progress.take?, fresh.join, matched, inside]
  have freshInside : inside.Fresh := by
    intro last head
    cases head
    exact apart
  obtain ⟨middle, adds, ran⟩ := carries file inside (closer :: rest) freshInside
  let done : Progress := { middle with parted := false, opened := progress.opened }.emit closer
  have innermost : middle.opened = (opener, progress.line) :: progress.opened := adds.opened
  have ends : middle.take? closer = some done := by
    simp [Progress.take?, (adds.settled freshInside closed).join mark, closes, Progress.close?,
      innermost, matched, done]
  refine ⟨done, ⟨?_, rfl⟩, ?_⟩
  · simp [done, Progress.emit, adds.emitted, inside]
  · have group : opener :: (source ++ [closer]) ++ rest = opener :: (source ++ closer :: rest) := by
      simp
    rw [group, continueFrom_take (by simpa using solid.2) (fun same => absurd same solid.1) opens, ran,
      continueFrom_take (by simpa using solidEnd.2) (fun same => absurd same solidEnd.1) ends]

/-- A source that is carried is brought into its canonical text. -/
theorem ofSource (carries : Carries source text) (file : String) :
    ∃ canonical, Canonical.ofSource (String.ofList source) file = .ok canonical ∧
      canonical.text = text := by
  obtain ⟨after, adds, ran⟩ := carries file {} [] nofun
  rw [List.append_nil] at ran
  refine ⟨⟨after.emitted.reverse⟩, ?_, ?_⟩
  · unfold Canonical.ofSource
    rw [String.toList_ofList, ran]
    -- No bracket is left open.
    have none : after.opened = [] := adds.opened
    simp only [continueFrom, Progress.finish, none]
  · unfold Canonical.text
    rw [List.map_reverse, adds.emitted]
    simp

end Carries

/-! Strings between either quotes. -/

/-- A character of a string that needs its backslash is copied as it is between double quotes. -/
theorem continueFrom_escaped (file : String) {quote : Char} (quoted : quote = '"' ∨ quote = '\'')
    (opened : Nat) (unparted : progress.parted = false) (escaped : c = '\\' ∨ c = quote) :
    ∃ middle, Writes progress (literalPiece c).text middle ∧
      ∀ rest, continueFrom file (.literal quote opened) progress ('\\' :: c :: rest) =
        continueFrom file (.literal quote opened) middle rest := by
  by_cases single : c = '\'' ∧ quote = '\''
  · -- Between double quotes a single quote needs no backslash.
    obtain ⟨rfl, rfl⟩ := single
    exact ⟨_, .emit unparted '\'', fun rest => by simp [continueFrom]⟩
  · have special : c = '"' ∨ c = '\\' := by
      rcases escaped with same | same
      · exact .inr same
      · rcases quoted with rfl | rfl
        · exact .inl same
        · exact absurd ⟨same, rfl⟩ single
    have inLine : c ≠ '\n' := by rcases special with rfl | rfl <;> decide
    have slash := Writes.emit unparted '\\'
    refine ⟨(progress.emit '\\').emit c, ?_, fun rest => ?_⟩
    · rw [literalPiece, dif_pos special]
      exact slash.trans (.emit slash.unparted c)
    · simp [continueFrom, single, inLine]

/-- A character of a string that needs no backslash gets one between double quotes if it is one of
them. -/
theorem continueFrom_unescaped (file : String) (quote : Char) (opened : Nat)
    (unparted : progress.parted = false) (other : c ≠ quote) (unescaped : c ≠ '\\') :
    ∃ middle, Writes progress (literalPiece c).text middle ∧
      ∀ rest, continueFrom file (.literal quote opened) progress (c :: rest) =
        continueFrom file (.literal quote opened) middle rest := by
  have step : ∀ rest, continueFrom file (.literal quote opened) progress (c :: rest) =
      continueFrom file (.literal quote opened)
        ((if c = '\n' then (if c = '"' then progress.emit '\\' else progress).nextLine
          else if c = '"' then progress.emit '\\' else progress).emit c) rest := by
    intro rest
    rw [continueFrom, if_neg other]
    · exact fun same => absurd same unescaped
    · exact fun _ _ same => absurd same unescaped
  refine ⟨_, ?_, step⟩
  -- Only a double quote needs a backslash now.
  by_cases double : c = '"'
  · subst double
    have slash := Writes.emit unparted '\\'
    exact slash.trans (.emit slash.unparted '"')
  · rw [literalPiece, dif_neg (by simp [double, unescaped])]
    have none : Writes progress [] progress := ⟨rfl, rfl, unparted⟩
    simp only [double, if_false]
    exact (none.lines (c = '\n')).trans (.emit (none.lines (c = '\n')).unparted c)

/-- The text of a string is copied up to its quote as the text between double quotes. -/
theorem continueFrom_escapedText (file : String) {quote : Char}
    (quoted : quote = '"' ∨ quote = '\'') (opened : Nat) (content rest : List Char)
    (unparted : progress.parted = false) :
    ∃ after, Writes progress ((literalPieces content).flatMap Piece.text ++ ['"']) after ∧
      continueFrom file (.literal quote opened) progress
        (escapedText quote content ++ quote :: rest) = continueFrom file .code after rest := by
  -- The induction is on the characters; the literal stays open until its quote.
  induction content generalizing progress with
  | nil =>
    have unescaped : quote ≠ '\\' := by rcases quoted with rfl | rfl <;> decide
    refine ⟨_, .emit unparted '"', ?_⟩
    simp only [escapedText, List.flatMap_nil, List.nil_append]
    rw [continueFrom, if_pos rfl]
    · exact fun same => absurd same unescaped
    · exact fun _ _ same => absurd same unescaped
  | cons c content ih =>
    have text : escapedText quote (c :: content) =
        (if c = '\\' ∨ c = quote then ['\\', c] else [c]) ++ escapedText quote content := rfl
    -- One character, then the others from where it leaves off.
    obtain ⟨middle, written, ran⟩ : ∃ middle, Writes progress (literalPiece c).text middle ∧
        ∀ rest, continueFrom file (.literal quote opened) progress
          ((if c = '\\' ∨ c = quote then ['\\', c] else [c]) ++ rest) =
            continueFrom file (.literal quote opened) middle rest := by
      by_cases escaped : c = '\\' ∨ c = quote
      · simp only [if_pos escaped]
        exact continueFrom_escaped file quoted opened unparted escaped
      · simp only [if_neg escaped]
        exact continueFrom_unescaped file quote opened unparted (fun same => escaped (.inr same))
          (fun same => escaped (.inl same))
    obtain ⟨after, more, ranToo⟩ := ih written.unparted
    refine ⟨after, ?_, ?_⟩
    · rw [literalPieces_cons, List.flatMap_cons, List.append_assoc]
      exact written.trans more
    · rw [text, List.append_assoc, ran, ranToo]

/-- A string between either quotes is copied as one between double quotes. -/
theorem Copies.quoted {quote : Char} (quoted : quote = '"' ∨ quote = '\'') (content : List Char) :
    Copies (quote :: (escapedText quote content ++ [quote]))
      ('"' :: ((literalPieces content).flatMap Piece.text ++ ['"'])) := by
  intro file progress rest unparted
  have opens := Writes.emit unparted '"'
  obtain ⟨after, written, ran⟩ := continueFrom_escapedText file quoted progress.line content
    rest opens.unparted
  -- The opening quote is copied first, as a double one.
  refine ⟨after, opens.trans written, ?_⟩
  have whole : quote :: (escapedText quote content ++ [quote]) ++ rest =
      quote :: (escapedText quote content ++ quote :: rest) := by simp
  have solid : quote ≠ '/' ∧ quote ≠ '\n' ∧ isBlank quote = false := by
    rcases quoted with rfl | rfl <;> decide
  rw [whole, ← ran, continueFrom_code fun same => absurd same solid.1]
  simp [solid, quoted, join_unparted unparted]

end Canonical

end ScriptEngine
