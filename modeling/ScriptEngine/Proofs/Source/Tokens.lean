import ScriptEngine.Proofs.Source.Lexeme

/-! Canonical text keeps each token of its source, on its line. -/

namespace ScriptEngine

open Cursor Text

/-- What some parts are written as, each read on the line where it starts. -/
def placed {α : Type} (text : α → List Char) (marks : Nat → α → List (Char × Nat)) :
    Nat → List α → List (Char × Nat)
  | _, [] => []
  | line, part :: parts => marks line part ++ placed text marks (line + (text part).count '\n') parts

/-- What a lexeme that starts on `line` is written as, but for spaces in front of it: a character as it
is, and a literal between double quotes. -/
def Lexeme.marks (line : Nat) : Lexeme → List (Char × Nat)
  | gap _ => []
  | mark c => [(c, line)]
  | literal quote inner =>
    ('"', line) :: (placed Inner.text (Inner.marks quote) line inner ++
      [('"', line + (inner.flatMap Inner.text).count '\n')])

/-- What lexemes are written as from `line` on. -/
def marksFrom (line : Nat) (lexemes : List Lexeme) : List (Char × Nat) :=
  placed Lexeme.text Lexeme.marks line lexemes

/-- Where a text leaves off that starts outside literals. -/
def quotingBehind (marks : List (Char × Nat)) : Quoting := (marks.map (·.1)).foldl Quoting.next .outside

/-- A text without the spaces outside its literals. -/
def dropSpaces : Quoting → List (Char × Nat) → List (Char × Nat)
  | _, [] => []
  | quoting, mark :: marks =>
    if quoting = .outside ∧ mark.1 = ' ' then dropSpaces quoting marks
    else mark :: dropSpaces (quoting.next mark.1) marks

/-- Two characters that must not be written side by side if they were apart: two of words, or two
signs. -/
def Fuse (first second : Char) : Prop :=
  isWordChar first = true ∧ isWordChar second = true ∨ first ∈ ['+', '-'] ∧ second ∈ ['+', '-']

/-- A text has the tokens of a source, each on its line. -/
structure KeepsTokens (lexemes : List Lexeme) (canonical : Canonical) : Prop where
  /-- Without the spaces outside literals, the text is what its lexemes are written as. -/
  kept : dropSpaces .outside canonical.marks = marksFrom 1 lexemes
  /-- What a literal is written as is a literal with the same content. -/
  content : ∀ quote inner line, .literal quote inner ∈ lexemes →
    ∃ body, ((Lexeme.literal quote inner).marks line).map (·.1) = '"' :: body ∧
      literalContent? body = some (inner.flatMap Inner.content, body.length)
  /-- A space outside literals is not the first one of the text, and the character behind it, on the
  same line, is neither a space nor a semicolon. -/
  single : ∀ before behind line, canonical.marks = before ++ (' ', line) :: behind →
    quotingBehind before = .outside →
      before ≠ [] ∧ ∃ c others, behind = (c, line) :: others ∧ c ≠ ' ' ∧ c ≠ ';'
  /-- What was apart and must not be written side by side has a space in between. -/
  parted : ∀ front gap behind first second,
    lexemes = front ++ .mark first :: (gap.map .gap ++ .mark second :: behind) → gap ≠ [] →
      Fuse first second →
        ∃ before others line, canonical.marks = before ++ (' ', line) :: (second, line) :: others ∧
          quotingBehind before = .outside ∧
          dropSpaces .outside before = marksFrom 1 (front ++ [.mark first])
  /-- The lines do not decrease. -/
  rising : canonical.lines.Pairwise (· ≤ ·)
  /-- There is a line for each character. -/
  lined : canonical.lines.length = canonical.text.length

variable {marks more kept keptToo : List (Char × Nat)} {quoting : Quoting} {quote c : Char} {line : Nat}
  {inner : List Inner} {lexeme : Lexeme} {lexemes : List Lexeme}

/-! Texts side by side. -/

/-- Parts side by side, the second ones behind the line feeds of the first ones. -/
theorem placed_append {α : Type} (text : α → List Char) (marks : Nat → α → List (Char × Nat))
    (line : Nat) (parts others : List α) :
    placed text marks line (parts ++ others) =
      placed text marks line parts ++
        placed text marks (line + (parts.flatMap text).count '\n') others := by
  induction parts generalizing line with
  | nil => rfl
  | cons part parts ih =>
    rw [List.cons_append, placed, ih, placed, List.append_assoc, List.flatMap_cons, List.count_append,
      Nat.add_assoc]

/-- The end of a text behind another one that ends outside literals. -/
theorem quotingBehind_append (outside : quotingBehind marks = .outside) :
    quotingBehind (marks ++ more) = quotingBehind more := by
  unfold quotingBehind at *
  rw [List.map_append, List.foldl_append, outside]

/-- Spaces are dropped from texts side by side. -/
theorem dropSpaces_append (quoting : Quoting) (marks more : List (Char × Nat)) :
    dropSpaces quoting (marks ++ more) =
      dropSpaces quoting marks ++ dropSpaces ((marks.map (·.1)).foldl Quoting.next quoting) more := by
  induction marks generalizing quoting with
  | nil => rfl
  | cons mark marks ih =>
    rw [List.cons_append, dropSpaces, dropSpaces, List.map_cons, List.foldl_cons]
    split
    case isTrue space =>
      -- A space outside literals stays outside.
      have still : quoting.next mark.1 = quoting := by
        obtain ⟨rfl, same⟩ := space
        rw [same]
        rfl
      rw [ih, still]
    case isFalse => rw [ih, List.cons_append]

/-- What is left has no space outside literals. -/
theorem no_space_of_kept {before behind : List (Char × Nat)}
    (kept : dropSpaces .outside (before ++ (' ', line) :: behind) = before ++ (' ', line) :: behind) :
    quotingBehind before ≠ .outside := by
  intro outside
  -- Each space that is dropped makes the text shorter.
  have shorter : ∀ quoting marks, (dropSpaces quoting marks).length ≤ marks.length := by
    intro quoting marks
    induction marks generalizing quoting with
    | nil => exact Nat.le_refl _
    | cons mark marks ih =>
      have tail := ih quoting
      have tailToo := ih (quoting.next mark.1)
      rw [dropSpaces]
      split <;> simp only [List.length_cons] <;> omega
  have lengths := congrArg List.length kept
  unfold quotingBehind at outside
  rw [dropSpaces_append, outside, dropSpaces, if_pos ⟨rfl, rfl⟩] at lengths
  have first := shorter .outside before
  have second := shorter .outside behind
  simp only [List.length_append, List.length_cons] at lengths
  omega

/-- A text from which no space is dropped, and that leaves off as it starts. -/
structure Whole (quoting : Quoting) (marks : List (Char × Nat)) : Prop where
  kept : dropSpaces quoting marks = marks
  ends : (marks.map (·.1)).foldl Quoting.next quoting = quoting

namespace Whole

/-- Nothing is dropped from an empty text. -/
theorem nil (quoting : Quoting) : Whole quoting [] := ⟨rfl, rfl⟩

/-- Nothing is dropped from texts side by side. -/
theorem append (first : Whole quoting marks) (second : Whole quoting more) :
    Whole quoting (marks ++ more) where
  kept := by rw [dropSpaces_append, first.kept, first.ends, second.kept]
  ends := by rw [List.map_append, List.foldl_append, first.ends, second.ends]

/-- Nothing is dropped from a part of a literal between double quotes. -/
theorem part {part : Inner} (within : part.Within '"') (line : Nat) :
    Whole .inside (part.text.map (·, line)) := by
  cases part with
  | plain c =>
    obtain ⟨quote, slash⟩ := within
    constructor <;> simp [Inner.text, dropSpaces, Quoting.next, quote, slash]
  | escape c => exact ⟨rfl, rfl⟩

/-- Nothing is dropped from a literal. -/
theorem literal {first last : Nat} (inside : Whole .inside marks) :
    Whole .outside (('"', first) :: (marks ++ [('"', last)])) where
  kept := by
    have opened : Quoting.outside.next '"' = .inside := rfl
    rw [dropSpaces, if_neg (by simp), opened, dropSpaces_append, inside.kept, inside.ends]
    rfl
  ends := by
    rw [List.map_cons, List.foldl_cons, List.map_append, List.foldl_append]
    have opened : Quoting.outside.next '"' = .inside := rfl
    rw [opened, inside.ends]
    rfl

end Whole

/-! What lexemes are written as. -/

/-- A part of a literal is written as one that can stand between double quotes. -/
theorem Inner.requoted_within {part : Inner} (within : part.Within quote) :
    (part.requoted quote).Within '"' := by
  -- A double quote gets a backslash, and a single one loses its own; all else stays as it is.
  cases part with
  | plain c =>
    by_cases double : c = '"'
    · rw [requoted, if_pos double]
      trivial
    · rw [requoted, if_neg double]
      exact ⟨double, within.2⟩
  | escape c =>
    by_cases single : c = '\'' ∧ quote = '\''
    · rw [requoted, if_pos single]
      exact ⟨by decide, by decide⟩
    · rw [requoted, if_neg single]
      trivial

/-- A part of a literal is written as one that stands for the same. -/
theorem Inner.requoted_content (quote : Char) (part : Inner) :
    (part.requoted quote).content = part.content := by
  -- A backslash in front of a quote stands for nothing itself.
  cases part with
  | plain c =>
    by_cases double : c = '"'
    · subst double
      rfl
    · rw [requoted, if_neg double]
  | escape c =>
    by_cases single : c = '\'' ∧ quote = '\''
    · obtain ⟨rfl, rfl⟩ := single
      rfl
    · rw [requoted, if_neg single]

/-- Nothing is dropped from the parts of a literal. -/
theorem Whole.parts (within : ∀ part ∈ inner, part.Within quote) (line : Nat) :
    Whole .inside (placed Inner.text (Inner.marks quote) line inner) := by
  induction inner generalizing line with
  | nil => exact .nil _
  | cons part inner ih =>
    obtain ⟨here, others⟩ := List.forall_mem_cons.mp within
    exact (Whole.part (Inner.requoted_within here) _).append (ih others _)

/-- Nothing is dropped from what a lexeme is written as. -/
theorem Whole.written (solid : lexeme.Solid) (line : Nat) :
    Whole .outside (lexeme.marks line) := by
  cases lexeme with
  | gap filler => exact .nil _
  | mark c =>
    -- No character of the code is a space.
    obtain ⟨shown, double, -⟩ := solid
    have space : c ≠ ' ' := by
      rintro rfl
      exact absurd shown (by decide)
    constructor <;> simp [Lexeme.marks, dropSpaces, Quoting.next, space, double]
  | literal quote inner => exact .literal (.parts solid.2 line)

/-- The characters that the parts of a literal are written as. -/
theorem placed_inner (quote : Char) (line : Nat) (inner : List Inner) :
    (placed Inner.text (Inner.marks quote) line inner).map (·.1) =
      (inner.map (Inner.requoted quote)).flatMap Inner.text := by
  induction inner generalizing line with
  | nil => rfl
  | cons part inner ih => simp [placed, ih, Inner.marks, Function.comp_def]

/-- Parts between double quotes are the pieces of a string. -/
theorem exists_pieces (within : ∀ part ∈ inner, part.Within '"') :
    ∃ pieces : List Piece, pieces.flatMap Piece.text = inner.flatMap Inner.text ∧
      pieces.flatMap Piece.content = inner.flatMap Inner.content := by
  -- The induction is on the parts, each of which is one piece.
  induction inner with
  | nil => exact ⟨[], rfl, rfl⟩
  | cons part inner ih =>
    obtain ⟨here, others⟩ := List.forall_mem_cons.mp within
    obtain ⟨pieces, text, content⟩ := ih others
    cases part with
    | plain c => exact ⟨.plain c here :: pieces, by simp [text, Piece.text, Inner.text],
        by simp [content, Piece.content, Inner.content]⟩
    | escape c => exact ⟨.escape c :: pieces, by simp [text, Piece.text, Inner.text],
        by simp [content, Piece.content, Inner.content]⟩

/-- What a literal is written as is a literal with the same content. -/
theorem literal_content (within : ∀ part ∈ inner, part.Within quote) (line : Nat) :
    ∃ body, ((Lexeme.literal quote inner).marks line).map (·.1) = '"' :: body ∧
      literalContent? body = some (inner.flatMap Inner.content, body.length) := by
  -- Between double quotes each part may stand as it is written.
  have requoted : ∀ part ∈ inner.map (Inner.requoted quote), part.Within '"' := by
    rw [List.forall_mem_map]
    exact fun part member => Inner.requoted_within (within part member)
  obtain ⟨pieces, text, content⟩ := exists_pieces requoted
  have same : (inner.map (Inner.requoted quote)).flatMap Inner.content =
      inner.flatMap Inner.content := by
    simp [List.flatMap_map, Inner.requoted_content]
  refine ⟨pieces.flatMap Piece.text ++ ['"'], ?_, ?_⟩
  · simp [Lexeme.marks, placed_inner, text]
  · rw [literalContent?_pieces, content, same]
    simp

/-- A text whose lines do not decrease, between two lines. -/
structure Rises (first last : Nat) (marks : List (Char × Nat)) : Prop where
  sorted : (marks.map (·.2)).Pairwise (· ≤ ·)
  between : ∀ mark ∈ marks, first ≤ mark.2 ∧ mark.2 ≤ last
  le : first ≤ last

namespace Rises

variable {first middle last : Nat}

/-- A text on one line. -/
theorem level (line : Nat) (text : List Char) (low : first ≤ line) (high : line ≤ last) :
    Rises first last (text.map (·, line)) where
  sorted := by simp [List.pairwise_map, List.pairwise_of_forall]
  between := by simp [low, high]
  le := Nat.le_trans low high

/-- Texts one behind the other. -/
theorem append (before : Rises first middle marks) (behind : Rises middle last more) :
    Rises first last (marks ++ more) where
  sorted := by
    rw [List.map_append, List.pairwise_append]
    -- Within each text the lines rise, and those of the second one start where those of the first
    -- one end.
    refine ⟨before.sorted, behind.sorted, ?_⟩
    simp only [List.forall_mem_map]
    exact fun mark member other memberToo =>
      Nat.le_trans (before.between mark member).2 (behind.between other memberToo).1
  between mark member := by
    -- The lines in between are within the bounds of both texts together.
    rcases List.mem_append.mp member with member | member
    · obtain ⟨low, high⟩ := before.between mark member
      exact ⟨low, Nat.le_trans high behind.le⟩
    · obtain ⟨low, high⟩ := behind.between mark member
      exact ⟨Nat.le_trans before.le low, high⟩
  le := Nat.le_trans before.le behind.le

/-- Parts each of which is written on its own lines. -/
theorem placed {α : Type} {text : α → List Char} {marks : Nat → α → List (Char × Nat)}
    (part : ∀ line part, Rises line (line + (text part).count '\n') (marks line part)) (line : Nat)
    (parts : List α) :
    Rises line (line + (parts.flatMap text).count '\n') (placed text marks line parts) := by
  induction parts generalizing line with
  | nil => exact .level line [] (Nat.le_refl _) (Nat.le_refl _)
  | cons first parts ih =>
    have whole := (part line first).append (ih (line + (text first).count '\n'))
    rwa [Nat.add_assoc, ← List.count_append, ← List.flatMap_cons] at whole

/-- A part of a literal is written on its own lines. -/
theorem part (quote : Char) (line : Nat) (part : Inner) :
    Rises line (line + part.text.count '\n') (part.marks quote line) := by
  unfold Inner.marks Inner.lineFrom
  split
  case isTrue feed =>
    subst feed
    exact .level _ _ (Nat.le_succ _) (Nat.le_refl _)
  case isFalse => exact .level _ _ (Nat.le_refl _) (Nat.le_add_right _ _)

/-- A lexeme is written on its own lines. -/
theorem written (line : Nat) (lexeme : Lexeme) :
    Rises line (line + lexeme.text.count '\n') (lexeme.marks line) := by
  cases lexeme with
  | gap filler => exact .level line [] (Nat.le_refl _) (Nat.le_add_right _ _)
  | mark c => exact .level line [c] (Nat.le_refl _) (Nat.le_add_right _ _)
  | literal quote inner =>
    -- The quotes stand on the first line and on the last one, and the parts on those in between.
    have opened : Rises line line [('"', line)] := .level _ ['"'] (Nat.le_refl _) (Nat.le_refl _)
    have parts := Rises.placed (Rises.part quote) line inner
    have feeds : (inner.flatMap Inner.text).count '\n' ≤
        (Lexeme.literal quote inner).text.count '\n' := by
      simp only [Lexeme.text, List.count_cons, List.count_append]
      omega
    have closed : Rises (line + (inner.flatMap Inner.text).count '\n')
        (line + (Lexeme.literal quote inner).text.count '\n')
        [('"', line + (inner.flatMap Inner.text).count '\n')] :=
      .level _ ['"'] (Nat.le_refl _) (by omega)
    exact opened.append (parts.append closed)

end Rises

namespace Canonical

variable {file : String} {progress next : Progress} {added addedToo : List (Char × Nat)}

/-! What is written for one lexeme. -/

/-- The white space in front of a character, as it is settled. -/
def Progress.space (progress : Progress) (c : Char) : List (Char × Nat) :=
  if progress.parted && needsSpace progress.emitted c then [(' ', progress.line)] else []

/-- White space is settled by writing it. -/
theorem Progress.join_emitted (progress : Progress) (c : Char) :
    (progress.join c).emitted = progress.space c ++ progress.emitted := by
  unfold Progress.join Progress.space
  dsimp only
  split <;> rfl

/-- A character is written behind its white space. -/
theorem Progress.take_written (taken : progress.take? c = some next) :
    next.emitted = (c, progress.line) :: (progress.space c ++ progress.emitted) ∧
      next.line = progress.line ∧ next.parted = false := by
  -- A bracket changes the open ones only.
  obtain ⟨opened, -, rfl⟩ := Progress.take?_eq_some.mp taken
  rw [← progress.join_emitted, ← progress.join_line c]
  exact ⟨rfl, rfl, rfl⟩

/-- The parts of a literal are written one behind the other. -/
theorem Progress.foldl_copy (quote : Char) (inner : List Inner) (progress : Progress) :
    inner.foldl (Progress.copy quote) progress =
      { progress with
        emitted := (placed Inner.text (Inner.marks quote) progress.line inner).reverse ++
          progress.emitted
        line := progress.line + (inner.flatMap Inner.text).count '\n' } := by
  induction inner generalizing progress with
  | nil => rfl
  | cons part inner ih => simp [ih, Progress.copy, placed, Nat.add_assoc]

/-- What a lexeme adds to a text: a space where one is needed, and what the lexeme is written as. -/
def Progress.adds (progress : Progress) (lexeme : Lexeme) : List (Char × Nat) :=
  ((lexeme.marks progress.line).head?.elim [] fun mark => progress.space mark.1) ++
    lexeme.marks progress.line

/-- White space in front of a literal is settled alike for both kinds of quotes. -/
theorem Progress.space_quote (known : quote = '"' ∨ quote = '\'') (progress : Progress) :
    progress.space quote = progress.space '"' := by
  -- Neither quote is a character of words or a sign.
  have same : needsSpace progress.emitted quote = needsSpace progress.emitted '"' := by
    rcases known with rfl | rfl
    · rfl
    · have word : isWordChar '\'' = false ∧ isWordChar '"' = false := by decide
      unfold needsSpace
      simp [word]
  unfold Progress.space
  rw [same]

/-- A lexeme adds what is written for it, and its line feeds are counted. -/
theorem Progress.lexeme_adds (solid : lexeme.Solid)
    (taken : progress.lexeme? lexeme = some next) :
    next.emitted = (progress.adds lexeme).reverse ++ progress.emitted ∧
      next.line = progress.line + lexeme.text.count '\n' := by
  cases lexeme with
  | gap filler =>
    cases taken
    exact ⟨rfl, rfl⟩
  | mark c =>
    obtain ⟨emitted, line, -⟩ := Progress.take_written taken
    -- A mark is no line feed.
    have feed : [c].count '\n' = 0 := by
      rw [List.count_singleton, if_neg]
      rintro same
      rw [eq_of_beq same] at solid
      exact absurd solid.1 (by decide)
    refine ⟨?_, by rw [line, Lexeme.text, feed, Nat.add_zero]⟩
    rw [emitted]
    unfold Progress.adds Progress.space
    simp only [Lexeme.marks, List.head?_cons, Option.elim_some]
    split <;> rfl
  | literal quote inner =>
    obtain ⟨known, -⟩ := solid
    -- The quotes take up no line, so that all line feeds are those between them.
    have feed : quote ≠ '\n' := by rcases known with rfl | rfl <;> decide
    cases taken
    rw [foldl_copy]
    refine ⟨?_, ?_⟩
    · simp only [Progress.emit, Progress.join_emitted, Progress.join_line, Progress.space_quote known]
      unfold Progress.adds Progress.space
      simp only [Lexeme.marks, List.head?_cons, Option.elim_some]
      split <;> simp
    · simp [Progress.emit, Progress.join_line, Lexeme.text, feed]

/-! What is written for a row of lexemes. -/

/-- White space is only kept behind a text, and never in front of a semicolon. -/
theorem needsSpace_only {emitted : List (Char × Nat)} (needed : needsSpace emitted c = true) :
    emitted ≠ [] ∧ c ≠ ';' := by
  unfold needsSpace at needed
  split at needed
  case h_1 => cases needed
  case h_2 =>
    -- A semicolon is neither a character of words nor a sign.
    refine ⟨nofun, ?_⟩
    rintro rfl
    have word : isWordChar ';' = false := by decide
    simp [word] at needed

/-- White space is kept between two characters that must not be written side by side. -/
theorem needsSpace_fuse {emitted : List (Char × Nat)} {first second : Char} (fuse : Fuse first second)
    (ends : emitted.head?.map (·.1) = some first) : needsSpace emitted second = true := by
  obtain ⟨⟨last, line⟩, head, rfl⟩ := Option.map_eq_some_iff.mp ends
  obtain ⟨others, rfl⟩ := List.head?_eq_some_iff.mp head
  unfold needsSpace
  -- Both are characters of words, or both are signs.
  rcases fuse with ⟨word, wordToo⟩ | ⟨sign, signToo⟩
  · simp [word, wordToo]
  · have signs : (last == '+' || last == '-') && (second == '+' || second == '-') := by
      simpa using And.intro (List.mem_cons.mp sign) (List.mem_cons.mp signToo)
    simp only [signs, if_true, ite_self]

/-- What a row of lexemes adds to a text. -/
structure Grows (progress : Progress) (added : List (Char × Nat)) (lexemes : List Lexeme)
    (after : Progress) : Prop where
  emitted : after.emitted = added.reverse ++ progress.emitted
  outside : quotingBehind added = .outside
  kept : dropSpaces .outside added = marksFrom progress.line lexemes
  line : after.line = progress.line + (lexemes.flatMap Lexeme.text).count '\n'
  single : ∀ before behind line, added = before ++ (' ', line) :: behind →
    quotingBehind before = .outside → (progress.emitted ≠ [] ∨ before ≠ []) ∧
      ∃ c others, behind = (c, line) :: others ∧ c ≠ ' ' ∧ c ≠ ';'
  rises : Rises progress.line after.line added

namespace Grows

variable {middle after : Progress} {others : List Lexeme}

/-- No lexeme adds nothing. -/
theorem refl (progress : Progress) : Grows progress [] [] progress where
  emitted := rfl
  outside := rfl
  kept := rfl
  line := rfl
  single := by simp
  rises := .level progress.line [] (Nat.le_refl _) (Nat.le_refl _)

/-- Rows of lexemes add one text behind the other. -/
theorem trans (first : Grows progress added lexemes middle)
    (second : Grows middle addedToo others after) :
    Grows progress (added ++ addedToo) (lexemes ++ others) after where
  emitted := by rw [second.emitted, first.emitted, List.reverse_append, List.append_assoc]
  outside := by rw [quotingBehind_append first.outside, second.outside]
  kept := by
    have outside := first.outside
    unfold quotingBehind at outside
    unfold marksFrom
    rw [dropSpaces_append, outside, placed_append, first.kept, second.kept, first.line]
    rfl
  line := by rw [second.line, first.line, List.flatMap_append, List.count_append, Nat.add_assoc]
  single before behind line parts outside := by
    -- The space stands in one of the two texts.
    have inSecond : ∀ taken, before = added ++ taken → addedToo = taken ++ (' ', line) :: behind →
        (progress.emitted ≠ [] ∨ before ≠ []) ∧
          ∃ c others, behind = (c, line) :: others ∧ c ≠ ' ' ∧ c ≠ ';' := by
      rintro taken rfl partsToo
      rw [quotingBehind_append first.outside] at outside
      obtain ⟨written, follows⟩ := second.single taken behind line partsToo outside
      refine ⟨?_, follows⟩
      rw [first.emitted] at written
      by_contra nothing
      simp_all
    rcases List.append_eq_append_iff.mp parts with ⟨taken, same, partsToo⟩ | ⟨rest, same, partsToo⟩
    · exact inSecond taken same partsToo
    · cases rest with
      | nil => exact inSecond [] (by simpa using same.symm) partsToo.symm
      | cons mark rest =>
        simp only [List.cons_append, List.cons.injEq] at partsToo
        obtain ⟨rfl, rfl⟩ := partsToo
        obtain ⟨written, c, others, rfl, follows⟩ := first.single before rest line same outside
        exact ⟨written, c, others ++ addedToo, rfl, follows⟩
  rises := first.rises.append second.rises

/-- A lexeme is added with a space in front of it or without. -/
theorem adds_cases (progress : Progress) (part : Lexeme) :
    progress.adds part = part.marks progress.line ∨
      progress.adds part = (' ', progress.line) :: part.marks progress.line ∧
        ∃ c others, part.marks progress.line = (c, progress.line) :: others ∧
          needsSpace progress.emitted c = true := by
  -- A lexeme that is written at all starts with some character, which decides on the space.
  have spaced : ∀ c others, part.marks progress.line = (c, progress.line) :: others →
      progress.adds part = part.marks progress.line ∨
        progress.adds part = (' ', progress.line) :: part.marks progress.line ∧
          ∃ c others, part.marks progress.line = (c, progress.line) :: others ∧
            needsSpace progress.emitted c = true := by
    intro c others starts
    unfold Progress.adds Progress.space
    rw [starts, List.head?_cons, Option.elim_some]
    by_cases needed : (progress.parted && needsSpace progress.emitted c) = true
    · exact .inr ⟨by rw [if_pos needed]; rfl, c, others, rfl, (Bool.and_eq_true_iff.mp needed).2⟩
    · exact .inl (by rw [if_neg needed]; rfl)
  cases part with
  | gap filler => exact .inl rfl
  | mark c => exact spaced c [] rfl
  | literal quote inner => exact spaced '"' _ rfl

/-- What one lexeme adds. -/
theorem step {part : Lexeme} (solid : part.Solid) (taken : progress.lexeme? part = some next) :
    Grows progress (progress.adds part) [part] next := by
  obtain ⟨emitted, line⟩ := Progress.lexeme_adds solid taken
  have whole := Whole.written solid progress.line
  have written : marksFrom progress.line [part] = part.marks progress.line := by
    simp [marksFrom, placed]
  -- No space stands outside the literals of the lexeme itself.
  have none : ∀ before behind line, part.marks progress.line = before ++ (' ', line) :: behind →
      quotingBehind before ≠ .outside := by
    intro before behind line parts
    exact no_space_of_kept (parts ▸ whole.kept)
  have rises := Rises.written progress.line part
  rw [← line] at rises
  have lines : next.line = progress.line + (([part] : List Lexeme).flatMap Lexeme.text).count '\n' := by
    simpa using line
  rcases adds_cases progress part with same | ⟨same, c, others, starts, needed⟩
  · rw [same] at emitted ⊢
    exact ⟨emitted, whole.ends, whole.kept.trans written.symm, lines,
      fun before behind line parts outside => absurd outside (none before behind line parts), rises⟩
  · -- The space is dropped again, and the lexeme stands behind it.
    rw [same] at emitted ⊢
    have opened : quotingBehind [(' ', progress.line)] = .outside := rfl
    obtain ⟨behindText, notSemicolon⟩ := needsSpace_only needed
    refine ⟨emitted, (quotingBehind_append opened).trans whole.ends, ?_, lines, ?_, ?_⟩
    · rw [dropSpaces, if_pos ⟨rfl, rfl⟩, whole.kept, written]
    · intro before behind line parts outside
      cases before with
      -- The space is the one in front of the lexeme.
      | nil =>
        simp only [List.nil_append, List.cons.injEq, Prod.mk.injEq, true_and] at parts
        obtain ⟨rfl, rfl⟩ := parts
        refine ⟨.inl behindText, c, others, starts, ?_, notSemicolon⟩
        rintro rfl
        exact none [] others progress.line starts rfl
      -- A space within the lexeme would be outside its literals.
      | cons mark before =>
        simp only [List.cons_append, List.cons.injEq] at parts
        obtain ⟨rfl, parts⟩ := parts
        refine absurd ?_ (none before behind line parts)
        exact (quotingBehind_append opened).symm.trans outside
    · have space : Rises progress.line progress.line [(' ', progress.line)] :=
        .level _ [' '] (Nat.le_refl _) (Nat.le_refl _)
      exact space.append rises

/-- A row of lexemes adds what its lexemes add. -/
theorem run (solid : ∀ lexeme ∈ lexemes, lexeme.Solid)
    (ran : lexemes.foldlM Progress.lexeme? progress = some after) :
    ∃ added, Grows progress added lexemes after := by
  -- The induction is on the lexemes, each of which adds its text to what is there.
  induction lexemes generalizing progress with
  | nil =>
    cases ran
    exact ⟨[], .refl _⟩
  | cons first lexemes ih =>
    obtain ⟨here, others⟩ := List.forall_mem_cons.mp solid
    rw [List.foldlM_cons] at ran
    obtain ⟨middle, taken, ranBehind⟩ := Option.bind_eq_some_iff.mp ran
    obtain ⟨added, grows⟩ := ih others ranBehind
    exact ⟨_, (step here taken).trans grows⟩

end Grows

/-- Rows of lexemes are taken one behind the other. -/
theorem foldlM_lexemes {others : List Lexeme} {after : Progress}
    (ran : (lexemes ++ others).foldlM Progress.lexeme? progress = some after) :
    ∃ middle, lexemes.foldlM Progress.lexeme? progress = some middle ∧
      others.foldlM Progress.lexeme? middle = some after := by
  rw [List.foldlM_append] at ran
  exact Option.bind_eq_some_iff.mp ran

/-- White space and comments leave the text as it is, and are remembered. -/
theorem foldlM_gap {gap : List Filler} {after : Progress} (some : gap ≠ [])
    (ran : (gap.map Lexeme.gap).foldlM Progress.lexeme? progress = .some after) :
    after.emitted = progress.emitted ∧ after.parted = true := by
  -- The induction is on the pieces of the gap; the last one is remembered as well.
  induction gap generalizing progress with
  | nil => exact absurd rfl some
  | cons filler gap ih =>
    rw [List.map_cons, List.foldlM_cons] at ran
    cases gap with
    | nil =>
      cases ran
      exact ⟨rfl, rfl⟩
    | cons second gap =>
      have further := ih (List.cons_ne_nil _ _) ran
      exact further

/-- Two characters that were apart and must not be written side by side have a space in between. -/
theorem parted_of_run {front behind : List Lexeme} {gap : List Filler} {first second : Char}
    {after : Progress}
    (parts : lexemes = front ++ .mark first :: (gap.map .gap ++ .mark second :: behind))
    (solid : ∀ lexeme ∈ lexemes, lexeme.Solid)
    (ran : lexemes.foldlM Progress.lexeme? progress = some after)
    (apart : gap ≠ []) (fuse : Fuse first second) :
    ∃ before others line, after.emitted.reverse =
        progress.emitted.reverse ++ (before ++ (' ', line) :: (second, line) :: others) ∧
      quotingBehind before = .outside ∧
      dropSpaces .outside before = marksFrom progress.line (front ++ [.mark first]) := by
  obtain rfl : lexemes =
      (front ++ [.mark first]) ++ (gap.map .gap ++ (.mark second :: behind)) := by simp [parts]
  obtain ⟨solidFront, solidGap⟩ := List.forall_mem_append.mp solid
  have solidBehind := (List.forall_mem_cons.mp (List.forall_mem_append.mp solidGap).2).2
  obtain ⟨start, ranFront, ran⟩ := foldlM_lexemes ran
  obtain ⟨passed, ranGap, ran⟩ := foldlM_lexemes ran
  rw [List.foldlM_cons] at ran
  obtain ⟨next, taken, ranBehind⟩ := Option.bind_eq_some_iff.mp ran
  -- The text ends with the first character, until the second one is written behind a space.
  obtain ⟨before, written⟩ := Grows.run solidFront ranFront
  obtain ⟨others, more⟩ := Grows.run solidBehind ranBehind
  obtain ⟨same, parted⟩ := foldlM_gap apart ranGap
  have ends : start.emitted.head?.map (·.1) = some first := by
    obtain ⟨middle, -, takenFirst⟩ := foldlM_lexemes ranFront
    simp only [List.foldlM_cons, List.foldlM_nil, bind_pure] at takenFirst
    rw [(Progress.take_written takenFirst).1]
    rfl
  have spaced : passed.space second = [(' ', passed.line)] := by
    unfold Progress.space
    rw [parted, same, needsSpace_fuse fuse ends]
    rfl
  refine ⟨before, others, passed.line, ?_, written.outside, written.kept⟩
  rw [more.emitted, (Progress.take_written taken).1, spaced, same, written.emitted]
  simp

end Canonical

/-- A canonical text keeps the tokens of its source, and their lines. -/
theorem canonical_keeps_tokens {source file : String} {canonical : Canonical}
    (accepted : Canonical.ofSource source file = .ok canonical) :
    (∃ lexemes, Lexed source.toList lexemes) ∧
      ∀ lexemes, Lexed source.toList lexemes → KeepsTokens lexemes canonical := by
  refine ⟨Canonical.ofSource_lexed accepted, fun lexemes lexed => ?_⟩
  obtain ⟨final, ran, finished⟩ := (Canonical.continueFrom_lexed lexed).mp accepted
  have whole := (Canonical.finish_ok.mp finished).2
  obtain ⟨added, grows⟩ := Canonical.Grows.run lexed.solid ran
  have marks : canonical.marks = added := by simp [whole, grows.emitted]
  -- Each part is read off what the row of lexemes has added.
  constructor
  case kept => exact marks ▸ grows.kept
  case content =>
    intro quote inner line member
    exact literal_content (lexed.solid _ member).2 line
  case single =>
    intro before behind line parts outside
    simpa using grows.single before behind line (marks ▸ parts) outside
  case parted =>
    intro front gap behind first second parts apart fuse
    obtain ⟨before, others, line, same, written⟩ :=
      Canonical.parted_of_run parts lexed.solid ran apart fuse
    exact ⟨before, others, line, by simpa [whole] using same, written⟩
  case rising =>
    rw [Canonical.lines, marks]
    exact grows.rises.sorted
  case lined => simp [Canonical.lines, Canonical.text]

/-- A comment with a line feed between two words becomes a space on the line of the second one. -/
theorem canonical_keeps_tokens_parted :
    ∃ canonical, Canonical.ofSource "a/*\n*/b = 'it\\'s';" "" = .ok canonical ∧
      canonical.text = ['a', ' ', 'b', '=', '"', 'i', 't', '\'', 's', '"', ';'] ∧
      canonical.lines = [1, 2, 2, 2, 2, 2, 2, 2, 2, 2, 2] ∧
      ∃ lexemes, KeepsTokens lexemes canonical := by
  have accepted : Canonical.ofSource "a/*\n*/b = 'it\\'s';" "" =
      .ok ⟨[('a', 1), (' ', 2), ('b', 2), ('=', 2), ('"', 2), ('i', 2), ('t', 2), ('\'', 2), ('s', 2),
        ('"', 2), (';', 2)]⟩ := by decide +kernel
  obtain ⟨⟨lexemes, lexed⟩, keeps⟩ := canonical_keeps_tokens accepted
  exact ⟨_, accepted, rfl, rfl, lexemes, keeps lexemes lexed⟩

end ScriptEngine
