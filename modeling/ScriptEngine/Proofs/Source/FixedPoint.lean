import ScriptEngine.Proofs.Source.Tokens

/-! Canonical text is its own canonical form, unless characters of it that stood apart in the source
start a comment. -/

namespace ScriptEngine

open Cursor Text

/-- No comment starts in a text outside its literals. -/
def CommentFree (text : List Char) : Prop :=
  ∀ before c behind, text = before ++ '/' :: c :: behind →
    before.foldl Quoting.next .outside = .outside → c ≠ '/' ∧ c ≠ '*'

/-- Whether no comment starts in the rest of a text. -/
def startsNone : Quoting → List Char → Bool
  | _, [] => true
  | quoting, c :: rest =>
    !(quoting == .outside && c == '/' && rest.head?.any fun next => next == '/' || next == '*') &&
      startsNone (quoting.next c) rest

/-- A comment starts in a text where a look at each character finds it. -/
theorem startsNone_iff (quoting : Quoting) (text : List Char) : startsNone quoting text = true ↔
    ∀ before c behind, text = before ++ '/' :: c :: behind →
      before.foldl Quoting.next quoting = .outside → c ≠ '/' ∧ c ≠ '*' := by
  -- The induction is on the text, with the literal that may be open in front of it.
  induction text generalizing quoting with
  | nil => simp [startsNone]
  | cons first text ih =>
    rw [startsNone, Bool.and_eq_true, ih]
    constructor
    · rintro ⟨here, later⟩ before c behind parts outside
      -- The comment starts at the first character or behind it.
      cases before with
      | nil =>
        cases parts
        cases outside
        simpa using here
      | cons mark before =>
        cases parts
        exact later before c behind rfl outside
    · intro all
      refine ⟨?_, fun before c behind parts outside =>
        all (first :: before) c behind (by rw [parts]; rfl) outside⟩
      -- A comment at the first character would be one that the text is not to have.
      by_contra starts
      simp only [Bool.not_eq_true', Bool.not_eq_false, Bool.and_eq_true, beq_iff_eq,
        Option.any_eq_true, Bool.or_eq_true] at starts
      obtain ⟨⟨rfl, rfl⟩, next, head, mark⟩ := starts
      obtain ⟨behind, rfl⟩ := List.head?_eq_some_iff.mp head
      obtain ⟨slash, star⟩ := all [] next behind rfl rfl
      exact mark.elim slash star

instance (text : List Char) : Decidable (CommentFree text) :=
  decidable_of_iff _ (startsNone_iff .outside text)

namespace Lexeme

/-- A lexeme of canonical text: one space, a character of the code, or a literal between double
quotes. -/
def Tidy : Lexeme → Prop
  | gap filler => filler.text = [' ']
  | mark c => (mark c).Solid
  | literal quote inner => quote = '"' ∧ ∀ part ∈ inner, part.Within '"'

variable {lexeme : Lexeme} {lexemes : List Lexeme}

/-- A lexeme of canonical text is solid. -/
theorem Tidy.solid (tidy : lexeme.Tidy) : lexeme.Solid := by
  cases lexeme with
  | gap filler => trivial
  | mark c => exact tidy
  | literal quote inner =>
    obtain ⟨rfl, within⟩ := tidy
    exact ⟨.inl rfl, within⟩

/-- A lexeme of canonical text leaves no literal open. -/
theorem Tidy.outside (tidy : lexeme.Tidy) : lexeme.text.foldl Quoting.next .outside = .outside := by
  cases lexeme with
  | gap filler =>
    rw [text, show filler.text = [' '] from tidy]
    rfl
  | mark c =>
    obtain ⟨-, double, -⟩ := tidy
    simp [text, Quoting.next, double]
  | literal quote inner =>
    obtain ⟨rfl, within⟩ := tidy
    have inside : (inner.flatMap Inner.text).foldl Quoting.next .inside = .inside := by
      -- Each part of a literal leaves it open, up to its last quote.
      induction inner with
      | nil => rfl
      | cons part inner ih =>
        obtain ⟨here, others⟩ := List.forall_mem_cons.mp within
        have ends := (Whole.part here 0).ends
        rw [List.map_map, Function.comp_def, List.map_id'] at ends
        rw [List.flatMap_cons, List.foldl_append, ends, ih others]
    have opened : Quoting.outside.next '"' = .inside := rfl
    rw [text, List.foldl_cons, opened, List.foldl_append, inside]
    rfl

end Lexeme

/-- A text of tidy lexemes in which no comment starts is made of just them. -/
theorem Lexed.of_tidy {lexemes : List Lexeme} (tidy : ∀ lexeme ∈ lexemes, lexeme.Tidy)
    (free : CommentFree (lexemes.flatMap Lexeme.text)) :
    Lexed (lexemes.flatMap Lexeme.text) lexemes := by
  induction lexemes with
  | nil => exact .done
  | cons first lexemes ih =>
    obtain ⟨here, others⟩ := List.forall_mem_cons.mp tidy
    rw [List.flatMap_cons] at free ⊢
    refine .lexeme ⟨here.solid, ?_⟩ (ih others ?_)
    · rintro rfl next head
      obtain ⟨behind, same⟩ := List.head?_eq_some_iff.mp head
      exact free [] next behind (by rw [same]; rfl) rfl
    · -- Behind a lexeme of canonical text, all is outside literals as in front of it.
      intro before c behind same outside
      refine free (first.text ++ before) c behind (by rw [same, List.append_assoc]) ?_
      rw [List.foldl_append, here.outside, outside]

/-- A part between double quotes is written as it is. -/
theorem Inner.requoted_self {part : Inner} (within : part.Within '"') : part.requoted '"' = part := by
  cases part with
  | plain c => exact if_neg within.1
  | escape c => exact if_neg (by simp)

namespace Canonical

variable {file : String} {first second next : Progress} {c quote : Char} {lexemes : List Lexeme}

/-- White space is kept alike behind the same characters. -/
theorem needsSpace_congr {emitted other : List (Char × Nat)}
    (same : emitted.map (·.1) = other.map (·.1)) (c : Char) :
    needsSpace emitted c = needsSpace other c := by
  -- Lines play no part in it, so that each side is what it is on the lines 0.
  have bare : ∀ marks : List (Char × Nat),
      needsSpace marks c = needsSpace ((marks.map (·.1)).map (·, 0)) c := by
    intro marks
    cases marks with
    | nil => rfl
    | cons mark marks =>
      have word : ((mark :: marks).map fun mark => (mark.1, 0)).takeWhile (isWordChar ·.1) =
          ((mark :: marks).takeWhile (isWordChar ·.1)).map fun mark => (mark.1, 0) :=
        List.takeWhile_map
      have front : ((mark :: marks).map fun mark => (mark.1, 0)).dropWhile (isWordChar ·.1) =
          ((mark :: marks).dropWhile (isWordChar ·.1)).map fun mark => (mark.1, 0) :=
        List.dropWhile_map
      simp only [List.map_map, List.map_cons, Function.comp_def] at word front ⊢
      unfold needsSpace
      simp only [word, front, List.map_map, Function.comp_def]
      cases List.dropWhile (fun mark => isWordChar mark.1) (mark :: marks) <;> rfl
  rw [bare, bare other, same]

/-- Two readers have written the same characters, and the same brackets are open. -/
structure Alike (first second : Progress) : Prop where
  emitted : first.emitted.map (·.1) = second.emitted.map (·.1)
  opened : first.opened.map (·.1) = second.opened.map (·.1)

namespace Alike

/-- One more character is the same for both. -/
theorem emit (alike : Alike first second) (c : Char) : Alike (first.emit c) (second.emit c) :=
  ⟨by simp [Progress.emit, alike.emitted], alike.opened⟩

/-- A character that one of two readers takes is taken by the other one. -/
theorem take (joined : Alike (first.join c) (second.join c)) (taken : first.take? c = some next) :
    ∃ after, second.take? c = some after ∧ Alike next after := by
  obtain ⟨opened, reopens, rfl⟩ := Progress.take?_eq_some.mp taken
  have brackets := joined.opened
  rw [Progress.join_opened, Progress.join_opened] at brackets
  -- Which brackets are open behind the character does not depend on their lines.
  obtain ⟨openedToo, reopensToo, same⟩ : ∃ openedToo,
      Progress.Reopens c second.line second.opened openedToo ∧
        opened.map (·.1) = openedToo.map (·.1) := by
    generalize first.opened = before at reopens brackets
    generalize second.opened = beforeToo at brackets
    cases reopens with
    | opens opener => exact ⟨_, .opens opener, by simp [brackets]⟩
    | closes none closer matched =>
      cases beforeToo with
      | nil => cases brackets
      | cons bracket outer =>
        obtain ⟨rfl, same⟩ := List.cons.inj brackets
        exact ⟨outer, .closes none closer matched, same⟩
    | keeps none plain => exact ⟨_, .keeps none plain, brackets⟩
  have alike : Alike { first.join c with opened := opened } { second.join c with opened := openedToo } :=
    ⟨joined.emitted, same⟩
  exact ⟨_, Progress.take?_eq_some.mpr ⟨openedToo, reopensToo, rfl⟩, alike.emit c⟩

end Alike

/-- A space is read again where one was written, and white space that was dropped stays away. -/
theorem join_again (alike : Alike first second) (unparted : second.parted = false) (c : Char) :
    ∃ (spaces : List Lexeme) (middle : Progress), (∀ lexeme ∈ spaces, lexeme.Tidy) ∧
      spaces.flatMap Lexeme.text = (first.space c).map (·.1) ∧
      spaces.foldlM Progress.lexeme? second = some middle ∧
      Alike (first.join c) (middle.join c) := by
  have kept : needsSpace second.emitted c = needsSpace first.emitted c :=
    needsSpace_congr alike.emitted.symm c
  by_cases needed : (first.parted && needsSpace first.emitted c) = true
  · -- The space is passed, and needed again.
    let space : Lexeme := .gap (.blank ' ' (by decide))
    have spaced : needsSpace first.emitted c = true := (Bool.and_eq_true_iff.mp needed).2
    refine ⟨[space], second.pass [' '], ?_, ?_, rfl, ?_, ?_⟩
    · simp [space, Lexeme.Tidy, Filler.text]
    · rw [Progress.space, if_pos needed]
      rfl
    · have again : (second.pass [' ']).space c = [(' ', (second.pass [' ']).line)] :=
        if_pos (by simp [Progress.pass, kept, spaced])
      rw [Progress.join_emitted, Progress.join_emitted, again, Progress.space, if_pos needed]
      simpa [Progress.pass] using alike.emitted
    · rw [Progress.join_opened, Progress.join_opened]
      exact alike.opened
  · refine ⟨[], second, by simp, ?_, rfl, ?_, ?_⟩
    · rw [Progress.space, if_neg needed]
      rfl
    · rw [join_unparted unparted, Progress.join_emitted, Progress.space, if_neg needed]
      exact alike.emitted
    · rw [Progress.join_opened, Progress.join_opened]
      exact alike.opened

/-- A reader that takes a text of tidy lexemes is like another one behind it. -/
def Rereads (second : Progress) (text : List Char) (next : Progress) : Prop :=
  ∃ (lexemes : List Lexeme) (after : Progress), (∀ lexeme ∈ lexemes, lexeme.Tidy) ∧
    lexemes.flatMap Lexeme.text = text ∧ lexemes.foldlM Progress.lexeme? second = some after ∧
    Alike next after ∧ after.parted = false

/-- A lexeme of canonical text is read again behind the space in front of it, if there is one. -/
theorem rereads_spaced {again : Lexeme} (alike : Alike first second) (unparted : second.parted = false)
    (c : Char) (tidy : again.Tidy)
    (taken : ∀ middle : Progress, Alike (first.join c) (middle.join c) → ∃ after,
      middle.lexeme? again = some after ∧ Alike next after ∧ after.parted = false) :
    Rereads second ((first.space c).map (·.1) ++ again.text) next := by
  obtain ⟨spaces, middle, tidySpaces, text, ran, joined⟩ := join_again alike unparted c
  obtain ⟨after, takenToo, alikeToo, unpartedToo⟩ := taken middle joined
  refine ⟨spaces ++ [again], after, ?_, ?_, ?_, alikeToo, unpartedToo⟩
  · exact List.forall_mem_append.mpr ⟨tidySpaces, List.forall_mem_singleton.mpr tidy⟩
  · rw [List.flatMap_append, text, List.flatMap_singleton]
  · rw [List.foldlM_append, ran]
    simpa using takenToo

/-- Parts that can stand between double quotes are written as they are. -/
theorem requoted_requoted {inner : List Inner} (within : ∀ part ∈ inner, part.Within quote) :
    (∀ part ∈ inner.map (Inner.requoted quote), part.Within '"') ∧
      (inner.map (Inner.requoted quote)).map (Inner.requoted '"') =
        inner.map (Inner.requoted quote) := by
  have rewritten : ∀ part ∈ inner.map (Inner.requoted quote), part.Within '"' := by
    rw [List.forall_mem_map]
    exact fun part member => Inner.requoted_within (within part member)
  refine ⟨rewritten, (List.map_congr_left fun part member => ?_).trans (List.map_id _)⟩
  exact Inner.requoted_self (rewritten part member)

/-- What a lexeme adds is read again. -/
theorem lexeme_again {part : Lexeme} (alike : Alike first second) (unparted : second.parted = false)
    (solid : part.Solid) (taken : first.lexeme? part = some next) :
    Rereads second ((first.adds part).map (·.1)) next := by
  -- A gap adds nothing; a mark and a literal are added behind at most one space, which is read as a
  -- gap of its own.
  cases part with
  | gap filler =>
    cases taken
    exact ⟨[], second, by simp, rfl, rfl, ⟨alike.emitted, alike.opened⟩, unparted⟩
  | mark c =>
    have text : (first.adds (.mark c)).map (·.1) =
        (first.space c).map (·.1) ++ (Lexeme.mark c).text := by
      simp [Progress.adds, Lexeme.marks, Lexeme.text]
    rw [text]
    refine rereads_spaced alike unparted c solid fun middle joined => ?_
    obtain ⟨after, takenToo, alikeToo⟩ := joined.take taken
    exact ⟨after, takenToo, alikeToo, (Progress.take_written takenToo).2.2⟩
  | literal quote inner =>
    obtain ⟨known, within⟩ := solid
    obtain ⟨rewritten, same⟩ := requoted_requoted within
    have text : (first.adds (.literal quote inner)).map (·.1) = (first.space '"').map (·.1) ++
        (Lexeme.literal '"' (inner.map (Inner.requoted quote))).text := by
      simp [Progress.adds, Lexeme.marks, Lexeme.text, placed_inner]
    rw [text]
    refine rereads_spaced alike unparted '"' ⟨rfl, rewritten⟩ fun middle joined => ⟨_, rfl, ?_, ?_⟩
    · -- Both have written the same parts, behind white space that is settled alike.
      cases taken
      rw [Progress.foldl_copy, Progress.foldl_copy]
      have emitted : (first.join quote).emitted = (first.join '"').emitted := by
        rw [Progress.join_emitted, Progress.join_emitted, Progress.space_quote known]
      refine ⟨?_, ?_⟩
      · simp [Progress.emit, List.map_reverse, placed_inner, same, emitted, joined.emitted]
      · have opened := joined.opened
        rw [Progress.join_opened] at opened
        simpa [Progress.emit, Progress.join_opened] using opened
    · rw [Progress.foldl_copy]
      rfl

/-- What a row of lexemes adds is read again. -/
theorem run_again (alike : Alike first second) (unparted : second.parted = false)
    (solid : ∀ lexeme ∈ lexemes, lexeme.Solid)
    (ran : lexemes.foldlM Progress.lexeme? first = some next) :
    ∃ added : List (Char × Nat), next.emitted = added.reverse ++ first.emitted ∧
      Rereads second (added.map (·.1)) next := by
  -- The induction is on the lexemes, with two readers that are alike in front of them.
  induction lexemes generalizing first second with
  | nil =>
    cases ran
    exact ⟨[], rfl, [], second, by simp, rfl, rfl, alike, unparted⟩
  | cons part lexemes ih =>
    obtain ⟨here, others⟩ := List.forall_mem_cons.mp solid
    rw [List.foldlM_cons] at ran
    obtain ⟨middle, taken, ranBehind⟩ := Option.bind_eq_some_iff.mp ran
    -- What the first lexeme adds is read again, and so are the others from there.
    obtain ⟨lexemesAgain, middleAgain, tidy, text, ranAgain, alikeAgain, unpartedAgain⟩ :=
      lexeme_again alike unparted here taken
    obtain ⟨added, emitted, others, after, tidyToo, textToo, ranToo, alikeToo, unpartedToo⟩ :=
      ih alikeAgain unpartedAgain others ranBehind
    -- The two rows that are read again stand one behind the other.
    refine ⟨first.adds part ++ added, ?_, lexemesAgain ++ others, after, ?_, ?_, ?_, alikeToo,
      unpartedToo⟩
    · rw [emitted, (Progress.lexeme_adds here taken).1, List.reverse_append, List.append_assoc]
    · exact List.forall_mem_append.mpr ⟨tidy, tidyToo⟩
    · rw [List.flatMap_append, text, textToo, List.map_append]
    · rw [List.foldlM_append, ranAgain]
      exact ranToo

end Canonical

/-- A canonical text in which no comment starts is its own canonical text. -/
theorem canonical_is_fixed {source file : String} {canonical : Canonical}
    (accepted : Canonical.ofSource source file = .ok canonical) (free : CommentFree canonical.text)
    (name : String) :
    ∃ again, Canonical.ofSource (String.ofList canonical.text) name = .ok again ∧
      again.text = canonical.text := by
  obtain ⟨lexemes, lexed⟩ := Canonical.ofSource_lexed accepted
  obtain ⟨final, ran, finished⟩ := (Canonical.continueFrom_lexed lexed).mp accepted
  obtain ⟨closed, marks⟩ := Canonical.finish_ok.mp finished
  obtain ⟨added, emitted, again, after, tidy, text, ranAgain, alike, -⟩ :=
    Canonical.run_again ⟨rfl, rfl⟩ rfl lexed.solid ran
  -- The text is that of the lexemes that are read again.
  have same : again.flatMap Lexeme.text = canonical.text := by
    rw [text, Canonical.text, marks, emitted]
    simp
  rw [← same] at free ⊢
  have settled : after.opened = [] := by
    have brackets := alike.opened
    rw [closed] at brackets
    simpa using brackets.symm
  refine ⟨⟨after.emitted.reverse⟩, ?_, ?_⟩
  · rw [Canonical.ofSource, String.toList_ofList, Canonical.continueFrom_lexed (.of_tidy tidy free)]
    exact ⟨after, ranAgain, Canonical.finish_ok.mpr ⟨settled, rfl⟩⟩
  · rw [same, Canonical.text, Canonical.text, marks, List.map_reverse, List.map_reverse, alike.emitted]

/-- The slashes of a literal start no comment, and the space between two signs stays. -/
theorem canonical_is_fixed_quoted :
    ∃ canonical, Canonical.ofSource "a = 'x//\"y' / 2 - -1;" "" = .ok canonical ∧
      CommentFree canonical.text ∧
      canonical.text = "a=\"x//\\\"y\"/2- -1;".toList ∧
      ∃ again, Canonical.ofSource (String.ofList canonical.text) "" = .ok again ∧
        again.text = canonical.text := by
  have accepted : Canonical.ofSource "a = 'x//\"y' / 2 - -1;" "" =
      .ok ⟨"a=\"x//\\\"y\"/2- -1;".toList.map (·, 1)⟩ := by decide +kernel
  have free : CommentFree (Canonical.text ⟨"a=\"x//\\\"y\"/2- -1;".toList.map (·, 1)⟩) := by
    decide +kernel
  exact ⟨_, accepted, free, by decide +kernel, canonical_is_fixed accepted free ""⟩

end ScriptEngine
