import Mathlib.Data.List.Induction
import ScriptEngine.Proofs.Grammar.Container
import ScriptEngine.Proofs.Source.Extraction

/-! What a text is split into: the pieces between the marks outside its groups and literals, each without
the white space around it, so that nothing else is lost. -/

namespace ScriptEngine

open Canonical (closer? isCloser)
open Cursor

variable {avoid : Char → Bool} {mark c : Char} {text rest part piece before behind : List Char}
  {nesting : Nesting}

/-- A character that neither opens nor closes a group or a literal. -/
structure Separator (mark : Char) : Prop where
  opens : closer? mark = none
  closes : isCloser mark = false
  unquoted : mark ≠ '"'

instance : DecidablePred ProperlyNested := fun _ => decidable_of_iff _ balanced_iff_properlyNested

/-- A mark stands at a place outside the groups and the literals of a text: what is in front of it is
properly nested. -/
def MarkedAt (mark : Char) (text : List Char) (place : Nat) : Prop :=
  text[place]? = some mark ∧ ProperlyNested (text.take place)

instance (mark : Char) (text : List Char) : DecidablePred (MarkedAt mark text) :=
  fun _ => inferInstanceAs (Decidable (_ ∧ _))

/-- The number of marks outside the groups and the literals of a text. -/
def countMarks (mark : Char) (text : List Char) : Nat :=
  (List.range text.length).countP (MarkedAt mark text ·)

/-! White space at the ends of a text. -/

/-- Whether a text consists of white space. -/
def Text.Blank (text : List Char) : Prop := ∀ c ∈ text, isBlank c = true

/-- A text is another one with white space around it. -/
def Text.Pads (part text : List Char) : Prop :=
  ∃ before behind, Blank before ∧ Blank behind ∧ text = before ++ part ++ behind

/-- What is trimmed is white space. -/
theorem Text.pads_trim (text : List Char) : Pads (trim text) text := by
  have blank : ∀ text : List Char, Blank (text.takeWhile isBlank) :=
    fun text => List.all_eq_true.mp List.all_takeWhile
  refine ⟨text.takeWhile isBlank, ((trimStart text).reverse.takeWhile isBlank).reverse, blank text,
    fun c member => blank _ c (List.mem_reverse.mp member), ?_⟩
  -- The white space at the end is that at the start of the reversed text.
  rw [List.append_assoc, trim, trimEnd, ← List.reverse_append, List.takeWhile_append_dropWhile,
    List.reverse_reverse]
  exact List.takeWhile_append_dropWhile.symm

/-- Trimming leaves nothing of white space, and something of all else. -/
theorem Text.trim_eq_nil_iff : trim text = [] ↔ Blank text := by
  constructor
  · -- All of the text was taken off at its ends.
    intro none
    obtain ⟨before, behind, blank, blankToo, same⟩ := pads_trim text
    rw [none, List.append_nil] at same
    rw [same]
    exact List.forall_mem_append.mpr ⟨blank, blankToo⟩
  · intro blank
    rw [trim, trimStart, List.dropWhile_eq_nil_iff.mpr blank]
    rfl

/-- White space neither opens nor closes anything. -/
theorem Separator.of_blank (blank : Text.isBlank c = true) : Separator c := by
  have each : Text.blanks.all (fun c => closer? c == none && !isCloser c && c != '"') = true := by
    decide +kernel
  have plain := List.all_eq_true.mp each c (Text.mem_blanks blank)
  simp only [Bool.and_eq_true, beq_iff_eq, Bool.not_eq_true', bne_iff_ne] at plain
  exact ⟨plain.1.1, plain.1.2, plain.2⟩

/-! Nesting of what is left of a balanced text. -/

namespace Separator

/-- A separating character leaves the open groups as they are. -/
theorem regroup? (separator : Separator c) (due : List Char) : Nesting.regroup? due c = some due := by
  simp [Nesting.regroup?, separator.opens, separator.closes]

/-- In front of a separating character everything is closed if it is so behind it. -/
theorem eq_of_step? (separator : Separator c) (read : nesting.step? avoid c = some {}) :
    nesting = {} := by
  obtain ⟨due, quoting⟩ := nesting
  have code : Quoting.next quoting c = .outside := (Nesting.step?_quoting read).symm
  cases quoting with
  | outside =>
    simp only [Nesting.step?, if_true, separator.regroup?, Option.map_some] at read
    split at read
    · cases read
    · obtain rfl : due = [] := congrArg Nesting.due (Option.some.inj read)
      rfl
  | inside =>
    -- Only a quote closes a literal.
    simp only [Quoting.next, if_neg separator.unquoted] at code
    split at code <;> cases code
  | escaped => cases code

/-- A separating character can be taken away from the start of a balanced text. -/
theorem balanced_tail (separator : Separator c) (balanced : Balanced avoid (c :: text)) :
    Balanced avoid text := by
  obtain ⟨next, first, behind⟩ := Option.bind_eq_some_iff.mp balanced
  simp only [Nesting.step?, if_true, separator.regroup?, Option.map_some, Quoting.next,
    if_neg separator.unquoted] at first
  split at first
  · cases first
  · cases first
    exact behind

/-- A separating character can be taken away from the end of a balanced text. -/
theorem balanced_init (separator : Separator c) (balanced : Balanced avoid (text ++ [c])) :
    Balanced avoid text := by
  unfold Balanced at balanced
  rw [Nesting.read?_append] at balanced
  obtain ⟨nesting, read, last⟩ := Option.bind_eq_some_iff.mp balanced
  obtain ⟨next, step, same⟩ := Option.bind_eq_some_iff.mp last
  cases same
  rwa [separator.eq_of_step? step] at read

/-- A separating character that need not be avoided can stand in front of a balanced text. -/
theorem balanced_cons (separator : Separator c) (allowed : avoid c = false)
    (balanced : Balanced avoid text) : Balanced avoid (c :: text) := by
  unfold Balanced
  rw [Nesting.read?_outside (separator.regroup? []) fun _ => allowed, Quoting.next,
    if_neg separator.unquoted]
  exact balanced

end Separator

/-- White space around a balanced text can be taken away. -/
theorem Balanced.of_pads (balanced : Balanced avoid text) (pads : Text.Pads part text) :
    Balanced avoid part := by
  obtain ⟨before, behind, blank, blankToo, rfl⟩ := pads
  -- One character after another is taken away, first at the end and then at the start.
  have front : Balanced avoid (before ++ part) := by
    clear blank
    induction behind using List.reverseRecOn with
    | nil => simpa using balanced
    | append_singleton behind c ih =>
      rw [← List.append_assoc] at balanced
      exact ih (fun other member => blankToo other (List.mem_append_left _ member))
        ((Separator.of_blank (blankToo c (by simp))).balanced_init balanced)
  clear balanced
  induction before with
  | nil => exact front
  | cons c before ih =>
    exact ih (fun other member => blank other (List.mem_cons_of_mem _ member))
      ((Separator.of_blank (blank c List.mem_cons_self)).balanced_tail front)

/-! Marks and the pieces between them. -/

/-- No mark is at a place of a piece. -/
theorem not_markedAt (balanced : Balanced (endsPart mark) piece) (place : Nat) :
    ¬ MarkedAt mark piece place := by
  rintro ⟨there, nested⟩
  obtain ⟨within, here⟩ := List.getElem?_eq_some_iff.mp there
  have shape : piece = piece.take place ++ mark :: piece.drop (place + 1) := by
    rw [← here, List.getElem_cons_drop, List.take_append_drop]
  unfold Balanced at balanced
  rw [shape, Nesting.read?_append] at balanced
  obtain ⟨nesting, front, back⟩ := Option.bind_eq_some_iff.mp balanced
  -- The mark would stand where nothing is open, so that the piece would end there.
  have closed : nesting = {} := by
    have read := Nesting.read?_lax [] front
    rw [List.append_nil, List.append_nil] at read
    exact Option.some.inj (read.symm.trans (balanced_iff_properlyNested.mpr nested))
  subst closed
  obtain ⟨next, step, _⟩ := Option.bind_eq_some_iff.mp back
  have allowed := (Nesting.step?_bare step).1
  simp [endsPart] at allowed

/-- No mark is in a piece. -/
theorem countMarks_piece (balanced : Balanced (endsPart mark) piece) : countMarks mark piece = 0 := by
  rw [countMarks, List.countP_eq_zero]
  exact fun place _ => by simpa using not_markedAt balanced place

/-- Behind a piece and a mark the places of the marks are those of the rest. -/
theorem markedAt_behind (separator : Separator mark) (balanced : Balanced nothing piece) (place : Nat) :
    MarkedAt mark (piece ++ mark :: rest) (piece.length + (1 + place)) ↔ MarkedAt mark rest place := by
  -- What stands in front of the place is the piece, the mark, and the start of the rest.
  have passed : (piece ++ mark :: rest).take (piece.length + (1 + place)) =
      piece ++ mark :: rest.take place := by
    rw [List.take_length_add_append, Nat.add_comm, List.take_succ_cons]
  have same : ProperlyNested (piece ++ mark :: rest.take place) ↔ ProperlyNested (rest.take place) := by
    rw [← balanced_iff_properlyNested, ← balanced_iff_properlyNested]
    -- The piece and the mark close what they open, and so the start of the rest is nested by
    -- itself.
    constructor
    · intro whole
      unfold Balanced at whole
      rw [balanced.read?_append] at whole
      exact separator.balanced_tail whole
    · exact fun nested => balanced.append (separator.balanced_cons rfl nested)
  unfold MarkedAt
  rw [passed, same, List.getElem?_append_right (by omega), Nat.add_sub_cancel_left, Nat.add_comm,
    List.getElem?_cons_succ]

/-- Within a piece the places of the marks are its own. -/
theorem markedAt_within {place : Nat} (within : place < piece.length) :
    MarkedAt mark (piece ++ rest) place ↔ MarkedAt mark piece place := by
  unfold MarkedAt
  rw [List.getElem?_append_left within, List.take_append_of_le_length (Nat.le_of_lt within)]

/-- The mark behind a piece is counted, and the marks behind it. -/
theorem countMarks_append (separator : Separator mark) (balanced : Balanced (endsPart mark) piece)
    (rest : List Char) : countMarks mark (piece ++ mark :: rest) = countMarks mark rest + 1 := by
  have first : (List.range piece.length).countP (MarkedAt mark (piece ++ mark :: rest) ·) = 0 := by
    refine List.countP_eq_zero.mpr fun place member => ?_
    simpa [markedAt_within (List.mem_range.mp member)] using not_markedAt balanced place
  have here : MarkedAt mark (piece ++ mark :: rest) piece.length := by
    refine ⟨by simp, ?_⟩
    rw [List.take_left]
    exact balanced_iff_properlyNested.mp balanced.lax
  -- The places are those of the piece, that of the mark and those behind it.
  have lengths : (piece ++ mark :: rest).length = piece.length + (1 + rest.length) := by
    simp only [List.length_append, List.length_cons]
    omega
  rw [countMarks, lengths, List.range_add, List.range_add, List.countP_append, first, Nat.zero_add,
    List.countP_map, List.countP_append, List.countP_map, Nat.add_comm]
  simp [Function.comp_def, markedAt_behind separator balanced.lax, here, countMarks]

/-- Among pieces with marks between them there is one mark less than pieces. -/
theorem countMarks_listed (separator : Separator mark) {pieces : List (List Char)}
    (filled : pieces ≠ []) (each : ∀ piece ∈ pieces, Balanced (endsPart mark) piece) :
    countMarks mark (listed mark pieces) + 1 = pieces.length := by
  induction pieces with
  | nil => exact absurd rfl filled
  | cons piece pieces ih =>
    have balanced := each piece List.mem_cons_self
    -- Each piece but the last one has a mark behind it.
    cases pieces with
    | nil => rw [listed, countMarks_piece balanced, List.length_singleton]
    | cons next pieces =>
      rw [listed, countMarks_append separator balanced,
        ih (by simp) fun piece member => each piece (List.mem_cons_of_mem _ member)]
      rfl

/-- A balanced text consists of pieces with marks between them, and these are what it is split into. -/
theorem splitParts_pieces (separator : Separator mark) (balanced : Balanced nothing text) :
    ∃ pieces, pieces ≠ [] ∧ text = listed mark pieces ∧
      (∀ piece ∈ pieces, Balanced (endsPart mark) piece) ∧
      splitParts mark text = pieces.map Text.trim := by
  -- The induction is on the length of the text: behind the first mark there is less of it.
  induction size : text.length using Nat.strong_induction_on generalizing text with
  | _ size ih =>
    have ends : ∀ c rest, ([] : List Char).head? = some c → isCloser c = true →
      headIs (endsPart mark) (c :: rest) = true := nofun
    rcases Nesting.distanceTo?_stops ends (fun c rest stops => stops) balanced with
      ⟨piece, behind, rfl, first, stops, _⟩ | ⟨_, last, _⟩
    · cases behind with
      | nil => cases stops
      | cons c rest =>
        have tail : Balanced nothing (c :: rest) := by
          unfold Balanced at balanced
          rw [first.lax.read?_append] at balanced
          exact balanced
        obtain ⟨next, step, _⟩ := Option.bind_eq_some_iff.mp tail
        -- No group is open, so that only a mark can end the piece.
        have bare := (Nesting.step?_bare step).2
        obtain rfl : c = mark := by simpa [headIs, endsPart, bare] using stops
        obtain ⟨pieces, filled, rfl, each, split⟩ :=
          ih rest.length (by rw [← size]; simp only [List.length_append, List.length_cons]; omega)
            (separator.balanced_tail tail) rfl
        refine ⟨piece :: pieces, by simp, ?_, List.forall_mem_cons.mpr ⟨first, each⟩, ?_⟩
        · cases pieces with
          | nil => exact absurd rfl filled
          | cons next pieces => rfl
        · rw [splitParts_marked first, split, List.map_cons]
    · exact ⟨[text], by simp, rfl, List.forall_mem_singleton.mpr last, splitParts_balanced last⟩

/-- A properly nested text of white space has no parts. Any other one has one part more than there are
marks outside its groups and literals; no part has such a mark in it, all are properly nested, and the text
is the parts, with white space around each of them, and with the marks between them. -/
theorem splitting_keeps_text (separator : Separator mark) (nested : ProperlyNested text) :
    (Text.Blank text → splitTopLevel text mark = []) ∧
      (¬ Text.Blank text →
        (splitTopLevel text mark).length = countMarks mark text + 1 ∧
        (∀ part ∈ splitTopLevel text mark,
          ProperlyNested part ∧ ∀ place, ¬ MarkedAt mark part place) ∧
        ∃ pieces, text = listed mark pieces ∧
          List.Forall₂ Text.Pads (splitTopLevel text mark) pieces) := by
  constructor
  · intro blank
    rw [splitTopLevel, Text.trim_eq_nil_iff.mpr blank]
    rfl
  · intro filled
    have inhabited : (Text.trim text).isEmpty = false := by
      rw [List.isEmpty_eq_false_iff]
      exact fun none => filled (Text.trim_eq_nil_iff.mp none)
    obtain ⟨pieces, some, shape, each, split⟩ :=
      splitParts_pieces separator (balanced_iff_properlyNested.mpr nested)
    have parts : splitTopLevel text mark = pieces.map Text.trim := by
      rw [splitTopLevel, inhabited]
      exact split
    -- What is said about the parts holds of the pieces, and trimming only takes white space away.
    rw [parts]
    refine ⟨?_, fun part member => ?_, pieces, shape, ?_⟩
    · rw [List.length_map, shape, countMarks_listed separator some each]
    · obtain ⟨piece, among, rfl⟩ := List.mem_map.mp member
      have balanced := (each piece among).of_pads (Text.pads_trim piece)
      exact ⟨balanced_iff_properlyNested.mp balanced.lax, not_markedAt balanced⟩
    · rw [List.forall₂_map_left_iff, List.forall₂_same]
      exact fun piece _ => Text.pads_trim piece

/-- Arguments with commas, brackets and an escaped quote in their literals and groups, and with white space
at the commas between them. -/
def commaArguments : List Char := " a, f(\"x,)\\\",\", [1,2]) ,\x7bk:\",\"\x7d,".toList

/-- Of the eight commas of the arguments, three are outside the groups and literals. They are split at these
into four parts, of which the last one is empty. -/
theorem splitting_keeps_text_literals :
    ProperlyNested commaArguments ∧ ¬ Text.Blank commaArguments ∧
      commaArguments.count ',' = 8 ∧ countMarks ',' commaArguments = 3 ∧
      splitTopLevel commaArguments ',' =
        [['a'], "f(\"x,)\\\",\", [1,2])".toList, "\x7bk:\",\"\x7d".toList, []] ∧
      ∃ pieces, commaArguments = listed ',' pieces ∧
        List.Forall₂ Text.Pads (splitTopLevel commaArguments ',') pieces := by
  have separator : Separator ',' := ⟨rfl, rfl, by decide⟩
  have nested : ProperlyNested commaArguments := by decide +kernel
  -- The first character is not blank.
  have filled : ¬ Text.Blank commaArguments := fun blank => by
    have solid := blank 'a' (by decide +kernel)
    cases solid
  obtain ⟨count, _, kept⟩ := (splitting_keeps_text separator nested).2 filled
  have parts : splitTopLevel commaArguments ',' =
      [['a'], "f(\"x,)\\\",\", [1,2])".toList, "\x7bk:\",\"\x7d".toList, []] := by decide +kernel
  rw [parts] at count
  exact ⟨nested, filled, by decide +kernel, (Nat.succ.inj count).symm, parts, kept⟩

end ScriptEngine
