import ScriptEngine.Proofs.Number.Distinct
import ScriptEngine.Proofs.Value.Look
import ScriptEngine.Proofs.Value.Moment
import ScriptEngine.Value.Coercion

/-! Values whose texts show neither brackets nor quotes, and which of them have the same text. -/

namespace ScriptEngine

open Text

/-- What a value is, if it shows neither brackets nor quotes, and no other such value looks like it. -/
inductive Data.Atomic : Data → Prop where
  | undefined : Atomic .undefined
  | null : Atomic .null
  | breakSignal : Atomic .breakSignal
  | continueSignal : Atomic .continueSignal
  | quitSignal (code : Int) : Atomic (.quitSignal code)
  | number {number : Float} (isNumber : number.isNaN = false) : Atomic (.number number)
  /-- The digits are there, and are not those of a number. -/
  | bytes {bytes : List UInt8} (some : bytes ≠ [])
      (unlike : ∀ number, Number.format number ≠ hexText bytes) : Atomic (.bytes bytes)
  | dateTime {moment : DateTime} (regular : moment.Regular) : Atomic (.dateTime moment)

/-- Characters of a kind that no mark is of are no marks. -/
theorem not_isMark {kind : Char → Bool} (none : marks.all (! kind ·) = true) {c : Char}
    (holds : kind c = true) : isMark c = false := by
  refine Bool.eq_false_iff.mpr fun mark => ?_
  have other := List.all_eq_true.mp none c (List.contains_iff_mem.mp mark)
  rw [holds] at other
  cases other

/-- Whether a character is a hexadecimal digit as bytes show it. -/
def isHex (c : Char) : Bool := "0123456789abcdef".toList.contains c

/-- The text of bytes consists of hexadecimal digits. -/
theorem isHex_hexText (bytes : List UInt8) : ∀ c ∈ (hexText bytes).toList, isHex c = true := by
  have digits : ∀ digit < 16, isHex (Nat.digitChar digit) = true := by decide
  intro c member
  rw [hexText, String.toList_ofList] at member
  obtain ⟨byte, -, here⟩ := List.mem_flatMap.mp member
  -- Each byte has two digits.
  have small := byte.toNat_lt
  rcases List.mem_cons.mp here with rfl | low
  · exact digits _ (by omega)
  · rw [List.mem_singleton.mp low]
    exact digits _ (by omega)

/-- The text of bytes shows the bytes. -/
theorem hexText_inj {left right : List UInt8} (same : hexText left = hexText right) : left = right := by
  have pairs := congrArg String.toList same
  rw [hexText, hexText, String.toList_ofList, String.toList_ofList] at pairs
  clear same
  -- Each byte takes two digits.
  induction left generalizing right with
  | nil =>
    cases right with
    | nil => rfl
    | cons => cases pairs
  | cons byte left ih =>
    cases right with
    | nil => cases pairs
    | cons byte' right =>
      simp only [List.flatMap_cons, List.cons_append, List.nil_append, List.cons.injEq] at pairs
      obtain ⟨high, low, rests⟩ := pairs
      have small := byte.toNat_lt
      have small' := byte'.toNat_lt
      have highs := digitChar_inj (by omega) (by omega) high
      have lows := digitChar_inj (by omega) (by omega) low
      have bytes : byte = byte' := UInt8.toNat_inj.mp (by omega)
      rw [ih rests, bytes]

namespace Data.Atomic

variable {data other : Data}

/-- The text of such a value shows no structure. -/
theorem unmarked (atomic : data.Atomic) : ∀ c ∈ data.display.toList, isMark c = false := by
  -- Words are checked letter by letter, and other texts by the characters that they can consist of.
  have letters : ∀ {text : String}, text.toList.all (! isMark ·) = true →
      ∀ c ∈ text.toList, isMark c = false := by
    intro text none c member
    simpa using List.all_eq_true.mp none c member
  cases atomic with
  | undefined | null | breakSignal | continueSignal => exact letters (by decide)
  | quitSignal code =>
    intro c member
    simp only [display, String.toList_append, List.mem_append] at member
    rcases member with (front | digit) | back
    · exact letters (by decide) c front
    · exact not_isMark (by decide) (Number.isNumeric_toString code c digit)
    · exact letters (by decide) c back
  | number isNumber => exact fun c member => not_isMark (by decide) (Number.isNumeric_format isNumber c member)
  | bytes => exact fun c member => not_isMark (by decide) (isHex_hexText _ c member)
  | dateTime => exact fun c member => not_isMark (by decide) (DateTime.isStamp_format _ c member)

/-- Such a value has a text. -/
theorem display_ne_nil (atomic : data.Atomic) : data.display.toList ≠ [] := by
  -- Only an empty list of bytes would have no text.
  cases atomic with
  | undefined | null | breakSignal | continueSignal => simp only [display]; decide
  | quitSignal code => simp [display, String.toList_append]
  | number => exact Number.format_ne_nil _
  | @bytes bytes some =>
    intro none
    cases bytes with
    | nil => exact some rfl
    | cons => simp [display, hexText] at none
  | @dateTime moment => exact List.ne_nil_of_mem moment.colon_mem_format

end Data.Atomic

/-- The kind of value that a text without structure tells, but for numbers and bytes, which digits alone do
not tell apart. -/
def kindOfText (text : List Char) : Nat :=
  if ':' ∈ text then 3 else if '(' ∈ text then 2 else if 'u' ∈ text ∨ 'r' ∈ text then 1 else 0

/-- The kind of what a value is: a moment, a quit signal, a word, or digits. -/
def Data.kind : Data → Nat
  | .dateTime _ => 3
  | .quitSignal _ => 2
  | .number _ => 0
  | .bytes _ => 0
  | _ => 1

namespace Data.Atomic

variable {data other : Data}

/-- The text of such a value tells its kind. -/
theorem kindOfText_display (atomic : data.Atomic) : kindOfText data.display.toList = data.kind := by
  -- A character of another kind is not there.
  have absent : ∀ {kind : Char → Bool} {text : List Char}, (∀ c ∈ text, kind c = true) →
      ∀ c, kind c = false → c ∉ text := by
    intro kind text holds c other member
    rw [holds c member] at other
    cases other
  have digits : ∀ {kind : Char → Bool} {text : List Char}, (∀ c ∈ text, kind c = true) →
      kind ':' = false → kind '(' = false → kind 'u' = false → kind 'r' = false →
      kindOfText text = 0 := by
    intro kind text holds colon bracket u r
    simp [kindOfText, absent holds _ colon, absent holds _ bracket, absent holds _ u, absent holds _ r]
  cases atomic with
  | undefined | null | breakSignal | continueSignal => simp only [display, kind]; decide
  | quitSignal code =>
    have colon : ':' ∉ code.repr.toList :=
      absent (Number.isNumeric_toString code) ':' (by decide)
    simp [kindOfText, display, kind, String.toList_append, colon]
  | number isNumber =>
    exact digits (Number.isNumeric_format isNumber) (by decide) (by decide) (by decide) (by decide)
  | @bytes bytes => exact digits (isHex_hexText bytes) (by decide) (by decide) (by decide) (by decide)
  | @dateTime moment => exact if_pos moment.colon_mem_format

/-- Two such values with the same text are equal. -/
theorem equals_of_display (atomic : data.Atomic) (atomic' : other.Atomic)
    (same : data.display = other.display) : data.equals other = true := by
  -- Values of different kinds have different texts.
  have kinds : data.kind = other.kind := by
    rw [← atomic.kindOfText_display, same, atomic'.kindOfText_display]
  cases atomic <;> cases atomic' <;> cases kinds
  case number.number isNumber _ isNumber' => exact (Number.format_eq_iff isNumber isNumber').mp same
  case number.bytes number _ _ _ unlike => exact absurd same (unlike number)
  case bytes.number _ unlike number _ => exact absurd same.symm (unlike number)
  case bytes.bytes => exact beq_iff_eq.mpr (hexText_inj same)
  case dateTime.dateTime regular _ regular' =>
    exact beq_iff_eq.mpr (DateTime.format_inj regular regular' same)
  case quitSignal.quitSignal code code' =>
    have texts : code.repr = code'.repr := by simpa [display] using same
    exact beq_iff_eq.mpr (Int.repr_inj.mp texts)
  -- Only words are left.
  all_goals first | rfl | simp [display] at same

/-- Equal values of this sort have the same text. -/
theorem display_of_equals (atomic : data.Atomic) (atomic' : other.Atomic)
    (same : data.equals other = true) : data.display = other.display := by
  cases atomic <;> cases atomic' <;> try cases same
  case number.number isNumber _ isNumber' => exact (Number.format_eq_iff isNumber isNumber').mpr same
  case bytes.bytes => rw [beq_iff_eq.mp same]
  case dateTime.dateTime => rw [beq_iff_eq.mp same]
  case quitSignal.quitSignal => rw [beq_iff_eq.mp same]
  all_goals rfl

end Data.Atomic

end ScriptEngine
