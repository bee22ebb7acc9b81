import Mathlib
import ScriptEngine.DateTime
import ScriptEngine.Proofs.Text.Boundaries

/-! The texts of different moments are different. -/

namespace ScriptEngine.DateTime

open Text

/-- A moment lies within a minute, and its nanoseconds run on behind the last second of one only. -/
structure Regular (moment : DateTime) : Prop where
  second : moment.second < 60
  nanosecond : moment.nanosecond < 2000000000
  leap : 1000000000 ≤ moment.nanosecond → moment.second = 59

/-- The characters that are no digits. -/
def noDigit (c : Char) : Bool := !c.isDigit

/-- A padded number as characters. -/
theorem padded_toList (width number : Nat) : (padded width number).toList =
    List.replicate (width - (Nat.toDigits 10 number).length) '0' ++ Nat.toDigits 10 number := by
  unfold padded
  rw [String.toList_ofList]

/-- A padded number consists of digits. -/
theorem isDigit_padded (width number : Nat) :
    ∀ c ∈ (padded width number).toList, noDigit c = false := by
  intro c member
  rw [padded_toList] at member
  rcases List.mem_append.mp member with zero | digit
  · rw [(List.mem_replicate.mp zero).2]
    decide
  · simp [noDigit, Nat.isDigit_of_mem_toDigits (by decide) (by decide) digit]

/-- A padded number shows the number. -/
theorem padded_inj {width left right : Nat}
    (same : (padded width left).toList = (padded width right).toList) : left = right := by
  -- Zeros in front do not change the value of the digits.
  have value : ∀ number, Nat.ofDigitChars 10 (padded width number).toList 0 = number := by
    intro number
    rw [padded_toList, Nat.ofDigitChars_append, Nat.ofDigitChars_replicate_zero, Nat.mul_zero,
      Nat.ofDigitChars_ten_toDigits]
  rw [← value left, same, value]

/-- A number that fits is padded to the width. -/
theorem padded_length {width number : Nat} (some : 0 < width) (fits : number < 10 ^ width) :
    (padded width number).toList.length = width := by
  have short : (Nat.toDigits 10 number).length ≤ width :=
    (Nat.length_toDigits_le_iff (by decide) some).mpr fits
  rw [padded_toList, List.length_append, List.length_replicate]
  omega

/-- A padded number can be told from what follows, if that is no digit. -/
theorem padded_cancel {width left right : Nat} {rest other : List Char}
    (restStops : AtStop noDigit rest) (otherStops : AtStop noDigit other)
    (same : (padded width left).toList ++ rest = (padded width right).toList ++ other) :
    left = right ∧ rest = other := by
  obtain ⟨digits, rests⟩ := cancel_stopped (isDigit_padded width left) (isDigit_padded width right)
    restStops otherStops same
  exact ⟨padded_inj digits, rests⟩

/-- A padded number does not begin with anything else than a digit. -/
theorem cons_ne_padded {width number : Nat} {c : Char} {rest other : List Char}
    (sign : noDigit c = true) : c :: rest ≠ (padded width number).toList ++ other := by
  intro same
  -- What is padded has at least one digit, and that comes first.
  cases shown : (padded width number).toList with
  | nil =>
    rw [padded_toList, List.append_eq_nil_iff] at shown
    exact Nat.toDigits_ne_nil shown.2
  | cons first _ =>
    have digit := isDigit_padded width number first (by rw [shown]; exact List.mem_cons_self)
    rw [shown] at same
    rw [(List.cons.inj same).1, digit] at sign
    cases sign

/-- A year is shown with the sign that its range calls for. -/
theorem yearText_form (year : Int) :
    (year < 0 ∧ (yearText year).toList = '-' :: (padded 4 year.natAbs).toList) ∨
    (0 ≤ year ∧ year ≤ 9999 ∧ (yearText year).toList = (padded 4 year.natAbs).toList) ∨
    (9999 < year ∧ (yearText year).toList = '+' :: (padded 4 year.natAbs).toList) := by
  unfold yearText
  split
  case isTrue negative => exact .inl ⟨negative, by simp⟩
  split
  case isTrue nonneg plain => exact .inr (.inl ⟨by omega, plain, rfl⟩)
  case isFalse nonneg large => exact .inr (.inr ⟨by omega, by simp⟩)

/-- A year can be told from what follows, if that is no digit. -/
theorem yearText_cancel {left right : Int} {rest other : List Char} (restStops : AtStop noDigit rest)
    (otherStops : AtStop noDigit other)
    (same : (yearText left).toList ++ rest = (yearText right).toList ++ other) :
    left = right ∧ rest = other := by
  -- Years of different ranges begin with different signs, or with a digit.
  rcases yearText_form left with ⟨range, text⟩ | ⟨least, range, text⟩ | ⟨range, text⟩ <;>
    rcases yearText_form right with ⟨range', text'⟩ | ⟨least', range', text'⟩ | ⟨range', text'⟩ <;>
    rw [text, text'] at same
  · obtain ⟨size, rests⟩ := padded_cancel restStops otherStops (List.cons.inj same).2
    exact ⟨by omega, rests⟩
  · exact absurd same (cons_ne_padded (by decide))
  · cases (List.cons.inj same).1
  · exact absurd same.symm (cons_ne_padded (by decide))
  · obtain ⟨size, rests⟩ := padded_cancel restStops otherStops same
    exact ⟨by omega, rests⟩
  · exact absurd same.symm (cons_ne_padded (by decide))
  · cases (List.cons.inj same).1
  · exact absurd same (cons_ne_padded (by decide))
  · obtain ⟨size, rests⟩ := padded_cancel restStops otherStops (List.cons.inj same).2
    exact ⟨by omega, rests⟩

/-- A fraction is shown with as many digits as it needs. -/
theorem fractionText_form (nanosecond : Nat) :
    (nanosecond = 0 ∧ (fractionText nanosecond).toList = []) ∨
    ∃ width unit, (width, unit) ∈ [(3, 1000000), (6, 1000), (9, 1)] ∧
      nanosecond = unit * (nanosecond / unit) ∧
      (fractionText nanosecond).toList = '.' :: (padded width (nanosecond / unit)).toList := by
  -- The fraction is cut to the largest of the three units that divides it.
  unfold fractionText
  split
  case isTrue none => exact .inl ⟨none, rfl⟩
  split
  case isTrue whole => exact .inr ⟨3, 1000000, by simp, by omega, by simp⟩
  split
  case isTrue whole => exact .inr ⟨6, 1000, by simp, by omega, by simp⟩
  case isFalse => exact .inr ⟨9, 1, by simp, by omega, by simp⟩

/-- A fraction begins with a point, if there is one. -/
theorem atStop_fractionText (nanosecond : Nat) : AtStop noDigit (fractionText nanosecond).toList := by
  rcases fractionText_form nanosecond with ⟨_, text⟩ | ⟨_, _, _, _, text⟩ <;> rw [text]
  · rintro c ⟨⟩
  · exact atStop_cons (by decide)

/-- A fraction of a second shows its nanoseconds. -/
theorem fractionText_inj {left right : Nat} (isLeft : left < 1000000000)
    (isRight : right < 1000000000)
    (same : (fractionText left).toList = (fractionText right).toList) : left = right := by
  -- The number of digits is one of three.
  have length : ∀ {number width unit : Nat}, number < 1000000000 →
      (width, unit) ∈ [(3, 1000000), (6, 1000), (9, 1)] →
      (padded width (number / unit)).toList.length = width := by
    intro number width unit small listed
    simp only [List.mem_cons, Prod.mk.injEq, List.not_mem_nil, or_false] at listed
    rcases listed with ⟨rfl, rfl⟩ | ⟨rfl, rfl⟩ | ⟨rfl, rfl⟩ <;>
      exact padded_length (by decide) (by omega)
  rcases fractionText_form left with ⟨none, text⟩ | ⟨width, unit, listed, whole, text⟩ <;>
    rcases fractionText_form right with ⟨none', text'⟩ | ⟨width', unit', listed', whole', text'⟩ <;>
    rw [text, text'] at same
  · rw [none, none']
  · cases same
  · cases same
  · have digits := (List.cons.inj same).2
    -- The number of digits tells what the last one stands for.
    have widths : width = width' := by rw [← length isLeft listed, digits, length isRight listed']
    have units : unit = unit' := by
      subst widths
      simp only [List.mem_cons, Prod.mk.injEq, List.not_mem_nil, or_false] at listed listed'
      omega
    subst widths units
    rw [whole, padded_inj digits, ← whole']

/-- A moment as characters. -/
theorem format_toList (moment : DateTime) : moment.format.toList =
    (yearText moment.year).toList ++ '-' :: ((padded 2 moment.month).toList ++
    '-' :: ((padded 2 moment.day).toList ++ ' ' :: ((padded 2 moment.hour).toList ++
    ':' :: ((padded 2 moment.minute).toList ++
    ':' :: ((padded 2 (moment.second + moment.nanosecond / 1000000000)).toList ++
      (fractionText (moment.nanosecond % 1000000000)).toList))))) := by
  unfold format
  simp

/-- The characters that the texts of moments consist of. -/
def isStamp (c : Char) : Bool := c.isDigit || ['-', '+', ' ', ':', '.'].contains c

/-- The text of a moment consists of these. -/
theorem isStamp_format (moment : DateTime) : ∀ c ∈ moment.format.toList, isStamp c = true := by
  -- All parts are numbers, apart from the signs between them and in front of the year.
  have digits : ∀ width number, ∀ c ∈ (padded width number).toList, isStamp c = true := by
    intro width number c member
    have digit : c.isDigit = true := by simpa [noDigit] using isDigit_padded width number c member
    simp [isStamp, digit]
  have year : ∀ c ∈ (yearText moment.year).toList, isStamp c = true := by
    rcases yearText_form moment.year with ⟨_, text⟩ | ⟨_, _, text⟩ | ⟨_, text⟩ <;> rw [text]
    · exact List.forall_mem_cons.mpr ⟨by decide, digits _ _⟩
    · exact digits _ _
    · exact List.forall_mem_cons.mpr ⟨by decide, digits _ _⟩
  have fraction : ∀ nanosecond, ∀ c ∈ (fractionText nanosecond).toList, isStamp c = true := by
    intro nanosecond
    rcases fractionText_form nanosecond with ⟨_, text⟩ | ⟨_, _, _, _, text⟩ <;> rw [text]
    · simp
    · exact List.forall_mem_cons.mpr ⟨by decide, digits _ _⟩
  intro c member
  rw [format_toList] at member
  simp only [List.mem_append, List.mem_cons] at member
  rcases member with isYear | rfl | isMonth | rfl | isDay | rfl | isHour | rfl | isMinute | rfl |
    isSecond | isFraction
  · exact year c isYear
  · decide
  · exact digits _ _ c isMonth
  · decide
  · exact digits _ _ c isDay
  · decide
  · exact digits _ _ c isHour
  · decide
  · exact digits _ _ c isMinute
  · decide
  · exact digits _ _ c isSecond
  · exact fraction _ c isFraction

/-- The text of a moment has a colon. -/
theorem colon_mem_format (moment : DateTime) : ':' ∈ moment.format.toList := by
  rw [format_toList]
  simp

/-- Two regular moments with the same text are the same. -/
theorem format_inj {left right : DateTime} (isLeft : left.Regular) (isRight : right.Regular)
    (same : left.format = right.format) : left = right := by
  have texts := congrArg String.toList same
  rw [format_toList, format_toList] at texts
  have stop : ∀ {c : Char} {rest : List Char}, noDigit c = true → AtStop noDigit (c :: rest) :=
    atStop_cons
  -- The parts are read off from the left, each of them up to the sign behind it.
  obtain ⟨year, texts⟩ := yearText_cancel (stop (by decide)) (stop (by decide)) texts
  obtain ⟨month, texts⟩ := padded_cancel (stop (by decide)) (stop (by decide)) (List.cons.inj texts).2
  obtain ⟨day, texts⟩ := padded_cancel (stop (by decide)) (stop (by decide)) (List.cons.inj texts).2
  obtain ⟨hour, texts⟩ := padded_cancel (stop (by decide)) (stop (by decide)) (List.cons.inj texts).2
  obtain ⟨minute, texts⟩ := padded_cancel (stop (by decide)) (stop (by decide)) (List.cons.inj texts).2
  obtain ⟨second, texts⟩ := padded_cancel (atStop_fractionText _) (atStop_fractionText _)
    (List.cons.inj texts).2
  have fraction := fractionText_inj (Nat.mod_lt _ (by decide)) (Nat.mod_lt _ (by decide)) texts
  -- The second that is shown is the sixtieth exactly during a leap second.
  obtain ⟨leftSecond, leftNano, leftLeap⟩ := isLeft
  obtain ⟨rightSecond, rightNano, rightLeap⟩ := isRight
  have seconds : left.second = right.second ∧ left.nanosecond = right.nanosecond := by omega
  obtain ⟨_, _, _, _, _, _, _⟩ := left
  obtain ⟨_, _, _, _, _, _, _⟩ := right
  simp_all

end ScriptEngine.DateTime
