import ScriptEngine.Text.Quoted

/-! Texts that show where they end, so that what follows them can be told apart from them. -/

namespace ScriptEngine.Text

/-! Digits of a number. -/

/-- Digits show their values. -/
theorem digitChar_inj {low high : Nat} (isLow : low < 16) (isHigh : high < 16)
    (same : Nat.digitChar low = Nat.digitChar high) : low = high := by
  have all : ∀ low < 16, ∀ high < 16, Nat.digitChar low = Nat.digitChar high → low = high := by
    decide
  exact all low isLow high isHigh same

/-- The digits of a number, of up to sixteen ones, show the number. -/
theorem toDigits_inj {base : Nat} (atLeast : 1 < base) (atMost : base ≤ 16) :
    ∀ {left right : Nat}, Nat.toDigits base left = Nat.toDigits base right → left = right := by
  -- The induction takes the last digit off both.
  intro left
  induction left using Nat.strongRecOn with
  | _ left ih =>
    intro right same
    rw [Nat.toDigits_eq_if atLeast, Nat.toDigits_eq_if (n := right) atLeast] at same
    have lastLeft : left % base < base := Nat.mod_lt _ (by omega)
    have lastRight : right % base < base := Nat.mod_lt _ (by omega)
    split at same <;> split at same
    case isTrue.isTrue single single' =>
      exact digitChar_inj (by omega) (by omega) (List.singleton_inj.mp same)
    -- One digit is less than the two or more of a larger number.
    case isTrue.isFalse single more =>
      have lengths := congrArg List.length same
      have := Nat.length_toDigits_pos (b := base) (n := right / base)
      simp only [List.length_singleton, List.length_append] at lengths
      omega
    case isFalse.isTrue more single =>
      have lengths := congrArg List.length same
      have := Nat.length_toDigits_pos (b := base) (n := left / base)
      simp only [List.length_singleton, List.length_append] at lengths
      omega
    case isFalse.isFalse more more' =>
      -- The last digits are the remainders, the others those of the quotients.
      obtain ⟨front, last⟩ := List.append_inj' same rfl
      have smaller : left / base < left := Nat.div_lt_self (by omega) atLeast
      have quotients := ih (left / base) smaller front
      have remainders := digitChar_inj (by omega) (by omega) (List.singleton_inj.mp last)
      rw [← Nat.div_add_mod left base, quotients, remainders, Nat.div_add_mod]

/-- The digits of a number are those of its base. -/
theorem mem_toDigits {base : Nat} (atLeast : 1 < base) {number : Nat} {c : Char}
    (member : c ∈ Nat.toDigits base number) : ∃ digit < base, c = Nat.digitChar digit := by
  -- The digits of a number are those of its quotient by the base and one for the remainder.
  induction number using Nat.strongRecOn with
  | _ number ih =>
    rw [Nat.toDigits_eq_if atLeast] at member
    split at member
    case isTrue single => exact ⟨number, single, List.mem_singleton.mp member⟩
    case isFalse more =>
      rcases List.mem_append.mp member with front | last
      · exact ih _ (Nat.div_lt_self (by omega) atLeast) front
      · exact ⟨_, Nat.mod_lt _ (by omega), List.mem_singleton.mp last⟩

/-! Texts in front of a stop. -/

/-- A text is at its end or at a character that stops another one. -/
def AtStop (stop : Char → Bool) (rest : List Char) : Prop := ∀ c ∈ rest.head?, stop c = true

/-- A stop in front is one. -/
theorem atStop_cons {stop : Char → Bool} {c : Char} {rest : List Char} (stopped : stop c = true) :
    AtStop stop (c :: rest) := by
  rintro d ⟨⟩
  exact stopped

/-- Texts without any character that stops them can be told from what follows. -/
theorem cancel_stopped {stop : Char → Bool} {left right rest other : List Char}
    (leftFree : ∀ c ∈ left, stop c = false) (rightFree : ∀ c ∈ right, stop c = false)
    (restStops : AtStop stop rest) (otherStops : AtStop stop other)
    (same : left ++ rest = right ++ other) : left = right ∧ rest = other := by
  induction left generalizing right with
  | nil =>
    cases right with
    | nil => exact ⟨rfl, same⟩
    | cons c right =>
      -- What follows the shorter text begins with a stop, which is not in the longer one.
      have free := rightFree c List.mem_cons_self
      rw [List.nil_append, List.cons_append] at same
      have stopped := restStops c (by rw [same]; rfl)
      rw [free] at stopped
      cases stopped
  | cons c left ih =>
    cases right with
    | nil =>
      have free := leftFree c List.mem_cons_self
      rw [List.nil_append, List.cons_append] at same
      have stopped := otherStops c (by rw [← same]; rfl)
      rw [free] at stopped
      cases stopped
    | cons d right =>
      obtain ⟨rfl, behind⟩ := List.cons.inj same
      obtain ⟨rfl, rests⟩ := ih (fun c isC => leftFree c (List.mem_cons_of_mem _ isC))
        (fun c isC => rightFree c (List.mem_cons_of_mem _ isC)) behind
      exact ⟨rfl, rests⟩

/-! Quoted texts. -/

/-- The forms that a character can take between quotes. -/
inductive Form (c : Char) : List Char → Prop where
  | plain (quote : c ≠ '"') (slash : c ≠ '\\') : Form c [c]
  /-- The sign behind a backslash stands for the character. -/
  | escaped (sign : Char) (named : c = match sign with
      | '0' => Char.ofNat 0
      | 't' => '\t'
      | 'r' => '\r'
      | 'n' => '\n'
      | sign => sign) (unnamed : sign ≠ 'u') : Form c ['\\', sign]
  | codePoint : Form c (codePointEscape c)

/-- A character takes one of the forms. -/
theorem form_quotedChar (c : Char) : Form c (quotedChar c) := by
  -- A character is written as itself, with a sign of its own, or by its code point.
  unfold quotedChar
  split
  case isTrue special =>
    rcases special with rfl | rfl
    · exact .escaped '"' rfl (by decide)
    · exact .escaped '\\' rfl (by decide)
  case isFalse ordinary =>
    rw [not_or] at ordinary
    split
    · exact .plain ordinary.1 ordinary.2
    split
    case isTrue zero => exact .escaped '0' (Char.ext (UInt32.toNat_inj.mp zero)) (by decide)
    split
    case isTrue tab => exact .escaped 't' tab (by decide)
    split
    case isTrue carriage => exact .escaped 'r' carriage (by decide)
    split
    case isTrue newline => exact .escaped 'n' newline (by decide)
    split
    · exact .codePoint
    · exact .plain ordinary.1 ordinary.2

/-- What stands for a character does not begin with a quote. -/
theorem Form.unquoted {c : Char} {text : List Char} (form : Form c text) (rest other : List Char) :
    text ++ rest ≠ '"' :: other := by
  intro same
  cases form with
  | plain quote => exact quote (List.cons.inj same).1
  | escaped => cases (List.cons.inj same).1
  | codePoint => cases (List.cons.inj same).1

/-- What stands for a character can be told from what follows. -/
theorem Form.cancel {c d : Char} {left right rest other : List Char} (leftForm : Form c left)
    (rightForm : Form d right) (same : left ++ rest = right ++ other) : c = d ∧ rest = other := by
  cases leftForm with
  | plain quote slash =>
    cases rightForm with
    | plain => exact List.cons.inj same
    | escaped => exact absurd (List.cons.inj same).1 slash
    | codePoint => exact absurd (List.cons.inj same).1 slash
  | escaped sign named unnamed =>
    cases rightForm with
    | plain _ slash => exact absurd (List.cons.inj same).1.symm slash
    | escaped sign' named' =>
      obtain ⟨rfl, rests⟩ := List.cons.inj (List.cons.inj same).2
      exact ⟨named.trans named'.symm, rests⟩
    -- A code point is written with the sign that stands for no character.
    | codePoint => exact absurd (List.cons.inj (List.cons.inj same).2).1 unnamed
  | codePoint =>
    cases rightForm with
    | plain _ slash => exact absurd (List.cons.inj same).1.symm slash
    | escaped sign named unnamed => exact absurd (List.cons.inj (List.cons.inj same).2).1.symm unnamed
    | codePoint =>
      -- The digits end at the brace.
      have behind : Nat.toDigits 16 c.toNat ++ '\x7d' :: rest =
          Nat.toDigits 16 d.toNat ++ '\x7d' :: other := by
        simpa [codePointEscape] using same
      have free : ∀ e : Char, ∀ sign ∈ Nat.toDigits 16 e.toNat, (sign == '\x7d') = false := by
        intro e sign member
        obtain ⟨digit, small, rfl⟩ := mem_toDigits (by decide) member
        have none : ∀ digit < 16, (Nat.digitChar digit == '\x7d') = false := by decide
        exact none digit small
      obtain ⟨digits, rests⟩ := cancel_stopped (free c) (free d) (atStop_cons rfl) (atStop_cons rfl) behind
      refine ⟨Char.ext (UInt32.toNat_inj.mp ?_), (List.cons.inj rests).2⟩
      exact toDigits_inj (by decide) (by decide) digits

/-- A quoted text can be told from what follows. -/
theorem quoted_cancel {left right : String} {rest other : List Char}
    (same : (quoted left).toList ++ rest = (quoted right).toList ++ other) : left = right ∧ rest = other := by
  -- The induction is on the characters of the text on the left, up to the closing quote.
  have inside : ∀ left right : List Char, left.flatMap quotedChar ++ '"' :: rest =
      right.flatMap quotedChar ++ '"' :: other → left = right ∧ rest = other := by
    intro left
    induction left with
    | nil =>
      intro right same
      cases right with
      | nil => exact ⟨rfl, (List.cons.inj same).2⟩
      | cons d right =>
        rw [List.flatMap_cons, List.append_assoc] at same
        exact absurd same.symm ((form_quotedChar d).unquoted _ _)
    | cons c left ih =>
      intro right same
      rw [List.flatMap_cons, List.append_assoc] at same
      cases right with
      | nil => exact absurd same ((form_quotedChar c).unquoted _ _)
      | cons d right =>
        rw [List.flatMap_cons, List.append_assoc] at same
        obtain ⟨rfl, behind⟩ := (form_quotedChar c).cancel (form_quotedChar d) same
        obtain ⟨rfl, rests⟩ := ih right behind
        exact ⟨rfl, rests⟩
  have behind : left.toList.flatMap quotedChar ++ '"' :: rest =
      right.toList.flatMap quotedChar ++ '"' :: other := by
    simpa [quoted] using same
  obtain ⟨texts, rests⟩ := inside _ _ behind
  exact ⟨String.toList_injective texts, rests⟩

end ScriptEngine.Text
