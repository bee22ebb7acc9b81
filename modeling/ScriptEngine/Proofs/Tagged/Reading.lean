import ScriptEngine.Tagged.Reader

/-! Reading the parts of tagged text back as they were written: names, text, bytes and the frame of an
element. -/

namespace ScriptEngine.Tagged

/-- Reading takes exactly a text, whatever stands in front of it, and goes on with what follows. -/
def Reads {α : Type} (read : Place → Step (α × Place)) (text : List Char) (result : α)
    (rest : List Char) : Prop :=
  ∀ offset, read ⟨offset, text ++ rest⟩ = .ok (result, ⟨offset + text.length, rest⟩)

variable {stops rest : List Char} {stop : Char}

/-- A character that starts no escape is text, or else the end of it. -/
theorem textFrom_plain {c : Char} (plain : c ≠ '\\') (offset : Nat) :
    textFrom stops offset (c :: rest) =
      if stops.contains c then .ok ([], ⟨offset, c :: rest⟩)
      else do
        let (text, behind) ← textFrom stops (offset + 1) rest
        return (c :: text, behind) := by
  rw [textFrom]
  · intro here _
    exact plain here
  · intro _ _ here _
    exact plain here

/-- Text is read back up to a delimiter behind it that is not escaped. -/
theorem textFrom_escape (text : List Char)
    (delimiters : ∀ c ∈ stops, isDelimiter c = true ∧ c ≠ '\\') (stopped : stop ∈ stops)
    (offset : Nat) :
    textFrom stops offset (escape text ++ stop :: rest) =
      .ok (text, ⟨offset + (escape text).length, stop :: rest⟩) := by
  -- The induction is on the text that was written, not on what is read.
  induction text generalizing offset with
  | nil =>
    show textFrom stops offset (stop :: rest) = _
    rw [textFrom_plain (delimiters stop stopped).2, if_pos (by simpa using stopped)]
    rfl
  | cons c others ih =>
    by_cases special : isDelimiter c
    · -- The character stands behind a backslash, whatever it is.
      have written : escape (c :: others) = '\\' :: c :: escape others := by
        simp [escape, special]
      rw [written, List.cons_append, List.cons_append, textFrom, ih]
      show Except.ok _ = _
      congr 3
      simp only [List.length_cons]
      omega
    · -- A character that is not escaped is no stop.
      have written : escape (c :: others) = c :: escape others := by simp [escape, special]
      have passed : ¬ stops.contains c = true := by
        intro member
        exact special (delimiters c (by simpa using member)).1
      have plain : c ≠ '\\' := by
        rintro rfl
        exact special rfl
      rw [written, List.cons_append, textFrom_plain plain, if_neg passed, ih]
      show Except.ok _ = _
      congr 3
      simp only [List.length_cons]
      omega

/-- Escaped text is read back in front of a delimiter. -/
theorem reads_text (text : String) (delimiters : ∀ c ∈ stops, isDelimiter c = true ∧ c ≠ '\\')
    (stopped : stop ∈ stops) :
    Reads (·.text stops) (escape text.toList) text (stop :: rest) := by
  intro offset
  show (do
    let (read, behind) ← textFrom stops offset (escape text.toList ++ stop :: rest)
    return (String.ofList read, behind) : Step (String × Place)) = _
  rw [textFrom_escape text.toList delimiters stopped]
  show Except.ok _ = _
  rw [String.ofList_toList]

/-- Text without delimiters is written as it is. -/
theorem escape_plain {text : List Char} (plain : ∀ c ∈ text, isDelimiter c = false) :
    escape text = text := by
  induction text with
  | nil => rfl
  | cons c others ih =>
    have written : escape (c :: others) = c :: escape others := by
      simp [escape, plain c List.mem_cons_self]
    rw [written, ih fun c member => plain c (List.mem_cons_of_mem _ member)]

/-- The written form of a name does not start like that of the empty key. -/
theorem escape_ne_empty (name : List Char) :
    ∀ behind, escape name ++ ':' :: rest ≠ '\\' :: '0' :: ':' :: behind := by
  intro behind same
  cases name with
  | nil => simp [escape] at same
  | cons c others =>
    by_cases special : isDelimiter c
    · have written : escape (c :: others) = '\\' :: c :: escape others := by
        simp [escape, special]
      rw [written] at same
      simp only [List.cons_append, List.cons.injEq, true_and] at same
      -- An escaped character is a delimiter, which the zero is not.
      rw [same.1] at special
      exact absurd special (by decide)
    · have written : escape (c :: others) = c :: escape others := by simp [escape, special]
      rw [written] at same
      simp only [List.cons_append, List.cons.injEq] at same
      rw [same.1] at special
      exact special rfl

/-- Each name is read back, also the empty key and no name at all. -/
theorem reads_name (name : Option String) : Reads Place.name (nameText name) name (':' :: rest) := by
  have colon : ∀ c ∈ [':'], isDelimiter c = true ∧ c ≠ '\\' := by simp [isDelimiter]
  intro offset
  by_cases empty : name = some ""
  · subst empty
    rfl
  · -- Any other name is read as text, and an empty text is no name.
    obtain ⟨text, written, named⟩ : ∃ text : String, nameText name = escape text.toList ∧
        (if text.isEmpty then none else some text) = name := by
      cases name with
      | none => exact ⟨"", rfl, rfl⟩
      | some key =>
        have nonempty : key.isEmpty = false := by
          have : key ≠ "" := fun same => empty (by rw [same])
          simpa using this
        exact ⟨key, by simp [nameText, nonempty], by simp [nonempty]⟩
    have read : (Place.mk offset (escape text.toList ++ ':' :: rest)).text [':'] =
        .ok (text, ⟨offset + (escape text.toList).length, ':' :: rest⟩) :=
      reads_text text colon List.mem_cons_self offset
    rw [written]
    unfold Place.name
    split
    case h_1 behind same => exact absurd same (escape_ne_empty text.toList behind)
    case h_2 =>
      rw [read]
      show Except.ok _ = _
      rw [named]

/-! Bytes. -/

/-- The two digits that a byte is written as. -/
def hexPair (byte : UInt8) : List Char :=
  [Nat.digitChar (byte.toNat / 16), Nat.digitChar (byte.toNat % 16)]

/-- A written digit is read back and is no delimiter. -/
theorem hexDigit_digitChar {digit : Nat} (small : digit < 16) :
    hexDigit? (Nat.digitChar digit) = some digit ∧ isDelimiter (Nat.digitChar digit) = false := by
  have checked : ∀ digit < 16, hexDigit? (Nat.digitChar digit) = some digit ∧
      isDelimiter (Nat.digitChar digit) = false := by decide
  exact checked digit small

/-- The digits of bytes are read back as two digits for each byte. -/
theorem mapM_hexPair (bytes : List UInt8) :
    (bytes.flatMap hexPair).mapM hexDigit? =
      some (bytes.flatMap fun byte => [byte.toNat / 16, byte.toNat % 16]) := by
  induction bytes with
  | nil => rfl
  | cons byte rest ih =>
    have high : byte.toNat / 16 < 16 := by have := byte.toNat_lt; omega
    have low : byte.toNat % 16 < 16 := Nat.mod_lt _ (by omega)
    simp [hexPair, (hexDigit_digitChar high).1, (hexDigit_digitChar low).1, ih]

/-- There are two digits for each byte. -/
theorem digits_length (bytes : List UInt8) :
    (bytes.flatMap fun byte => [byte.toNat / 16, byte.toNat % 16]).length = 2 * bytes.length := by
  induction bytes with
  | nil => rfl
  | cons byte rest ih =>
    simp only [List.flatMap_cons, List.length_append, List.length_cons, List.length_nil, ih]
    omega

/-- Two digits for each byte make the bytes again. -/
theorem pairUp_digits (bytes : List UInt8) :
    pairUp (bytes.flatMap fun byte => [byte.toNat / 16, byte.toNat % 16]) = bytes := by
  induction bytes with
  | nil => rfl
  | cons byte rest ih =>
    have whole : 16 * (byte.toNat / 16) + byte.toNat % 16 = byte.toNat := Nat.div_add_mod _ 16
    simp [pairUp, whole, ih]

/-- The text of bytes is that of each byte in order. -/
theorem hexText_toList (bytes : List UInt8) : (hexText bytes).toList = bytes.flatMap hexPair := by
  rw [hexText, String.toList_ofList]
  rfl

/-- The digits of bytes are no delimiters. -/
theorem hexText_plain (bytes : List UInt8) :
    ∀ c ∈ (hexText bytes).toList, isDelimiter c = false := by
  intro c member
  rw [hexText_toList] at member
  -- Each byte has a high and a low digit.
  obtain ⟨byte, -, digit⟩ := List.mem_flatMap.mp member
  have high : byte.toNat / 16 < 16 := by have := byte.toNat_lt; omega
  have low : byte.toNat % 16 < 16 := Nat.mod_lt _ (by omega)
  rcases List.mem_cons.mp digit with rfl | digit
  · exact (hexDigit_digitChar high).2
  · rw [List.mem_singleton.mp digit]
    exact (hexDigit_digitChar low).2

/-- Bytes are read back from their digits. -/
theorem reads_hex (bytes : List UInt8) :
    Reads Place.hex (hexText bytes).toList bytes ('>' :: rest) := by
  intro offset
  have closing : ∀ c ∈ ['>'], isDelimiter c = true ∧ c ≠ '\\' := by simp [isDelimiter]
  have read : (Place.mk offset ((hexText bytes).toList ++ '>' :: rest)).text ['>'] =
      .ok (hexText bytes, ⟨offset + (hexText bytes).toList.length, '>' :: rest⟩) := by
    have plain := escape_plain (hexText_plain bytes)
    have escaped : (Place.mk offset (escape (hexText bytes).toList ++ '>' :: rest)).text ['>'] = _ :=
      reads_text (hexText bytes) closing List.mem_cons_self offset
    rwa [plain] at escaped
  have digits := mapM_hexPair bytes
  rw [← hexText_toList] at digits
  -- The digits come in pairs.
  have even : (bytes.flatMap fun byte => [byte.toNat / 16, byte.toNat % 16]).length % 2 = 0 := by
    rw [digits_length]
    omega
  unfold Place.hex
  rw [read, ok_bind]
  dsimp only
  rw [digits]
  simp only [even, if_true, pairUp_digits]

/-! The frame of an element. -/

/-- A character that is expected is passed. -/
theorem expect_cons (offset : Nat) (c : Char) (rest : List Char) :
    (Place.mk offset (c :: rest)).expect c = .ok ⟨offset + 1, rest⟩ := by
  simp [Place.expect, Place.skip]

/-- An element is read back if what stands behind its tag is. -/
theorem reads_element {fuel : Nat} {name : Option String} {tag : String} {content : List Char}
    {value : Value} (three : tag.toList.length = 3)
    (inner : Reads (payload (readElements fuel) tag) content value ('>' :: rest)) :
    Reads (readElement (fuel + 1)) (element name tag content) (name, value) rest := by
  intro offset
  -- The parts of the frame one behind the other.
  have layout : element name tag content ++ rest =
      '<' :: (nameText name ++ ':' :: (tag.toList ++ ':' :: (content ++ '>' :: rest))) := by
    simp [element]
  have length : (element name tag content).length =
      (nameText name).length + content.length + 7 := by
    simp only [element, List.length_append, List.length_cons, List.length_nil, three]
    omega
  have named : Place.name ⟨offset + 1,
      nameText name ++ ':' :: (tag.toList ++ ':' :: (content ++ '>' :: rest))⟩ = _ :=
    reads_name name (offset + 1)
  have tagged : (tag.toList ++ ':' :: (content ++ '>' :: rest)).take 3 = tag.toList := by
    rw [List.take_append_of_le_length (by omega), List.take_of_length_le (by omega)]
  have behindTag : (tag.toList ++ ':' :: (content ++ '>' :: rest)).drop 3 =
      ':' :: (content ++ '>' :: rest) := by
    rw [List.drop_append_of_le_length (by omega), List.drop_of_length_le (by omega), List.nil_append]
  rw [layout, length, readElement]
  simp only [Bind.bind, Except.bind, expect_cons, named, tagged, String.ofList_toList, Place.skip,
    behindTag, inner _]
  show Except.ok _ = _
  congr 3
  omega

end ScriptEngine.Tagged
