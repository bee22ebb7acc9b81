import ScriptEngine.Proofs.Number.Count
import ScriptEngine.Proofs.Text.Bytes
import ScriptEngine.Value.Builtin

/-! Positions in strings: what the built-in methods of a string say about the place of a part agrees. A
search may go over bytes, while positions and sizes count characters. -/

namespace ScriptEngine

open Text (FirstAt)

variable {text needle : Value} {string part : String} {place : Nat} {start size : Float}

/-- The index of a part in a string, which is −1 if the string does not contain it. -/
def indexIn (string part : String) : Float :=
  ((Text.find? part.toList string.toList).map Float.ofNat).getD (-1)

/-! The methods of a string. -/

namespace Value

/-- A string says of another one whether that is a part of it. -/
theorem contains_eq (isText : text.data = .string string) (isNeedle : needle.data = .string part) :
    text.builtinMethod? "contains" [needle] =
      .ok (some (.ofBool (Text.occurs part.toList string.toList))) := by
  have named : memberName "contains" = "contains" := by decide
  obtain ⟨_, _, _⟩ := text
  obtain ⟨_, _, _⟩ := needle
  cases isText
  cases isNeedle
  unfold builtinMethod?
  rw [named]
  rfl

/-- A string gives the index of another one. -/
theorem indexOf_eq (isText : text.data = .string string) (isNeedle : needle.data = .string part) :
    text.builtinMethod? "indexof" [needle] = .ok (some (.number (indexIn string part))) := by
  have named : memberName "indexof" = "indexof" := by decide
  obtain ⟨_, _, _⟩ := text
  obtain ⟨_, _, _⟩ := needle
  cases isText
  cases isNeedle
  unfold builtinMethod? indexIn
  rw [named]
  -- What is found is turned into a value before the missing index is filled in, here behind that.
  show Except.ok (some (((Text.find? part.toList string.toList).map ofNat).getD (number (-1)))) = _
  cases Text.find? part.toList string.toList <;> rfl

/-- A string gives the characters behind a position, as many as it is asked for. -/
theorem substring_eq (isText : text.data = .string string) :
    text.builtinMethod? "substring" [.number start, .number size] =
      .ok (some (.string (String.ofList
        ((string.toList.drop (truncated start)).take (truncated size))))) := by
  have named : memberName "substring" = "substring" := by decide
  obtain ⟨_, _, _⟩ := text
  cases isText
  unfold builtinMethod?
  rw [named]
  rfl

/-- The size of a string is the number of its characters. -/
theorem size_eq (isNeedle : needle.data = .string part) :
    needle.builtinProperty? "size" = some (.ofNat part.length) := by
  have named : memberName "size" = "size" := by decide
  obtain ⟨_, _, _⟩ := needle
  cases isNeedle
  unfold builtinProperty?
  rw [named]
  rfl

end Value

/-! The index of a part and what stands there. -/

/-- The index of a part counts the characters in front of the first place where it stands. -/
theorem indexIn_eq (first : FirstAt part.toList string.toList place) :
    indexIn string part = Float.ofNat place := by
  rw [indexIn, Text.find?_eq_some_iff.mpr first]
  rfl

/-- Only what a string does not contain has the index −1. -/
theorem indexIn_eq_minus_one_iff :
    indexIn string part = -1 ↔ Text.occurs part.toList string.toList = false := by
  rw [indexIn, Text.occurs]
  cases Text.find? part.toList string.toList with
  | none => simp
  | some place =>
    -- No place is counted by a negative number.
    simp [Number.ofNat_ne_minus_one]

/-- The index of a part counts the characters in front of the byte at which its bytes stand first. -/
theorem indexIn_of_bytes {byte : Nat}
    (first : FirstAt part.toByteArray.data.toList string.toByteArray.data.toList byte) :
    ∃ before behind : String, string = before ++ behind ∧ before.utf8ByteSize = byte ∧
      indexIn string part = Float.ofNat before.length := by
  rw [← Text.bytes_toList, ← Text.bytes_toList] at first
  obtain ⟨before, behind, split, size, stands⟩ := Text.firstAt_bytes_iff.mp first
  refine ⟨String.ofList before, String.ofList behind, ?_, ?_, ?_⟩
  · rw [← String.ofList_append, ← split, String.ofList_toList]
  · rw [← Text.length_bytes_toList, String.toList_ofList, size]
  · rw [indexIn_eq stands, String.length_ofList]

/-- What a string gives at the place of a part, of the size of that part, is the part. -/
theorem substring_found (first : FirstAt part.toList string.toList place) :
    String.ofList ((string.toList.drop place).take part.length) = part := by
  rw [← String.length_toList, ← List.prefix_iff_eq_take.mp first.1, String.ofList_toList]

/-- What a string gives at an earlier place is something else, however much it is. -/
theorem substring_earlier {earlier size : Nat} (first : FirstAt part.toList string.toList place)
    (less : earlier < place) : String.ofList ((string.toList.drop earlier).take size) ≠ part := by
  intro same
  -- Were it the part, the part would stand at this place already.
  refine first.2 earlier less ?_
  rw [← same, String.toList_ofList]
  exact List.take_prefix _ _

/-- The answers of a string about another one, the needle, agree. It contains the needle if that is a part of
it, and the index of the needle is −1 exactly if it does not. Otherwise the index counts the characters in
front of the byte at which the bytes of the needle stand first; as many characters from the index on as the
needle has are the needle, and as many from any number between zero and the index on are not. The last two
hold of strings of at most 2 ^ 53 characters, up to which doubles tell counts apart: longer ones fit in no
memory. -/
theorem string_positions_agree (isText : text.data = .string string)
    (isNeedle : needle.data = .string part) :
    ∃ found position size,
      text.builtinMethod? "contains" [needle] = .ok (some (.ofBool found)) ∧
      text.builtinMethod? "indexof" [needle] = .ok (some (.number position)) ∧
      needle.builtinProperty? "size" = some (.number size) ∧
      (found = true ↔ part.toList <:+: string.toList) ∧
      (position = -1 ↔ found = false) ∧
      (∀ byte, FirstAt part.toByteArray.data.toList string.toByteArray.data.toList byte →
        ∃ before behind : String, string = before ++ behind ∧ before.utf8ByteSize = byte ∧
          position = Float.ofNat before.length) ∧
      (found = true → string.length ≤ 2 ^ 53 →
        text.builtinMethod? "substring" [.number position, .number size] =
          .ok (some (.string part)) ∧
        ∀ start : Float, 0 ≤ start → start < position →
          ∃ other, other ≠ part ∧
            text.builtinMethod? "substring" [.number start, .number size] =
              .ok (some (.string other))) := by
  refine ⟨_, _, _, Value.contains_eq isText isNeedle, Value.indexOf_eq isText isNeedle,
    Value.size_eq isNeedle, Text.occurs_iff, indexIn_eq_minus_one_iff, fun _ => indexIn_of_bytes,
    fun found small => ?_⟩
  obtain ⟨place, found⟩ := Option.isSome_iff_exists.mp found
  have first := Text.find?_eq_some_iff.mp found
  -- The place and the size of the part are both within the string, so doubles keep them.
  have fits := first.fits
  rw [String.length_toList, String.length_toList] at fits
  have placeKept : Value.truncated (Float.ofNat place) = place :=
    Number.truncated_ofNat (by omega)
  have sizeKept : Value.truncated (Float.ofNat part.length) = part.length :=
    Number.truncated_ofNat (by omega)
  rw [indexIn_eq first]
  constructor
  · rw [Value.substring_eq isText, placeKept, sizeKept, substring_found first]
  · intro start nonnegative less
    have earlier : Value.truncated start < place :=
      Number.truncated_lt_of_nonneg (by omega) nonnegative less
    exact ⟨_, substring_earlier first earlier, Value.substring_eq isText⟩

/-- The part stands behind the start of another one, among characters of one to four bytes. -/
theorem string_positions_agree_multibyte :
    (Value.string "zä€ä€𝄞é").builtinMethod? "contains" [.string "ä€𝄞"] = .ok (some (.ofBool true)) ∧
    (Value.string "zä€ä€𝄞é").builtinMethod? "indexof" [.string "ä€𝄞"] = .ok (some (.number 3)) ∧
    (Value.string "ä€𝄞").builtinProperty? "size" = some (.number 3) ∧
    (Value.string "zä€ä€𝄞é").builtinMethod? "substring" [.number 3, .number 3] =
      .ok (some (.string "ä€𝄞")) ∧
    ∃ other, other ≠ "ä€𝄞" ∧
      (Value.string "zä€ä€𝄞é").builtinMethod? "substring" [.number 1, .number 3] =
        .ok (some (.string other)) := by
  have isText : (Value.string "zä€ä€𝄞é").data = .string "zä€ä€𝄞é" := rfl
  have isNeedle : (Value.string "ä€𝄞").data = .string "ä€𝄞" := rfl
  have index : (Value.string "zä€ä€𝄞é").builtinMethod? "indexof" [.string "ä€𝄞"] =
      .ok (some (.number 3)) := by
    rw [Value.indexOf_eq isText isNeedle]
    rfl
  have length : (Value.string "ä€𝄞").builtinProperty? "size" = some (.number 3) := by
    rw [Value.size_eq isNeedle]
    rfl
  -- The theorem ties these answers to the characters of both texts.
  obtain ⟨found, position, size, contains, isIndex, isSize, occurs, -, -, parts⟩ :=
    string_positions_agree isText isNeedle
  obtain rfl : found = true := occurs.mpr ⟨['z', 'ä', '€'], ['é'], by decide⟩
  rw [index] at isIndex
  rw [length] at isSize
  cases isIndex
  cases isSize
  obtain ⟨there, earlier⟩ := parts rfl (by decide)
  exact ⟨contains, index, length, there, earlier 1 (by decide) (by decide)⟩

end ScriptEngine
