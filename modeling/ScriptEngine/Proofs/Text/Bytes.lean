import ScriptEngine.Text.Search

/-! Where a text is found in another one: at the first place where it stands, which is where its bytes
stand first in the bytes of the other one. -/

namespace ScriptEngine.Text

variable {needle text before behind : List Char} {position byte : Nat} {c : Char}

/-- The first place in a list at which another list stands. -/
def FirstAt {α : Type} (needle list : List α) (position : Nat) : Prop :=
  needle <+: list.drop position ∧ ∀ earlier < position, ¬ needle <+: list.drop earlier

/-- A list stands first at one place only. -/
theorem FirstAt.unique {α : Type} {needle list : List α} {position other : Nat}
    (first : FirstAt needle list position) (second : FirstAt needle list other) : position = other := by
  rcases Nat.lt_trichotomy position other with before | same | behind
  · exact absurd first.1 (second.2 position before)
  · exact same
  · exact absurd second.1 (first.2 other behind)

/-- What is empty stands at the start of everything. -/
theorem firstAt_nil_iff {α : Type} {list : List α} {position : Nat} :
    FirstAt [] list position ↔ position = 0 := by
  have start : FirstAt [] list 0 := ⟨List.nil_prefix, nofun⟩
  exact ⟨fun first => first.unique start, fun same => same ▸ start⟩

/-- A list that stands first at some place ends within the other one. -/
theorem FirstAt.fits {α : Type} {needle list : List α} {position : Nat}
    (first : FirstAt needle list position) : position + needle.length ≤ list.length := by
  have length := first.1.length_le
  rw [List.length_drop] at length
  cases needle with
  | nil =>
    -- Nothing stands at the start already, and everything else stands before the end.
    rw [firstAt_nil_iff.mp first]
    exact Nat.zero_le _
  | cons c needle =>
    rw [List.length_cons] at length ⊢
    omega

/-! The search in a text. -/

/-- A text stands at the start of another one, or it stands behind its first character where it stands
behind that. -/
theorem firstAt_cons_iff :
    FirstAt needle (c :: text) position ↔
      if needle <+: c :: text then position = 0
      else ∃ place, FirstAt needle text place ∧ position = place + 1 := by
  split
  case isTrue here =>
    refine ⟨fun first => first.unique ⟨here, nofun⟩, ?_⟩
    rintro rfl
    exact ⟨here, nofun⟩
  -- Away from the front, each place counts one more than in the rest.
  case isFalse away =>
    constructor
    · rintro ⟨stands, none⟩
      cases position with
      | zero => exact absurd stands away
      | succ place => exact ⟨place, ⟨stands, fun earlier less => none (earlier + 1) (by omega)⟩, rfl⟩
    · rintro ⟨place, ⟨stands, none⟩, rfl⟩
      refine ⟨stands, fun earlier less => ?_⟩
      cases earlier with
      | zero => exact away
      | succ earlier => exact none earlier (by omega)

/-- A text is found at the first place where it stands. -/
theorem find?_eq_some_iff : find? needle text = some position ↔ FirstAt needle text position := by
  -- The text is gone through up to the first place.
  induction text generalizing position with
  | nil =>
    unfold find?
    cases needle with
    | nil => simp [firstAt_nil_iff, eq_comm]
    | cons first needle => simp [FirstAt]
  | cons c text ih =>
    rw [firstAt_cons_iff, find?]
    by_cases here : needle <+: c :: text
    · rw [if_pos (List.isPrefixOf_iff_prefix.mpr here), if_pos here, Option.some.injEq, eq_comm]
    · rw [if_neg (mt List.isPrefixOf_iff_prefix.mp here), if_neg here]
      simp only [eq_comm (a := position), ← ih, Option.map_eq_some_iff]

/-- A text is found exactly if it is a part of the other one. -/
theorem occurs_iff : occurs needle text = true ↔ needle <:+: text := by
  unfold occurs
  -- A part of a text is at its start or in what is behind its first character.
  induction text with
  | nil => cases needle <;> simp [find?]
  | cons c text ih =>
    rw [List.infix_cons_iff, ← ih, find?]
    by_cases here : needle <+: c :: text
    · simp [here, List.isPrefixOf_iff_prefix.mpr here]
    · simp [here]

/-! The bytes of a text. -/

/-- The bytes in which a text is encoded. -/
def bytes (text : List Char) : List UInt8 := text.flatMap String.utf8EncodeChar

@[simp]
theorem bytes_nil : bytes [] = [] := rfl

@[simp]
theorem bytes_cons : bytes (c :: text) = String.utf8EncodeChar c ++ bytes text := rfl

@[simp]
theorem bytes_append : bytes (before ++ behind) = bytes before ++ bytes behind :=
  List.flatMap_append

/-- The bytes of a character tell it from all others, whatever is behind them. -/
theorem eq_of_encoded_append {other : Char} {first second : List UInt8}
    (same : String.utf8EncodeChar c ++ first = String.utf8EncodeChar other ++ second) : c = other := by
  have arrays := congrArg (fun list : List UInt8 => list.toByteArray.utf8DecodeChar? 0) same
  simp only [List.toByteArray_append] at arrays
  simpa [ByteArray.utf8DecodeChar?_utf8EncodeChar_append] using arrays

/-- The bytes of a text stand at the start of those of another one exactly if it stands there itself. -/
theorem bytes_prefix_iff : bytes needle <+: bytes text ↔ needle <+: text := by
  constructor
  · intro starts
    -- The encodings of characters are told apart in front of whatever follows.
    induction needle generalizing text with
    | nil => exact List.nil_prefix
    | cons c needle ih =>
      obtain ⟨rest, same⟩ := starts
      cases text with
      | nil =>
        simp at same
      | cons other text =>
        rw [bytes_cons, bytes_cons, List.append_assoc] at same
        obtain rfl := eq_of_encoded_append same
        exact List.prefix_cons_inj c |>.mpr (ih ⟨rest, List.append_cancel_left same⟩)
  · rintro ⟨rest, rfl⟩
    exact ⟨bytes rest, bytes_append.symm⟩

/-- Only the first byte of a character is one with which characters start, so that such a byte tells the
places between characters. -/
theorem boundary_of_firstByte {first : UInt8} {rest : List UInt8}
    (found : (bytes text).drop byte = first :: rest) (starts : first.IsUTF8FirstByte) :
    ∃ before behind, text = before ++ behind ∧ (bytes before).length = byte := by
  induction text generalizing byte with
  | nil => simp at found
  | cons c text ih =>
    rw [bytes_cons] at found
    -- Either the byte is one of the first character, and then its first one, or it is behind that.
    by_cases inside : byte < (String.utf8EncodeChar c).length
    · rw [List.drop_append_of_le_length (Nat.le_of_lt inside), List.drop_eq_getElem_cons inside] at found
      obtain rfl := (List.cons.inj found).1
      exact ⟨[], c :: text, rfl, (UInt8.isUTF8FirstByte_getElem_utf8EncodeChar.mp starts).symm⟩
    · obtain ⟨further, rfl⟩ := Nat.exists_eq_add_of_le (Nat.le_of_not_lt inside)
      rw [List.drop_append, Nat.add_sub_cancel_left, List.drop_of_length_le (Nat.le_add_right _ _),
        List.nil_append] at found
      obtain ⟨before, behind, rfl, length⟩ := ih found
      exact ⟨c :: before, behind, rfl, by rw [bytes_cons, List.length_append, length]⟩

/-- The bytes of a text stand somewhere in those of another one only at a place between its characters, and
only if the text stands there itself. -/
theorem stands_of_bytes (filled : needle ≠ []) (stands : bytes needle <+: (bytes text).drop byte) :
    ∃ before behind, text = before ++ behind ∧ (bytes before).length = byte ∧ needle <+: behind := by
  obtain ⟨c, needle, rfl⟩ := List.exists_cons_of_ne_nil filled
  obtain ⟨first, others, encoded⟩ := List.exists_cons_of_ne_nil (String.utf8EncodeChar_ne_nil (c := c))
  obtain ⟨rest, same⟩ := stands
  -- The first byte of what is sought opens a character, which is why the place is between two of
  -- them.
  have found : (bytes text).drop byte = first :: (others ++ bytes needle ++ rest) := by
    rw [← same, bytes_cons, encoded]
    simp
  have starts : first.IsUTF8FirstByte := by
    have zero := UInt8.isUTF8FirstByte_getElem_zero_utf8EncodeChar (c := c)
    simpa only [encoded, List.getElem_cons_zero] using zero
  obtain ⟨before, behind, rfl, rfl⟩ := boundary_of_firstByte found starts
  refine ⟨before, behind, rfl, rfl, bytes_prefix_iff.mp ⟨rest, ?_⟩⟩
  rwa [bytes_append, List.drop_left] at same

/-- The bytes of a text stand behind those of what is in front of it. -/
theorem stands_behind_iff :
    bytes needle <+: (bytes (before ++ behind)).drop (bytes before).length ↔ needle <+: behind := by
  rw [bytes_append, List.drop_left, bytes_prefix_iff]

/-- Of two starts of a text, the shorter one has fewer bytes. -/
theorem fewer_bytes_iff {front back : List Char} (same : front ++ back = before ++ behind) :
    (bytes front).length < (bytes before).length ↔ front.length < before.length := by
  have filled : ∀ middle : List Char, 0 < (bytes middle).length ↔ 0 < middle.length := by
    intro middle
    cases middle with
    | nil => simp
    | cons c middle =>
      have size := c.utf8Size_pos
      simp only [bytes_cons, List.length_append, String.length_utf8EncodeChar, List.length_cons]
      omega
  -- One of the two starts is the other one with more text behind it.
  rcases List.append_eq_append_iff.mp same with ⟨middle, rfl, _⟩ | ⟨middle, rfl, _⟩
  · simpa using filled middle
  · simp only [bytes_append, List.length_append]
    omega

/-- The bytes of a text stand first at the byte in front of which are the characters up to the first place
where the text stands. -/
theorem firstAt_bytes_iff :
    FirstAt (bytes needle) (bytes text) byte ↔
      ∃ before behind, text = before ++ behind ∧ (bytes before).length = byte ∧
        FirstAt needle text before.length := by
  by_cases empty : needle = []
  · -- The empty text has no byte that could tell places apart, but it stands first at the start.
    subst empty
    rw [bytes_nil, firstAt_nil_iff]
    constructor
    · rintro rfl
      exact ⟨[], text, rfl, rfl, firstAt_nil_iff.mpr rfl⟩
    · rintro ⟨before, behind, _, rfl, first⟩
      rw [List.length_eq_zero_iff.mp (firstAt_nil_iff.mp first)]
      rfl
  constructor
  · rintro ⟨stands, none⟩
    obtain ⟨before, behind, rfl, rfl, here⟩ := stands_of_bytes empty stands
    refine ⟨before, behind, rfl, rfl, by rwa [List.drop_left], fun earlier less stands => ?_⟩
    -- An earlier place of the text would be one of its bytes.
    obtain ⟨front, back, same, rfl⟩ : ∃ front back, front ++ back = before ++ behind ∧
        front.length = earlier :=
      ⟨_, _, List.take_append_drop earlier _, by simp; omega⟩
    refine none _ ((fewer_bytes_iff same).mpr less) ?_
    rw [← same, List.drop_left] at stands
    rw [← same]
    exact stands_behind_iff.mpr stands
  · rintro ⟨before, behind, rfl, rfl, stands, none⟩
    rw [List.drop_left] at stands
    refine ⟨stands_behind_iff.mpr stands, fun earlier less found => ?_⟩
    -- An earlier one of its bytes would be a place of the text.
    obtain ⟨front, back, same, rfl, here⟩ := stands_of_bytes empty found
    refine none _ ((fewer_bytes_iff same.symm).mp less) ?_
    rwa [same, List.drop_left]

/-- A string is stored as the bytes of its characters. -/
theorem bytes_toList (string : String) : bytes string.toList = string.toByteArray.data.toList := by
  have stored := String.toByteArray_ofList (l := string.toList)
  rw [String.ofList_toList] at stored
  rw [stored]
  simp [bytes, List.utf8Encode]

/-- The size of a string in bytes. -/
theorem length_bytes_toList (string : String) : (bytes string.toList).length = string.utf8ByteSize := by
  rw [bytes_toList]
  rfl

end ScriptEngine.Text
