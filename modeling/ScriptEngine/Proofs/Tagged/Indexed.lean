import ScriptEngine.Tagged.Reader
import ScriptEngine.Proofs.Tagged.Reading

/-! Reading tagged text by positions: no position at which it is read lies out of range. -/

namespace ScriptEngine.Tagged

/-- What reading at positions yields. There is nothing where an access is out of range, or where
reading does not come to an end. -/
abbrev Access (α : Type) := ExceptT (Nat × TaggedFault) Option α

namespace Access

variable {α : Type}

/-- Stops at a position with a fault. -/
def refuse (position : Nat) (fault : TaggedFault) : Access α := throw (position, fault)

/-- An access that is out of range. -/
def outOfRange : Access α := ExceptT.mk none

/-- Takes what an access finds, which must be in range. -/
def require : Option α → Access α
  | some found => return found
  | none => outOfRange

end Access

/-- A part of a text, which must lie within it. -/
def slice? (text : List Char) (start stop : Nat) : Option (List Char) :=
  if start ≤ stop ∧ stop ≤ text.length then some ((text.drop start).take (stop - start)) else none

/-- The byte that a pair of hexadecimal digits stands for. -/
def hexByte? : List Char → Option UInt8
  | [high, low] => do return UInt8.ofNat (16 * (← hexDigit? high) + (← hexDigit? low))
  | _ => none

/-- Reads `count` bytes from the pairs of digits at a position on; `place` is where they are
refused. -/
def bytesAt (text : List Char) (place : Nat) : Nat → Nat → Access (List UInt8)
  | _, 0 => return []
  | position, count + 1 => do
    let pair ← .require (slice? text position (position + 2))
    match hexByte? pair with
    | none => .refuse place (.badHex (String.ofList text))
    | some byte => return byte :: (← bytesAt text place (position + 2) count)

section

variable (chars : List Char)

/-- Passes the character `wanted`. -/
def expectAt (wanted : Char) (position : Nat) : Access Nat :=
  if chars[position]? = some wanted then return position + 1
  else .refuse position (.expected wanted)

/-- Reads text up to one of `stops` that is not escaped; `fuel` bounds its length. -/
def textAt (stops : List Char) : Nat → Nat → Access (List Char × Nat)
  | 0, _ => .outOfRange
  | fuel + 1, position =>
    match chars[position]? with
    | none => .refuse position .unterminatedElement
    | some c =>
      if c = '\\' then
        match chars[position + 1]? with
        | none => .refuse position .danglingEscape
        | some escaped => do
          let (text, behind) ← textAt stops fuel (position + 2)
          return (escaped :: text, behind)
      else if stops.contains c then return ([], position)
      else do
        let (text, behind) ← textAt stops fuel (position + 1)
        return (c :: text, behind)

/-- Reads text up to one of `stops`. -/
def wordAt (stops : List Char) (position : Nat) : Access (String × Nat) := do
  let (text, behind) ← textAt chars stops (chars.length + 1) position
  return (String.ofList text, behind)

/-- Reads bytes written as pairs of hexadecimal digits. -/
def hexAt (position : Nat) : Access (List UInt8 × Nat) := do
  let (text, behind) ← wordAt chars ['>'] position
  if !text.toList.all fun c => (hexDigit? c).isSome then .refuse behind (.badHex text)
  else if text.toList.length % 2 ≠ 0 then .refuse behind .oddHex
  else return (← bytesAt text.toList behind 0 (text.toList.length / 2), behind)

/-- Reads the name of an element; an empty one is no name. -/
def nameAt (position : Nat) : Access (Option String × Nat) := do
  let rest ← .require (slice? chars position chars.length)
  if ['\\', '0', ':'].isPrefixOf rest then return (some "", position + 2)
  else
    let (name, behind) ← wordAt chars [':'] position
    return (if name.isEmpty then none else some name, behind)

/-- Reads the payload behind a tag; `children` reads the elements at a position. -/
def payloadAt (children : Nat → Access (Elements × Nat)) (tag : String) (position : Nat) :
    Access (Value × Nat) :=
  match tag with
  | "NUM" => do
    let (text, behind) ← wordAt chars ['>'] position
    match Number.parse? text.toList with
    | some number => return (.number number, behind)
    | none => .refuse behind (.badNumber text)
  | "STR" => do
    let (text, behind) ← wordAt chars ['>'] position
    return (.string text, behind)
  | "BYT" => do
    let (bytes, behind) ← hexAt chars position
    return (.ofData (.bytes bytes), behind)
  | "DAT" => do
    let (text, behind) ← wordAt chars ['>'] position
    match DateTime.parse? text.toList with
    | some moment => return (.ofData (.dateTime moment), behind)
    | none => .refuse behind (.badDate text)
  | "ARR" => do
    let (elements, behind) ← children position
    return (.array (elements.map (·.2)), behind)
  | "MAP" => do
    let (elements, behind) ← children position
    return (.collection (mapOf elements), behind)
  | "ENU" => do
    let (name, entries) ← wordAt chars ['<', '>'] position
    let (elements, behind) ← children entries
    return (.ofData (.enumeration (enumerationOf name elements)), behind)
  | "OBJ" => do
    let (typeTag, fields) ← wordAt chars ['<', '>'] position
    let (elements, behind) ← children fields
    return (.collection (objectOf typeTag elements), behind)
  | "NON" => return (.null, position)
  | tag => .refuse position (.unknownTag tag)

mutual

/-- Reads one element with its name; `fuel` bounds the characters it may take. -/
def elementAt : Nat → Nat → Access ((Option String × Value) × Nat)
  | 0, _ => .outOfRange
  | fuel + 1, position => do
    let named ← expectAt chars '<' position
    let (name, separated) ← nameAt chars named
    let tagged ← expectAt chars ':' separated
    let tag := String.ofList ((chars.drop tagged).take 3)
    let content ← expectAt chars ':' (tagged + 3)
    let (value, finished) ← payloadAt chars (elementsAt fuel) tag content
    let behind ← expectAt chars '>' finished
    return ((name, value), behind)

/-- Reads elements as long as they follow each other. -/
def elementsAt : Nat → Nat → Access (Elements × Nat)
  | 0, _ => .outOfRange
  | fuel + 1, position =>
    if chars[position]? = some '<' then do
      let (first, next) ← elementAt fuel position
      let (others, behind) ← elementsAt fuel next
      return (first :: others, behind)
    else return ([], position)

end

/-- Reads the one element that a text without its surrounding blanks consists of, and tells how far
it was read. -/
def wholeAt : Access (Value × Nat) := do
  let ((_, value), behind) ← elementAt chars (chars.length + 1) 0
  if behind < chars.length then .refuse behind .trailingText else return (value, behind)

end

/-! Reading by positions agrees with reading by what is left. -/

section

variable {chars : List Char} {α β : Type}

/-- The place at a position of a text. -/
def placeAt (chars : List Char) (position : Nat) : Place := ⟨position, chars.drop position⟩

/-- Reading at a position has a result, which is that of reading what is left: it goes on within the
text, and not in front of `first`. -/
def Agrees (chars : List Char) (first : Nat) (access : Access (α × Nat)) (step : Step (α × Place)) :
    Prop :=
  match step with
  | .error refused => access = some (.error refused)
  | .ok (result, place) => access = some (.ok (result, place.offset)) ∧
      place = placeAt chars place.offset ∧ first ≤ place.offset ∧ place.offset ≤ chars.length

/-- What goes on where agreeing readings stop agrees if it does from any position on. -/
theorem Agrees.bind {first : Nat} {access : Access (α × Nat)} {step : Step (α × Place)}
    {next : α × Nat → Access (β × Nat)} {later : α × Place → Step (β × Place)}
    (agrees : Agrees chars first access step)
    (onward : ∀ result position, first ≤ position → position ≤ chars.length →
      Agrees chars first (next (result, position)) (later (result, placeAt chars position))) :
    Agrees chars first (access >>= next) (step >>= later) := by
  cases step with
  | error refused =>
    have failed : access = some (.error refused) := agrees
    rw [failed]
    rfl
  | ok found =>
    obtain ⟨result, place⟩ := found
    -- Both go on from the position where they stopped.
    obtain ⟨read, same, after, within⟩ := agrees
    have goes := onward result place.offset after within
    rw [← same] at goes
    rw [read]
    exact goes

/-- Readings that stop at the same position with the same result agree. -/
theorem agrees_return {first position : Nat} (result : α) (after : first ≤ position)
    (within : position ≤ chars.length) :
    Agrees chars first (return (result, position)) (.ok (result, placeAt chars position)) :=
  ⟨rfl, rfl, after, within⟩

/-- Agreement from a later position on is agreement from an earlier one on. -/
theorem Agrees.weaken {first later : Nat} {access : Access (α × Nat)} {step : Step (α × Place)}
    (agrees : Agrees chars later access step) (before : first ≤ later) :
    Agrees chars first access step := by
  cases step with
  | error refused => exact agrees
  | ok found =>
    obtain ⟨read, same, after, within⟩ := agrees
    exact ⟨read, same, Nat.le_trans before after, within⟩

/-- What stands at a position is what is left there. -/
theorem head_placeAt (position : Nat) : (placeAt chars position).rest.head? = chars[position]? := by
  rw [placeAt, List.head?_drop]

/-- A character that is expected is passed, or refused at the same position. -/
theorem expectAt_eq (wanted : Char) (position : Nat) :
    (expectAt chars wanted position = some (.error (position, .expected wanted)) ∧
      (placeAt chars position).expect wanted = .error (position, .expected wanted)) ∨
    (expectAt chars wanted position = some (.ok (position + 1)) ∧
      (placeAt chars position).expect wanted = .ok (placeAt chars (position + 1)) ∧
      position < chars.length) := by
  unfold expectAt Place.expect
  rw [head_placeAt]
  -- The character is looked at by its position and by the head of what is left.
  by_cases present : chars[position]? = some wanted
  · rw [if_pos present, if_pos present]
    refine .inr ⟨rfl, ?_, ?_⟩
    · simp [Place.skip, placeAt, List.drop_drop]
    · exact (List.getElem?_eq_some_iff.mp present).1
  · rw [if_neg present, if_neg present]
    exact .inl ⟨rfl, rfl⟩

/-- What follows an expected character agrees if it does behind the character. -/
theorem Agrees.expect {first position : Nat} {wanted : Char} {next : Nat → Access (β × Nat)}
    {later : Place → Step (β × Place)}
    (onward : position < chars.length →
      Agrees chars first (next (position + 1)) (later (placeAt chars (position + 1)))) :
    Agrees chars first (expectAt chars wanted position >>= next)
      ((placeAt chars position).expect wanted >>= later) := by
  rcases @expectAt_eq chars wanted position with ⟨access, step⟩ | ⟨access, step, within⟩
  · rw [access, step]
    rfl
  · rw [access, step]
    exact onward within

/-- Nothing is left at the end of a text. -/
theorem drop_of_getElem?_none {position : Nat} (ended : chars[position]? = none) :
    chars.drop position = [] :=
  List.drop_eq_nil_of_le (List.getElem?_eq_none_iff.mp ended)

/-- What is left at a position is the character there and what is left behind it. -/
theorem drop_of_getElem?_some {position : Nat} {c : Char} (here : chars[position]? = some c) :
    position < chars.length ∧ chars.drop position = c :: chars.drop (position + 1) := by
  obtain ⟨within, same⟩ := List.getElem?_eq_some_iff.mp here
  exact ⟨within, by rw [List.drop_eq_getElem_cons within, same]⟩

/-- Text is read by positions as it is by what is left. -/
theorem agrees_textAt (stops : List Char) {fuel position : Nat} (within : position ≤ chars.length)
    (enough : chars.length - position < fuel) :
    Agrees chars position (textAt chars stops fuel position)
      (textFrom stops position (chars.drop position)) := by
  -- The induction is on the fuel, of which each character takes some.
  induction fuel generalizing position with
  | zero => omega
  | succ fuel ih =>
    rw [textAt]
    cases here : chars[position]? with
    | none =>
      rw [drop_of_getElem?_none here]
      rfl
    | some c =>
      obtain ⟨inside, left⟩ := drop_of_getElem?_some here
      rw [left]
      dsimp only
      by_cases escape : c = '\\'
      · subst escape
        rw [if_pos rfl]
        cases next : chars[position + 1]? with
        | none =>
          rw [drop_of_getElem?_none next]
          rfl
        | some escaped =>
          obtain ⟨nextInside, nextLeft⟩ := drop_of_getElem?_some next
          rw [nextLeft]
          -- The escaped character is passed without a look at what it is.
          refine Agrees.bind ((ih (by omega) (by omega)).weaken (by omega)) ?_
          intro text behind after within
          exact agrees_return _ after within
      · rw [if_neg escape, textFrom_plain escape]
        by_cases stop : stops.contains c = true
        · rw [if_pos stop, if_pos stop, ← left]
          exact agrees_return _ (Nat.le_refl _) within
        · rw [if_neg stop, if_neg stop]
          refine Agrees.bind ((ih (by omega) (by omega)).weaken (by omega)) ?_
          intro text behind after within
          exact agrees_return _ after within

/-- A word is read by positions as it is by what is left. -/
theorem agrees_wordAt (stops : List Char) {position : Nat} (within : position ≤ chars.length) :
    Agrees chars position (wordAt chars stops position) ((placeAt chars position).text stops) := by
  refine Agrees.bind (agrees_textAt stops within (by omega)) ?_
  intro text behind after within
  exact agrees_return _ after within

/-- A name is read by positions as it is by what is left. -/
theorem agrees_nameAt {position : Nat} (within : position ≤ chars.length) :
    Agrees chars position (nameAt chars position) (placeAt chars position).name := by
  -- The slice is all that is left, which is in range since the position is.
  have slice : slice? chars position chars.length = some (chars.drop position) := by
    have all : (chars.drop position).take (chars.length - position) = chars.drop position :=
      List.take_of_length_le (Nat.le_of_eq List.length_drop)
    rw [slice?, if_pos ⟨within, Nat.le_refl _⟩, all]
  unfold nameAt
  rw [slice]
  show Agrees chars position
    (if ['\\', '0', ':'].isPrefixOf (chars.drop position) = true then _ else _) _
  by_cases marked : ['\\', '0', ':'].isPrefixOf (chars.drop position) = true
  · -- The mark of the empty key is passed up to its colon.
    obtain ⟨rest, left⟩ := List.isPrefixOf_iff_prefix.mp marked
    have length := congrArg List.length left
    simp only [List.length_append, List.length_cons, List.length_nil, List.length_drop] at length
    have step : (placeAt chars position).name = .ok (some "", placeAt chars (position + 2)) := by
      unfold Place.name placeAt
      rw [← left]
      simp [Place.skip, ← List.drop_drop, ← left]
    rw [if_pos marked, step]
    exact agrees_return _ (by omega) (by omega)
  · rw [if_neg marked]
    unfold Place.name
    split
    case h_1 rest same =>
      have left : chars.drop position = ['\\', '0', ':'] ++ rest := same
      rw [left] at marked
      exact absurd (List.isPrefixOf_iff_prefix.mpr ⟨rest, rfl⟩) marked
    case h_2 =>
      refine Agrees.bind (agrees_wordAt [':'] within) ?_
      intro name behind after within
      exact agrees_return _ after within

/-- A text of digits alone has a value for each character. -/
theorem mapM_hexDigit_all {text : List Char} (digital : ∀ c ∈ text, (hexDigit? c).isSome = true) :
    ∃ digits, text.mapM hexDigit? = some digits ∧ digits.length = text.length := by
  induction text with
  | nil => exact ⟨[], rfl, rfl⟩
  | cons c rest ih =>
    obtain ⟨digit, first⟩ := Option.isSome_iff_exists.mp (digital c List.mem_cons_self)
    obtain ⟨digits, read, length⟩ := ih fun other member => digital other (List.mem_cons_of_mem _ member)
    exact ⟨digit :: digits, by simp [first, read], by simp [length]⟩

/-- A text with another character than a digit has no values. -/
theorem mapM_hexDigit_none {text : List Char} {c : Char} (member : c ∈ text)
    (other : hexDigit? c = none) : text.mapM hexDigit? = none := by
  induction text with
  | nil => cases member
  | cons first rest ih =>
    rcases List.mem_cons.mp member with rfl | later
    · simp [other]
    · simp [ih later]

/-- The digits of a text are read in pairs. -/
theorem bytesAt_eq (text : List Char) {digits : List Nat} (count : Nat) (place position : Nat)
    (read : (text.drop position).mapM hexDigit? = some digits) (pairs : digits.length = 2 * count) :
    bytesAt text place position count = some (.ok (pairUp digits)) := by
  -- The induction is on the number of pairs, each of which lies within the text.
  induction count generalizing position digits with
  | zero =>
    rw [List.eq_nil_of_length_eq_zero pairs]
    rfl
  | succ count ih =>
    cases left : text.drop position with
    | nil =>
      rw [left] at read
      cases read
      simp at pairs
    | cons high others =>
      -- A digit without a pair is against the count.
      cases others with
      | nil =>
        rw [left] at read
        cases first : hexDigit? high <;> simp [first] at read
        subst read
        simp at pairs
        omega
      | cons low rest =>
        have length := congrArg List.length left
        simp only [List.length_drop, List.length_cons] at length
        have behind : text.drop (position + 2) = rest := by
          rw [← List.drop_drop, left]
          rfl
        rw [left, List.mapM_cons, List.mapM_cons] at read
        obtain ⟨highValue, first, read⟩ := Option.bind_eq_some_iff.mp read
        obtain ⟨lowRead, lower, read⟩ := Option.bind_eq_some_iff.mp read
        obtain ⟨lowValue, second, lower⟩ := Option.bind_eq_some_iff.mp lower
        obtain ⟨more, readMore, lower⟩ := Option.bind_eq_some_iff.mp lower
        cases lower
        cases read
        have slice : slice? text position (position + 2) = some [high, low] := by
          rw [slice?, if_pos ⟨by omega, by omega⟩, left, Nat.add_sub_cancel_left]
          rfl
        have byte : hexByte? [high, low] = some (UInt8.ofNat (16 * highValue + lowValue)) := by
          simp [hexByte?, first, second]
        have later := ih (position + 2) (by rw [behind]; exact readMore)
          (by simp only [List.length_cons] at pairs; omega)
        rw [bytesAt, slice]
        simp only [Access.require, pure_bind, byte, later]
        rfl

/-- Bytes are read by positions as they are by what is left. -/
theorem agrees_hexAt {position : Nat} (within : position ≤ chars.length) :
    Agrees chars position (hexAt chars position) (placeAt chars position).hex := by
  refine Agrees.bind (agrees_wordAt ['>'] within) ?_
  intro text behind after within
  dsimp only
  -- One refusal is for other characters than digits, the other one for a digit without a pair.
  by_cases digital : ∀ c ∈ text.toList, (hexDigit? c).isSome = true
  · obtain ⟨digits, read, length⟩ := mapM_hexDigit_all digital
    have all : (text.toList.all fun c => (hexDigit? c).isSome) = true := List.all_eq_true.mpr digital
    simp only [read, all, Bool.not_true, Bool.false_eq_true, if_false, length]
    by_cases even : text.toList.length % 2 = 0
    · have bytes := bytesAt_eq text.toList (text.toList.length / 2) behind 0 read (by omega)
      rw [if_pos even, if_neg (by omega), bytes]
      exact agrees_return _ after within
    · rw [if_neg even, if_pos even]
      rfl
  · obtain ⟨c, member, other⟩ : ∃ c ∈ text.toList, hexDigit? c = none := by
      simpa using digital
    have none := mapM_hexDigit_none member other
    have all : (text.toList.all fun c => (hexDigit? c).isSome) = false := by
      rw [List.all_eq_false]
      exact ⟨c, member, by simp [other]⟩
    simp only [none, all, Bool.not_false, if_true]
    rfl

/-- A payload is read by positions as it is by what is left, if the elements in it are. -/
theorem agrees_payloadAt (childrenAt : Nat → Access (Elements × Nat))
    (children : Place → Step (Elements × Place)) (tag : String) {position : Nat}
    (within : position ≤ chars.length)
    (agrees : ∀ other, position ≤ other → other ≤ chars.length →
      Agrees chars other (childrenAt other) (children (placeAt chars other))) :
    Agrees chars position (payloadAt chars childrenAt tag position)
      (payload children tag (placeAt chars position)) := by
  have nested := agrees position (Nat.le_refl _) within
  unfold payloadAt payload
  -- Each tag has its own payload; that of a container starts with elements or comes in front of
  -- them.
  split
  case h_1 =>
    refine Agrees.bind (agrees_wordAt _ within) fun text behind after within => ?_
    dsimp only
    cases Number.parse? text.toList with
    | some number => exact agrees_return _ after within
    | none => rfl
  case h_2 =>
    refine Agrees.bind (agrees_wordAt _ within) fun text behind after within => ?_
    exact agrees_return _ after within
  case h_3 =>
    refine Agrees.bind (agrees_hexAt within) fun text behind after within => ?_
    exact agrees_return _ after within
  case h_4 =>
    refine Agrees.bind (agrees_wordAt _ within) fun text behind after within => ?_
    dsimp only
    cases DateTime.parse? text.toList with
    | some moment => exact agrees_return _ after within
    | none => rfl
  case h_5 | h_6 =>
    refine Agrees.bind nested fun elements behind after within => ?_
    exact agrees_return _ after within
  case h_7 | h_8 =>
    refine Agrees.bind (agrees_wordAt _ within) fun text behind after within => ?_
    refine Agrees.bind ((agrees behind after within).weaken after) fun elements last after within => ?_
    exact agrees_return _ after within
  case h_9 => exact agrees_return _ (Nat.le_refl _) within
  case h_10 =>
    -- Both refuse a tag that is none of the known ones.
    repeat' split
    all_goals first | contradiction | rfl

/-- Elements are read by positions as they are by what is left, one at a time or several, if there is
fuel for all that is left. An element takes at least its bracket. -/
theorem agrees_elementAt (fuel : Nat) :
    (∀ position, position ≤ chars.length → chars.length - position < fuel →
      Agrees chars (position + 1) (elementAt chars fuel position)
        (readElement fuel (placeAt chars position))) ∧
    (∀ position, position ≤ chars.length → chars.length - position + 1 < fuel →
      Agrees chars position (elementsAt chars fuel position)
        (readElements fuel (placeAt chars position))) := by
  -- The induction is on the fuel: an element holds elements that are read with less.
  induction fuel with
  | zero => exact ⟨fun _ _ enough => absurd enough (Nat.not_lt_zero _),
      fun _ _ enough => absurd enough (Nat.not_lt_zero _)⟩
  | succ fuel ih =>
    refine ⟨fun position within enough => ?_, fun position within enough => ?_⟩
    · rw [elementAt, readElement]
      refine Agrees.expect fun opened => ?_
      refine Agrees.bind (agrees_nameAt (by omega)) fun name separated after within => ?_
      refine Agrees.expect fun named => ?_
      -- The tag is looked at before it is known to be followed by anything.
      have passed : (placeAt chars (separated + 1)).skip 3 = placeAt chars (separated + 1 + 3) := by
        simp [Place.skip, placeAt, List.drop_drop]
      dsimp only
      rw [passed]
      refine Agrees.expect fun tagged => ?_
      have nested := agrees_payloadAt (elementsAt chars fuel) (readElements fuel)
        (String.ofList ((chars.drop (separated + 1)).take 3))
        (show separated + 1 + 3 + 1 ≤ chars.length by omega)
        fun other before within => ih.2 other within (by omega)
      refine Agrees.bind (nested.weaken (by omega)) fun value finished after within => ?_
      refine Agrees.expect fun closed => ?_
      exact agrees_return _ (by omega) (by omega)
    · rw [elementsAt, readElements, head_placeAt]
      by_cases opens : chars[position]? = some '<'
      · rw [if_pos opens, if_pos opens]
        refine Agrees.weaken ?_ (Nat.le_succ position)
        refine Agrees.bind (ih.1 position within (by omega)) fun first next after within => ?_
        have others := ih.2 next within (by omega)
        refine Agrees.bind (others.weaken after) fun rest behind after within => ?_
        exact agrees_return _ after within
      · rw [if_neg opens, if_neg opens]
        exact agrees_return _ (Nat.le_refl _) within

end

/-- A text is read by positions as it is by what is left, and to its end if it denotes a value. -/
theorem wholeAt_eq (text : List Char) :
    wholeAt text = some ((readWhole text).map fun value => (value, text.length)) := by
  have agrees := (@agrees_elementAt text (text.length + 1)).1 0 (Nat.zero_le _) (by omega)
  unfold wholeAt readWhole
  have start : placeAt text 0 = ⟨0, text⟩ := rfl
  rw [start] at agrees
  cases element : readElement (text.length + 1) ⟨0, text⟩ with
  | error refused =>
    rw [element] at agrees
    have failed : elementAt text (text.length + 1) 0 = some (.error refused) := agrees
    rw [failed]
    rfl
  | ok found =>
    rw [element] at agrees
    obtain ⟨⟨name, value⟩, behind⟩ := found
    obtain ⟨read, same, _, within⟩ := agrees
    rw [read]
    show (if behind.offset < text.length then Access.refuse behind.offset .trailingText
      else return (value, behind.offset) : Access (Value × Nat)) = some (Except.map _
        (if behind.rest.isEmpty then .ok value else .error (behind.offset, .trailingText)))
    -- What is left is empty where the position is the end of the text.
    have ended : behind.rest.isEmpty = true ↔ ¬ behind.offset < text.length := by
      have left : behind.rest = text.drop behind.offset := congrArg Place.rest same
      rw [left, List.isEmpty_iff, List.drop_eq_nil_iff]
      omega
    by_cases trailing : behind.offset < text.length
    · rw [if_pos trailing, if_neg fun empty => ended.mp empty trailing]
      rfl
    · have atEnd : behind.offset = text.length := by omega
      rw [if_neg trailing, if_pos (ended.mpr trailing), atEnd]
      rfl

end ScriptEngine.Tagged
