import ScriptEngine.Eval.Place
import ScriptEngine.Tagged.Reader
import ScriptEngine.Value.Builtin

/-! Values without control signals inside, and the operations that lead from such values to such. -/

namespace ScriptEngine

/-- Neither a value nor anything that it holds is a control signal. -/
inductive Value.Clean : Value → Prop
  | intro {value : Value} (plain : value.isSignal = false)
      (items : ∀ collection, value.data = .collection collection →
        ∀ item ∈ collection.items, Clean item)
      (fields : ∀ entry ∈ value.fields.entries, Clean entry.2) : Clean value

/-- A value that phrases may yield: one without signals, or a signal with no other signal inside than
those that a return carries. -/
inductive Value.Sound : Value → Prop
  | clean {value : Value} (clean : value.Clean) : Sound value
  | breakSignal : Sound .breakSignal
  | continueSignal : Sound .continueSignal
  | quitSignal (code : Int) : Sound (.quitSignal code)
  | returnSignal {value : Value} (sound : Sound value) : Sound (.returnSignal value)

/-- All elements of a collection are without signals. -/
def Collection.Clean (collection : Collection Value) : Prop :=
  ∀ item ∈ collection.items, item.Clean

namespace OrderedMap

variable {α : Type}

/-- An entry behind an insertion is the new one or was there before. -/
theorem mem_insert {bindings : OrderedMap α} {name : String} {value : α} {entry : String × α}
    (member : entry ∈ (bindings.insert name value).entries) :
    entry = (name, value) ∨ entry ∈ bindings.entries := by
  -- The induction follows the search for the old place.
  obtain ⟨entries⟩ := bindings
  simp only [insert] at member ⊢
  induction entries with
  | nil => simpa [insertEntry] using member
  | cons first rest ih =>
    obtain ⟨other, old⟩ := first
    by_cases same : other = name
    · simp only [insertEntry, same, if_true, List.mem_cons] at member
      rcases member with here | later
      · exact .inl here
      · exact .inr (List.mem_cons_of_mem _ later)
    · simp only [insertEntry, same, if_false, List.mem_cons] at member
      rcases member with here | later
      · exact .inr (by simp [here])
      · exact (ih later).imp_right (List.mem_cons_of_mem _)

/-- A bound value stands in an entry. -/
theorem mem_of_get? {bindings : OrderedMap α} {name : String} {value : α}
    (found : bindings.get? name = some value) : (name, value) ∈ bindings.entries := by
  obtain ⟨entries⟩ := bindings
  simp only [get?] at found ⊢
  -- The entries are gone through up to the first one with the name.
  induction entries with
  | nil => simp at found
  | cons first rest ih =>
    obtain ⟨other, old⟩ := first
    by_cases same : name = other
    · subst same
      simp only [List.lookup_cons_self, Option.some.injEq] at found
      simp [found]
    · rw [List.lookup_cons, beq_false_of_ne same] at found
      exact List.mem_cons_of_mem _ (ih found)

/-- What holds of all entries of two maps holds of those of the one inserted into the other. -/
theorem forall_foldl_insert {p : α → Prop} {added bindings : OrderedMap α}
    (new : ∀ entry ∈ added.entries, p entry.2) (old : ∀ entry ∈ bindings.entries, p entry.2) :
    ∀ entry ∈ (added.entries.foldl (fun bindings (name, value) => bindings.insert name value)
      bindings).entries, p entry.2 := by
  refine List.foldlRecOn
    (motive := fun bindings : OrderedMap α => ∀ entry ∈ bindings.entries, p entry.2) _ _ old ?_
  intro bindings known first added entry member
  rcases mem_insert member with rfl | before
  · exact new _ added
  · exact known entry before

end OrderedMap

namespace Value

/-- A clean value is no signal. -/
theorem Clean.plain {value : Value} (clean : value.Clean) : value.isSignal = false := by
  cases clean with
  | intro plain _ _ => exact plain

/-- The elements of a clean collection are clean. -/
theorem Clean.items {value : Value} (clean : value.Clean) {collection : Collection Value}
    (data : value.data = .collection collection) : collection.Clean := by
  cases clean with
  | intro _ items _ => exact items collection data

/-- The ad-hoc fields of a clean value are clean. -/
theorem Clean.field {value : Value} (clean : value.Clean) {name : String} {content : Value}
    (found : value.field? name = some content) : content.Clean := by
  cases clean with
  | intro _ _ fields => exact fields _ (OrderedMap.mem_of_get? found)

/-- A sound value that is no signal is clean. -/
theorem Sound.clean_of_plain {value : Value} (sound : value.Sound)
    (plain : value.isSignal = false) : value.Clean := by
  cases sound with
  | clean clean => exact clean
  | breakSignal | continueSignal | quitSignal | returnSignal => simp [isSignal, ofData,
      Value.breakSignal, Value.continueSignal, Value.quitSignal, Value.returnSignal] at plain

/-- The elements of a sound collection are clean. -/
theorem Sound.items {value : Value} (sound : value.Sound) {collection : Collection Value}
    (data : value.data = .collection collection) : collection.Clean := by
  cases sound with
  | clean clean => exact clean.items data
  | breakSignal | continueSignal | quitSignal | returnSignal => cases data

/-- The ad-hoc fields of a sound value are clean. -/
theorem Sound.field {value : Value} (sound : value.Sound) {name : String} {content : Value}
    (found : value.field? name = some content) : content.Clean := by
  cases sound with
  | clean clean => exact clean.field found
  | breakSignal | continueSignal | quitSignal | returnSignal => cases found

/-- A value that is no signal is handed out at the end of a call as it is. -/
theorem outcome_of_plain {value : Value} (plain : value.isSignal = false) : value.outcome = value := by
  unfold outcome
  unfold isSignal at plain
  split at plain <;> simp_all

/-- There is nothing to take out of a value that is no signal. -/
theorem returned_of_plain {value : Value} (plain : value.isSignal = false) :
    value.returned = value := by
  unfold returned
  unfold isSignal at plain
  split at plain <;> simp_all

/-- What a sound value hands out at the end of a call is sound. -/
theorem Sound.outcome {value : Value} (sound : value.Sound) : value.outcome.Sound := by
  have null : Value.null.Clean :=
    .intro rfl (by simp [Value.null, ofData]) (by simp [Value.null, ofData])
  -- A call that ends with a signal other than that of a `quit` hands out null or what it returns.
  cases sound with
  | clean clean => exact (outcome_of_plain clean.plain).symm ▸ .clean clean
  | breakSignal => exact .clean null
  | continueSignal => exact .clean null
  | quitSignal code => exact .quitSignal code
  | returnSignal inner => exact inner

/-- Taking a value out of a return signal keeps it sound. -/
theorem Sound.returned {value : Value} (sound : value.Sound) : value.returned.Sound := by
  cases sound with
  | clean clean => exact (returned_of_plain clean.plain).symm ▸ .clean clean
  | breakSignal => exact .breakSignal
  | continueSignal => exact .continueSignal
  | quitSignal code => exact .quitSignal code
  | returnSignal inner => exact inner

/-- Data that is neither a signal nor a collection makes a clean value. -/
theorem clean_ofData {data : Data} (plain : (ofData data).isSignal = false)
    (single : ∀ collection, data ≠ .collection collection) : (ofData data).Clean :=
  .intro plain (fun collection same => absurd same (single collection)) (by simp [ofData])

@[simp] theorem clean_undefined : undefined.Clean := clean_ofData rfl (by simp)

@[simp] theorem clean_null : null.Clean := clean_ofData rfl (by simp)

@[simp] theorem clean_number (value : Float) : (number value).Clean := clean_ofData rfl (by simp)

@[simp] theorem clean_ofNat (count : Nat) : (Value.ofNat count).Clean := clean_number _

@[simp] theorem clean_ofInt (integer : Int) : (ofInt integer).Clean := clean_number _

@[simp] theorem clean_ofBool (holds : Bool) : (ofBool holds).Clean := clean_number _

@[simp] theorem clean_string (text : String) : (string text).Clean := clean_ofData rfl (by simp)

@[simp] theorem clean_ofChar (c : Char) : (ofChar c).Clean := clean_string _

@[simp] theorem clean_enumeration (enumeration : Enumeration) :
    (ofData (.enumeration enumeration)).Clean :=
  clean_ofData rfl (by simp)

@[simp] theorem clean_object (handle : ObjectHandle) : (ofData (.object handle)).Clean :=
  clean_ofData rfl (by simp)

/-- A collection of clean elements is a clean value. -/
theorem clean_collection {items : Collection Value} (clean : items.Clean) :
    (collection items).Clean :=
  .intro rfl (fun same data => by cases data; exact clean) (by simp [collection, ofData])

/-- An array of clean elements is a clean value. -/
theorem clean_array {items : List Value} (clean : ∀ item ∈ items, item.Clean) :
    (array items).Clean :=
  clean_collection clean

/-- An array of values that are made by a clean function is a clean value. -/
theorem clean_array_map {α : Type} {f : α → Value} (clean : ∀ a, (f a).Clean) (list : List α) :
    (array (list.map f)).Clean :=
  clean_array (by simp [clean])

/-- A clean value keeps clean when a clean ad-hoc field is stored in it. -/
theorem Clean.setField {value content : Value} (clean : value.Clean) (name : String)
    (contentClean : content.Clean) : (value.setField name content).Clean := by
  cases clean with
  | intro plain items fields =>
    refine .intro plain items fun entry member => ?_
    rcases OrderedMap.mem_insert member with rfl | old
    · exact contentClean
    · exact fields entry old

/-- A clean value keeps clean when its data is replaced by a clean collection. -/
theorem Clean.withCollection {value : Value} (clean : value.Clean) {items : Collection Value}
    (itemsClean : items.Clean) : (value.withData (.collection items)).Clean := by
  cases clean with
  | intro _ _ fields =>
    exact .intro rfl (fun same data => by cases data; exact itemsClean) fields

end Value

namespace Collection

variable {collection : Collection Value}

/-- An element that is found under its position is clean. -/
theorem Clean.get (clean : collection.Clean) {position : Nat} {item : Value}
    (found : collection.get? position = some item) : item.Clean :=
  clean item (List.mem_of_getElem? found)

/-- An element that is found under its key is clean. -/
theorem Clean.getKey (clean : collection.Clean) {key : String} {item : Value}
    (found : collection.getKey? key = some item) : item.Clean := by
  obtain ⟨position, _, there⟩ := Option.bind_eq_some_iff.mp found
  exact clean.get there

/-- An optional element or a clean stand-in for it is clean. -/
theorem getD_clean {found : Option Value} {other : Value}
    (clean : ∀ item, found = some item → item.Clean) (otherClean : other.Clean) :
    (found.getD other).Clean := by
  cases found with
  | none => exact otherClean
  | some item => exact clean item rfl

/-- Appending a clean element keeps a collection clean. -/
theorem Clean.push (clean : collection.Clean) {value : Value} (new : value.Clean) :
    (collection.push value).Clean := by
  intro item member
  rcases List.mem_append.mp member with old | added
  · exact clean item old
  · rwa [List.mem_singleton.mp added]

/-- Storing a clean element under a key keeps a collection clean. -/
theorem Clean.insertKey (clean : collection.Clean) (key : String) {value : Value}
    (new : value.Clean) : (collection.insertKey key value).Clean := by
  unfold Collection.insertKey
  split
  · intro item member
    rcases List.mem_or_eq_of_mem_set member with old | rfl
    · exact clean item old
    · exact new
  · exact clean.push new

/-- Storing a clean element at a position keeps a collection clean, gaps being filled with null. -/
theorem Clean.setAt (clean : collection.Clean) {position : Nat} {value : Value} (new : value.Clean)
    {written : Collection Value} (ran : collection.setAt .null position value = .ok written) :
    written.Clean := by
  unfold Collection.setAt at ran
  split at ran
  · cases ran
    -- Within the elements one is replaced; behind them null fills the gap.
    intro item member
    rcases List.mem_or_eq_of_mem_set member with old | rfl
    · exact clean item old
    · exact new
  · obtain ⟨_, _, rest⟩ := ok_of_bind ran
    cases rest
    intro item member
    simp only [List.mem_append, List.mem_replicate, List.mem_singleton] at member
    rcases member with old | ⟨_, rfl⟩ | rfl
    · exact clean item old
    · exact Value.clean_null
    · exact new

/-- Inserting a clean element keeps a collection clean. -/
theorem Clean.insertAt (clean : collection.Clean) (position : Nat) {value : Value}
    (new : value.Clean) : (collection.insertAt position value).Clean := by
  intro item member
  rcases (List.mem_insertIdx (Nat.min_le_right _ _)).mp member with rfl | old
  · exact new
  · exact clean item old

/-- Removing an element keeps a collection clean. -/
theorem Clean.removeAt (clean : collection.Clean) (position : Nat) :
    (collection.removeAt position).Clean := by
  unfold Collection.removeAt
  split
  · exact fun item member => clean item (List.mem_of_mem_eraseIdx member)
  · exact clean

/-- A map of clean values is clean. -/
theorem clean_ofEntries {entries : List (String × Value)} (clean : ∀ entry ∈ entries, entry.2.Clean) :
    (Collection.ofEntries entries).Clean := by
  refine List.foldlRecOn (motive := fun collection : Collection Value => collection.Clean) _ _
    (by simp [Collection.Clean, emptyMap]) ?_
  exact fun _ known entry member => known.insertKey entry.1 (clean entry member)

end Collection

namespace Value

/-- A map of clean values is a clean value. -/
theorem clean_map {entries : List (String × Value)} (clean : ∀ entry ∈ entries, entry.2.Clean) :
    (map entries).Clean :=
  clean_collection (Collection.clean_ofEntries clean)

/-- A collection to write below is clean if the value is. -/
theorem Clean.indexable {value : Value} (clean : value.Clean) (index : Value) :
    (value.indexable index).Clean := by
  unfold Value.indexable
  split
  · split
    · exact clean_collection (by simp [Collection.Clean, Collection.emptyMap])
    · exact clean_array (by simp)
  · exact clean

/-- The elements of a collection to write below are clean if the value is. -/
theorem Clean.indexed {value index : Value} (clean : value.Clean) {collection : Collection Value}
    (ran : value.indexed index = .ok collection) : collection.Clean := by
  unfold Value.indexed asCollection? at ran
  split at ran
  -- A value to write below is a collection already or becomes one.
  case h_1 same =>
    split at same
    case h_1 data =>
      cases same
      cases ran
      exact (clean.indexable index).items data
    case h_2 => cases same
  case h_2 => cases ran

/-- Writing clean content below a clean value leaves a clean value, even where it fails. -/
theorem Clean.setIndexed {content : Value} (contentClean : content.Clean) {indices : List Value} :
    ∀ {value : Value}, value.Clean → (value.setIndexed content indices).1.Clean := by
  -- The induction is on the path; each step writes back what the steps below it have changed.
  induction indices with
  | nil =>
    intro value _
    exact contentClean
  | cons index rest ih =>
    intro value clean
    have targetClean := clean.indexable index
    unfold Value.setIndexed
    dsimp only
    split
    case h_1 => exact targetClean
    case h_2 collection found =>
      have itemsClean := clean.indexed found
      split
      case h_1 key _ =>
        have innerClean : ((collection.getKey? key).getD .null).Clean :=
          Collection.getD_clean (fun _ => itemsClean.getKey) clean_null
        exact targetClean.withCollection (itemsClean.insertKey _ (ih innerClean))
      case h_2 =>
        split
        case h_1 => exact targetClean
        case h_2 position _ =>
          have innerClean : ((collection.get? position).getD .null).Clean :=
            Collection.getD_clean (fun _ => itemsClean.get) clean_null
          split
          case h_1 => exact targetClean
          case h_2 set => exact targetClean.withCollection (itemsClean.setAt (ih innerClean) set)

/-- The same with the path checked before. -/
theorem Clean.writeIndexed {content value : Value} (contentClean : content.Clean)
    (clean : value.Clean) (indices : List Value) :
    (value.writeIndexed content indices).1.Clean := by
  unfold Value.writeIndexed
  split
  · exact clean
  · exact contentClean.setIndexed clean

/-- An element of a sound value is clean. -/
theorem Sound.index {value index element : Value} (sound : value.Sound)
    (ran : value.index index = .ok element) : element.Clean := by
  unfold Value.index at ran
  split at ran
  -- An element comes out of a collection; parts of other values are numbers or text.
  case h_1 collection data =>
    have itemsClean := sound.items data
    split at ran
    · cases ran
      exact Collection.getD_clean (fun _ => itemsClean.getKey) clean_null
    · obtain ⟨position, _, ran⟩ := ok_of_bind ran
      cases ran
      exact Collection.getD_clean (fun _ => itemsClean.get) clean_null
  case h_2 text _ =>
    obtain ⟨position, _, ran⟩ := ok_of_bind ran
    cases ran
    refine Collection.getD_clean (fun item found => ?_) clean_null
    obtain ⟨c, _, rfl⟩ := Option.map_eq_some_iff.mp found
    exact clean_ofChar c
  case h_3 =>
    split at ran
    · split at ran <;> cases ran
      exact clean_ofInt _
    · dsimp only at ran
      split at ran <;> cases ran
      exact clean_string _
  case h_4 => cases ran

/-- Putting a value into a sorted list adds nothing else to it. -/
theorem mem_insertSorted {value item : Value} {sorted : List Value}
    (member : item ∈ insertSorted value sorted) : item = value ∨ item ∈ sorted := by
  -- The value comes in front of the first element that is not greater.
  induction sorted with
  | nil => simpa [insertSorted] using member
  | cons greatest rest ih =>
    simp only [insertSorted] at member
    split at member
    · rcases List.mem_cons.mp member with rfl | later
      · exact .inr List.mem_cons_self
      · exact (ih later).imp_right (List.mem_cons_of_mem _)
    · simpa using member

/-- Sorting adds no values. -/
theorem mem_of_mem_sort {values : List Value} {item : Value} (member : item ∈ sort values) :
    item ∈ values := by
  have known := List.foldlRecOn (motive := fun sorted : List Value => ∀ item ∈ sorted, item ∈ values)
    values (fun sorted value => insertSorted value sorted) (b := []) (by simp)
    (fun sorted known value there item member => by
      rcases mem_insertSorted member with rfl | old
      · exact there
      · exact known item old)
  exact known item (List.mem_reverse.mp member)

/-- What a clean function makes of an optional argument, or a clean stand-in for it, is clean. -/
theorem getD_map_clean {α : Type} {f : α → Value} (clean : ∀ a, (f a).Clean) (found : Option α)
    {other : Value} (otherClean : other.Clean) : ((found.map f).getD other).Clean := by
  cases found with
  | none => exact otherClean
  | some a => exact clean a

/-- A property that a sound value has without any declaration is clean. -/
theorem Sound.builtinProperty {value found : Value} {name : String} (sound : value.Sound)
    (read : value.builtinProperty? name = some found) : found.Clean := by
  unfold builtinProperty? at read
  split at read
  -- What is computed from a value is a number, a text, or an array of these.
  case h_1 | h_2 | h_15 | h_16 | h_17 | h_18 => cases read; exact clean_string _
  case h_3 | h_8 => cases read; exact clean_array_map clean_string _
  case h_4 | h_5 =>
    obtain ⟨size, _, rfl⟩ := Option.map_eq_some_iff.mp read
    exact clean_ofNat size
  case h_6 =>
    obtain ⟨size, _, rfl⟩ := Option.map_eq_some_iff.mp read
    exact clean_ofBool _
  case h_7 =>
    split at read <;> cases read
    · exact clean_array_map clean_string _
    · exact clean_array_map clean_ofNat _
  case h_10 => cases read; exact clean_array_map clean_ofInt _
  case h_13 | h_14 => cases read; exact getD_map_clean clean_ofChar _ clean_undefined
  -- What is taken from a collection is one of its elements or an array of some.
  case h_9 data => cases read; exact clean_array (sound.items data)
  case h_11 data =>
    cases read
    exact Collection.getD_clean (fun item there =>
      sound.items data item (List.mem_of_head? there)) clean_undefined
  case h_12 data =>
    cases read
    exact Collection.getD_clean (fun item there =>
      sound.items data item (List.mem_of_getLast? there)) clean_undefined
  case h_19 data =>
    cases read
    exact clean_array fun item member => sound.items data item (List.mem_reverse.mp member)
  case h_20 data =>
    cases read
    exact clean_array fun item member => sound.items data item (mem_of_mem_sort member)
  case h_21 => cases read

/-- What a method that leaves its receiver alone yields on a sound value is clean. -/
theorem Sound.builtinMethod {value found : Value} {name : String} {arguments : List Value}
    (sound : value.Sound) (ran : value.builtinMethod? name arguments = .ok (some found)) :
    found.Clean := by
  unfold builtinMethod? at ran
  -- Only a look-up hands out what the receiver holds.
  dsimp only at ran
  split at ran
  case h_1 | h_2 => cases ran; exact clean_ofBool _
  case h_3 | h_6 | h_8 => cases ran; exact clean_string _
  case h_4 | h_5 => cases ran; exact getD_map_clean clean_ofNat _ (clean_number _)
  case h_7 => cases ran; exact clean_array_map (fun _ => clean_string _) _
  case h_9 data =>
    have itemsClean := sound.items data
    split at ran
    · cases ran
      exact Collection.getD_clean (fun _ => itemsClean.getKey) clean_undefined
    · obtain ⟨position, _, ran⟩ := ok_of_bind ran
      cases ran
      exact Collection.getD_clean (fun _ => itemsClean.get) clean_undefined
  case h_10 =>
    obtain ⟨position, _, ran⟩ := ok_of_bind ran
    cases ran
    exact getD_map_clean clean_ofChar _ clean_undefined
  case h_11 => cases ran

/-- An argument of a call is clean if all are. -/
theorem clean_argument {arguments : List Value} (clean : ∀ value ∈ arguments, value.Clean)
    (position : Nat) : (argument arguments position).Clean :=
  Collection.getD_clean (fun item found => clean item (List.mem_of_getElem? found)) clean_undefined

/-- A method that changes a clean collection leaves a clean one and yields a clean value. -/
theorem clean_mutateCollection {collection changed : Collection Value} {name typeName : String}
    {arguments : List Value} {result : Value} (clean : collection.Clean)
    (argumentsClean : ∀ value ∈ arguments, value.Clean)
    (ran : mutateCollection collection name typeName arguments = .ok (changed, result)) :
    changed.Clean ∧ result.Clean := by
  unfold mutateCollection at ran
  dsimp only at ran
  split at ran
  -- Each method puts clean arguments in or takes elements out.
  case h_1 =>
    cases ran
    refine ⟨?_, clean_ofNat _⟩
    exact List.foldlRecOn (motive := fun collection : Collection Value => collection.Clean) _ _
      clean fun _ known value member => known.push (argumentsClean value member)
  case h_2 =>
    obtain ⟨position, _, ran⟩ := ok_of_bind ran
    cases ran
    exact ⟨clean.insertAt position (clean_argument argumentsClean 1), clean_ofNat _⟩
  case h_3 =>
    split at ran <;> cases ran
    · exact ⟨clean.removeAt _, clean_ofBool _⟩
    · exact ⟨clean, clean_ofBool _⟩
  case h_4 =>
    obtain ⟨position, _, ran⟩ := ok_of_bind ran
    cases ran
    exact ⟨clean.removeAt position, Collection.getD_clean (fun _ => clean.get) clean_undefined⟩
  case h_5 => cases ran; exact ⟨by simp [Collection.Clean, Collection.clear], clean_null⟩
  case h_6 => cases ran

/-- A method that changes a sound receiver leaves a clean one and yields a clean value. -/
theorem Sound.mutate {value changed result : Value} {name : String} {arguments : List Value}
    (sound : value.Sound) (argumentsClean : ∀ value ∈ arguments, value.Clean)
    (ran : value.mutate? name arguments = .ok (some (changed, result))) :
    changed.Clean ∧ result.Clean := by
  -- The receiver that is changed is the value itself or a new array.
  have receiver : ∀ receiver : Value, receiver = (if value.isNothing && memberName name == "add"
      then .array [] else value) → receiver.Sound := by
    rintro _ rfl
    split
    · exact .clean (clean_array (by simp))
    · exact sound
  unfold mutate? at ran
  dsimp only at ran
  generalize same : (if value.isNothing && memberName name == "add" then .array [] else value) =
    used at ran
  have usedSound := receiver used same.symm
  unfold asCollection? at ran
  split at ran
  case h_1 => cases ran
  case h_2 collection found =>
    split at found
    case h_2 => cases found
    case h_1 data =>
      cases found
      obtain ⟨⟨grown, yielded⟩, mutated, ran⟩ := ok_of_bind ran
      cases ran
      obtain ⟨grownClean, resultClean⟩ :=
        clean_mutateCollection (usedSound.items data) argumentsClean mutated
      have usedClean := usedSound.clean_of_plain (by simp [isSignal, data])
      exact ⟨usedClean.withCollection grownClean, resultClean⟩

/-- Binary operators yield clean values. -/
theorem clean_apply {op : BinaryOp} {left right result : Value}
    (ran : op.apply left right = .ok result) : result.Clean := by
  -- Arithmetic yields a number or fails.
  have arithmetic : ∀ symbol operation,
      BinaryOp.arithmetic symbol operation left right = .ok result → result.Clean := by
    intro symbol operation ran
    unfold BinaryOp.arithmetic at ran
    split at ran
    · cases ran
      exact clean_number _
    · cases ran
  cases op with
  | equal | notEqual | less | lessOrEqual | greater | greaterOrEqual =>
    cases ran
    exact clean_ofBool _
  | add =>
    simp only [BinaryOp.apply] at ran
    split at ran
    · cases ran
      exact clean_string _
    · exact arithmetic _ _ ran
  | subtract | multiply | divide | modulo => exact arithmetic _ _ ran

end Value

namespace Tagged

section

variable {motive : Value → Prop}
  (payloads : ∀ {children : Place → Step (Elements × Place)} {tag : String} {place behind : Place}
    {value : Value},
    (∀ {place elements behind}, children place = .ok (elements, behind) →
      ∀ element ∈ elements, motive element.2) →
    payload children tag place = .ok (value, behind) → motive value)

include payloads

/-- What holds of a payload as long as it holds of the elements in it holds of all elements that are read
from a text, one at a time or several. -/
theorem read_induction (fuel : Nat) :
    (∀ {place element behind}, readElement fuel place = .ok (element, behind) → motive element.2) ∧
    (∀ {place elements behind}, readElements fuel place = .ok (elements, behind) →
      ∀ element ∈ elements, motive element.2) := by
  -- The induction is on the fuel: an element holds elements that are read with less.
  induction fuel with
  | zero =>
    constructor
    · intro place element behind read
      cases read
    · intro place elements behind read
      cases read
      simp
  | succ fuel ih =>
    constructor
    · intro place element behind read
      obtain ⟨named, _, read⟩ := ok_of_bind read
      obtain ⟨⟨name, separated⟩, _, read⟩ := ok_of_bind read
      obtain ⟨tagged, _, read⟩ := ok_of_bind read
      obtain ⟨content, _, read⟩ := ok_of_bind read
      obtain ⟨⟨value, finished⟩, found, read⟩ := ok_of_bind read
      obtain ⟨last, _, read⟩ := ok_of_bind read
      cases read
      exact payloads ih.2 found
    · intro place elements behind read
      unfold readElements at read
      split at read
      · obtain ⟨⟨first, next⟩, found, read⟩ := ok_of_bind read
        obtain ⟨⟨others, last⟩, rest, read⟩ := ok_of_bind read
        cases read
        intro element member
        rcases List.mem_cons.mp member with rfl | later
        · exact ih.1 found
        · exact ih.2 rest element later
      · cases read
        simp

/-- It also holds of the value that a text denotes. -/
theorem toValue_induction {text : String} {value : Value} (read : toValue text = .ok value) :
    motive value := by
  unfold toValue at read
  split at read
  case h_1 whole =>
    cases read
    -- The value stands in the one element of the text.
    obtain ⟨⟨⟨name, found⟩, behind⟩, element, whole⟩ := ok_of_bind whole
    dsimp only at whole
    split at whole <;> cases whole
    exact (read_induction payloads _).1 element
  case h_2 => cases read

end

/-- The values of read elements are clean. -/
def Elements.Clean (elements : Elements) : Prop := ∀ element ∈ elements, element.2.Clean

/-- A map of clean elements is clean. -/
theorem clean_mapOf {elements : Elements} (clean : elements.Clean) : (mapOf elements).Clean := by
  refine List.foldlRecOn (motive := fun collection : Collection Value => collection.Clean) _ _
    (by simp [Collection.Clean, Collection.emptyMap]) fun collection known element member => ?_
  obtain ⟨name, value⟩ := element
  cases name with
  | none => exact known.push (clean _ member)
  | some key => exact known.insertKey key (clean _ member)

/-- The map that stands for an object with clean elements is clean. -/
theorem clean_objectOf (typeTag : String) {elements : Elements} (clean : elements.Clean) :
    (objectOf typeTag elements).Clean := by
  refine Collection.clean_ofEntries fun entry member => ?_
  rcases List.mem_cons.mp member with rfl | later
  · exact Value.clean_string typeTag
  · obtain ⟨element, there, rfl⟩ := List.mem_map.mp later
    exact clean element there

/-- The payload behind a tag is clean if the elements in it are. -/
theorem clean_payload {children : Place → Step (Elements × Place)} {tag : String}
    {place behind : Place} {value : Value}
    (childrenClean : ∀ {place elements behind}, children place = .ok (elements, behind) →
      Elements.Clean elements)
    (read : payload children tag place = .ok (value, behind)) : value.Clean := by
  unfold payload at read
  split at read
  -- Texts, numbers and bytes have no parts at all.
  case h_1 | h_4 =>
    obtain ⟨⟨text, next⟩, _, read⟩ := ok_of_bind read
    dsimp only at read
    split at read <;> cases read
    first | exact Value.clean_number _ | exact Value.clean_ofData rfl (by simp)
  case h_2 =>
    obtain ⟨⟨text, next⟩, _, read⟩ := ok_of_bind read
    cases read
    exact Value.clean_string text
  case h_3 =>
    obtain ⟨⟨bytes, next⟩, _, read⟩ := ok_of_bind read
    cases read
    exact Value.clean_ofData rfl (by simp)
  -- A list is clean as its elements are, and so is a map.
  case h_5 =>
    obtain ⟨⟨elements, next⟩, found, read⟩ := ok_of_bind read
    cases read
    refine Value.clean_array fun item member => ?_
    obtain ⟨element, there, rfl⟩ := List.mem_map.mp member
    exact childrenClean found element there
  case h_6 =>
    obtain ⟨⟨elements, next⟩, found, read⟩ := ok_of_bind read
    cases read
    exact Value.clean_collection (clean_mapOf (childrenClean found))
  case h_7 =>
    obtain ⟨⟨name, entries⟩, _, read⟩ := ok_of_bind read
    obtain ⟨⟨elements, next⟩, _, read⟩ := ok_of_bind read
    cases read
    exact Value.clean_enumeration _
  case h_8 =>
    obtain ⟨⟨typeTag, fields⟩, _, read⟩ := ok_of_bind read
    obtain ⟨⟨elements, next⟩, found, read⟩ := ok_of_bind read
    cases read
    exact Value.clean_collection (clean_objectOf typeTag (childrenClean found))
  case h_9 => cases read; exact Value.clean_null
  case h_10 => cases read

/-- The value that a tagged text denotes is clean. -/
theorem clean_toValue {text : String} {value : Value} (read : toValue text = .ok value) :
    value.Clean :=
  toValue_induction clean_payload read

end Tagged

end ScriptEngine
