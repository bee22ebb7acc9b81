import ScriptEngine.Eval.Member
import ScriptEngine.Proofs.Value.Stored

/-! Paths of indices and properties below a value whose properties are all stored: what a write makes of
the value and of the fields of the instances that it passes, and what is read there behind it. -/

namespace ScriptEngine

/-- A field of an instance. -/
abbrev InstanceField : Type := Nat × String

variable {heap after later : Heap} {value content changed inner : Value} {name : String}
  {segments rest : List Segment} {field : InstanceField}

/-- The field of an instance that a property of a value is, if the value is a handle. -/
def Value.fieldOf? (value : Value) (name : String) : Option InstanceField :=
  value.instanceId?.map (·, name)

/-- What a value is behind a write of a property. -/
def Value.putProperty (value : Value) (name : String) (content : Value) : Value :=
  match value.data with
  | .object _ => value
  | .collection collection =>
    if collection.containsKey name then value.withData (.collection (collection.insertKey name content))
    else value.setField name content
  | _ => value.setField name content

/-- Whether a map has both a key and an ad-hoc field of a name: the key is what a write finds, and the
field is what a reader finds. -/
def Value.hides (value : Value) (name : String) : Bool :=
  (value.field? name).isSome && value.asCollection?.any (·.containsKey name)

namespace Heap

/-- What a field of an instance holds. -/
def field? (heap : Heap) (field : InstanceField) : Option Value := (heap.fields field.1).get? field.2

/-- The property of a value: its ad-hoc field, what is stored under the name, or what all values have. -/
def property? (heap : Heap) (value : Value) (name : String) : Option Value :=
  (value.field? name).or ((Engine.member? { heap } value name).or (value.builtinProperty? name))

/-- What a write of a property leaves of the instances. -/
def putProperty (heap : Heap) (value : Value) (name : String) (content : Value) : Heap :=
  match value.instanceId? with
  | some id => heap.setField id name content
  | none => heap

/-- What a write below a property starts from. -/
def inside (heap : Heap) (value : Value) (name : String) : Value := (heap.property? value name).getD .null

/-- The value at a path below a value, the indices of which lead into collections. -/
def at? (heap : Heap) : Value → List Segment → Option Value
  | value, [] => some value
  | value, .index index :: rest =>
    match value.asCollection?, index.selector with
    | some collection, .ok chosen => heap.at? (chosen.of collection) rest
    | _, _ => none
  | value, .property name :: rest =>
    match heap.property? value name with
    | some inner => heap.at? inner rest
    | none => none

/-- Puts `content` at a path below a value: what the value is then, unless the path cannot be walked, and
what the instances hold then. -/
def write (heap : Heap) (content : Value) : Value → List Segment → Result Value × Heap
  | _, [] => (.ok content, heap)
  | value, .index index :: rest =>
    match value.reach index with
    | .error failure => (.error failure, heap)
    | .ok (collection, chosen) =>
      let (outcome, after) := heap.write content (chosen.of collection) rest
      (do return (value.indexable index).withData (.collection (← chosen.put collection (← outcome))),
        after)
  | value, .property name :: rest =>
    match heap.write content (heap.inside value name) rest with
    | (.error failure, after) => (.error failure, after)
    | (.ok changed, after) => (.ok (value.putProperty name changed), after.putProperty value name changed)

/-- The fields of instances that a path below a value leads through. -/
def fieldsOn (heap : Heap) : Value → List Segment → List InstanceField
  | _, [] => []
  | value, .index index :: rest =>
    match value.reach index with
    | .error _ => []
    | .ok (collection, chosen) => heap.fieldsOn (chosen.of collection) rest
  | value, .property name :: rest =>
    (value.fieldOf? name).toList ++ heap.fieldsOn (heap.inside value name) rest

/-- A path below a value is open for a write, behind a path that has led through some fields of instances.
Each of its properties leads to an instance that the path goes on in, or else its value does not hide it
and it is none of the fields before. -/
def Open (heap : Heap) : List InstanceField → Value → List Segment → Prop
  | _, _, [] => True
  | passed, value, .index index :: rest =>
    ∀ collection chosen, value.reach index = .ok (collection, chosen) →
      heap.Open passed (chosen.of collection) rest
  | passed, value, .property name :: rest =>
    ((rest ≠ [] ∧ (heap.inside value name).instanceId?.isSome) ∨
        value.hides name = false ∧ ∀ field, value.fieldOf? name = some field → field ∉ passed) ∧
      heap.Open ((value.fieldOf? name).toList ++ passed) (heap.inside value name) rest

/-! What instances hold behind a write. -/

/-- A field of a live instance holds what is stored in it. -/
theorem field?_setField {id : Nat} (lives : id < heap.instances.size) (name : String) (content : Value)
    (field : InstanceField) : (heap.setField id name content).field? field =
      if field = (id, name) then some content else heap.field? field := by
  obtain ⟨other, second⟩ := field
  unfold field? fields setField
  rw [Array.getElem?_modify]
  -- Of the instance that is written, only the named field changes; the others keep all of theirs.
  by_cases same : id = other
  · subst same
    rw [if_pos rfl, Array.getElem?_eq_getElem lives, Option.map_some, Option.map_some]
    by_cases named : second = name
    · subst named
      rw [if_pos rfl]
      exact OrderedMap.get?_insert_self _ _ _
    · rw [if_neg fun equal => named (Prod.mk.inj equal).2]
      exact OrderedMap.get?_insert_of_ne _ _ named
  · rw [if_neg same, if_neg fun equal => same (Prod.mk.inj equal).1.symm]

/-- A write of a property makes no instances. -/
@[simp]
theorem putProperty_size (heap : Heap) (value : Value) (name : String) (content : Value) :
    (heap.putProperty value name content).instances.size = heap.instances.size := by
  unfold putProperty
  split <;> simp [setField]

/-- A write makes no instances. -/
@[simp]
theorem write_size (heap : Heap) (content value : Value) (segments : List Segment) :
    (heap.write content value segments).2.instances.size = heap.instances.size := by
  induction segments generalizing value with
  | nil => rfl
  | cons segment rest ih =>
    cases segment with
    | index index =>
      unfold write
      split
      · rfl
      · exact ih _
    | property name =>
      -- An index changes a value, and a property only a field of an instance that is there.
      unfold write
      split
      case h_1 ran =>
        rw [← congrArg (·.2.instances.size) ran]
        exact ih _
      case h_2 ran =>
        rw [putProperty_size, ← congrArg (·.2.instances.size) ran]
        exact ih _

/-! Stored values stay stored. -/

/-- A property of a stored value is stored. -/
theorem Stored.property (stored : heap.Stored) (valueStored : value.Stored heap.instances.size)
    {found : Value} (read : heap.property? value name = some found) :
    found.Stored heap.instances.size := by
  -- An ad-hoc field comes first, then what the kind of the value gives, and then the builtin
  -- properties.
  rcases Option.or_eq_some_iff.mp read with adHoc | ⟨_, read⟩
  · exact valueStored.field adHoc
  rcases Option.or_eq_some_iff.mp read with member | ⟨_, builtin⟩
  · unfold Engine.member? at member
    split at member
    · exact stored _ _ _ member
    · obtain ⟨entry, _, rfl⟩ := Option.map_eq_some_iff.mp member
      exact Value.stored_number _
    case h_3 data =>
      obtain ⟨place, _, there⟩ := Option.bind_eq_some_iff.mp member
      exact (valueStored.elements data).items _ (List.mem_of_getElem? there)
    · cases member
  · exact valueStored.builtinProperty builtin

/-- What a write below a property of a stored value starts from is stored. -/
theorem Stored.inside (stored : heap.Stored) (valueStored : value.Stored heap.instances.size)
    (name : String) : (heap.inside value name).Stored heap.instances.size :=
  Value.stored_getD (fun _ read => stored.property valueStored read) Value.stored_null

/-- A write of a stored property leaves stored fields of instances. -/
theorem Stored.putProperty (stored : heap.Stored) (valueStored : value.Stored heap.instances.size)
    (name : String) (new : content.Stored heap.instances.size) :
    (heap.putProperty value name content).Stored := by
  intro id other found read
  rw [putProperty_size]
  unfold Heap.putProperty at read
  -- Only an instance takes the write on the heap.
  cases valueStored with
  | @handle _ typeTag place data lives =>
    have handle : value.instanceId? = some place := by
      unfold Value.instanceId?
      rw [data]
    rw [handle] at read
    have read : (heap.setField place name content).field? (id, other) = some found := read
    rw [field?_setField lives] at read
    split at read
    · cases read
      exact new
    · exact stored id other found read
  | other data =>
    have none : value.instanceId? = none := by
      unfold Value.instanceId?
      split
      case h_1 object => exact absurd object (data _)
      case h_2 => rfl
    rw [none] at read
    exact stored id other found read

end Heap

/-- A stored value stays one behind a write of a stored property. -/
theorem Value.Stored.putProperty {instances : Nat} (stored : value.Stored instances) (name : String)
    (new : content.Stored instances) : (value.putProperty name content).Stored instances := by
  unfold Value.putProperty
  split
  · exact stored
  case h_2 collection data =>
    have noObject : ∀ handle, value.data ≠ .object handle := fun _ same => nomatch data.symm.trans same
    split
    · -- A key that the collection has is written in it, and any other name is an ad-hoc field.
      have put : (Selector.key name).put collection content =
          .ok (collection.insertKey name content) := rfl
      exact stored.withElements noObject ((stored.elements data).put put new)
    · exact stored.setField noObject name new
  case h_3 noObject _ => exact stored.setField noObject name new

namespace Heap

/-- A write of a stored value leaves stored values. -/
theorem Stored.write (stored : heap.Stored) (valueStored : value.Stored heap.instances.size)
    (new : content.Stored heap.instances.size) (segments : List Segment) :
    (heap.write content value segments).2.Stored ∧
      ∀ changed, (heap.write content value segments).1 = .ok changed →
        changed.Stored heap.instances.size := by
  -- The induction is on the path; each step makes a stored value of the one that it changes.
  induction segments generalizing value with
  | nil => exact ⟨stored, fun changed same => by cases same; exact new⟩
  | cons segment rest ih =>
    cases segment with
    | index index =>
      unfold Heap.write
      split
      · exact ⟨stored, fun changed same => nomatch same⟩
      case h_2 collection chosen reached =>
        obtain ⟨target, data, elements⟩ := valueStored.indexed (Value.reach_ok reached).1
        have below := ih (elements.of chosen)
        refine ⟨below.1, fun changed same => ?_⟩
        obtain ⟨element, ran, same⟩ := ok_of_bind same
        obtain ⟨written, put, same⟩ := ok_of_bind same
        cases same
        exact target.withElements (fun _ object => nomatch data.symm.trans object)
          (elements.put put (below.2 element ran))
    | property name =>
      have below := ih (stored.inside valueStored name)
      have size := heap.write_size content (heap.inside value name) rest
      unfold Heap.write
      split
      case h_1 ran =>
        rw [ran] at below
        exact ⟨below.1, fun changed same => nomatch same⟩
      case h_2 changed after ran =>
        rw [ran] at below size
        have changedStored := below.2 changed rfl
        dsimp only at size
        refine ⟨below.1.putProperty (size ▸ valueStored) name (size ▸ changedStored), fun _ same => ?_⟩
        cases same
        exact valueStored.putProperty name changedStored

/-! The steps of a write that succeeds. -/

/-- A write through an index puts what it makes of the element back in its place. -/
theorem write_index {index : Value}
    (writes : heap.write content value (.index index :: rest) = (.ok changed, after)) :
    ∃ collection chosen element written, value.reach index = .ok (collection, chosen) ∧
      heap.write content (chosen.of collection) rest = (.ok element, after) ∧
      chosen.put collection element = .ok written ∧
      changed = (value.indexable index).withData (.collection written) := by
  unfold write at writes
  split at writes
  · cases writes
  case h_2 collection chosen reached =>
    obtain ⟨outcome, rfl⟩ := Prod.mk.inj writes
    obtain ⟨element, ran, same⟩ := ok_of_bind outcome
    obtain ⟨written, put, same⟩ := ok_of_bind same
    cases same
    exact ⟨collection, chosen, element, written, reached, Prod.ext ran rfl, put, rfl⟩

/-- A write through a property writes what it makes of the inside to the property. -/
theorem write_property
    (writes : heap.write content value (.property name :: rest) = (.ok changed, after)) :
    ∃ inner middle, heap.write content (heap.inside value name) rest = (.ok inner, middle) ∧
      middle.instances.size = heap.instances.size ∧ changed = value.putProperty name inner ∧
      after = middle.putProperty value name inner := by
  have size := heap.write_size content (heap.inside value name) rest
  unfold write at writes
  split at writes
  · cases writes
  case h_2 inner middle ran =>
    cases writes
    rw [ran] at size
    exact ⟨inner, middle, ran, size, rfl, rfl⟩

end Heap

/-- A stored value is the handle of a live instance, or no object. -/
theorem Value.Stored.shape {instances : Nat} (stored : value.Stored instances) :
    (∃ id, value.instanceId? = some id ∧ id < instances ∧ (∀ name, value.field? name = none) ∧
      ∃ typeTag, value.data = .object ⟨typeTag, .scripted id⟩) ∨
    value.instanceId? = none ∧ ∀ handle, value.data ≠ .object handle := by
  cases stored with
  | handle data lives bare =>
    refine .inl ⟨_, ?_, lives, bare, _, data⟩
    unfold instanceId?
    rw [data]
  | other data =>
    refine .inr ⟨?_, data⟩
    unfold instanceId?
    split
    case h_1 object => exact absurd object (data _)
    case h_2 => rfl

namespace Heap

/-- A handle is the same behind a write below it. -/
theorem write_handle (handle : value.instanceId?.isSome) (below : segments ≠ [])
    (writes : heap.write content value segments = (.ok changed, after)) : changed = value := by
  obtain ⟨id, known⟩ := Option.isSome_iff_exists.mp handle
  obtain ⟨typeTag, data⟩ : ∃ typeTag, value.data = .object ⟨typeTag, .scripted id⟩ := by
    unfold Value.instanceId? at known
    split at known
    case h_1 data =>
      cases known
      exact ⟨_, data⟩
    case h_2 => cases known
  -- An instance is no collection, so that the path can only go on with a property.
  cases segments with
  | nil => exact absurd rfl below
  | cons segment rest =>
    cases segment with
    | index index =>
      obtain ⟨collection, chosen, _, _, reached, _⟩ := write_index writes
      have indexed := (Value.reach_ok reached).1
      simp [Value.indexed, Value.indexable, Value.isNothing, Value.asCollection?, data] at indexed
      cases indexed
    | property name =>
      obtain ⟨inner, _, _, _, same, _⟩ := write_property writes
      rw [same, Value.putProperty, data]

/-- A property of a handle is what the field of the instance holds, or what all values have. -/
theorem property?_handle (valueStored : value.Stored heap.instances.size)
    (known : value.fieldOf? name = some field) :
    field.1 < heap.instances.size ∧
      heap.property? value name = (heap.field? field).or (value.builtinProperty? name) := by
  -- An instance has no ad-hoc fields, so that the heap is asked first.
  rcases valueStored.shape with ⟨id, handle, lives, bare, typeTag, data⟩ | ⟨none, _⟩
  · unfold Value.fieldOf? at known
    rw [handle] at known
    cases known
    refine ⟨lives, ?_⟩
    unfold property? Engine.member?
    rw [bare, data]
    rfl
  · unfold Value.fieldOf? at known
    rw [none] at known
    cases known

/-- A property that leads to an instance is what the field holds that it is. -/
theorem field?_of_inside (valueStored : value.Stored heap.instances.size)
    (known : value.fieldOf? name = some field) (leads : (heap.inside value name).instanceId?.isSome) :
    heap.field? field = some (heap.inside value name) := by
  obtain ⟨_, property⟩ := property?_handle valueStored known
  unfold inside at leads ⊢
  rw [property] at leads ⊢
  cases held : heap.field? field with
  | some inner => rfl
  | none =>
    -- What all values have is no instance.
    rw [held, Option.none_or] at leads
    rcases valueStored.shape with ⟨id, _, _, _, typeTag, data⟩ | ⟨none, _⟩
    · cases builtin : value.builtinProperty? name with
      | none =>
        rw [builtin] at leads
        cases leads
      | some found =>
        rw [builtin, Option.getD_some, Value.builtinProperty_object data builtin] at leads
        cases leads
    · unfold Value.fieldOf? at known
      rw [none] at known
      cases known

/-- Where a field of an instance is written, others are left alone. -/
theorem field?_putProperty (valueStored : value.Stored heap.instances.size) (name : String)
    (content : Value) (field : InstanceField) :
    (heap.putProperty value name content).field? field =
      if value.fieldOf? name = some field then some content else heap.field? field := by
  unfold putProperty Value.fieldOf?
  rcases valueStored.shape with ⟨id, handle, lives, _⟩ | ⟨none, _⟩
  · rw [handle]
    dsimp only
    rw [field?_setField lives]
    simp [eq_comm]
  · rw [none]
    rfl

/-! What an open path leaves alone. -/

variable {passed : List InstanceField}

/-- A write at an open path leaves the fields alone that were passed before. -/
theorem Open.field?_passed (isOpen : heap.Open passed value segments) (stored : heap.Stored)
    (valueStored : value.Stored heap.instances.size)
    (writes : heap.write content value segments = (.ok changed, after)) (member : field ∈ passed) :
    after.field? field = heap.field? field := by
  -- The induction is on the path, with more and more fields that it has led through.
  induction segments generalizing value passed changed after with
  | nil =>
    cases writes
    rfl
  | cons segment rest ih =>
    cases segment with
    | index index =>
      obtain ⟨collection, chosen, element, _, reached, ran, _⟩ := write_index writes
      obtain ⟨_, _, elements⟩ := valueStored.indexed (Value.reach_ok reached).1
      exact ih (isOpen collection chosen reached) (elements.of chosen) ran member
    | property name =>
      obtain ⟨inner, middle, ran, size, _, rfl⟩ := write_property writes
      obtain ⟨clear, isOpen⟩ := isOpen
      have insideStored := stored.inside valueStored name
      rw [field?_putProperty (size ▸ valueStored)]
      split
      case isTrue same =>
        -- The field itself was passed before, so that it leads to an instance, which stays the same.
        rcases clear with ⟨goesOn, leads⟩ | ⟨_, fresh⟩
        · rw [write_handle leads goesOn ran, field?_of_inside valueStored same leads]
        · exact absurd member (fresh field same)
      case isFalse => exact ih isOpen insideStored ran (List.mem_append_right _ member)

/-- An open path leads through a field that was passed before only to an instance. -/
theorem Open.revisits (isOpen : heap.Open passed value segments) (stored : heap.Stored)
    (valueStored : value.Stored heap.instances.size) (member : field ∈ passed)
    (through : field ∈ heap.fieldsOn value segments) :
    ∃ inner, heap.field? field = some inner ∧ inner.instanceId?.isSome := by
  -- The induction is on the path; the field is passed here or further below.
  induction segments generalizing value passed with
  | nil => cases through
  | cons segment rest ih =>
    cases segment with
    | index index =>
      unfold fieldsOn at through
      split at through
      · cases through
      case h_2 collection chosen reached =>
        obtain ⟨_, _, elements⟩ := valueStored.indexed (Value.reach_ok reached).1
        exact ih (isOpen collection chosen reached) (elements.of chosen) member through
    | property name =>
      obtain ⟨clear, isOpen⟩ := isOpen
      rcases List.mem_append.mp through with here | below
      · have same : value.fieldOf? name = some field := Option.mem_toList.mp here
        -- An open path comes back to a passed field only if that holds an instance.
        rcases clear with ⟨_, leads⟩ | ⟨_, fresh⟩
        · exact ⟨_, field?_of_inside valueStored same leads, leads⟩
        · exact absurd member (fresh field same)
      · exact ih isOpen (stored.inside valueStored name) (List.mem_append_right _ member) below

/-! What is read behind a write. -/

/-- A field that was stored in a value is its property. -/
theorem property?_setField (heap : Heap) (value : Value) (name : String) (content : Value) :
    heap.property? (value.setField name content) name = some content := by
  unfold property? Value.field? Value.setField
  rw [OrderedMap.get?_insert_self]
  rfl

/-- What was written to a property that its value does not hide is read there. -/
theorem property?_putProperty {instances : Nat} (valueStored : value.Stored instances)
    (shown : value.hides name = false)
    (holds : ∀ field, value.fieldOf? name = some field → later.field? field = some content) :
    later.property? (value.putProperty name content) name = some content := by
  rcases valueStored.shape with ⟨id, handle, _, bare, typeTag, data⟩ | ⟨_, noObject⟩
  · have held := holds (id, name) (by rw [Value.fieldOf?, handle]; rfl)
    unfold Value.putProperty property? Engine.member?
    rw [data]
    dsimp only
    rw [bare, data]
    show (later.field? (id, name)).or _ = some content
    rw [held]
    rfl
  · unfold Value.putProperty
    split
    case h_1 object => exact absurd object (noObject _)
    case h_2 collection data =>
      split
      case isTrue known =>
        -- The value has the key, and so no ad-hoc field of the name.
        have free : value.field? name = none := by
          unfold Value.hides Value.asCollection? at shown
          simpa [data, known] using shown
        unfold property? Engine.member? Value.withData
        show (value.field? name).or _ = some content
        rw [free, Option.none_or]
        dsimp only
        rw [(valueStored.elements data).inStep.getKey_insertKey, if_pos rfl]
        rfl
      case isFalse => exact property?_setField ..
    case h_3 => exact property?_setField ..

/-- An ad-hoc field that hides a key is the property, also behind a write. -/
theorem property?_hidden (heap : Heap) (hidden : value.hides name = true) (content : Value) :
    heap.property? value name = value.field? name ∧
      heap.property? (value.putProperty name content) name = value.field? name := by
  unfold Value.hides at hidden
  obtain ⟨adHoc, key⟩ := Bool.and_eq_true_iff.mp hidden
  obtain ⟨found, adHoc⟩ := Option.isSome_iff_exists.mp adHoc
  -- Only a collection has a key to hide.
  obtain ⟨collection, same⟩ : ∃ collection, value.asCollection? = some collection := by
    cases same : value.asCollection? with
    | none => simp [same] at key
    | some collection => exact ⟨collection, rfl⟩
  have known : collection.containsKey name = true := by simpa [same] using key
  have shown : ∀ {other : Value},
      other.field? name = some found → heap.property? other name = some found := by
    intro other adHoc
    unfold property?
    rw [adHoc]
    rfl
  refine ⟨(shown adHoc).trans adHoc.symm, ?_⟩
  unfold Value.putProperty
  rw [Value.data_of_asCollection? same]
  dsimp only
  rw [if_pos known, adHoc]
  -- The write goes to the key, and the field in front of it stays.
  exact shown adHoc

/-- A path goes on in what its property holds. -/
theorem inside_of_property? (held : heap.property? value name = some inner) :
    heap.inside value name = inner := by
  unfold inside
  rw [held]
  rfl

/-- What an open path puts at a property is read there, even if the value hides it: then it leads to an
instance, which is the same behind the write. -/
theorem property?_of_clear {fresh : Prop} {middle : Heap}
    (valueStored : value.Stored heap.instances.size)
    (clear : (rest ≠ [] ∧ (heap.inside value name).instanceId?.isSome) ∨
      value.hides name = false ∧ fresh)
    (ran : heap.write content (heap.inside value name) rest = (.ok inner, middle))
    (holds : ∀ field, value.fieldOf? name = some field → later.field? field = some inner) :
    later.property? (value.putProperty name inner) name = some inner := by
  cases hidden : value.hides name with
  | false => exact property?_putProperty valueStored hidden holds
  -- The hidden key is not written if the path goes on from an instance, which is its own result.
  | true =>
    rcases clear with ⟨goesOn, leads⟩ | ⟨shown, _⟩
    · obtain ⟨read, _⟩ := property?_hidden heap hidden inner
      obtain ⟨found, adHoc⟩ := Option.isSome_iff_exists.mp (Bool.and_eq_true_iff.mp hidden).1
      have start : heap.inside value name = found := inside_of_property? (read.trans adHoc)
      rw [(property?_hidden later hidden inner).2, adHoc, write_handle leads goesOn ran, start]
    · cases hidden.symm.trans shown

/-- What is written at an open path is read there, as long as the fields of instances that it leads
through stay as the write has left them. -/
theorem Open.at?_write (isOpen : heap.Open passed value segments) (stored : heap.Stored)
    (valueStored : value.Stored heap.instances.size)
    (writes : heap.write content value segments = (.ok changed, after))
    (stays : ∀ field ∈ heap.fieldsOn value segments, later.field? field = after.field? field) :
    later.at? changed segments = some content := by
  -- The induction is on the path; what is written at each step is what the rest of it starts from.
  induction segments generalizing value passed changed after with
  | nil =>
    cases writes
    rfl
  | cons segment rest ih =>
    cases segment with
    | index index =>
      obtain ⟨collection, chosen, element, written, reached, ran, put, rfl⟩ := write_index writes
      obtain ⟨_, _, elements⟩ := valueStored.indexed (Value.reach_ok reached).1
      unfold at?
      rw [(Value.reach_ok reached).2.1]
      show later.at? (chosen.of written) rest = some content
      -- The element is read back from the place where it was put.
      rw [chosen.of_put_self elements.inStep put]
      refine ih (isOpen collection chosen reached) (elements.of chosen) ran fun field through => ?_
      refine stays field ?_
      unfold fieldsOn
      rw [reached]
      exact through
    | property name =>
      obtain ⟨inner, middle, ran, size, rfl, rfl⟩ := write_property writes
      obtain ⟨clear, isOpen⟩ := isOpen
      have insideStored := stored.inside valueStored name
      -- The field still holds what was written when the rest of the path is walked.
      have holds : ∀ field, value.fieldOf? name = some field → later.field? field = some inner := by
        intro field same
        rw [stays field (List.mem_append_left _ (Option.mem_toList.mpr same)),
          field?_putProperty (size ▸ valueStored), if_pos same]
      unfold at?
      rw [property?_of_clear valueStored clear ran holds]
      refine ih isOpen insideStored ran fun field through => ?_
      rw [stays field (List.mem_append_right _ through), field?_putProperty (size ▸ valueStored)]
      split
      case isFalse => rfl
      case isTrue same =>
        -- The rest of the path leads through the field again, which holds an instance.
        have member := List.mem_append_left passed (Option.mem_toList.mpr same)
        obtain ⟨found, held, handle⟩ := isOpen.revisits stored insideStored member through
        have property : heap.property? value name = some found := by
          rw [(property?_handle valueStored same).2, held]
          rfl
        have start : heap.inside value name = found := inside_of_property? property
        have goesOn : rest ≠ [] := by
          rintro rfl
          cases through
        rw [isOpen.field?_passed stored insideStored ran member, held,
          write_handle (start ▸ handle) goesOn ran, start]

/-! The last step of a path. -/

/-- The value that the last step behind a path starts from. -/
def below (heap : Heap) : Value → List Segment → Value
  | value, [] => value
  | value, .index index :: rest =>
    match value.reach index with
    | .ok (collection, chosen) => heap.below (chosen.of collection) rest
    | .error _ => .null
  | value, .property name :: rest => heap.below (heap.inside value name) rest

/-- A path goes on where its first part leads. -/
theorem at?_append (heap : Heap) (value : Value) (segments rest : List Segment) :
    heap.at? value (segments ++ rest) = (heap.at? value segments).bind (heap.at? · rest) := by
  -- The induction is on the first part; where it leads nowhere, both sides are nothing.
  induction segments generalizing value with
  | nil => rfl
  | cons segment segments ih =>
    rw [List.cons_append]
    cases segment with
    | index index =>
      simp only [at?]
      split
      · exact ih _
      · rfl
    | property name =>
      simp only [at?]
      split
      · exact ih _
      · rfl

/-- Writing a property of what is no instance is writing what that is behind the write. -/
theorem write_append (noHandle : (heap.below value segments).instanceId? = none) :
    heap.write content value (segments ++ [.property name]) =
      heap.write ((heap.below value segments).putProperty name content) value segments := by
  -- The induction is on the path in front of the property.
  induction segments generalizing value with
  | nil =>
    have noHandle : value.instanceId? = none := noHandle
    simp [write, below, putProperty, noHandle]
  | cons segment rest ih =>
    rw [List.cons_append]
    cases segment with
    | index index =>
      unfold write
      unfold below at noHandle ⊢
      cases reached : value.reach index with
      | error failure => rfl
      | ok found =>
        rw [reached] at noHandle
        dsimp only at noHandle ⊢
        rw [ih noHandle]
    | property other =>
      unfold write
      rw [ih noHandle]
      rfl

/-- Where a key is hidden, the ad-hoc field is read behind a write. -/
theorem Open.at?_hidden (isOpen : heap.Open passed value segments) (stored : heap.Stored)
    (valueStored : value.Stored heap.instances.size)
    (hidden : (heap.below value segments).hides name = true)
    (writes : heap.write content value (segments ++ [.property name]) = (.ok changed, after)) :
    after.at? changed (segments ++ [.property name]) = (heap.below value segments).field? name := by
  -- What hides a key is a collection, and so no instance.
  have noHandle : (heap.below value segments).instanceId? = none := by
    have key := (Bool.and_eq_true_iff.mp hidden).2
    unfold Value.asCollection? at key
    unfold Value.instanceId?
    split
    case h_1 data => simp [data] at key
    case h_2 => rfl
  rw [write_append noHandle] at writes
  rw [at?_append, isOpen.at?_write stored valueStored writes fun _ _ => rfl]
  show after.at? _ [.property name] = _
  unfold at?
  rw [(property?_hidden after hidden content).2]
  cases (heap.below value segments).field? name <;> rfl

end Heap

end ScriptEngine
