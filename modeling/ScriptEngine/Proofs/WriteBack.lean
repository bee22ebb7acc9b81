import ScriptEngine.Proofs.CallStages

/-! The fields that a method has changed as locals. They go back to its receiver unless the new value is
equal to the old one, and equality tells less than there is to a collection or to ad-hoc fields. -/

namespace ScriptEngine

/-! Values that equality tells apart. -/

namespace Value

/-- A value has no parts of its own: it is no collection, set of constants or signal, and has no ad-hoc
fields. -/
def isFlat (value : Value) : Bool :=
  value.fields.entries.isEmpty && value.computed.entries.isEmpty &&
    match value.data with
    | .collection _ => false
    | .enumeration _ => false
    | .returnSignal _ => false
    | _ => true

/-- Two values without parts are the same value, the same object or both the number zero. -/
inductive SameFlat : Value → Value → Prop
  | refl (value : Value) : SameFlat value value
  | zeros {x y : Float} (first : (x == 0) = true) (second : (y == 0) = true) :
    SameFlat (number x) (number y)
  | object (typeTag other : String) (target : ObjectTarget) :
    SameFlat (ofData (.object ⟨typeTag, target⟩)) (ofData (.object ⟨other, target⟩))

/-- A value without parts is only what it is. -/
theorem eq_ofData {value : Value} (flat : value.isFlat = true) : value = ofData value.data := by
  obtain ⟨data, ⟨fields⟩, ⟨computed⟩⟩ := value
  simp only [isFlat, Bool.and_eq_true, List.isEmpty_iff] at flat
  obtain ⟨⟨rfl, rfl⟩, _⟩ := flat
  rfl

/-- Equality finds every difference between values without parts. -/
theorem sameFlat_of_beq {now before : Value} (flat : now.isFlat = true) (flatToo : before.isFlat = true)
    (equal : (now == before) = true) : SameFlat before now := by
  have unparted : ∀ {value : Value}, value.isFlat = true → (ofData value.data).isFlat = true :=
    fun flat => eq_ofData flat ▸ flat
  rw [eq_ofData flat, eq_ofData flatToo] at equal ⊢
  have equals : now.data.equals before.data = true := equal
  replace flat := unparted flat
  revert equals flat
  generalize now.data = left
  generalize before.data = right
  intro equals flat
  unfold Data.equals at equals
  split at equals
  case h_1 => exact .refl _
  case h_2 => exact .refl _
  case h_3 x y =>
    -- Numbers are equal if they are the same, or zeros of different signs.
    rcases (Float.beq_iff_ne_nan_and_eq.mp equals).2.2 with rfl | ⟨rfl, rfl⟩ | ⟨rfl, rfl⟩
    · exact .refl _
    · exact .zeros (by decide) (by decide)
    · exact .zeros (by decide) (by decide)
  case h_4 text other => exact eq_of_beq equals ▸ .refl _
  case h_5 bytes other => exact eq_of_beq equals ▸ .refl _
  case h_6 moment other => exact eq_of_beq equals ▸ .refl _
  case h_7 => cases flat
  case h_8 => cases flat
  case h_9 first second =>
    -- Objects are equal if they stand for the same target, whatever their tags say.
    obtain ⟨typeTag, target⟩ := first
    obtain ⟨other, targetToo⟩ := second
    have same : target = targetToo := eq_of_beq equals
    subst same
    exact .object other typeTag target
  case h_10 => exact .refl _
  case h_11 => exact .refl _
  case h_12 => cases flat
  case h_13 code other => exact eq_of_beq equals ▸ .refl _
  case h_14 => cases equals

end Value

variable {allows : Engine → Engine → Prop} {eval : Evaluator} {start final : Engine}
  {function : ScriptFunction} {args : List Arg} {bound : Bound} {this : Value} {id : Nat}
  {object : Instance} {result : Except Stop Value}

/-- Every end of a method call is one of its body behind which each field of the receiver that its body
has left alone holds what its name stands for in the frame, if that is not equal to the value at the
start; otherwise it holds the value from the start. So a value is lost exactly if it is equal to the old
value without being the same, which no value without parts can be. -/
theorem changed_fields_go_back_unless_equal
    (binds : bindArgs function.name function.params args = .ok bound)
    (room : start.calls.length < start.config.maxCallDepth) (receiver : this.instanceId? = some id)
    (present : start.heap.instances[id]? = some object)
    (ends : (callFunction eval function args (some this) start).MayEnd allows result final) :
    ∃ outcome ended,
      (runBody eval function bound (start.entered function (some this))).MayEnd allows outcome ended ∧
      ∀ field now, field ∈ object.fields.names → (∀ param ∈ function.params, param.name ≠ field) →
        ended.local? field = some (.variable now) →
        (ended.heap.fields id).get? field = object.fields.get? field →
        ((∃ before, (field, before) ∈ object.fields.entries ∧ (now == before) = false) →
          (final.heap.fields id).get? field = some now) ∧
        ((∀ before, (field, before) ∈ object.fields.entries → (now == before) = true) →
          (final.heap.fields id).get? field = object.fields.get? field ∧
          (now.isFlat = true → ∀ before, object.fields.get? field = some before →
            before.isFlat = true → before.SameFlat now)) := by
  obtain ⟨outcome, ended, body, heap⟩ := callFunction_ends binds room ends
  refine ⟨outcome, ended, body, fun field now known free copied untouched => ?_⟩
  have back := Engine.get?_returned receiver present known free copied untouched
  rw [← heap] at back
  refine ⟨fun differs => ?_, fun equal => ⟨?_, fun flat first found flatToo => ?_⟩⟩
  · obtain ⟨first, listed, other⟩ := differs
    rw [back, if_pos (List.any_eq_true.mpr ⟨_, listed, by simp [other]⟩)]
  · -- Every value that the field had at the start is equal, so the write is left out.
    rw [back, if_neg]
    intro differs
    obtain ⟨⟨name, first⟩, listed, other⟩ := List.any_eq_true.mp differs
    simp only [Bool.and_eq_true, beq_iff_eq, Bool.not_eq_true'] at other
    obtain ⟨rfl, other⟩ := other
    rw [equal first listed] at other
    cases other
  · obtain ⟨earlier, behind, listed, _⟩ := List.lookup_eq_some_iff.mp found
    exact Value.sameFlat_of_beq flat flatToo (equal first (by simp [listed]))

/-- An array with one instance of a class. -/
def pointArray (id : Nat) : Value := .array [.ofData (.object ⟨"Point", .scripted id⟩)]

/-- Whether a value is such an array. -/
def isPointArray (id : Nat) : Value → Bool
  | ⟨.collection ⟨[⟨.object ⟨"Point", .scripted other⟩, ⟨[]⟩, ⟨[]⟩⟩], none⟩, ⟨[]⟩, ⟨[]⟩⟩ => other == id
  | _ => false

theorem eq_of_isPointArray {id : Nat} {value : Value} (holds : isPointArray id value = true) :
    value = pointArray id := by
  unfold isPointArray at holds
  split at holds
  case h_1 =>
    rw [eq_of_beq holds]
    rfl
  case h_2 => cases holds

/-- The array that is found is the only one that a test lets pass. -/
theorem eq_of_any_isPointArray {id : Nat} {value : Option Value}
    (holds : value.any (isPointArray id) = true) : value = some (pointArray id) := by
  obtain ⟨array, rfl, holds⟩ := Option.any_eq_true _ _ |>.mp holds
  rw [eq_of_isPointArray holds]

/-- An interpreter with an instance that has such an array in a field. -/
def pointHolder : Engine :=
  { Engine.new {} {} with
    heap := { instances := #[⟨{ name := "Holder" }, "Holder#1", .ofList [("held", pointArray 1)]⟩] } }

/-- A method that puts its argument into the field. -/
def putPoint : ScriptFunction := ⟨"put", [⟨"p", none⟩], "held=p;".toList, ⟨"main", 1⟩, none, none⟩

/-- The method puts an array with another instance into the field, and the field keeps the old one. -/
theorem changed_fields_go_back_unless_equal_points :
    ∃ result final,
      (callFunction (evaluator 5) putPoint [.positional (pointArray 2)]
        (some (.ofData (.object ⟨"Holder", .scripted 0⟩))) pointHolder).MayEnd Eq result final ∧
      (final.heap.fields 0).get? "held" = some (pointArray 1) := by
  let this : Value := .ofData (.object ⟨"Holder", .scripted 0⟩)
  let bound : Bound := ⟨[some (pointArray 2)], []⟩
  obtain ⟨result, final, ends⟩ := Step.exists_mayEnd (fun _ => rfl)
    (callFunction (evaluator 5) putPoint [.positional (pointArray 2)] (some this) pointHolder)
  have binds : bindArgs putPoint.name putPoint.params [.positional (pointArray 2)] = .ok bound := rfl
  obtain ⟨outcome, ended, body, fields⟩ :=
    changed_fields_go_back_unless_equal binds (by decide) rfl rfl ends
  -- The body ends at once, with the new array under the name.
  have ran : ((runBody (evaluator 5) putPoint bound (pointHolder.entered putPoint (some this))).ended?).any
      (fun ending =>
        ((ending.2.local? "held").bind Handler.value?).any (isPointArray 2) &&
          ((ending.2.heap.fields 0).get? "held").any (isPointArray 1)) = true := by decide +kernel
  obtain ⟨⟨value, engine⟩, finished, holds⟩ := Option.any_eq_true _ _ |>.mp ran
  obtain ⟨rfl, rfl⟩ := (Step.mayEnd_ended finished).mp body
  simp only [Bool.and_eq_true] at holds
  obtain ⟨handler, found, copied⟩ := Option.bind_eq_some_iff.mp (eq_of_any_isPointArray holds.1)
  cases handler with
  | «variable» now =>
    cases Option.some.inj copied
    have same := eq_of_any_isPointArray holds.2
    -- The two arrays have the same text.
    have equal : (pointArray 2 == pointArray 1) = true := by decide +kernel
    have kept := (fields "held" _ (List.mem_singleton_self _) (by decide) found same).2
      fun before listed => by
        cases List.mem_singleton.mp listed
        exact equal
    exact ⟨result, final, ends, kept.1⟩
  | _ => cases copied

end ScriptEngine
