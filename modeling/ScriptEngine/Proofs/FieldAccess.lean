import ScriptEngine.Proofs.Fields.Control
import ScriptEngine.Proofs.Fields.Qualified

/-! The fields of an instance as variables of its methods. A method may use a field by its bare name or
through `this`, as long as no use meets a copy that another one has made stale. -/

namespace ScriptEngine

variable {table : MethodTable} {method : Method} {engine other : Engine} {id depth : Nat}
  {typeTag : String} {args : List Arg} {result : Except Stop Value} {after : FieldView}

/-- What a call that no method of the instance has made knows of its fields. -/
def Engine.fieldView (engine : Engine) (id : Nat) : FieldView where
  fields := engine.heap.fields id
  calls := engine.calls.length

/-- An instance offers the fields that it has. -/
theorem Engine.Ready.offers (ready : engine.Ready table id)
    (admits : table.Admits (engine.heap.fields id)) : engine.Offers table id (engine.fieldView id) :=
  ⟨ready, rfl, admits, rfl, fun _ _ => rfl, admits.definite⟩

/-- What a call leaves in the instance is what is told, if the instance had all fields. -/
theorem FieldView.Left.fields_eq {view : FieldView} {fields left : OrderedMap Value}
    (leaves : view.Left after fields left) (distinct : fields.names.Nodup) (start : view.fields = fields) :
    left = after.fields := by
  obtain ⟨⟨touched, _, written, untouched⟩, known, stored, _⟩ := leaves
  have names : left.names = after.fields.names := by rw [stored, known, start]
  refine OrderedMap.eq_of_get? names (stored ▸ distinct) fun name _ => ?_
  by_cases here : name ∈ touched
  · exact (written name here).2
  · obtain ⟨kept, same⟩ := untouched name here
    rw [kept, same, start]

/-- A call from outside ends as is told of it, with the fields that are told. -/
theorem callFunction_told (typeTag : String) (ready : engine.Ready table id) (admits : table.Admits (engine.heap.fields id))
    (told : method.tellCall table engine.config (table.tell engine.config depth) args
      (engine.fieldView id) = some (result, after)) :
    ∃ final,
      callFunction (evaluator depth) (table.function method) args
          (some (.ofData (.object ⟨typeTag, .scripted id⟩))) engine = .finished result final ∧
        final.heap.fields id = after.fields := by
  obtain ⟨final, left, ran, noted, leaves⟩ := callFunction_offers typeTag
    (runsBodies_evaluator table engine.config depth) (ready.offers admits) told
  refine ⟨final, ran, ?_⟩
  obtain ⟨object, found, _⟩ := ready.object
  have heap : final.heap = engine.heap.withFields id left := noted.heap
  rw [heap, Heap.fields, Heap.instances_withFields found]
  exact leaves.fields_eq admits.distinct rfl

/-- Wherever it is told what a call does, it does not matter whether its methods use a field by bare name
or through `this`: the call ends with the same result and the same fields, among them all that nested
calls have written. What a call does is told by taking each field for one variable, until a field is used
one way that has been written the other way since the call started, or by bare name in a call further
out; such a use meets a stale copy. The fields hold values that equality tells from all others, since a
write that it does not see is not carried back. -/
theorem bare_fields_agree_with_qualified (ready : engine.Ready table id)
    (readyToo : other.Ready table.qualify id) (admits : table.Admits (engine.heap.fields id))
    (config : other.config = engine.config) (calls : other.calls.length = engine.calls.length)
    (fields : other.heap.fields id = engine.heap.fields id)
    (told : method.tellCall table engine.config (table.tell engine.config depth) args
      (engine.fieldView id) = some (result, after)) :
    ∃ final finalToo,
      callFunction (evaluator depth) (table.function method) args
          (some (.ofData (.object ⟨typeTag, .scripted id⟩))) engine = .finished result final ∧
      callFunction (evaluator depth) (table.qualify.function method.qualify) args
          (some (.ofData (.object ⟨typeTag, .scripted id⟩))) other = .finished result finalToo ∧
      final.heap.fields id = after.fields ∧ finalToo.heap.fields id = after.fields := by
  have admitsToo : table.qualify.Admits (other.heap.fields id) := by
    rw [fields]
    exact ⟨admits.distinct, fun name listed => table.taken_qualify ▸ admits.free name listed,
      admits.definite⟩
  have views : (engine.fieldView id).Clear (engine.heap.fields id).names (other.fieldView id) :=
    ⟨rfl, fields, rfl, calls, rfl, rfl⟩
  -- The arguments are the same ones.
  have alikes : List.Forall₂ (Arg.Alike (engine.heap.fields id).names) args args :=
    List.forall₂_same.mpr fun arg _ => ⟨rfl, rfl, fun _ => .inl rfl⟩
  obtain ⟨same, left, toldToo, viewsToo, ends⟩ := method.tellCall_carries
    (table.tell_qualifies engine.config _ depth) alikes _ _ views _ _ told
  obtain rfl := ends.eq
  rw [← config] at toldToo
  obtain ⟨final, ran, held⟩ := callFunction_told typeTag ready admits told
  obtain ⟨finalToo, ranToo, heldToo⟩ := callFunction_told typeTag readyToo admitsToo toldToo
  exact ⟨final, finalToo, ran, ranToo, held, heldToo.trans viewsToo.fields⟩

/-- The field of a counter. -/
def counterField : Ident := ⟨"n".toList, by decide, by decide⟩

/-- A method that counts by the bare name of the field. -/
def countUp : Method where
  name := ⟨"up".toList, by decide, by decide⟩
  params := []
  body := [.step .bare counterField ⟨.unary "++" (Action.step 1), by simp [preludeActions], rfl⟩]
  site := ⟨"main", 1⟩

/-- A method that counts twice by calls of another and reads the field through `this`. -/
def countTwice : Method where
  name := ⟨"twice".toList, by decide, by decide⟩
  params := []
  body := [.evaluate (.call .qualified countUp.name []), .evaluate (.call .bare countUp.name []),
    .giveBack (.field .qualified counterField)]
  site := ⟨"main", 2⟩

/-- The methods of a counter. -/
def counterMethods : MethodTable := ⟨"Counter", none, [countUp, countTwice]⟩

/-- A new interpreter with a counter that has these methods. -/
def counterHolder (table : MethodTable) : Engine :=
  { Engine.new {} {} with
    heap := { instances := #[⟨{ name := "Counter", methods := table.definitions }, "Counter#1",
      .ofList [("n", .number 0)]⟩] } }

/-- The symbols of a new interpreter leave methods their names. -/
theorem plain_new : (Engine.new {} {}).symbols.Plain := by
  refine ⟨rfl, by decide, fun word member => ⟨fun _ => rfl, fun _ => rfl, ?_⟩⟩
  simp only [MethodTable.keywords, List.mem_cons, List.not_mem_nil, or_false] at member
  rcases member with rfl | rfl | rfl <;> exact ⟨rfl, rfl⟩

/-- A counter in a new interpreter is ready for its methods, if their names are distinct. -/
theorem ready_counterHolder (distinct : table.taken.Nodup) : (counterHolder table).Ready table 0 :=
  ⟨⟨rfl, rfl⟩, rfl, plain_new, Nat.le_refl 0, ⟨_, rfl, rfl⟩, distinct⟩

/-- Whether a value is a certain number. -/
def isNumber (x : Float) (value : Value) : Bool := value.isDefinite && value == .number x

theorem eq_of_isNumber {x : Float} {value : Value} (definite : (Value.number x).isDefinite = true)
    (holds : isNumber x value = true) : value = .number x := by
  rw [isNumber, Bool.and_eq_true] at holds
  exact Value.eq_of_isDefinite holds.1 definite holds.2

/-- The counter counts to two, by either way of access. -/
theorem bare_fields_agree_with_qualified_counter :
    ∃ final finalToo,
      callFunction (evaluator 9) (counterMethods.function countTwice) []
          (some (.ofData (.object ⟨"Counter", .scripted 0⟩))) (counterHolder counterMethods) =
        .finished (.ok (.number 2)) final ∧
      callFunction (evaluator 9) (counterMethods.qualify.function countTwice.qualify) []
          (some (.ofData (.object ⟨"Counter", .scripted 0⟩))) (counterHolder counterMethods.qualify) =
        .finished (.ok (.number 2)) finalToo ∧
      (final.heap.fields 0).get? "n" = some (.number 2) ∧
      (finalToo.heap.fields 0).get? "n" = some (.number 2) := by
  have definite : (Value.number 2).isDefinite = true := by decide +kernel
  have distinct : counterMethods.taken.Nodup := by decide +kernel
  have admits : counterMethods.Admits ((counterHolder counterMethods).heap.fields 0) := by
    refine ⟨by decide +kernel, by decide +kernel, fun name value found => ?_⟩
    obtain ⟨before, behind, same, _⟩ := List.lookup_eq_some_iff.mp found
    have listed : (name, value) ∈ ((counterHolder counterMethods).heap.fields 0).entries := by simp [same]
    cases List.mem_singleton.mp listed
    decide +kernel
  -- What is told of the call is found by telling it.
  have told : (countTwice.tellCall counterMethods (counterHolder counterMethods).config
      (counterMethods.tell (counterHolder counterMethods).config 9) []
      ((counterHolder counterMethods).fieldView 0)).any (fun ending =>
        ending.1.toOption.any (isNumber 2) && (ending.2.fields.get? "n").any (isNumber 2)) = true := by
    decide +kernel
  obtain ⟨⟨result, after⟩, told, holds⟩ := Option.any_eq_true _ _ |>.mp told
  rw [Bool.and_eq_true] at holds
  obtain ⟨value, ended, two⟩ := Option.any_eq_true _ _ |>.mp holds.1
  obtain ⟨field, held, twoToo⟩ := Option.any_eq_true _ _ |>.mp holds.2
  cases eq_of_isNumber definite two
  cases eq_of_isNumber definite twoToo
  cases result with
  | error stop => cases ended
  | ok value =>
    cases ended
    obtain ⟨final, finalToo, ran, ranToo, fields, fieldsToo⟩ :=
      bare_fields_agree_with_qualified (ready_counterHolder distinct)
        (ready_counterHolder (counterMethods.taken_qualify ▸ distinct)) admits rfl rfl rfl told
    exact ⟨final, finalToo, ran, ranToo, fields ▸ held, fieldsToo ▸ held⟩

end ScriptEngine
