import ScriptEngine.Proofs.Ends
import ScriptEngine.Proofs.Fields.State

/-! The stages of a call: its frame is filled with the members of the receiver, its arguments are bound
there, its body runs, and what it has changed goes back to the receiver. -/

namespace ScriptEngine

variable {allows : Engine → Engine → Prop} {eval : Evaluator} {start final : Engine}
  {function : ScriptFunction} {bound : Bound} {receiver : Option Value}

/-! The frame of a call. -/

namespace Engine

/-- What a name stands for in the active frame. -/
def local? (engine : Engine) (name : String) : Option Handler :=
  engine.stack.active?.bind (·.names.get? name)

/-- The instance that a receiver is. -/
def instance? (engine : Engine) (this : Value) : Option Instance :=
  this.instanceId?.bind (engine.heap.instances[·]?)

/-- An interpreter whose active frame shows the members of a receiver. -/
def showing (engine : Engine) (receiver : Option Value) : Engine :=
  match receiver.bind fun this => (engine.instance? this).map (·, this) with
  | some (object, this) => { engine with stack := engine.stack.modifyActive (·.seed object this) }
  | none => engine

/-- An interpreter in which a call has been recorded, with a frame for it. -/
def opened (engine : Engine) (function : ScriptFunction) : Engine :=
  let recorded := engine.recordCall function.name
  { recorded with stack := (recorded.stack.push (.call function.name function.scope)).1 }

/-- An interpreter in which a call has been recorded and its frame shows the members of its receiver. -/
def entered (engine : Engine) (function : ScriptFunction) (receiver : Option Value) : Engine :=
  (engine.opened function).showing receiver

/-- The fields of a receiver. -/
def fieldsOf (engine : Engine) (this : Value) : OrderedMap Value :=
  ((engine.instance? this).map (·.fields)).getD .empty

/-- An interpreter behind the body of a call, where the receiver has been given back what the body has
changed of the fields that it had at the start. -/
def returned (ended start : Engine) (function : ScriptFunction) : Option Value → Engine
  | none => ended
  | some this => ended.writeBack this (start.fieldsOf this) function.params

end Engine

/-- The names that the frame of a method is given. -/
theorem Frame.names_seed (frame : Frame) (object : Instance) (this : Value) :
    (frame.seed object this).names =
      ((frame.names.insertAll Handler.function object.definition.methods.entries).insertAll
        Handler.variable object.fields.entries).insert "this" (.variable this) := by
  -- Each row of members is defined one by one.
  have row : ∀ {α : Type} (shape : α → Handler) (entries : List (String × α)) (frame : Frame),
      (entries.foldl (fun frame entry => frame.define entry.1 (shape entry.2)) frame).names =
        frame.names.insertAll shape entries :=
    fun _ _ _ => (List.foldl_hom Frame.names fun _ _ => rfl).symm
  have methods := row Handler.function object.definition.methods.entries frame
  have fields := row Handler.variable object.fields.entries
  exact congrArg (·.insert "this" (.variable this))
    ((fields _).trans (congrArg (·.insertAll Handler.variable object.fields.entries) methods))

/-- The members of a receiver are shown at once. -/
theorem seedMethod_eq (this : Value) (engine : Engine) :
    seedMethod this engine =
      .finished (.ok (engine.fieldsOf this)) (engine.showing (some this)) := by
  unfold seedMethod Engine.showing Engine.fieldsOf Engine.instance?
  rw [Eval.get_bind, Option.bind_some]
  cases this.instanceId?.bind (engine.heap.instances[·]?) <;> rfl

/-- What a call runs in its frame ends as the binding of its arguments and its body do. -/
theorem mayEnd_runCallee {engine : Engine} {outcome : Except Stop Value} :
    (runCallee eval function bound receiver engine).MayEnd allows outcome final ↔
      ∃ ended, (runBody eval function bound (engine.showing receiver)).MayEnd allows outcome ended ∧
        final = ended.returned engine function receiver := by
  -- Without a receiver, nothing is given back.
  cases receiver with
  | none =>
    refine ⟨fun ends => ⟨final, ends, rfl⟩, ?_⟩
    rintro ⟨ended, ends, rfl⟩
    exact ends
  | some this =>
    have seeded : runCallee eval function bound (some this) engine =
        Eval.closing (runBody eval function bound)
          (·.writeBack this (engine.fieldsOf this) function.params) (engine.showing (some this)) :=
      Eval.bind_ok (seedMethod_eq this engine) _
    rw [seeded]
    exact Eval.mayEnd_closing

/-- A call whose arguments are bound is recorded, unless there are too many, and runs in a frame. -/
theorem callFunction_admitted {args : List Arg}
    (binds : bindArgs function.name function.params args = .ok bound)
    (room : start.calls.length < start.config.maxCallDepth) :
    callFunction eval function args receiver start =
      (do
        let value ← Eval.inFrame function.name <| Eval.closing
          (Eval.withFrame (.call function.name function.scope) (runCallee eval function bound receiver))
          Engine.exitCall
        return value.outcome : Eval Value) (start.recordCall function.name) := by
  have admitted : enterCall function.name start = .finished (.ok ()) (start.recordCall function.name) := by
    unfold enterCall
    rw [Eval.get_bind, if_neg (Nat.not_le.mpr room)]
    rfl
  unfold callFunction
  rw [binds, Eval.ofResult, pure_bind, Eval.bind_ok admitted]

/-- A call whose arguments are bound ends as the binding and the body in its frame end, behind which
its receiver gets its fields back. -/
theorem callFunction_ends {args : List Arg} {result : Except Stop Value}
    (binds : bindArgs function.name function.params args = .ok bound)
    (room : start.calls.length < start.config.maxCallDepth)
    (ends : (callFunction eval function args receiver start).MayEnd allows result final) :
    ∃ outcome ended,
      (runBody eval function bound (start.entered function receiver)).MayEnd allows outcome ended ∧
        final.heap = (ended.returned start function receiver).heap := by
  rw [callFunction_admitted binds room] at ends
  obtain ⟨first, whole, _⟩ := Eval.mayEnd_map.mp ends
  obtain ⟨outcome, exited, log, noted, rfl⟩ := Eval.mayEnd_inFrame whole
  obtain ⟨popped, called, rfl⟩ := Eval.mayEnd_closing.mp noted
  obtain ⟨left, ran, rfl⟩ := Eval.mayEnd_withFrame.mp called
  obtain ⟨ended, body, rfl⟩ := mayEnd_runCallee.mp ran
  refine ⟨outcome, ended, body, ?_⟩
  cases receiver <;> rfl

/-! What goes back to the receiver. -/

/-- The value that a call gives back for a field: what its name stands for in the frame, unless a
parameter has that name or the field had an equal value at the start. -/
def Frame.givesBack? (frame : Frame) (seeded : OrderedMap Value) (params : List Param)
    (field : String) : Option Value :=
  if params.any (·.name == field) then none
  else match frame.names.get? field with
    | some (.variable now) =>
      if seeded.entries.any fun entry => entry.1 == field && !(now == entry.2) then some now else none
    | _ => none

namespace Frame

variable {frame : Frame} {rest : List (String × Value)} {params : List Param} {name field : String}
  {before now other : Value}

/-- No field goes back if there was none at the start. -/
theorem givesBack?_nil : frame.givesBack? ⟨[]⟩ params field = none := by
  unfold givesBack?
  split
  · rfl
  · split <;> rfl

/-- What goes back is what the name stands for. -/
theorem givesBack?_variable {seeded : OrderedMap Value}
    (copied : frame.names.get? field = some (.variable now))
    (given : frame.givesBack? seeded params field = some other) : other = now := by
  unfold givesBack? at given
  rw [copied] at given
  split at given
  · cases given
  · dsimp only at given
    split at given
    · exact (Option.some.inj given).symm
    · cases given

/-- A value goes back that the field did not have at the start. -/
theorem givesBack?_first (copied : frame.names.get? field = some (.variable now))
    (free : params.any (·.name == field) = false) (differs : (now == before) = false) :
    frame.givesBack? ⟨(field, before) :: rest⟩ params field = some now := by
  simp [givesBack?, copied, free, differs]

/-- An entry of another field, or with an equal value, makes nothing go back. -/
theorem givesBack?_behind (unchanged : field = name → ∀ now, frame.names.get? field = some (.variable now) →
      params.any (·.name == field) = false → (now == before) = true) :
    frame.givesBack? ⟨(name, before) :: rest⟩ params field = frame.givesBack? ⟨rest⟩ params field := by
  unfold givesBack?
  by_cases free : params.any (·.name == field) = true
  · rw [if_pos free, if_pos free]
  · -- The field is not the one of the entry, or its copy is as it was.
    rw [if_neg free, if_neg free]
    split
    case h_1 now copied =>
      have equal : (name == field && !(now == before)) = false := by
        by_cases same : field = name
        · rw [unchanged same now copied (by simpa using free)]
          simp
        · simp [Ne.symm same]
      simp only [List.any_cons, equal, Bool.false_or]
    case h_2 => rfl

end Frame

/-- The heap behind a field that goes back to an instance if a method has changed its copy. -/
def Heap.takeBack (frame : Frame) (params : List Param) (id : Nat) (heap : Heap)
    (entry : String × Value) : Heap :=
  if params.any (·.name == entry.1) then heap
  else match frame.names.get? entry.1 with
    | some (.variable now) => if now == entry.2 then heap else heap.setField id entry.1 now
    | _ => heap

/-- The fields go back one by one, in the order that they had at the start. -/
theorem Engine.writeBack_eq {engine : Engine} {this : Value} {id : Nat} {frame : Frame}
    (receiver : this.instanceId? = some id) (active : engine.stack.active? = some frame)
    (seeded : OrderedMap Value) (params : List Param) :
    engine.writeBack this seeded params =
      { engine with heap := seeded.entries.foldl (Heap.takeBack frame params id) engine.heap } := by
  unfold writeBack
  simp only [receiver, active]
  rfl

/-- A field that is given back is stored. -/
theorem Heap.takeBack_stored {frame : Frame} {params : List Param} {name : String} {before now : Value}
    (copied : frame.names.get? name = some (.variable now)) (free : params.any (·.name == name) = false)
    (differs : (now == before) = false) (heap : Heap) (id : Nat) :
    heap.takeBack frame params id (name, before) = heap.setField id name now := by
  simp [takeBack, copied, free, differs]

/-- A field that is not given back is left alone. -/
theorem Heap.takeBack_kept {frame : Frame} {params : List Param} {name : String} {before : Value}
    (unchanged : ∀ now, frame.names.get? name = some (.variable now) →
      params.any (·.name == name) = false → (now == before) = true) (heap : Heap) (id : Nat) :
    heap.takeBack frame params id (name, before) = heap := by
  unfold takeBack
  by_cases free : params.any (·.name == name) = true
  · rw [if_pos free]
  · rw [if_neg free]
    split
    case h_1 now copied => exact if_pos (unchanged now copied (by simpa using free))
    case h_2 => rfl

/-- Behind a call, a field of its receiver is what the call has given back, or as the body left it. -/
theorem Heap.get?_takeBack {frame : Frame} {params : List Param} {id : Nat} {heap : Heap}
    {object : Instance} (present : heap.instances[id]? = some object)
    (entries : List (String × Value)) (field : String) :
    ((entries.foldl (Heap.takeBack frame params id) heap).fields id).get? field =
      (frame.givesBack? ⟨entries⟩ params field).or (object.fields.get? field) := by
  -- The induction is on the entries in their order; a later one of the same name is found first.
  induction entries generalizing heap object with
  | nil =>
    rw [Frame.givesBack?_nil, Option.none_or, List.foldl_nil, Heap.fields, present]
    rfl
  | cons entry rest ih =>
    obtain ⟨name, before⟩ := entry
    rw [List.foldl_cons]
    -- An entry that goes back is found unless one behind it goes back too.
    by_cases given : ∃ now, frame.names.get? name = some (.variable now) ∧
        params.any (·.name == name) = false ∧ (now == before) = false
    · obtain ⟨now, copied, free, other⟩ := given
      have stored : (heap.setField id name now).instances[id]? =
          some { object with fields := object.fields.insert name now } := by
        simp [Heap.setField, Array.getElem?_modify, present]
      rw [Heap.takeBack_stored copied free other, ih stored]
      by_cases same : field = name
      · subst same
        rw [Frame.givesBack?_first copied free other, OrderedMap.get?_insert_self]
        cases behind : frame.givesBack? ⟨rest⟩ params field with
        | none => rfl
        | some other => rw [Frame.givesBack?_variable copied behind]; rfl
      · rw [OrderedMap.get?_insert_of_ne _ _ same, Frame.givesBack?_behind fun here => absurd here same]
    · have unchanged : ∀ now, frame.names.get? name = some (.variable now) →
          params.any (·.name == name) = false → (now == before) = true := by
        intro now copied free
        by_contra other
        exact given ⟨now, copied, free, Bool.eq_false_iff.mpr other⟩
      rw [Heap.takeBack_kept unchanged, ih present, Frame.givesBack?_behind]
      rintro rfl
      exact unchanged

/-- A field that the body of a call has left alone is given back from the frame if no parameter has its
name and the value there is not equal to the one at the start. -/
theorem Engine.get?_returned {ended : Engine} {this now : Value} {id : Nat} {object : Instance}
    {field : String} (receives : this.instanceId? = some id)
    (there : start.heap.instances[id]? = some object) (known : field ∈ object.fields.names)
    (free : ∀ param ∈ function.params, param.name ≠ field)
    (copied : ended.local? field = some (.variable now))
    (untouched : (ended.heap.fields id).get? field = object.fields.get? field) :
    ((ended.returned start function (some this)).heap.fields id).get? field =
      if object.fields.entries.any fun entry => entry.1 == field && !(now == entry.2) then some now
      else object.fields.get? field := by
  obtain ⟨frame, active, copied⟩ := Option.bind_eq_some_iff.mp copied
  obtain ⟨old, before⟩ := OrderedMap.get?_of_mem_names known
  -- The instance is still there, since it has the field.
  obtain ⟨left, present⟩ : ∃ left, ended.heap.instances[id]? = some left := by
    refine Option.ne_none_iff_exists'.mp fun none => ?_
    rw [Heap.fields, none, before] at untouched
    cases untouched
  have same : left.fields.get? field = object.fields.get? field := by
    rwa [Heap.fields, present] at untouched
  have unparameterized : function.params.any (·.name == field) = false := by
    simpa using free
  have seeded : start.fieldsOf this = object.fields := by
    simp [fieldsOf, instance?, receives, there]
  rw [returned, seeded, writeBack_eq receives active, Heap.get?_takeBack present, same]
  simp only [Frame.givesBack?, unparameterized, copied, Bool.false_eq_true, if_false]
  split <;> rfl

end ScriptEngine
