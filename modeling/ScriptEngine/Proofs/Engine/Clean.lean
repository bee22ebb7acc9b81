import ScriptEngine.Eval.Class
import ScriptEngine.Eval.Native
import ScriptEngine.Proofs.Value.Clean

/-! Interpreters that hold no control signal in any binding, and the changes that keep it so. -/

namespace ScriptEngine

/-- The fields of a class start with clean values. -/
def ClassDef.Clean (definition : ClassDef) : Prop :=
  ∀ entry ∈ definition.defaults.entries, entry.2.Clean

/-- A binding holds no control signal and leads to no code of the host. -/
def Handler.Clean : Handler → Prop
  | .variable value => value.Clean
  | .classDef definition => definition.Clean
  | .native callee => ∃ builtin, callee.body = .builtin builtin
  | .compiled _ => False
  | _ => True

/-- All bindings of a scope are clean. -/
def CleanNames (names : OrderedMap Handler) : Prop := ∀ entry ∈ names.entries, entry.2.Clean

/-- All bindings in the frames of a stack are clean. -/
def ScopeStack.Clean (stack : ScopeStack) : Prop := ∀ frame ∈ stack.frames, CleanNames frame.names

/-- An action makes a sound value of sound ones. -/
def Action.Sound (action : Action) : Prop :=
  ∀ current operand value, current.Sound → operand.Sound →
    action.apply current operand = .ok value → value.Sound

/-- All shared bindings are clean. -/
structure SymbolTable.Clean (symbols : SymbolTable) : Prop where
  globals : CleanNames symbols.globals
  natives : CleanNames symbols.natives
  fileLocals : ∀ scope ∈ symbols.fileLocals.entries, CleanNames scope.2
  namespaces : ∀ scope ∈ symbols.namespaces.entries, CleanNames scope.2
  actions : ∀ entry ∈ symbols.actions.entries, entry.2.Sound

/-- An instance has clean fields, and so have the new instances of its class. -/
structure Instance.Clean (object : Instance) : Prop where
  fields : ∀ entry ∈ object.fields.entries, entry.2.Clean
  definition : object.definition.Clean

/-- All instances are clean. -/
def Heap.Clean (heap : Heap) : Prop := ∀ object ∈ heap.instances, object.Clean

/-- What a worker has computed is sound. -/
def Worker.Sound (worker : Worker) : Prop :=
  ∀ value, worker.result = some (.ok value) → value.Sound

/-- No binding, field or element that an interpreter stores is or holds a control signal. -/
structure Engine.Clean (engine : Engine) : Prop where
  symbols : engine.symbols.Clean
  heap : engine.heap.Clean
  stack : engine.stack.Clean
  hostTypes : engine.hostTypes = .empty
  compiler : engine.compiler = none
  workers : ∀ worker ∈ engine.workers, worker.Sound
  launched : ∀ launch ∈ engine.launched, launch.stack.Clean

/-- What a signal to return holds is no signal but that to quit, unless a signal has been the operand
of a `return`. -/
def Engine.Vouches (engine : Engine) (value : Value) : Prop :=
  ∀ held, value = .returnSignal held → held.isSignal = true →
    held.quitCode?.isSome = true ∨ .returned ∈ engine.signalUses

/-- A phrase may yield a value in an interpreter. -/
def Engine.Trusts (engine : Engine) (value : Value) : Prop := value.Sound ∧ engine.Vouches value

/-- A clean interpreter vouches for the results of its workers. -/
structure Engine.Neat (engine : Engine) : Prop extends engine.Clean where
  results : ∀ worker ∈ engine.workers, ∀ value, worker.result = some (.ok value) →
    engine.Vouches value

/-- A clean binding that holds a value holds a clean one. -/
theorem Handler.Clean.value {handler : Handler} (clean : handler.Clean) {value : Value}
    (held : handler.value? = some value) : value.Clean := by
  unfold Handler.value? at held
  split at held
  · cases held
    exact clean
  · cases held

namespace CleanNames

variable {names : OrderedMap Handler}

/-- A scope without bindings is clean. -/
theorem empty : CleanNames .empty := by simp [CleanNames, OrderedMap.empty]

/-- A binding that is found in a clean scope is clean. -/
theorem get (clean : CleanNames names) {name : String} {handler : Handler}
    (found : names.get? name = some handler) : handler.Clean :=
  clean _ (OrderedMap.mem_of_get? found)

/-- A scope keeps clean under a clean new binding. -/
theorem insert (clean : CleanNames names) (name : String) {handler : Handler} (new : handler.Clean) :
    CleanNames (names.insert name handler) := by
  intro entry member
  rcases OrderedMap.mem_insert member with rfl | old
  · exact new
  · exact clean entry old

/-- A scope that is found by its name in a clean table of scopes, or a new one, is clean. -/
theorem scope {scopes : OrderedMap (OrderedMap Handler)}
    (clean : ∀ scope ∈ scopes.entries, CleanNames scope.2) (name : String) :
    CleanNames ((scopes.get? name).getD .empty) := by
  cases found : scopes.get? name with
  | none => exact empty
  | some names => exact clean _ (OrderedMap.mem_of_get? found)

/-- A table of scopes keeps clean when one of them is replaced by a clean one. -/
theorem insertScope {scopes : OrderedMap (OrderedMap Handler)}
    (clean : ∀ scope ∈ scopes.entries, CleanNames scope.2) (name : String)
    (new : CleanNames names) :
    ∀ scope ∈ (scopes.insert name names).entries, CleanNames scope.2 := by
  intro scope member
  rcases OrderedMap.mem_insert member with rfl | old
  · exact new
  · exact clean scope old

end CleanNames

/-- The action that is found at the start of a text is one of the table, and its token stands there. -/
theorem SymbolTable.matchAction?_found {symbols : SymbolTable} {text : List Char} {action : Action}
    (found : symbols.matchAction? text = some action) :
    action ∈ symbols.actions.values ∧ matchesToken text action.token = true := by
  -- The search keeps the best action so far.
  refine List.foldlRecOn
    (motive := fun best : Option Action => ∀ action, best = some action →
      action ∈ symbols.actions.values ∧ matchesToken text action.token = true)
    symbols.actions.values _ (b := none) (by simp) ?_ action found
  intro best known candidate member action
  split
  case isTrue fits =>
    split
    · split
      · rintro ⟨⟩
        exact ⟨member, fits⟩
      · exact known action
    · rintro ⟨⟩
      exact ⟨member, fits⟩
  case isFalse => exact known action

namespace SymbolTable.Clean

variable {symbols : SymbolTable}

/-- A binding that is found in a scope of a clean table of scopes is clean. -/
theorem getScope {scopes : OrderedMap (OrderedMap Handler)}
    (clean : ∀ scope ∈ scopes.entries, CleanNames scope.2) {scope name : String} {handler : Handler}
    (found : (scopes.get? scope).bind (·.get? name) = some handler) : handler.Clean := by
  obtain ⟨names, there, bound⟩ := Option.bind_eq_some_iff.mp found
  exact CleanNames.get (clean _ (OrderedMap.mem_of_get? there)) bound

/-- A clean global keeps the shared bindings clean. -/
theorem setGlobal (clean : symbols.Clean) (name : String) {handler : Handler}
    (new : handler.Clean) : (symbols.setGlobal name handler).Clean :=
  { clean with globals := clean.globals.insert name new }

/-- A clean native keeps the shared bindings clean. -/
theorem setNative (clean : symbols.Clean) (name : String) {handler : Handler}
    (new : handler.Clean) : (symbols.setNative name handler).Clean :=
  { clean with natives := clean.natives.insert name new }

/-- A clean binding in the scope of a file keeps the shared bindings clean. -/
theorem setFileLocal (clean : symbols.Clean) (file name : String) {handler : Handler}
    (new : handler.Clean) : (symbols.setFileLocal file name handler).Clean :=
  { clean with
    fileLocals := CleanNames.insertScope clean.fileLocals file
      ((CleanNames.scope clean.fileLocals file).insert name new) }

/-- A clean binding in a namespace keeps the shared bindings clean. -/
theorem setNamespaced (clean : symbols.Clean) (scope name : String) {handler : Handler}
    (new : handler.Clean) : (symbols.setNamespaced scope name handler).Clean :=
  { clean with
    namespaces := CleanNames.insertScope clean.namespaces scope
      ((CleanNames.scope clean.namespaces scope).insert name new) }

/-- A new namespace keeps the shared bindings clean. -/
theorem ensureNamespace (clean : symbols.Clean) (scope : String) :
    (symbols.ensureNamespace scope).Clean := by
  unfold SymbolTable.ensureNamespace
  split
  · exact clean
  · exact { clean with
      namespaces := CleanNames.insertScope clean.namespaces scope CleanNames.empty }

/-- A sound action keeps the shared bindings clean. -/
theorem setAction (clean : symbols.Clean) {action : Action} (sound : action.Sound) :
    (symbols.setAction action).Clean := by
  refine { clean with actions := fun entry member => ?_ }
  rcases OrderedMap.mem_insert member with rfl | old
  · exact sound
  · exact clean.actions entry old

/-- The action that is found at the start of a text is sound. -/
theorem matchAction (clean : symbols.Clean) {text : List Char} {action : Action}
    (found : symbols.matchAction? text = some action) : action.Sound := by
  obtain ⟨entry, there, rfl⟩ := List.mem_map.mp (SymbolTable.matchAction?_found found).1
  exact clean.actions entry there

end SymbolTable.Clean

namespace ScopeStack.Clean

variable {stack : ScopeStack}

/-- The active frame of a clean stack is clean. -/
theorem active (clean : stack.Clean) {frame : Frame} (active : stack.active? = some frame) :
    CleanNames frame.names := by
  unfold ScopeStack.active? at active
  split at active
  · exact clean frame (List.mem_of_head? active)
  · cases active

/-- A new frame keeps a stack clean. -/
theorem push (clean : stack.Clean) (kind : FrameKind) : (stack.push kind).1.Clean := by
  intro frame member
  rcases List.mem_cons.mp member with rfl | old
  · exact CleanNames.empty
  · exact clean frame old

/-- A stack keeps clean when a frame is removed. -/
theorem pop (clean : stack.Clean) (id : Nat) : (stack.pop id).Clean :=
  fun frame member => clean frame (List.mem_of_mem_eraseP member)

/-- A stack keeps clean under a change that keeps its active frame clean. -/
theorem modifyActive (clean : stack.Clean) {change : Frame → Frame}
    (keeps : ∀ frame, CleanNames frame.names → CleanNames (change frame).names) :
    (stack.modifyActive change).Clean := by
  unfold ScopeStack.modifyActive
  split
  case h_1 active outer same =>
    -- Only a frame above the threshold is changed.
    split
    · intro frame member
      rcases List.mem_cons.mp member with rfl | old
      · exact keeps active (clean active (by simp [same]))
      · exact clean frame (by simp [same, old])
    · exact clean
  case h_2 => exact clean

/-- The stack that a worker starts with is clean. -/
theorem fork (clean : stack.Clean) : stack.fork.Clean := by
  intro frame member
  rw [List.mem_singleton.mp member]
  cases active : stack.active? with
  | none => exact CleanNames.empty
  | some found =>
    simp only [Option.map_some, Option.getD_some]
    exact clean.active active

end ScopeStack.Clean

/-- The names that a method starts with are clean if its receiver is. -/
theorem CleanNames.seed {frame : Frame} {object : Instance} {this : Value}
    (clean : CleanNames frame.names) (objectClean : object.Clean) (thisClean : this.Clean) :
    CleanNames (frame.seed object this).names := by
  unfold Frame.seed
  have receiver : (Handler.variable this).Clean := thisClean
  refine CleanNames.insert ?_ "this" receiver
  refine List.foldlRecOn (motive := fun frame : Frame => CleanNames frame.names) _ _ ?_
    fun _ known entry member => known.insert entry.1 (objectClean.fields entry member)
  exact List.foldlRecOn (motive := fun frame : Frame => CleanNames frame.names) _ _ clean
    fun _ known entry _ => known.insert entry.1 trivial

namespace ClassDef.Clean

variable {definition : ClassDef}

/-- A class without fields is clean. -/
theorem new (name : String) (bases : List String) : ClassDef.Clean { name, bases } := by
  simp [ClassDef.Clean, OrderedMap.empty]

/-- A field that starts with a clean value keeps a class clean. -/
theorem addField (clean : definition.Clean) (name : String) {value : Value} (new : value.Clean) :
    (definition.addField name value).Clean := by
  intro entry member
  rcases OrderedMap.mem_insert member with rfl | old
  · exact new
  · exact clean entry old

/-- Declaring a method changes no field of a class. -/
theorem defaults_addMethod (definition : ClassDef) (method : ScriptFunction) :
    (definition.addMethod method).defaults = definition.defaults := by
  unfold ClassDef.addMethod
  split
  · exact List.foldlRecOn
      (motive := fun changed : ClassDef => changed.defaults = definition.defaults) _ _ rfl
      fun _ known _ _ => known
  · rfl

/-- A method keeps a class clean. -/
theorem addMethod (clean : definition.Clean) (method : ScriptFunction) :
    (definition.addMethod method).Clean := by
  unfold ClassDef.Clean
  rw [defaults_addMethod]
  exact clean

/-- Taking over the members of a clean class keeps a class clean. -/
theorem inherit (clean : definition.Clean) {base : ClassDef} (baseClean : base.Clean) :
    (definition.inherit base).Clean :=
  OrderedMap.forall_foldl_insert (p := Value.Clean) baseClean clean

end ClassDef.Clean

namespace Heap.Clean

variable {heap : Heap}

/-- The fields that are found in a clean heap are clean. -/
theorem field (clean : heap.Clean) {id : Nat} {name : String} {value : Value}
    (found : (heap.fields id).get? name = some value) : value.Clean := by
  unfold Heap.fields at found
  cases there : heap.instances[id]? with
  | none =>
    rw [there] at found
    cases found
  | some object =>
    rw [there] at found
    exact (clean object (Array.mem_of_getElem? there)).fields _ (OrderedMap.mem_of_get? found)

/-- Storing a clean field keeps a heap clean. -/
theorem setField (clean : heap.Clean) (id : Nat) (name : String) {value : Value}
    (new : value.Clean) : (heap.setField id name value).Clean := by
  -- The object is at a place of the old heap.
  intro object member
  obtain ⟨place, within, same⟩ := Array.mem_iff_getElem.mp member
  simp only [Heap.setField, Array.size_modify] at within
  simp only [Heap.setField, Array.getElem_modify] at same
  have before := clean heap.instances[place] (Array.getElem_mem within)
  split at same
  · subst same
    refine ⟨fun entry stored => ?_, before.definition⟩
    rcases OrderedMap.mem_insert stored with rfl | old
    · exact new
    · exact before.fields entry old
  · rwa [← same]

/-- A new instance of a clean class keeps a heap clean. -/
theorem instantiate (clean : heap.Clean) {definition : ClassDef}
    (definitionClean : definition.Clean) : (heap.instantiate definition).1.Clean := by
  intro object member
  rcases Array.mem_push.mp member with old | rfl
  · exact clean object old
  · exact ⟨definitionClean, definitionClean⟩

end Heap.Clean

namespace Engine.Clean

variable {engine : Engine}

/-- What a name stands for in a clean interpreter is clean. -/
theorem resolve (clean : engine.Clean) {name file : String} {handler : Handler}
    (found : engine.resolve? name file = some handler) : handler.Clean := by
  have namespaced : ∀ {scope name handler}, engine.symbols.namespaced? scope name = some handler →
      handler.Clean := fun bound => SymbolTable.Clean.getScope clean.symbols.namespaces bound
  unfold Engine.resolve? at found
  split at found
  · obtain ⟨⟨scope, member⟩, _, bound⟩ := Option.bind_eq_some_iff.mp found
    exact namespaced bound
  · simp only [Option.or_eq_some_iff, Option.bind_eq_some_iff, Option.map_eq_some_iff] at found
    -- The scopes are gone through in the order in which they are searched.
    rcases found with (((⟨frame, active, bound⟩ | ⟨_, bound⟩) | ⟨_, bound⟩) | ⟨_, bound⟩) |
      ⟨_, keyword, _, rfl⟩
    · unfold Engine.inFrame? at bound
      split at bound
      · exact namespaced bound
      · rcases Option.or_eq_some_iff.mp bound with here | ⟨_, there⟩
        · exact (clean.stack.active active).get here
        · exact namespaced there
      · exact (clean.stack.active active).get bound
    · exact SymbolTable.Clean.getScope clean.symbols.fileLocals bound
    · exact clean.symbols.globals.get bound
    · exact clean.symbols.natives.get bound
    · trivial

/-- A variable of a clean interpreter has a clean value. -/
theorem valueOf (clean : engine.Clean) {name file : String} {value : Value}
    (found : engine.valueOf? name file = some value) : value.Clean := by
  obtain ⟨handler, bound, held⟩ := Option.bind_eq_some_iff.mp found
  exact (clean.resolve bound).value held

/-- A class of a clean interpreter is clean. -/
theorem class_clean (clean : engine.Clean) {name file : String} {definition : ClassDef}
    (found : engine.class? name file = some definition) : definition.Clean := by
  unfold Engine.class? at found
  split at found
  case h_1 bound =>
    cases found
    exact clean.resolve bound
  case h_2 => cases found

/-- The binding at a target of a clean interpreter is clean. -/
theorem at_clean (clean : engine.Clean) {name file : String} {target : Target} {handler : Handler}
    (found : engine.at? name file target = some handler) : handler.Clean := by
  cases target with
  | frame =>
    obtain ⟨frame, active, bound⟩ := Option.bind_eq_some_iff.mp found
    exact (clean.stack.active active).get bound
  | namespaced scope member => exact SymbolTable.Clean.getScope clean.symbols.namespaces found
  | fileLocal => exact SymbolTable.Clean.getScope clean.symbols.fileLocals found
  | global => exact clean.symbols.globals.get found

/-- An instance of a clean interpreter is clean. -/
theorem instance_clean (clean : engine.Clean) {id : Nat} {object : Instance}
    (found : engine.heap.instances[id]? = some object) : object.Clean :=
  clean.heap object (Array.mem_of_getElem? found)

end Engine.Clean

namespace Engine.Neat

variable {engine : Engine}

/-- The results of workers are trusted. -/
theorem trusts (neat : engine.Neat) {worker : Worker} (member : worker ∈ engine.workers)
    {value : Value} (result : worker.result = some (.ok value)) : engine.Trusts value :=
  ⟨neat.workers worker member value result, neat.results worker member value result⟩

/-- The result of a worker that is done is trusted. -/
theorem resultOf (neat : engine.Neat) {id : Nat} {value : Value}
    (found : engine.resultOf? id = some (.ok value)) : engine.Trusts value := by
  obtain ⟨worker, there, result⟩ := Option.bind_eq_some_iff.mp found
  exact neat.trusts (List.mem_of_find?_eq_some there) result

/-- Other workers with trusted results keep an interpreter neat. -/
theorem withWorkers (neat : engine.Neat) (workers : List Worker)
    (trusts : ∀ worker ∈ workers, ∀ value, worker.result = some (.ok value) → engine.Trusts value) :
    ({ engine with workers } : Engine).Neat :=
  { neat with
    workers := fun worker member value result => (trusts worker member value result).1
    results := fun worker member value result => (trusts worker member value result).2 }

end Engine.Neat

namespace Engine.Trusts

variable {engine : Engine} {value : Value}

/-- A trusted value is sound. -/
theorem sound (trusts : engine.Trusts value) : value.Sound := trusts.1

/-- What is no signal to return is trusted if it is sound. -/
theorem of_sound (sound : value.Sound) (other : ∀ held, value ≠ .returnSignal held) :
    engine.Trusts value :=
  ⟨sound, fun held same => absurd same (other held)⟩

/-- A value that is no signal is trusted if it is sound. -/
theorem of_plain (sound : value.Sound) (plain : value.isSignal = false) : engine.Trusts value := by
  refine of_sound sound ?_
  rintro held rfl
  cases plain

/-- A clean value is trusted. -/
theorem of_clean (clean : value.Clean) : engine.Trusts value := of_plain (.clean clean) clean.plain

/-- A signal to quit is trusted. -/
theorem quitSignal (code : Int) : engine.Trusts (.quitSignal code) :=
  of_sound (.quitSignal code) (by simp [Value.quitSignal, Value.returnSignal, Value.ofData])

/-- A signal to return that a signal to quit is in is trusted. -/
theorem returnSignal_quit {code : Int} (quits : value.quitCode? = some code)
    (trusts : engine.Trusts value) : engine.Trusts (.returnSignal value) := by
  refine ⟨.returnSignal trusts.sound, fun held same _ => .inl ?_⟩
  cases same
  rw [quits]
  rfl

/-- What a trusted signal to return holds is trusted. -/
theorem held (trusts : engine.Trusts (.returnSignal value)) : engine.Trusts value := by
  have sound : value.Sound := trusts.sound.outcome
  refine ⟨sound, fun held same signal => ?_⟩
  subst same
  exact (trusts.2 _ rfl rfl).imp_left fun quits => by cases quits

/-- What a trusted value hands out at the end of a call is trusted. -/
theorem outcome (trusts : engine.Trusts value) : engine.Trusts value.outcome := by
  cases trusts.sound with
  | clean clean => rwa [Value.outcome_of_plain clean.plain]
  | breakSignal => exact of_clean Value.clean_null
  | continueSignal => exact of_clean Value.clean_null
  | quitSignal code => exact trusts
  | returnSignal _ => exact trusts.held

/-- Taking a value out of a return signal keeps it trusted. -/
theorem returned (trusts : engine.Trusts value) : engine.Trusts value.returned := by
  cases trusts.sound with
  | clean clean => rwa [Value.returned_of_plain clean.plain]
  | breakSignal => exact trusts
  | continueSignal => exact trusts
  | quitSignal code => exact trusts
  | returnSignal _ => exact trusts.held

/-- What a trusted value stands for as a statement is trusted. -/
theorem signalOrNull (trusts : engine.Trusts value) : engine.Trusts value.signalOrNull := by
  unfold Value.signalOrNull
  split
  · exact trusts
  · exact of_clean Value.clean_null

end Engine.Trusts

end ScriptEngine
