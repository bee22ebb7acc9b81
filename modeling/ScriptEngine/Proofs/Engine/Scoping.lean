import ScriptEngine.Proofs.Engine.Binding

/-! The scopes that bind names. A name stands for the first binding among the scopes that are searched
for it, and a write changes one binding in one scope, which the name stands for from then on. -/

namespace ScriptEngine

namespace OrderedMap

/-- A binding in a map of maps changes no other binding. -/
theorem nested_insert_of_ne {α : Type} (maps : OrderedMap (OrderedMap α)) {scope name : String}
    (value : α) {otherScope otherName : String} (distinct : ¬(otherScope = scope ∧ otherName = name)) :
    ((maps.insert scope (((maps.get? scope).getD .empty).insert name value)).get? otherScope).bind
        (·.get? otherName) = (maps.get? otherScope).bind (·.get? otherName) := by
  by_cases same : otherScope = scope
  · subst same
    have apart : otherName ≠ name := fun equal => distinct ⟨rfl, equal⟩
    rw [get?_insert_self, Option.bind_some, get?_insert_of_ne _ _ apart]
    cases maps.get? otherScope <;> rfl
  · rw [get?_insert_of_ne _ _ same]

end OrderedMap

/-- A scope that binds names. -/
inductive Scope where
  /-- A frame of the running thread, counted from the innermost one outwards. -/
  | frame (level : Nat)
  | members (space : String)
  | file (name : String)
  | globals
  | natives
  deriving DecidableEq, Repr

/-- A name in a scope. -/
structure Slot where
  scope : Scope
  name : String
  deriving DecidableEq, Repr

namespace Engine

/-- What is bound in a slot. -/
def bound? (engine : Engine) (slot : Slot) : Option Handler :=
  match slot.scope with
  | .frame level => engine.stack.frames[level]?.bind (·.names.get? slot.name)
  | .members space => engine.symbols.namespaced? space slot.name
  | .file file => engine.symbols.fileLocal? file slot.name
  | .globals => engine.symbols.globals.get? slot.name
  | .natives => engine.symbols.natives.get? slot.name

/-- The scopes that belong to the active frame: a namespace block has its namespace alone, and a call
looks behind its own names into the namespace that its callee was defined in. -/
def frameScopes (engine : Engine) : List Scope :=
  match engine.stack.activeKind? with
  | some (.namespaceBlock space) => [.members space]
  | some (.call _ (some space)) => [.frame 0, .members space]
  | some _ => [.frame 0]
  | none => []

/-- The slots that a name can be assigned in, in the order in which they are searched. -/
def assignable (engine : Engine) (name file : String) : List Slot :=
  match SymbolTable.splitQualified? name with
  | some (space, member) => [⟨.members space, member⟩]
  | none => (engine.frameScopes ++ [Scope.file file, Scope.globals]).map (⟨·, name⟩)

/-- The slots that are searched for a name: behind those that can be assigned come the natives. -/
def searched (engine : Engine) (name file : String) : List Slot :=
  engine.assignable name file ++ if name.toList.contains '.' then [] else [⟨.natives, name⟩]

/-- The slot that a name is found in. -/
def found? (engine : Engine) (name file : String) : Option Slot :=
  (engine.searched name file).find? fun slot => (engine.bound? slot).isSome

/-- The slot of a new binding: in the namespace that a qualified name names, and else in the active
frame, in the namespace of the active block or among the globals. -/
def freshSlot (engine : Engine) (name : String) : Slot :=
  match SymbolTable.splitQualified? name with
  | some (space, member) => ⟨.members space, member⟩
  | none =>
    match engine.stack.activeKind? with
    | some (.namespaceBlock space) => ⟨.members space, name⟩
    | some _ => ⟨.frame 0, name⟩
    | none => ⟨.globals, name⟩

/-- The slot of a local name: in the active frame, in the namespace of the active block or in the
file. -/
def localSlot (engine : Engine) (name file : String) : Slot :=
  match engine.stack.activeKind? with
  | some (.namespaceBlock space) => ⟨.members space, name⟩
  | some _ => ⟨.frame 0, name⟩
  | none => ⟨.file file, name⟩

/-- The slot that an assignment to a name goes to. -/
inductive Destination (engine : Engine) (name file : String) : Slot → Prop where
  /-- The one that the name is found in, unless that is a native. -/
  | existing {slot : Slot} (found : engine.found? name file = some slot)
      (changeable : slot.scope ≠ .natives) : Destination engine name file slot
  /-- A new one, if the name is found nowhere but among the natives. -/
  | fresh (elsewhere : ∀ slot, engine.found? name file = some slot → slot.scope = .natives)
      (unbound : engine.bound? (engine.freshSlot name) = none) :
    Destination engine name file (engine.freshSlot name)

/-- A write of one slot: every other slot of every scope is bound as before, and all that is no binding
has stayed the same. -/
structure WritesOnly (before after : Engine) (slot : Slot) (handler : Handler) : Prop where
  written : after.bound? slot = some handler
  others : ∀ other, other ≠ slot → after.bound? other = before.bound? other
  frames : after.stack.frames.map (fun frame => (frame.id, frame.kind)) =
    before.stack.frames.map (fun frame => (frame.id, frame.kind))
  stack : after.stack = { before.stack with frames := after.stack.frames }
  actions : after.symbols.actions = before.symbols.actions
  rest : after = { before with stack := after.stack, symbols := after.symbols }

/-- A target can be written: the active frame only if there is one. -/
def Reaches (engine : Engine) (target : Target) : Prop :=
  target = .frame → ∃ frame, engine.stack.active? = some frame

end Engine

/-- The slot of a target. -/
def Target.slot (name file : String) : Target → Slot
  | .frame => ⟨.frame 0, name⟩
  | .namespaced space member => ⟨.members space, member⟩
  | .fileLocal => ⟨.file file, name⟩
  | .global => ⟨.globals, name⟩

namespace Engine

variable {engine : Engine} {name file : String} {handler : Handler}

/-- What is bound in the active frame is what the innermost frame binds. -/
theorem bound_innermost {frame : Frame} (active : engine.stack.active? = some frame)
    (name : String) : engine.bound? ⟨.frame 0, name⟩ = frame.names.get? name := by
  obtain ⟨outer, frames, -⟩ := ScopeStack.frames_of_active active
  simp [bound?, frames]

/-- What is bound at a target is what its slot holds. -/
theorem at_eq_bound {target : Target} (reaches : engine.Reaches target) :
    engine.at? name file target = engine.bound? (target.slot name file) := by
  cases target with
  | frame =>
    obtain ⟨frame, active⟩ := reaches rfl
    rw [Target.slot, bound_innermost active]
    simp [at?, active]
  | namespaced space member => rfl
  | fileLocal => rfl
  | global => rfl

/-- Binding a name in the active frame writes its slot there. -/
theorem writesOnly_frame {frame : Frame} (active : engine.stack.active? = some frame) (name : String)
    (handler : Handler) :
    WritesOnly engine { engine with stack := engine.stack.define name handler } ⟨.frame 0, name⟩
      handler := by
  obtain ⟨outer, before, deep⟩ := ScopeStack.frames_of_active active
  rw [ScopeStack.define, ScopeStack.modifyActive_of_frames _ before deep]
  refine ⟨by simp [bound?, Frame.define, OrderedMap.get?_insert_self], fun other distinct => ?_,
    by simp [before, Frame.define], rfl, rfl, rfl⟩
  -- Of the innermost frame the other names are left, and the frames behind it are as before.
  obtain ⟨scope, other⟩ := other
  cases scope with
  | frame level =>
    cases level with
    | zero =>
      have apart : other ≠ name := fun same => distinct (by rw [same])
      simp [bound?, before, Frame.define, OrderedMap.get?_insert_of_ne _ _ apart]
    | succ level => simp [bound?, before]
  | _ => rfl

/-- Binding a member of a namespace writes its slot there. -/
theorem writesOnly_members (engine : Engine) (space member : String) (handler : Handler) :
    WritesOnly engine { engine with symbols := engine.symbols.setNamespaced space member handler }
      ⟨.members space, member⟩ handler := by
  refine ⟨by simp [bound?, SymbolTable.namespaced?, SymbolTable.setNamespaced,
    OrderedMap.get?_insert_self], fun other distinct => ?_, rfl, rfl, rfl, rfl⟩
  obtain ⟨scope, other⟩ := other
  cases scope with
  | members there =>
    refine OrderedMap.nested_insert_of_ne _ _ ?_
    rintro ⟨rfl, rfl⟩
    exact distinct rfl
  | _ => rfl

/-- Binding a name of a file writes its slot there. -/
theorem writesOnly_file (engine : Engine) (file name : String) (handler : Handler) :
    WritesOnly engine { engine with symbols := engine.symbols.setFileLocal file name handler }
      ⟨.file file, name⟩ handler := by
  refine ⟨by simp [bound?, SymbolTable.fileLocal?, SymbolTable.setFileLocal,
    OrderedMap.get?_insert_self], fun other distinct => ?_, rfl, rfl, rfl, rfl⟩
  obtain ⟨scope, other⟩ := other
  cases scope with
  | file there =>
    refine OrderedMap.nested_insert_of_ne _ _ ?_
    rintro ⟨rfl, rfl⟩
    exact distinct rfl
  | _ => rfl

/-- Binding a name among the globals writes its slot there. -/
theorem writesOnly_globals (engine : Engine) (name : String) (handler : Handler) :
    WritesOnly engine { engine with symbols := engine.symbols.setGlobal name handler }
      ⟨.globals, name⟩ handler := by
  refine ⟨by simp [bound?, SymbolTable.setGlobal, OrderedMap.get?_insert_self],
    fun other distinct => ?_, rfl, rfl, rfl, rfl⟩
  obtain ⟨scope, other⟩ := other
  cases scope with
  | globals =>
    have apart : other ≠ name := fun same => distinct (by rw [same])
    exact OrderedMap.get?_insert_of_ne _ _ apart
  | _ => rfl

/-- Binding a name at a target writes the slot of the target and nothing else. -/
theorem writesOnly_bindAt {target : Target} (reaches : engine.Reaches target) (name file : String)
    (handler : Handler) : WritesOnly engine (engine.bindAt name file handler target)
      (target.slot name file) handler := by
  cases target with
  | frame =>
    obtain ⟨frame, active⟩ := reaches rfl
    exact writesOnly_frame active name handler
  | namespaced space member => exact engine.writesOnly_members space member handler
  | fileLocal => exact engine.writesOnly_file file name handler
  | global => exact engine.writesOnly_globals name handler

/-- The target in the active frame or its namespace is the first slot there that is bound. -/
theorem slot_boundInFrame (engine : Engine) (name file : String) :
    ((engine.stack.active?.bind fun frame => engine.boundInFrame? frame name).map
        (·.slot name file)) =
      (engine.frameScopes.map (⟨·, name⟩ : Scope → Slot)).find? fun slot =>
        (engine.bound? slot).isSome := by
  cases active : engine.stack.active? with
  | none => simp [frameScopes, ScopeStack.activeKind?, active]
  | some frame =>
    have innermost := bound_innermost active name
    obtain ⟨id, kind, names⟩ := frame
    have members : ∀ space, engine.bound? ⟨.members space, name⟩ =
      engine.symbols.namespaced? space name := fun _ => rfl
    -- Each kind of frame has its own scopes, which are searched in the same order on both sides.
    cases kind with
    | namespaceBlock space =>
      cases inside : engine.symbols.namespaced? space name <;>
        simp [frameScopes, ScopeStack.activeKind?, active, boundInFrame?, members, inside, Target.slot]
    | call function space =>
      cases here : names.get? name with
      | some handler =>
        cases space <;> simp [frameScopes, ScopeStack.activeKind?, active, boundInFrame?,
          OrderedMap.contains, innermost, here, Target.slot]
      | none =>
        cases space with
        | none =>
          simp [frameScopes, ScopeStack.activeKind?, active, boundInFrame?, OrderedMap.contains,
            innermost, here]
        | some space =>
          cases inside : engine.symbols.namespaced? space name <;>
            simp [frameScopes, ScopeStack.activeKind?, active, boundInFrame?, OrderedMap.contains,
              innermost, here, members, inside, Target.slot]
    | thread =>
      cases here : names.get? name <;> simp [frameScopes, ScopeStack.activeKind?, active,
        boundInFrame?, OrderedMap.contains, innermost, here, Target.slot]

/-- The slot of an assignment is the first one that is bound among those that can be assigned, and else
that of a new binding. -/
theorem slot_target (engine : Engine) (name file : String) :
    (engine.target name file).slot name file =
      ((engine.assignable name file).find? fun slot => (engine.bound? slot).isSome).getD
        (engine.freshSlot name) := by
  unfold target assignable freshSlot
  cases SymbolTable.splitQualified? name with
  | some parts =>
    -- A qualified name has one slot only, bound or not.
    by_cases bound : (engine.bound? ⟨.members parts.1, parts.2⟩).isSome <;>
      simp [Target.slot, bound]
  | none =>
    have inFrame := engine.slot_boundInFrame name file
    simp only [List.map_append, List.find?_append, ← inFrame]
    cases engine.stack.active?.bind fun frame => engine.boundInFrame? frame name with
    | some target => rfl
    | none =>
      have inFile : engine.bound? ⟨.file file, name⟩ = engine.symbols.fileLocal? file name := rfl
      have shared : engine.bound? ⟨.globals, name⟩ = engine.symbols.globals.get? name := rfl
      simp only [Option.map_none, Option.none_or, List.map_cons, List.map_nil, List.find?_cons,
        inFile, shared, List.find?_nil]
      cases engine.symbols.fileLocal? file name with
      | some handler => rfl
      | none =>
        cases engine.symbols.globals.get? name with
        | some handler => rfl
        | none =>
          simp only [newTarget, Option.isSome_none, Bool.false_eq_true, if_false, Option.getD_none]
          cases engine.stack.activeKind? with
          | none => rfl
          | some kind => cases kind <;> rfl

/-- The natives do not belong to a frame. -/
theorem natives_not_mem_frameScopes (engine : Engine) : Scope.natives ∉ engine.frameScopes := by
  unfold frameScopes
  split <;> simp

/-- No slot that can be assigned is a native one. -/
theorem changeable_of_assignable {slot : Slot} (member : slot ∈ engine.assignable name file) :
    slot.scope ≠ .natives := by
  intro native
  -- The slots are those of a namespace, of the active frame, of the file and of the globals.
  unfold assignable at member
  cases split : SymbolTable.splitQualified? name with
  | some parts =>
    rw [split] at member
    rw [List.mem_singleton.mp member] at native
    cases native
  | none =>
    rw [split] at member
    obtain ⟨scope, searched, rfl⟩ := List.mem_map.mp member
    obtain rfl : scope = .natives := native
    rcases List.mem_append.mp searched with inFrame | outside
    · exact engine.natives_not_mem_frameScopes inFrame
    · simp at outside

/-- The slot of a new binding is one of those that can be assigned. -/
theorem freshSlot_assignable (engine : Engine) (name file : String) :
    engine.freshSlot name ∈ engine.assignable name file := by
  unfold freshSlot assignable frameScopes
  cases SymbolTable.splitQualified? name with
  | some parts => exact List.mem_singleton.mpr rfl
  | none =>
    cases engine.stack.activeKind? with
    | none => simp
    | some kind =>
      cases kind with
      | call function space => cases space <;> simp
      | _ => simp

/-- An assignment goes to the slot that the name is found in, or to a new one. -/
theorem destination_target (engine : Engine) (name file : String) :
    Destination engine name file ((engine.target name file).slot name file) := by
  rw [slot_target]
  have found : engine.found? name file = _ := List.find?_append
  cases first : (engine.assignable name file).find? fun slot => (engine.bound? slot).isSome with
  | some slot =>
    rw [first, Option.some_or] at found
    exact .existing found (changeable_of_assignable (List.mem_of_find?_eq_some first))
  | none =>
    rw [first, Option.none_or] at found
    have unbound := List.find?_eq_none.mp first _ (engine.freshSlot_assignable name file)
    refine .fresh (fun slot only => ?_) (by simpa using unbound)
    -- Behind the slots that can be assigned come the natives alone.
    have last := List.mem_of_find?_eq_some (found.symm.trans only)
    split at last
    · simp at last
    · rw [List.mem_singleton.mp last]

/-- An assignment can reach its target. -/
theorem reaches_target (engine : Engine) (name file : String) :
    engine.Reaches (engine.target name file) := active_of_target

/-- A name stands for what the slot holds that it is found in, and else for a keyword. -/
theorem resolve_eq_found (engine : Engine) (name file : String) :
    engine.resolve? name file = ((engine.found? name file).bind engine.bound?).or
      (if name.toList.contains '.' then none else (Keyword.ofName? name).map .keyword) := by
  rw [resolve_eq, at_eq_bound (engine.reaches_target name file), slot_target]
  have found : engine.found? name file = _ := List.find?_append
  -- A name that cannot be assigned where it is found is a native or a keyword.
  cases first : (engine.assignable name file).find? fun slot => (engine.bound? slot).isSome with
  | some slot =>
    rw [first, Option.some_or] at found
    have holds : (engine.bound? slot).isSome := List.find?_some (p := fun slot =>
      (engine.bound? slot).isSome) first
    obtain ⟨handler, bound⟩ := Option.isSome_iff_exists.mp holds
    simp [found, bound]
  | none =>
    rw [first, Option.none_or] at found
    have unbound := List.find?_eq_none.mp first _ (engine.freshSlot_assignable name file)
    have absent : engine.bound? (engine.freshSlot name) = none := by simpa using unbound
    rw [found, Option.getD_none, absent, Option.none_or, fixed?]
    have native : engine.bound? ⟨.natives, name⟩ = engine.symbols.natives.get? name := rfl
    cases name.toList.contains '.' with
    | true => rfl
    | false =>
      cases held : engine.symbols.natives.get? name <;> simp [native, held]

/-- Binding a local name writes its slot and nothing else. -/
theorem writesOnly_defineLocal (engine : Engine) (name : String) (handler : Handler)
    (file : String) : WritesOnly engine (engine.defineLocal name handler file)
      (engine.localSlot name file) handler := by
  unfold defineLocal defineIn localSlot
  cases kind : engine.stack.activeKind? with
  | none =>
    have reaches : engine.Reaches .fileLocal := nofun
    exact writesOnly_bindAt reaches name file handler
  | some kind' =>
    obtain ⟨frame, active, -⟩ := Option.map_eq_some_iff.mp kind
    have framed : engine.Reaches .frame := fun _ => ⟨frame, active⟩
    cases kind' with
    | namespaceBlock space =>
      have reaches : engine.Reaches (.namespaced space name) := nofun
      exact writesOnly_bindAt reaches name file handler
    | call function space => exact writesOnly_bindAt framed name file handler
    | thread => exact writesOnly_bindAt framed name file handler

/-- A change of a variable that succeeds writes what the change made of the value at the target, or of
null where nothing was bound. -/
theorem updateVariable_ok {change : Value → Value × Result Unit} {after : Engine}
    (succeeds : engine.updateVariable name file change = (after, .ok ())) :
    ∃ value, change (((engine.at? name file (engine.target name file)).bind
        Handler.value?).getD .null) = (value, .ok ()) ∧
      after = engine.bindAt name file (.variable value) (engine.target name file) := by
  unfold updateVariable at succeeds
  -- A free name starts from null; one that is bound has to be a variable.
  cases bound : engine.at? name file (engine.target name file) with
  | none =>
    simp only [bound] at succeeds
    split at succeeds
    case h_1 changed same =>
      simp only [Prod.mk.injEq, and_true] at succeeds
      exact ⟨changed, same, succeeds.symm⟩
    case h_2 => simp at succeeds
  | some handler =>
    cases handler with
    | «variable» value =>
      simp only [bound, Prod.mk.injEq] at succeeds
      obtain ⟨rfl, outcome⟩ := succeeds
      exact ⟨(change value).1, Prod.ext rfl outcome, rfl⟩
    | _ => simp [bound, fail] at succeeds

/-- Writing and resolving agree. A name stands for the binding that it is found at. Behind an
assignment, or a change of a variable that succeeds, it stands for what was written, and the one slot
that was written is the one that it was found at before, unless that is a native, and else a new one;
the change starts from what was bound there. The same holds for a local name, which is written in the
active frame, in the namespace of the active block or in the file. -/
theorem writing_agrees_with_resolving (engine : Engine) (name file : String) :
    engine.resolve? name file = ((engine.found? name file).bind engine.bound?).or
      (if name.toList.contains '.' then none else (Keyword.ofName? name).map .keyword) ∧
    (∀ handler, (engine.assign name handler file).resolve? name file = some handler ∧
      ∃ slot, Destination engine name file slot ∧
        WritesOnly engine (engine.assign name handler file) slot handler) ∧
    (∀ change after, engine.updateVariable name file change = (after, .ok ()) →
      ∃ value slot, after.resolve? name file = some (.variable value) ∧
        Destination engine name file slot ∧ WritesOnly engine after slot (.variable value) ∧
        change (((engine.bound? slot).bind Handler.value?).getD .null) = (value, .ok ())) ∧
    (name.toList.contains '.' = false → ∀ handler,
      (engine.defineLocal name handler file).resolve? name file = some handler ∧
        WritesOnly engine (engine.defineLocal name handler file) (engine.localSlot name file)
          handler) := by
  have reaches := engine.reaches_target name file
  have destination := engine.destination_target name file
  refine ⟨engine.resolve_eq_found name file, fun handler => ?_, fun change after succeeds => ?_,
    fun plain handler => ?_⟩
  · exact ⟨engine.resolve_bindAt name file handler, _, destination,
      writesOnly_bindAt reaches name file handler⟩
  · obtain ⟨value, changed, rfl⟩ := updateVariable_ok succeeds
    rw [at_eq_bound reaches] at changed
    exact ⟨value, _, engine.resolve_bindAt name file (.variable value), destination,
      writesOnly_bindAt reaches name file (.variable value), changed⟩
  · exact ⟨engine.resolve_defineLocal handler file plain,
      engine.writesOnly_defineLocal name handler file⟩

/-- A call of a function that was defined in a namespace, which has a variable. -/
def memberCall : Engine :=
  { symbols := SymbolTable.setNamespaced {} "N" "x" (.variable (.ofNat 1))
    stack := { frames := [⟨1, .call "f" (some "N"), .empty⟩], lastId := 1 } }

/-- A change in the call reaches the variable of the namespace, and a local name hides it. -/
theorem writing_agrees_with_resolving_memberCall :
    (∃ after value, memberCall.updateVariable "x" "main" (fun _ => (.ofNat 2, .ok ())) =
        (after, .ok ()) ∧ after.resolve? "x" "main" = some (.variable value)) ∧
      "x".toList.contains '.' = false ∧
      (memberCall.defineLocal "x" (.variable (.ofNat 3)) "main").resolve? "x" "main" =
        some (.variable (.ofNat 3)) := by
  obtain ⟨-, -, changing, defining⟩ := writing_agrees_with_resolving memberCall "x" "main"
  have plain : "x".toList.contains '.' = false := by decide
  have succeeds : memberCall.updateVariable "x" "main" (fun _ => (.ofNat 2, .ok ())) =
    (memberCall.bindAt "x" "main" (.variable (.ofNat 2)) (.namespaced "N" "x"), .ok ()) := rfl
  obtain ⟨value, slot, back, -⟩ := changing _ _ succeeds
  exact ⟨⟨_, value, succeeds, back⟩, plain, (defining plain _).1⟩

end Engine

end ScriptEngine
