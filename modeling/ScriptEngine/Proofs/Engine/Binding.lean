import ScriptEngine.Engine.State

/-! Where names are bound: what a name stands for is the binding that an assignment would change, as
long as there is one, and is the new binding behind the assignment. -/

namespace ScriptEngine

namespace ScopeStack

variable {stack : ScopeStack} {frame : Frame}

/-- The active frame is the innermost one. -/
theorem frames_of_active (active : stack.active? = some frame) :
    ∃ outer, stack.frames = frame :: outer ∧ stack.threshold < stack.depth := by
  unfold active? at active
  split at active
  case isTrue deep =>
    obtain ⟨outer, frames⟩ := List.head?_eq_some_iff.mp active
    exact ⟨outer, frames, deep⟩
  case isFalse => cases active

/-- A change of the active frame changes the innermost one. -/
theorem modifyActive_of_frames {outer : List Frame} (change : Frame → Frame)
    (frames : stack.frames = frame :: outer) (deep : stack.threshold < stack.depth) :
    stack.modifyActive change = { stack with frames := change frame :: outer } := by
  unfold modifyActive
  rw [frames]
  exact if_pos deep

/-- A change of the active frame is found in it. -/
theorem active?_modifyActive (change : Frame → Frame) (active : stack.active? = some frame) :
    (stack.modifyActive change).active? = some (change frame) := by
  obtain ⟨outer, frames, deep⟩ := frames_of_active active
  rw [modifyActive_of_frames change frames deep]
  rw [depth, frames] at deep
  exact if_pos deep

/-- The active frame has a name that was bound in it. -/
theorem active?_define (name : String) (handler : Handler) (active : stack.active? = some frame) :
    (stack.define name handler).active? = some (frame.define name handler) :=
  active?_modifyActive (·.define name handler) active

end ScopeStack

/-- A name that is bound as a local is found from then on. -/
theorem Engine.resolve_defineLocal (engine : Engine) {name : String} (handler : Handler)
    (file : String) (plain : name.toList.contains '.' = false) :
    (engine.defineLocal name handler file).resolve? name file = some handler := by
  unfold Engine.resolve?
  rw [plain]
  cases active : engine.stack.active? with
  | none =>
    simp [defineLocal, defineIn, ScopeStack.activeKind?, active, SymbolTable.fileLocal?,
      SymbolTable.setFileLocal, OrderedMap.get?_insert_self]
  | some frame =>
    -- The kind of the active frame says where locals go.
    obtain ⟨id, kind, names⟩ := frame
    have bound := ScopeStack.active?_define name handler active
    cases kind with
    | namespaceBlock scope =>
      simp [defineLocal, defineIn, ScopeStack.activeKind?, active, inFrame?,
        SymbolTable.namespaced?, SymbolTable.setNamespaced, OrderedMap.get?_insert_self]
    | call function scope =>
      cases scope <;> simp [defineLocal, defineIn, ScopeStack.activeKind?, active, bound, inFrame?,
        Frame.define, OrderedMap.get?_insert_self]
    | thread =>
      simp [defineLocal, defineIn, ScopeStack.activeKind?, active, bound, inFrame?, Frame.define,
        OrderedMap.get?_insert_self]

namespace Text

/-- The first occurrence of a character is found wherever it occurs. -/
theorem find_singleton (c : Char) (text : List Char) :
    (find? [c] text).isSome = text.contains c := by
  induction text with
  | nil => rfl
  | cons first rest ih =>
    by_cases same : c = first
    · subst same
      simp [find?]
    · simp [find?, same, ih]

end Text

/-- A name is cut into two where it has a dot. -/
theorem SymbolTable.splitQualified_isSome (name : String) :
    (splitQualified? name).isSome = name.toList.contains '.' := by
  simp only [splitQualified?, Text.cut?, Option.isSome_map, Text.find_singleton]

/-- Binding a name in the active frame to what it is bound to there changes nothing. -/
theorem ScopeStack.define_bound {stack : ScopeStack} {frame : Frame} {name : String}
    {handler : Handler} (active : stack.active? = some frame)
    (bound : frame.names.get? name = some handler) : stack.define name handler = stack := by
  obtain ⟨outer, frames, deep⟩ := frames_of_active active
  have same : frame.define name handler = frame := by
    rw [Frame.define, frame.names.insert_bound bound]
  rw [define, modifyActive_of_frames _ frames deep, same, ← frames]

namespace Engine

variable {engine : Engine} {name file : String} {handler : Handler}

/-- What a name stands for beyond the reach of assignments: a native or a keyword. -/
def fixed? (engine : Engine) (name : String) : Option Handler :=
  if name.toList.contains '.' then none
  else (engine.symbols.natives.get? name).or ((Keyword.ofName? name).map .keyword)

/-- Where a name is bound in a frame or its namespace: in the frame itself, unless that is a namespace
block, or in the namespace of the block or of the callee, whose frame does not bind the name. -/
theorem boundInFrame_cases {frame : Frame} {target : Target}
    (found : engine.boundInFrame? frame name = some target) :
    (target = .frame ∧ (∀ scope, frame.kind ≠ .namespaceBlock scope) ∧
      (frame.names.get? name).isSome) ∨
    ∃ scope, target = .namespaced scope name ∧ (engine.symbols.namespaced? scope name).isSome ∧
      (frame.kind = .namespaceBlock scope ∨
        frame.names.get? name = none ∧ ∃ function, frame.kind = .call function (some scope)) := by
  unfold boundInFrame? at found
  -- The kind of the frame says where it binds names.
  cases kind : frame.kind with
  | namespaceBlock scope =>
    simp only [kind, Option.ite_none_right_eq_some, Option.some.injEq] at found
    obtain ⟨bound, rfl⟩ := found
    exact .inr ⟨scope, rfl, bound, .inl rfl⟩
  | call function scope =>
    by_cases here : (frame.names.get? name).isSome
    · simp only [kind, OrderedMap.contains, here, if_true, Option.some.injEq] at found
      exact .inl ⟨found.symm, by simp, here⟩
    · cases scope with
      | none => simp [kind, OrderedMap.contains, here] at found
      | some scope =>
        simp only [kind, OrderedMap.contains, here, Bool.false_eq_true, if_false, Option.bind_some,
          Option.ite_none_right_eq_some, Option.some.injEq] at found
        obtain ⟨bound, rfl⟩ := found
        exact .inr ⟨scope, rfl, bound, .inr ⟨by simpa using here, function, rfl⟩⟩
  | thread =>
    by_cases here : (frame.names.get? name).isSome
    · simp only [kind, OrderedMap.contains, here, if_true, Option.some.injEq] at found
      exact .inl ⟨found.symm, by simp, here⟩
    · simp [kind, OrderedMap.contains, here] at found

/-- A name that is bound in the active frame or its namespace is bound at the target there. -/
theorem at_boundInFrame (file : String) {frame : Frame}
    (active : engine.stack.active? = some frame) {target : Target}
    (found : engine.boundInFrame? frame name = some target) :
    engine.at? name file target = engine.inFrame? frame name ∧
      (engine.inFrame? frame name).isSome := by
  rcases boundInFrame_cases found with
    ⟨rfl, plain, here⟩ | ⟨scope, rfl, there, kind | ⟨absent, function, kind⟩⟩
  · -- What the frame binds comes before what the namespace of the callee does.
    obtain ⟨handler, bound⟩ := Option.isSome_iff_exists.mp here
    have same : engine.inFrame? frame name = some handler := by
      unfold inFrame?
      split
      case h_1 scope kind => exact absurd kind (plain scope)
      case h_2 => rw [bound, Option.some_or]
      case h_3 => exact bound
    simp [at?, active, same, bound]
  · exact ⟨by simp [at?, inFrame?, kind], by simpa [inFrame?, kind] using there⟩
  · exact ⟨by simp [at?, inFrame?, kind, absent], by simpa [inFrame?, kind, absent] using there⟩

/-- A name without a target in the active frame or its namespace is not bound there, and neither where
a new binding would go. -/
theorem at_newTarget (file : String) {frame : Frame} (active : engine.stack.active? = some frame)
    (unbound : engine.boundInFrame? frame name = none) :
    engine.at? name file (engine.newTarget name) = none ∧ engine.inFrame? frame name = none := by
  obtain ⟨id, kind, names⟩ := frame
  unfold boundInFrame? at unbound
  -- A new binding goes to the namespace of a block, and for all other kinds to the frame.
  cases kind with
  | namespaceBlock scope =>
    have absent : engine.symbols.namespaced? scope name = none := by simpa using unbound
    simp [newTarget, ScopeStack.activeKind?, active, at?, inFrame?, absent]
  | call function scope =>
    by_cases here : (names.get? name).isSome
    · simp [OrderedMap.contains, here] at unbound
    · have absent : names.get? name = none := by simpa using here
      cases scope with
      | none => simp [newTarget, ScopeStack.activeKind?, active, at?, inFrame?, absent]
      | some scope =>
        have outside : engine.symbols.namespaced? scope name = none := by
          simpa [OrderedMap.contains, absent] using unbound
        simp [newTarget, ScopeStack.activeKind?, active, at?, inFrame?, absent, outside]
  | thread =>
    by_cases here : (names.get? name).isSome
    · simp [OrderedMap.contains, here] at unbound
    · have absent : names.get? name = none := by simpa using here
      simp [newTarget, ScopeStack.activeKind?, active, at?, inFrame?, absent]

/-- A name stands for the binding that an assignment would change, if there is one. -/
theorem resolve_eq (engine : Engine) (name file : String) :
    engine.resolve? name file =
      (engine.at? name file (engine.target name file)).or (engine.fixed? name) := by
  have cut := SymbolTable.splitQualified_isSome name
  unfold resolve? target fixed?
  cases split : SymbolTable.splitQualified? name with
  | some parts =>
    -- A qualified name is looked up in its namespace alone.
    rw [split, Option.isSome_some] at cut
    simp only [← cut, if_true, SymbolTable.qualified?, split, Option.bind_some, at?, Option.or_none]
  | none =>
    rw [split, Option.isSome_none] at cut
    simp only [← cut, Bool.false_eq_true, if_false]
    -- Behind the active frame come the file and the globals, and a name that is bound nowhere gets a
    -- new target where nothing is bound.
    cases active : engine.stack.active? with
    | none =>
      cases inFile : engine.symbols.fileLocal? file name <;>
        cases shared : engine.symbols.globals.get? name <;>
        simp [newTarget, ScopeStack.activeKind?, active, at?, inFile, shared]
    | some frame =>
      simp only [Option.bind_some]
      cases bound : engine.boundInFrame? frame name with
      | some target =>
        obtain ⟨same, there⟩ := at_boundInFrame file active bound
        obtain ⟨handler, found⟩ := Option.isSome_iff_exists.mp there
        simp [same, found]
      | none =>
        obtain ⟨fresh, absent⟩ := at_newTarget file active bound
        cases inFile : engine.symbols.fileLocal? file name with
        | some handler => simp [absent, inFile, at?]
        | none =>
          cases shared : engine.symbols.globals.get? name with
          | some handler => simp [absent, shared, at?]
          | none => simp [absent, fresh]

/-- Binding a name to what it is bound to already changes nothing. -/
theorem bindAt_bound {target : Target} (bound : engine.at? name file target = some handler) :
    engine.bindAt name file handler target = engine := by
  cases target with
  | frame =>
    obtain ⟨frame, active, found⟩ := Option.bind_eq_some_iff.mp bound
    simp [bindAt, ScopeStack.define_bound active found]
  | namespaced scope member =>
    obtain ⟨names, found, member⟩ := Option.bind_eq_some_iff.mp bound
    simp [bindAt, SymbolTable.setNamespaced, found, names.insert_bound member,
      OrderedMap.insert_bound _ found]
  | fileLocal =>
    obtain ⟨names, found, member⟩ := Option.bind_eq_some_iff.mp bound
    simp [bindAt, SymbolTable.setFileLocal, found, names.insert_bound member,
      OrderedMap.insert_bound _ found]
  | global => simp [bindAt, SymbolTable.setGlobal, OrderedMap.insert_bound _ bound]

/-- The targets that belong to a frame: the frame itself, or the namespace of the frame for a name that
the frame does not bind. -/
inductive InFrame (frame : Frame) (name : String) : Target → Prop where
  | frame (plain : ∀ scope, frame.kind ≠ .namespaceBlock scope) : InFrame frame name .frame
  | block {scope : String} (kind : frame.kind = .namespaceBlock scope) :
    InFrame frame name (.namespaced scope name)
  | callee {function scope : String} (kind : frame.kind = .call function (some scope))
      (absent : frame.names.get? name = none) : InFrame frame name (.namespaced scope name)

/-- Where a name is bound in an active frame belongs to the frame. -/
theorem inFrame_of_bound {frame : Frame} {target : Target}
    (found : engine.boundInFrame? frame name = some target) : InFrame frame name target := by
  rcases boundInFrame_cases found with ⟨rfl, plain, -⟩ | ⟨scope, rfl, -, kind | ⟨absent, function, kind⟩⟩
  · exact .frame plain
  · exact .block kind
  · exact .callee kind absent

/-- Where a new name is bound under an active frame belongs to the frame. -/
theorem inFrame_newTarget {frame : Frame} (active : engine.stack.active? = some frame) :
    InFrame frame name (engine.newTarget name) := by
  unfold newTarget ScopeStack.activeKind?
  rw [active, Option.map_some]
  cases kind : frame.kind with
  | namespaceBlock scope => exact .block kind
  | call function scope => exact .frame (by simp [kind])
  | thread => exact .frame (by simp [kind])

/-- A member of a namespace is bound there from then on. -/
theorem namespaced_bindAt (engine : Engine) (name file : String) (handler : Handler)
    (scope member : String) :
    (engine.bindAt name file handler (.namespaced scope member)).symbols.namespaced? scope member =
      some handler := by
  simp [bindAt, SymbolTable.namespaced?, SymbolTable.setNamespaced, OrderedMap.get?_insert_self]

/-- A name that was bound at a target of the active frame has this target from then on. -/
theorem boundInFrame_bindAt {frame : Frame} (active : engine.stack.active? = some frame)
    {target : Target} (belongs : InFrame frame name target) (file : String) (handler : Handler) :
    let bound := engine.bindAt name file handler target
    (bound.stack.active?.bind fun frame => bound.boundInFrame? frame name) = some target := by
  intro bound
  -- A binding in the frame changes the frame, and one in a namespace only the namespace.
  cases belongs with
  | frame plain =>
    have now : bound.stack.active? = some (frame.define name handler) :=
      ScopeStack.active?_define name handler active
    rw [now, Option.bind_some]
    cases kind : frame.kind with
    | namespaceBlock scope => exact absurd kind (plain scope)
    | call function scope =>
      simp [boundInFrame?, Frame.define, kind, OrderedMap.contains, OrderedMap.get?_insert_self]
    | thread =>
      simp [boundInFrame?, Frame.define, kind, OrderedMap.contains, OrderedMap.get?_insert_self]
  | @block scope kind =>
    have there : bound.symbols.namespaced? scope name = some handler := namespaced_bindAt ..
    have now : bound.stack.active? = some frame := active
    simp [now, boundInFrame?, kind, there]
  | @callee function scope kind absent =>
    have there : bound.symbols.namespaced? scope name = some handler := namespaced_bindAt ..
    have now : bound.stack.active? = some frame := active
    simp [now, boundInFrame?, kind, there, OrderedMap.contains, absent]

/-- An assignment to a plain name goes to the active frame or its namespace, to the file or to the
globals. -/
theorem target_cases (engine : Engine) {name : String} (file : String)
    (plain : SymbolTable.splitQualified? name = none) :
    (∃ frame, engine.stack.active? = some frame ∧
      InFrame frame name (engine.target name file)) ∨
    ((engine.stack.active?.bind fun frame => engine.boundInFrame? frame name) = none ∧
      ((engine.target name file = .fileLocal ∧ (engine.symbols.fileLocal? file name).isSome) ∨
      (engine.target name file = .global ∧ engine.symbols.fileLocal? file name = none))) := by
  unfold target
  rw [plain]
  -- Without an active frame only the file and the globals are searched.
  cases active : engine.stack.active? with
  | none =>
    refine .inr ⟨rfl, ?_⟩
    cases inFile : engine.symbols.fileLocal? file name with
    | some handler => exact .inl ⟨by simp, rfl⟩
    | none => exact .inr ⟨by simp [newTarget, ScopeStack.activeKind?, active], rfl⟩
  | some frame =>
    simp only [Option.bind_some]
    cases bound : engine.boundInFrame? frame name with
    | some target => exact .inl ⟨frame, rfl, inFrame_of_bound bound⟩
    | none =>
      cases inFile : engine.symbols.fileLocal? file name with
      | some handler => exact .inr ⟨rfl, .inl ⟨by simp, rfl⟩⟩
      | none =>
        cases shared : engine.symbols.globals.get? name with
        | some handler => exact .inr ⟨rfl, .inr ⟨by simp, rfl⟩⟩
        | none => exact .inl ⟨frame, rfl, by simpa using inFrame_newTarget active⟩

/-- An assignment goes to the active frame only if there is one. -/
theorem active_of_target (goes : engine.target name file = .frame) :
    ∃ frame, engine.stack.active? = some frame := by
  cases split : SymbolTable.splitQualified? name with
  | some parts => simp [target, split] at goes
  | none =>
    -- A plain name goes to a frame only if that is active.
    rcases engine.target_cases file split with ⟨frame, active, -⟩ | ⟨-, ⟨other, -⟩ | ⟨other, -⟩⟩
    · exact ⟨frame, active⟩
    · rw [goes] at other
      cases other
    · rw [goes] at other
      cases other

/-- Behind an assignment the name is bound where the assignment went. -/
theorem at_bindAt (engine : Engine) (name file : String) (handler : Handler) :
    (engine.bindAt name file handler (engine.target name file)).at? name file
      (engine.target name file) = some handler := by
  cases goes : engine.target name file with
  | frame =>
    obtain ⟨frame, active⟩ := active_of_target goes
    simp [bindAt, at?, ScopeStack.active?_define name handler active, Frame.define,
      OrderedMap.get?_insert_self]
  | namespaced scope member => exact namespaced_bindAt ..
  | fileLocal =>
    simp [bindAt, at?, SymbolTable.fileLocal?, SymbolTable.setFileLocal, OrderedMap.get?_insert_self]
  | global => simp [bindAt, at?, SymbolTable.setGlobal, OrderedMap.get?_insert_self]

/-- A further assignment goes where the first one went. -/
theorem target_bindAt (engine : Engine) (name file : String) (handler : Handler) :
    (engine.bindAt name file handler (engine.target name file)).target name file =
      engine.target name file := by
  cases split : SymbolTable.splitQualified? name with
  | some parts => simp [target, split]
  | none =>
    rcases engine.target_cases file split with
      ⟨frame, active, belongs⟩ | ⟨unbound, ⟨goes, -⟩ | ⟨goes, absent⟩⟩
    · have bound := boundInFrame_bindAt active belongs file handler
      generalize engine.target name file = goes at bound
      simp only [target, split, bound]
    · -- The active frame and the namespaces are not touched.
      rw [goes]
      have same : ((engine.bindAt name file handler .fileLocal).stack.active?.bind fun frame =>
          (engine.bindAt name file handler .fileLocal).boundInFrame? frame name) = none := unbound
      have there : ((engine.bindAt name file handler .fileLocal).symbols.fileLocal? file
          name).isSome := by
        simp [bindAt, SymbolTable.fileLocal?, SymbolTable.setFileLocal, OrderedMap.get?_insert_self]
      simp only [target, split, same, there, if_true]
    · rw [goes]
      have same : ((engine.bindAt name file handler .global).stack.active?.bind fun frame =>
          (engine.bindAt name file handler .global).boundInFrame? frame name) = none := unbound
      have outside : (engine.bindAt name file handler .global).symbols.fileLocal? file name = none :=
        absent
      have there : ((engine.bindAt name file handler .global).symbols.globals.get? name).isSome := by
        simp [bindAt, SymbolTable.setGlobal, OrderedMap.get?_insert_self]
      simp only [target, split, same, outside, there, Option.isSome_none, Bool.false_eq_true,
        if_false, if_true]

/-- Behind an assignment the name stands for what it was given. -/
theorem resolve_bindAt (engine : Engine) (name file : String) (handler : Handler) :
    (engine.bindAt name file handler (engine.target name file)).resolve? name file =
      some handler := by
  rw [resolve_eq, target_bindAt, at_bindAt]
  rfl

/-- Behind an assignment a name has the value that was assigned. -/
theorem valueOf?_assign (engine : Engine) (name file : String) (value : Value) :
    (engine.assign name (.variable value) file).valueOf? name file = some value := by
  unfold assign valueOf?
  rw [resolve_bindAt]
  rfl

/-- A binding is in no instance. -/
@[simp]
theorem bindAt_heap (engine : Engine) (name file : String) (handler : Handler) (target : Target) :
    (engine.bindAt name file handler target).heap = engine.heap := by
  cases target <;> rfl

end Engine

end ScriptEngine
