import ScriptEngine.Proofs.CallStages
import ScriptEngine.Proofs.Depth.Limit
import ScriptEngine.Proofs.Eval.Function
import ScriptEngine.Proofs.Fields.Activation

/-! The call of a method: it takes copies of the fields of its instance, and gives back those that it
has changed. -/

namespace ScriptEngine

namespace Activation

variable {act : Activation} {engine : Engine} {names : OrderedMap Handler}
  {fields : OrderedMap Value} {view : FieldView} {eval : Evaluator}

/-- The bindings in the frame of a call in front of its arguments. -/
def seedNames (act : Activation) : OrderedMap Handler :=
  ((OrderedMap.empty.insertAll Handler.function act.table.definitions.entries).insertAll
    Handler.variable act.seeds.entries).insert "this" (.variable act.this)

/-- The names of the methods are distinct and stand for nothing else. -/
theorem names_definitions (table : MethodTable) :
    table.definitions.entries.map (·.1) = table.methods.map (·.name.name) := by
  simp [MethodTable.definitions]

/-- The frame of a call starts with copies of the fields. -/
theorem seedNames_field (sound : act.Sound) {name : String} (member : name ∈ act.seeds.names) :
    act.seedNames.get? name = (act.seeds.get? name).map .variable := by
  have other : name ≠ "this" := by
    rintro rfl
    exact sound.admitted.free _ member List.mem_cons_self
  obtain ⟨value, found⟩ := OrderedMap.get?_of_mem_names member
  have listed : (name, value) ∈ act.seeds.entries := by
    -- In a map without repeated names, a listed entry is the one that is found.
    obtain ⟨before, behind, same, _⟩ := List.lookup_eq_some_iff.mp found
    simp [same]
  rw [seedNames, OrderedMap.get?_insert_of_ne _ _ other,
    OrderedMap.get?_insertAll_of_mem _ _ sound.admitted.distinct listed, found]
  rfl

/-- The frame of a call starts with the instance and its methods, and hides no keyword. -/
theorem seedNames_binds (sound : act.Sound) : act.Binds .empty act.seedNames := by
  have distinct := sound.ready.distinct
  rw [MethodTable.taken, List.nodup_cons, List.nodup_append, List.mem_append, not_or] at distinct
  -- Neither the fields nor the methods have the name of a keyword, and the fields no name of a
  -- method.
  obtain ⟨⟨_, unmethod⟩, _, nodup, apart⟩ := distinct
  have free : ∀ name ∈ act.table.taken, name ∉ act.seeds.names :=
    fun name taken member => sound.admitted.free name member taken
  refine ⟨OrderedMap.get?_insert_self _ _ _, fun word reserved => ?_, fun method listed => ?_,
    fun _ _ found => by cases found⟩
  · have other : word ≠ "this" := by
      rintro rfl
      exact absurd reserved (by decide)
    have unfield : word ∉ act.seeds.entries.map (·.1) :=
      free word (List.mem_cons_of_mem _ (List.mem_append_left _ reserved))
    have unmethod : word ∉ act.table.definitions.entries.map (·.1) := by
      rw [names_definitions]
      exact fun listed => apart word reserved word listed rfl
    rw [seedNames, OrderedMap.get?_insert_of_ne _ _ other,
      OrderedMap.get?_insertAll_of_notMem _ _ unfield, OrderedMap.get?_insertAll_of_notMem _ _ unmethod]
    rfl
  · have named : method.name.name ∈ act.table.methods.map (·.name.name) := List.mem_map_of_mem listed
    have other : method.name.name ≠ "this" := by
      intro same
      rw [same] at named
      exact unmethod named
    have unfield : method.name.name ∉ act.seeds.entries.map (·.1) :=
      free _ (List.mem_cons_of_mem _ (List.mem_append_right _ named))
    have entry : (method.name.name, act.table.function method) ∈ act.table.definitions.entries :=
      List.mem_map_of_mem listed
    rw [seedNames, OrderedMap.get?_insert_of_ne _ _ other,
      OrderedMap.get?_insertAll_of_notMem _ _ unfield,
      OrderedMap.get?_insertAll_of_mem _ _ (by rwa [names_definitions]) entry]

/-! The binding of arguments. -/

/-- An argument is bound in the frame. -/
theorem defineLocal_noted (sound : act.Sound) (noted : (act.state names fields).Noted engine)
    (name : String) (handler : Handler) (file : String) :
    (act.state (names.insert name handler) fields).Noted (engine.defineLocal name handler file) := by
  obtain ⟨events, uses, log, milestones, lastId, rfl⟩ := noted
  refine ⟨events, uses, log, milestones, lastId, ?_⟩
  have kind : ({ (act.state names fields).stack with lastId } : ScopeStack).activeKind? =
      some (.call act.function act.table.scope) :=
    congrArg (Option.map Frame.kind) (active?_state sound names fields)
  have defined : ({ (act.state names fields).stack with lastId } : ScopeStack).define name handler =
      { (act.state (names.insert name handler) fields).stack with lastId } :=
    -- The frame of the call is the active one and takes the name.
    if_pos (visible_state sound names fields)
  unfold Engine.defineLocal Engine.defineIn
  simp only [kind, defined]
  rfl

/-- Arguments for all parameters are bound one by one. -/
theorem bindParams_noted (eval : Evaluator) (sound : act.Sound) (function : ScriptFunction)
    (slots : List (Param × Option Value)) (filled : ∀ slot ∈ slots, slot.2.isSome = true)
    (noted : (act.state names fields).Noted engine) :
    ∃ after, (act.state (names.insertAll .variable
        (slots.map fun slot => (slot.1.name, slot.2.getD .undefined))) fields).Noted after ∧
      bindParams eval function slots engine = .finished (.ok ()) after := by
  -- The induction is on the parameters that are left.
  induction slots generalizing engine names with
  | nil => exact ⟨engine, noted, rfl⟩
  | cons slot rest ih =>
    obtain ⟨param, slot⟩ := slot
    obtain ⟨value, rfl⟩ := Option.isSome_iff_exists.mp (filled _ List.mem_cons_self)
    have bound := defineLocal_noted sound noted param.name (.variable value) function.site.file
    obtain ⟨after, notedAfter, ran⟩ :=
      ih (fun slot member => filled slot (List.mem_cons_of_mem _ member)) bound
    exact ⟨after, notedAfter, ran⟩

/-- Surplus arguments are bound one by one. -/
theorem bindExtras_noted (sound : act.Sound) (file : String) (extras : List (String × Value))
    (noted : (act.state names fields).Noted engine) :
    ∃ after, (act.state (names.insertAll .variable extras) fields).Noted after ∧
      (forIn extras PUnit.unit fun entry _ => do
        modify (·.defineLocal entry.1 (.variable entry.2) file)
        return .yield ⟨⟩ : Eval PUnit) engine = .finished (.ok ()) after := by
  -- The induction is on the arguments that are left.
  induction extras generalizing engine names with
  | nil => exact ⟨engine, noted, rfl⟩
  | cons entry rest ih =>
    have bound := defineLocal_noted sound noted entry.1 (.variable entry.2) file
    obtain ⟨after, notedAfter, ran⟩ := ih bound
    exact ⟨after, notedAfter, by rw [List.forIn_cons]; exact ran⟩

/-- The body of a call runs behind the binding of its arguments. -/
theorem runBody_noted (eval : Evaluator) (sound : act.Sound) (function : ScriptFunction) (bound : Bound)
    (filled : ∀ slot ∈ function.params.zip bound.slots, slot.2.isSome = true)
    (noted : (act.state names fields).Noted engine) :
    ∃ after, (act.state (names.insertAll .variable (bound.locals function.params)) fields).Noted after ∧
      runBody eval function bound engine = runText eval function.site function.body after := by
  obtain ⟨middle, notedMiddle, ran⟩ := bindParams_noted eval sound function _ filled noted
  obtain ⟨after, notedAfter, ranToo⟩ :=
    bindExtras_noted sound function.site.file bound.extras notedMiddle
  refine ⟨after, ?_, ?_⟩
  · rw [Bound.locals, OrderedMap.insertAll, List.foldl_append]
    exact notedAfter
  · exact (Eval.bind_ok ran _).trans (Eval.bind_ok ranToo _)

/-- The arguments of a call are found in its frame, and hide nothing there. -/
theorem Binds.arguments (binds : act.Binds .empty names) {entries : List (String × Value)}
    (apart : ∀ name ∈ entries.map (·.1), name ∉ act.table.taken ∧ name ∉ act.seeds.names) :
    act.Binds (.ofList entries) (names.insertAll .variable entries) := by
  -- No argument has one of the names that the table takes.
  have kept : ∀ name ∈ act.table.taken,
      (names.insertAll .variable entries).get? name = names.get? name :=
    fun name taken => OrderedMap.get?_insertAll_of_notMem _ _ fun listed => (apart name listed).1 taken
  refine ⟨?_, fun word reserved => ?_, fun method listed => ?_, fun name value found => ?_⟩
  · rw [kept _ List.mem_cons_self]
    exact binds.this
  · rw [kept _ (List.mem_cons_of_mem _ (List.mem_append_left _ reserved))]
    exact binds.keyword word reserved
  · have named : method.name.name ∈ act.table.methods.map (·.name.name) := List.mem_map_of_mem listed
    rw [kept _ (List.mem_cons_of_mem _ (List.mem_append_right _ named))]
    exact binds.method method listed
  · exact ⟨OrderedMap.get?_insertAll_of_ofList _ _ found,
      (apart name (OrderedMap.mem_of_get?_ofList found)).2⟩

/-! The fields that are given back. -/

/-- The fields of an instance behind one that a call gives back if it has changed it. -/
def giveBack (names : OrderedMap Handler) (fields : OrderedMap Value) (entry : String × Value) :
    OrderedMap Value :=
  match names.get? entry.1 with
  | some (.variable now) => if now == entry.2 then fields else fields.insert entry.1 now
  | _ => fields

/-- Fields that are given back have a place already. -/
theorem names_giveBack {entries : List (String × Value)}
    (listed : ∀ name ∈ entries.map (·.1), name ∈ fields.names) :
    (entries.foldl (giveBack names) fields).names = fields.names := by
  -- The induction is on the entries that are left to give back.
  induction entries generalizing fields with
  | nil => rfl
  | cons entry rest ih =>
    have first : (giveBack names fields entry).names = fields.names := by
      unfold giveBack
      split
      · split
        · rfl
        · exact OrderedMap.names_insert (listed _ List.mem_cons_self) _
      · rfl
    refine (ih fun name member => ?_).trans first
    rw [first]
    exact listed name (List.mem_cons_of_mem _ member)

/-- Fields that are not given back are left alone. -/
theorem get?_giveBack_of_notMem {entries : List (String × Value)} {name : String}
    (absent : name ∉ entries.map (·.1)) :
    (entries.foldl (giveBack names) fields).get? name = fields.get? name := by
  induction entries generalizing fields with
  | nil => rfl
  -- Only the named entry is changed by a step.
  | cons entry rest ih =>
    rw [List.map_cons, List.mem_cons, not_or] at absent
    refine (ih absent.2).trans ?_
    unfold giveBack
    split
    · split
      · rfl
      · exact OrderedMap.get?_insert_of_ne _ _ absent.1
    · rfl

/-- A field is given back if its copy has another value than at the start. -/
theorem get?_giveBack_of_mem {entries : List (String × Value)} {name : String} {before now : Value}
    (distinct : (entries.map (·.1)).Nodup) (member : (name, before) ∈ entries)
    (copied : names.get? name = some (.variable now)) :
    (entries.foldl (giveBack names) fields).get? name =
      if now == before then fields.get? name else some now := by
  induction entries generalizing fields with
  | nil => cases member
  -- Each name stands in the list once: the entry is the head, or the head leaves it alone.
  | cons entry rest ih =>
    rw [List.map_cons, List.nodup_cons] at distinct
    rcases List.mem_cons.mp member with rfl | further
    · refine (get?_giveBack_of_notMem distinct.1).trans ?_
      simp only [giveBack, copied]
      split
      · rfl
      · exact OrderedMap.get?_insert_self _ _ _
    · refine (ih distinct.2 further).trans ?_
      have other : name ≠ entry.1 := by
        rintro rfl
        exact distinct.1 (List.mem_map.mpr ⟨_, further, rfl⟩)
      have same : ([entry].foldl (giveBack names) fields).get? name = fields.get? name :=
        get?_giveBack_of_notMem (by simpa using other)
      rw [List.foldl_cons, List.foldl_nil] at same
      rw [same]

/-- Where an instance has certain fields, giving one back changes those. -/
theorem takeBack_withFields {frame : Frame} {params : List Param} {entry : String × Value}
    (copies : frame.names = names) (heap : Heap) (id : Nat) (fields : OrderedMap Value)
    (free : params.any (·.name == entry.1) = false) :
    Heap.takeBack frame params id (heap.withFields id fields) entry =
      heap.withFields id (giveBack names fields entry) := by
  unfold Heap.takeBack giveBack
  rw [free, copies, if_neg (by decide)]
  -- Only a variable goes back.
  rcases names.get? entry.1 with _ | handler
  · rfl
  cases handler with
  | «variable» now =>
    dsimp only
    split
    · rfl
    · exact Heap.setField_withFields heap id fields entry.1 now
  | _ => rfl

/-- All fields are given back to an instance as they are to its fields. -/
theorem foldl_takeBack {frame : Frame} {params : List Param} {entries : List (String × Value)}
    (copies : frame.names = names) (heap : Heap) (id : Nat) (fields : OrderedMap Value)
    (free : ∀ entry ∈ entries, params.any (·.name == entry.1) = false) :
    entries.foldl (Heap.takeBack frame params id) (heap.withFields id fields) =
      heap.withFields id (entries.foldl (giveBack names) fields) := by
  induction entries generalizing fields with
  | nil => rfl
  | cons entry rest ih =>
    rw [List.foldl_cons, List.foldl_cons,
      takeBack_withFields copies heap id fields (free entry List.mem_cons_self)]
    exact ih _ fun entry member => free entry (List.mem_cons_of_mem _ member)

/-- The instance of a running method is given its fields back, one by one. -/
theorem writeBack_noted (sound : act.Sound) (noted : (act.state names fields).Noted engine)
    {params : List Param} (free : ∀ name ∈ act.seeds.names, params.any (·.name == name) = false) :
    (act.state names (act.seeds.entries.foldl (giveBack names) fields)).Noted
      (engine.writeBack act.this act.seeds params) := by
  have active : engine.stack.active? =
      some ⟨act.frame, .call act.function act.table.scope, names⟩ := by
    obtain ⟨events, uses, log, milestones, lastId, rfl⟩ := noted
    exact active?_state sound names fields
  have same : act.this.instanceId? = some act.id := rfl
  have there : engine.heap = act.engine.heap.withFields act.id fields := noted.heap
  rw [Engine.writeBack_eq same active, there,
    foldl_takeBack rfl _ _ _ fun entry member => free _ (List.mem_map_of_mem member)]
  obtain ⟨events, uses, log, milestones, lastId, rfl⟩ := noted
  exact ⟨events, uses, log, milestones, lastId, rfl⟩

end Activation

/-! The call as a whole. -/

/-- What the methods of an instance find where one is called behind a view: the instance holds the
fields, except where a call further out keeps newer values to itself. -/
structure Engine.Offers (engine : Engine) (table : MethodTable) (id : Nat) (view : FieldView) : Prop where
  ready : engine.Ready table id
  calls : view.calls = engine.calls.length
  admitted : table.Admits (engine.heap.fields id)
  known : view.fields.names = (engine.heap.fields id).names
  agree : ∀ name, name ∉ view.ahead ++ view.hidden →
    (engine.heap.fields id).get? name = view.fields.get? name
  definite : ∀ name value, view.fields.get? name = some value → value.isDefinite = true

/-- What a call leaves behind of the fields as they are told and as the instance holds them: it has
written some that are current, and its instance holds these. -/
structure FieldView.Left (before after : FieldView) (fields left : OrderedMap Value) : Prop where
  touched : ∃ touched : List String,
    after = { before with fields := after.fields, behind := touched ++ before.behind } ∧
      (∀ name ∈ touched, name ∉ before.ahead ++ before.hidden ∧
        left.get? name = after.fields.get? name) ∧
      ∀ name, name ∉ touched →
        left.get? name = fields.get? name ∧ after.fields.get? name = before.fields.get? name
  known : after.fields.names = before.fields.names
  stored : left.names = fields.names
  definite : ∀ name value, after.fields.get? name = some value → value.isDefinite = true

/-- Statements that are nested in the bodies of methods run as is told. -/
def RunsBodies (eval : Evaluator) (tell : Teller) (table : MethodTable) (config : Config) : Prop :=
  ∀ (act : Activation) (site : Site) (statements : List MethodStatement), act.Sound →
    act.table = table → act.engine.config = config →
      act.Follows (runText eval site (MethodStatement.allText statements)) (tellAll tell .null statements)

/-- Arguments that are bound to parameters without defaults are values for all of them. -/
theorem filled_of_bindArgs {function : String} {params : List Param} {args : List Arg} {bound : Bound}
    (found : bindArgs function params args = .ok bound) (bare : ∀ param ∈ params, param.default = none) :
    ∀ slot ∈ params.zip bound.slots, slot.2.isSome = true := by
  -- The binding was only accepted because no parameter is missing.
  have complete : bound.missing? params = none := by
    unfold bindArgs at found
    split at found
    case h_2 => cases found
    case h_1 whole placed =>
      cases found
      unfold Bound.ofArgs at placed
      obtain ⟨added, _, placed⟩ := ok_of_bind placed
      split at placed
      · cases placed
      case h_2 none =>
        cases placed
        exact none
  unfold Bound.missing? at complete
  rw [Option.map_eq_none_iff, List.find?_eq_none] at complete
  rintro ⟨param, slot⟩ member
  have unfilled := complete _ member
  have plain := bare param (List.of_mem_zip member).1
  simpa [plain, Option.isSome_iff_ne_none] using unfilled

/-- The activation that a call starts. -/
def Engine.activation (engine : Engine) (table : MethodTable) (typeTag : String) (id : Nat)
    (method : Method) (view : FieldView) : Activation where
  table := table
  engine := { engine with calls := method.name.name :: engine.calls }
  typeTag := typeTag
  id := id
  function := method.name.name
  frame := engine.stack.lastId + 1
  entry := view.fields
  seeds := engine.heap.fields id
  hidden := view.ahead ++ view.hidden

variable {engine : Engine} {table : MethodTable} {typeTag : String} {id : Nat} {view : FieldView}
  {method : Method}

namespace Engine.Offers

/-- A call starts as one that holds what is told of it. -/
theorem sound (offers : engine.Offers table id view) (typeTag : String) (method : Method) :
    (engine.activation table typeTag id method view).Sound := by
  obtain ⟨calm, alone, plain, visible, object, distinct⟩ := offers.ready
  exact ⟨⟨calm, alone, plain, visible, object, distinct⟩, offers.admitted⟩

/-- The body of a call starts with fields that are as told. -/
theorem holds (offers : engine.Offers table id view) (typeTag : String) (method : Method)
    {entries : List (String × Value)}
    (apart : ∀ name ∈ entries.map (·.1), name ∉ table.taken ∧ name ∉ view.fields.names) :
    let act := engine.activation table typeTag id method view
    act.Holds (view.enter (.ofList entries)) (act.seedNames.insertAll .variable entries) act.seeds := by
  intro act
  have sound : act.Sound := offers.sound typeTag method
  have known : view.fields.names = act.seeds.names := offers.known
  have apart : ∀ name ∈ entries.map (·.1), name ∉ act.table.taken ∧ name ∉ act.seeds.names :=
    fun name listed => known ▸ apart name listed
  refine ⟨congrArg (· + 1) offers.calls, rfl, (Activation.seedNames_binds sound).arguments apart, known, rfl,
    fun access name member => ?_, fun _ _ => rfl, fun name current => ?_, fun access name touched => ?_,
    offers.definite⟩
  · -- Nothing has been written yet, and no argument hides a copy.
    rw [if_neg (by cases access <;> exact List.not_mem_nil)]
    cases access with
    | bare =>
      have unhidden : name ∉ entries.map (·.1) := fun listed => (apart name listed).2 member
      exact (OrderedMap.get?_insertAll_of_notMem _ _ unhidden).trans
        (Activation.seedNames_field sound member)
    | qualified => rfl
  · exact offers.agree name current
  · cases access <;> cases touched

/-- An instance has the fields that it is shown with. -/
theorem noted_self (offers : engine.Offers table id view) :
    Engine.Noted { engine with heap := engine.heap.withFields id (engine.heap.fields id) } engine := by
  obtain ⟨object, found, _⟩ := offers.ready.object
  have fields : engine.heap.fields id = object.fields := by
    rw [Heap.fields, found]
    rfl
  rw [fields, Heap.withFields_self found]
  exact .refl engine

/-- A call that does not run its body leaves its view as it was. -/
theorem left_self (offers : engine.Offers table id view) :
    view.Left view (engine.heap.fields id) (engine.heap.fields id) :=
  ⟨⟨[], rfl, fun _ member => absurd member List.not_mem_nil, fun _ _ => ⟨rfl, rfl⟩⟩, rfl, rfl,
    offers.definite⟩

end Engine.Offers

namespace Activation

variable {act : Activation} {names : OrderedMap Handler} {fields : OrderedMap Value}

/-- The instance holds the fields that were last written there. -/
theorem Holds.inInstance (holds : act.Holds view names fields) {name : String}
    (member : name ∈ act.seeds.names) :
    fields.get? name = (if name ∈ view.behind then view.fields else act.seeds).get? name :=
  Option.map_injective (fun _ _ same => Handler.variable.inj same) (holds.holds .qualified name member)

/-- A field that has been written is not ahead in a call further out. -/
theorem Holds.current_of_touched (holds : act.Holds view names fields) {name : String}
    (touched : name ∈ view.ahead ++ view.behind) : name ∉ view.hidden := by
  have clear : ∀ access, name ∈ view.touched access → name ∉ view.hidden := by
    intro access written
    have current := holds.oneWay access name written
    rw [FieldView.stale, List.mem_append, not_or] at current
    exact current.2
  exact (List.mem_append.mp touched).elim (clear .bare) (clear .qualified)

/-- The instance is given back what was written by bare name, and keeps all else. -/
theorem Holds.given (sound : act.Sound) (holds : act.Holds view names fields) {name : String}
    (member : name ∈ act.seeds.names) :
    (act.seeds.entries.foldl (giveBack names) fields).get? name =
      (if name ∈ view.ahead ++ view.behind then view.fields else act.seeds).get? name := by
  obtain ⟨seed, seeded⟩ := OrderedMap.get?_of_mem_names member
  have listed : (name, seed) ∈ act.seeds.entries := by
    obtain ⟨before, behind, same, _⟩ := List.lookup_eq_some_iff.mp seeded
    simp [same]
  have distinct := sound.admitted.distinct
  have definite := sound.admitted.definite name seed seeded
  have copied := holds.holds .bare name member
  by_cases ahead : name ∈ view.ahead
  · obtain ⟨now, found⟩ := OrderedMap.get?_of_mem_names (holds.known ▸ member)
    rw [if_pos (show name ∈ view.touched .bare from ahead), found] at copied
    -- What was written by bare name has not been written in the instance.
    have current := holds.oneWay .bare name ahead
    rw [FieldView.stale, List.mem_append, not_or] at current
    have kept : fields.get? name = some seed := by
      rw [holds.inInstance member, if_neg (show name ∉ view.behind from current.1), seeded]
    rw [get?_giveBack_of_mem distinct listed copied, if_pos (List.mem_append_left _ ahead), found, kept]
    split
    case isTrue equal =>
      rw [Value.eq_of_isDefinite (holds.definite name now found) definite equal]
    case isFalse => rfl
  · rw [if_neg (show name ∉ view.touched .bare from ahead), seeded] at copied
    have equal : (seed == seed) = true := Value.beq_self_of_isDefinite definite
    rw [get?_giveBack_of_mem distinct listed copied, equal, if_pos rfl, holds.inInstance member]
    simp only [List.mem_append, ahead, false_or]

/-- What a call leaves behind when its instance has its fields back. -/
theorem Holds.left {before : FieldView} (sound : act.Sound) (holds : act.Holds view names fields)
    (entry : act.entry = before.fields) (hidden : act.hidden = before.ahead ++ before.hidden)
    (known : before.fields.names = act.seeds.names) :
    before.Left (before.leave view) act.seeds (act.seeds.entries.foldl (giveBack names) fields) := by
  have stored : (act.seeds.entries.foldl (giveBack names) fields).names = act.seeds.names := by
    rw [names_giveBack fun name member => holds.stored ▸ member, holds.stored]
  have given : ∀ name, (act.seeds.entries.foldl (giveBack names) fields).get? name =
      (if name ∈ view.ahead ++ view.behind then view.fields else act.seeds).get? name := by
    intro name
    -- A name that is no field is found on neither side.
    by_cases member : name ∈ act.seeds.names
    · exact holds.given sound member
    · rw [OrderedMap.get?_eq_none (stored ▸ member)]
      split
      · rw [OrderedMap.get?_eq_none (holds.known ▸ member)]
      · rw [OrderedMap.get?_eq_none member]
  refine ⟨⟨view.ahead ++ view.behind, by simp [FieldView.leave], fun name touched => ⟨?_, ?_⟩,
    fun name untouched => ⟨?_, ?_⟩⟩, ?_, stored, holds.definite⟩
  · rw [← hidden, ← holds.hidden]
    exact holds.current_of_touched touched
  · rw [given, if_pos touched]
    rfl
  · rw [given, if_neg untouched]
  · rw [List.mem_append, not_or] at untouched
    have kept := holds.unchanged name fun access => by cases access <;> simp [FieldView.touched, untouched]
    rw [entry] at kept
    exact kept
  · exact holds.known.trans known.symm

/-- Without its frame and its record, a call leaves only the fields of its instance changed. -/
theorem noted_closed {after : Engine}
    (noted : ((engine.activation table typeTag id method view).state names fields).Noted after) :
    Engine.Noted { engine with heap := engine.heap.withFields id fields }
      { after with stack := after.stack.pop (engine.stack.lastId + 1) }.exitCall := by
  obtain ⟨events, uses, log, milestones, lastId, rfl⟩ := noted
  refine ⟨events, uses, log, milestones, lastId, ?_⟩
  have popped : (⟨engine.stack.lastId + 1, .call method.name.name table.scope, names⟩ ::
      engine.stack.frames).eraseP (·.id == engine.stack.lastId + 1) = engine.stack.frames :=
    List.eraseP_cons_of_pos (by simp)
  simp only [Engine.exitCall, ScopeStack.pop, state, Engine.activation, popped, List.drop_succ_cons,
    List.drop_zero]

end Activation

/-- A call whose end is told fails on its arguments, fails on the limit, or runs its body. -/
theorem Method.tellCall_cases {config : Config} {tell : Teller} {args : List Arg} {after : FieldView}
    {result : Except Stop Value}
    (told : method.tellCall table config tell args view = some (result, after)) :
    (∃ failure, bindArgs method.name.name method.declared args = .error failure ∧
      result = .error (.failed failure) ∧ after = view) ∨
    ∃ bound, bindArgs method.name.name method.declared args = .ok bound ∧
      ((config.maxCallDepth ≤ view.calls ∧
          result = .error (.failed ⟨.stackOverflow view.calls config.maxCallDepth, []⟩) ∧
          after = view) ∨
        (view.calls < config.maxCallDepth ∧
          (∀ name ∈ bound.names method.declared, name ∉ table.taken ∧ name ∉ view.fields.names) ∧
          ∃ inner ended,
            tellAll tell .null method.body (view.enter (.ofList (bound.locals method.declared))) =
              some (inner, ended) ∧
            result = callOutcome method.name.name inner ∧ after = view.leave ended)) := by
  unfold tellCall Told.mk at told
  dsimp only at told
  split at told
  case h_1 failure refused =>
    cases told
    exact .inl ⟨failure, refused, rfl, rfl⟩
  case h_2 bound accepted =>
    refine .inr ⟨bound, accepted, ?_⟩
    split at told
    case isTrue full =>
      cases told
      exact .inl ⟨full, rfl, rfl⟩
    case isFalse room =>
      -- The body is told of only where no argument hides a field, a method or a keyword.
      obtain ⟨⟨inner, ended⟩, ran, same⟩ := Option.map_eq_some_iff.mp told
      unfold tellBody at ran
      split at ran
      · cases ran
      case isFalse apart =>
        cases same
        refine .inr ⟨Nat.lt_of_not_le room, fun name member => ?_, inner, ended, ran, rfl, rfl⟩
        constructor <;> intro hides
        · exact apart ⟨name, member, .inl hides⟩
        · exact apart ⟨name, member, .inr hides⟩

/-- The locals of a call have the names of its arguments. -/
theorem Bound.names_locals {bound : Bound} {params : List Param} {name : String}
    (member : name ∈ (bound.locals params).map (·.1)) : name ∈ bound.names params := by
  rw [locals, List.map_append, List.mem_append, List.map_map] at member
  rcases member with param | extra
  · obtain ⟨⟨param, slot⟩, pair, rfl⟩ := List.mem_map.mp param
    exact List.mem_append_left _ (List.mem_map_of_mem (List.of_mem_zip pair).1)
  · exact List.mem_append_right _ extra

/-- However a computation ends, the change behind it is made. -/
theorem Eval.closing_finished {α : Type} {body : Eval α} {engine final : Engine}
    {result : Except Stop α} (ran : body engine = .finished result final) (after : Engine → Engine) :
    Eval.closing body after engine = .finished result (after final) := by
  show Step.andThen _ (body engine) = _
  rw [ran]
  rfl

/-- A call hands out what its body has ended with, and notes that it is left. -/
theorem Eval.inFrame_finished {body : Eval Value} {engine final : Engine} {result : Except Stop Value}
    (ran : body engine = .finished result final) (function : String) :
    ∃ after, final.Noted after ∧
      (do let value ← Eval.inFrame function body
          return value.outcome) engine = .finished (callOutcome function result) after := by
  have inside : Eval.inFrame function body engine = Step.andThen _ (.finished result final) :=
    congrArg (Step.andThen _) ran
  rcases result with stop | value
  · cases stop with
    | failed failure => exact ⟨_, ⟨_, _, _, _, _, rfl⟩, Eval.bind_error inside _⟩
    | exhausted => exact ⟨final, .refl final, Eval.bind_error inside _⟩
  · exact ⟨_, ⟨_, _, _, _, _, rfl⟩, Eval.bind_ok inside _⟩

namespace Engine.Offers

/-- The frame of a call is filled with the methods, with copies of the fields and with the instance. -/
theorem entered (offers : engine.Offers table id view) (typeTag : String) (method : Method) :
    let act := engine.activation table typeTag id method view
    seedMethod act.this (engine.opened (table.function method)) =
        .finished (.ok act.seeds) (engine.entered (table.function method) (some act.this)) ∧
      (act.state act.seedNames act.seeds).Noted
        (engine.entered (table.function method) (some act.this)) := by
  intro act
  obtain ⟨object, found, methods⟩ := offers.ready.object
  have fields : act.seeds = object.fields := by
    -- The instance is where the frame takes its names from.
    show engine.heap.fields id = _
    rw [Heap.fields, found]
    rfl
  have here : (engine.opened (table.function method)).instance? act.this = some object := found
  refine ⟨?_, engine.events, engine.signalUses, .entered method.name.name :: engine.callLog,
    engine.milestones, engine.stack.lastId + 1, ?_⟩
  · rw [seedMethod_eq, Engine.fieldsOf, here, fields]
    rfl
  -- The new frame is the active one, and takes up the members of the instance.
  have frame : Frame.seed ⟨act.frame, .call act.function act.table.scope, .empty⟩ object act.this =
      ⟨act.frame, .call act.function act.table.scope, act.seedNames⟩ := by
    have tag := Frame.tag_seed ⟨act.frame, .call act.function act.table.scope, .empty⟩ object act.this
    have names := Frame.names_seed ⟨act.frame, .call act.function act.table.scope, .empty⟩ object act.this
    rw [methods, ← fields] at names
    cases same : Frame.seed ⟨act.frame, .call act.function act.table.scope, .empty⟩ object act.this
    rw [same] at tag names
    cases tag
    cases names
    rfl
  have stack : (engine.opened (table.function method)).stack.modifyActive (·.seed object act.this) =
      { (engine.opened (table.function method)).stack with frames :=
          ⟨act.frame, .call act.function act.table.scope, act.seedNames⟩ :: engine.stack.frames } := by
    have visible : engine.stack.threshold < engine.stack.depth + 1 := Nat.lt_succ_of_le offers.ready.visible
    rw [← frame]
    exact if_pos visible
  have heap : act.engine.heap.withFields act.id act.seeds = engine.heap := by
    rw [fields]
    exact Heap.withFields_self found
  have shown : engine.entered (table.function method) (some act.this) =
      { engine.opened (table.function method) with
        stack := (engine.opened (table.function method)).stack.modifyActive (·.seed object act.this) } := by
    unfold Engine.entered Engine.showing
    rw [Option.bind_some, here]
    rfl
  rw [shown, stack]
  simp only [Activation.state, heap]
  rfl

/-- The body of a method runs between the taking of the fields and the giving back. -/
theorem runMethod_eq (offers : engine.Offers table id view) (eval : Evaluator) (typeTag : String)
    (method : Method) (bound : Bound)
    (filled : ∀ slot ∈ method.declared.zip bound.slots, slot.2.isSome = true) :
    let act := engine.activation table typeTag id method view
    ∃ after,
      (act.state (act.seedNames.insertAll .variable (bound.locals method.declared)) act.seeds).Noted
          after ∧
        ∀ result final, runText eval method.site method.text after = .finished result final →
          Eval.withFrame (.call method.name.name table.scope)
              (runMethod eval (table.function method) bound act.this)
              (engine.recordCall method.name.name) =
            .finished result { final.writeBack act.this act.seeds method.declared with
              stack := (final.writeBack act.this act.seeds method.declared).stack.pop
                (engine.stack.lastId + 1) } := by
  -- The frame is filled, the body is run, and the fields are given back.
  intro act
  obtain ⟨takes, noted⟩ := offers.entered typeTag method
  obtain ⟨after, notedAfter, runs⟩ := Activation.runBody_noted eval (offers.sound typeTag method)
    (table.function method) bound filled noted
  refine ⟨after, notedAfter, fun result final ran => ?_⟩
  have body := Eval.closing_finished (runs.trans ran)
    (·.writeBack act.this act.seeds (table.function method).params)
  exact Eval.closing_finished ((Eval.bind_ok takes _).trans body) _

end Engine.Offers

/-- A call changes the fields as is told of it, and leaves all else alone. -/
theorem callFunction_offers {eval : Evaluator} {tell : Teller} {args : List Arg} {after : FieldView}
    {result : Except Stop Value} (typeTag : String) (bodies : RunsBodies eval tell table engine.config)
    (offers : engine.Offers table id view)
    (told : method.tellCall table engine.config tell args view = some (result, after)) :
    ∃ final left,
      callFunction eval (table.function method) args
          (some (.ofData (.object ⟨typeTag, .scripted id⟩))) engine = .finished result final ∧
        Engine.Noted { engine with heap := engine.heap.withFields id left } final ∧
        view.Left after (engine.heap.fields id) left := by
  have unchanged := offers.noted_self
  have nothing := offers.left_self
  rcases Method.tellCall_cases told with ⟨failure, refused, rfl, rfl⟩ | ⟨bound, accepted, ended⟩
  · have binds : bindArgs (table.function method).name (table.function method).params args =
        .error failure := refused
    unfold callFunction
    rw [binds]
    exact ⟨engine, _, rfl, unchanged, nothing⟩
  have binds : bindArgs (table.function method).name (table.function method).params args =
      .ok bound := accepted
  rcases ended with ⟨full, rfl, rfl⟩ | ⟨room, apart, inner, ended, ran, rfl, rfl⟩
  · rw [offers.calls] at full ⊢
    exact ⟨engine, _, callFunction_overflows binds full, unchanged, nothing⟩
  · rw [offers.calls] at room
    let act := engine.activation table typeTag id method view
    have sound : act.Sound := offers.sound typeTag method
    have holds := offers.holds typeTag method fun name member => apart name (Bound.names_locals member)
    have bare : ∀ param ∈ method.declared, param.default = none := by simp [Method.declared]
    obtain ⟨start, notedStart, closes⟩ := offers.runMethod_eq eval typeTag method
      bound (filled_of_bindArgs accepted bare)
    obtain ⟨final, ⟨names, fields, holdsFinal, notedFinal⟩, body⟩ :=
      bodies act method.site method.body sound rfl rfl _ _ ⟨_, _, holds, notedStart⟩ _ _ ran
    -- What the body has written by bare name is given back.
    have free : ∀ name ∈ act.seeds.names, method.declared.any (·.name == name) = false := by
      intro name member
      refine List.any_eq_false.mpr fun param declared same => ?_
      have named : name ∈ bound.names method.declared :=
        List.mem_append_left _ (List.mem_map.mpr ⟨param, declared, eq_of_beq same⟩)
      exact (apart name named).2 (offers.known ▸ member)
    have given := Activation.writeBack_noted sound notedFinal free
    obtain ⟨after, notedAfter, ranToo⟩ :=
      Eval.inFrame_finished (Eval.closing_finished (closes _ _ body) Engine.exitCall) method.name.name
    refine ⟨after, _, ?_, (Activation.noted_closed given).trans notedAfter,
      holdsFinal.left sound rfl rfl offers.known⟩
    exact (callFunction_admitted binds room).trans ranToo

/-! A call in the body of a method. -/

namespace Activation

variable {act : Activation} {names : OrderedMap Handler} {fields left : OrderedMap Value}
  {after : FieldView}

/-- A running method is ready for another call. -/
theorem Holds.offers (sound : act.Sound) (holds : act.Holds view names fields)
    (noted : (act.state names fields).Noted engine) : engine.Offers act.table act.id view := by
  obtain ⟨object, found, methods⟩ := sound.ready.object
  have instances : (act.state names fields).heap.instances[act.id]? = some { object with fields } :=
    Heap.instances_withFields found fields
  have held := fields_state sound names fields
  -- A running method has all fields of its instance in its view.
  have known : view.fields.names = fields.names := holds.known.trans holds.stored.symm
  have current : ∀ name ∈ act.seeds.names, ∀ value, fields.get? name = some value →
      value.isDefinite = true := by
    intro name member value found
    rw [holds.inInstance member] at found
    split at found
    · exact holds.definite name value found
    · exact sound.admitted.definite name value found
  -- What is neither ahead nor hidden has been given the same value on both sides.
  have agree : ∀ name, name ∉ view.ahead ++ view.hidden → fields.get? name = view.fields.get? name := by
    intro name current
    rw [List.mem_append, not_or] at current
    by_cases member : name ∈ act.seeds.names
    · rw [holds.inInstance member]
      split
      · rfl
      case isFalse unwritten =>
        rw [holds.fresh name current.2, holds.unchanged name fun access => by
          cases access <;> simp [FieldView.touched, current.1, unwritten]]
    · rw [OrderedMap.get?_eq_none (holds.stored ▸ member),
        OrderedMap.get?_eq_none (holds.known ▸ member)]
  -- What is noted has no part in this.
  obtain ⟨events, uses, log, milestones, lastId, rfl⟩ := noted
  refine ⟨⟨sound.ready.calm, sound.ready.alone, sound.ready.plain, Nat.le_succ_of_le sound.ready.visible,
    ⟨_, instances, methods⟩, sound.ready.distinct⟩, holds.calls, ?_, ?_, ?_, holds.definite⟩
  · show act.table.Admits ((act.state names fields).heap.fields act.id)
    rw [held]
    refine ⟨holds.stored ▸ sound.admitted.distinct, holds.stored ▸ sound.admitted.free,
      fun name value found => current name ?_ value found⟩
    exact holds.stored ▸ OrderedMap.mem_names_of_get? found
  · show _ = ((act.state names fields).heap.fields act.id).names
    rw [held, known]
  · show ∀ name, _ → ((act.state names fields).heap.fields act.id).get? name = _
    rw [held]
    exact agree

/-- Behind a call, a running method holds what is told. -/
theorem Holds.behind (holds : act.Holds view names fields) (leaves : view.Left after fields left) :
    act.Holds after names left := by
  obtain ⟨⟨touched, same, written, untouched⟩, known, stored, definite⟩ := leaves
  rw [same]
  -- What the call has touched is neither ahead in its caller nor hidden.
  have apart : ∀ name ∈ touched, name ∉ view.ahead ∧ name ∉ view.hidden := by
    intro name member
    have current := (written name member).1
    rwa [List.mem_append, not_or] at current
  refine ⟨holds.calls, holds.hidden, holds.binds, known.trans holds.known, stored.trans holds.stored,
    fun access name member => ?_, fun name never => ?_, holds.fresh, fun access name member => ?_, definite⟩
  · cases access with
    | bare =>
      -- The call has left alone what its caller is ahead with.
      have kept : (if name ∈ view.ahead then view.fields else act.seeds).get? name =
          (if name ∈ view.ahead then after.fields else act.seeds).get? name := by
        split
        case isTrue ahead => exact (untouched name fun here => (apart name here).1 ahead).2.symm
        case isFalse => rfl
      exact (holds.holds .bare name member).trans (congrArg (Option.map Handler.variable) kept)
    | qualified =>
      have kept : left.get? name =
          (if name ∈ touched ++ view.behind then after.fields else act.seeds).get? name := by
        -- A touched name has the value that the call left, and any other the one from before.
        by_cases here : name ∈ touched
        · rw [(written name here).2, if_pos (List.mem_append_left _ here)]
        · rw [(untouched name here).1, holds.inInstance member]
          simp only [List.mem_append, here, false_or]
          split
          · exact (untouched name here).2.symm
          · rfl
      exact congrArg (Option.map Handler.variable) kept
  · have ahead := never .bare
    have behind := never .qualified
    simp only [FieldView.touched, List.mem_append, not_or] at ahead behind
    rw [(untouched name behind.1).2]
    exact holds.unchanged name fun access => by
      cases access <;> simp [FieldView.touched, ahead, behind.2]
  · cases access with
    | bare =>
      -- No name that is ahead has been touched.
      have clear := holds.oneWay .bare name member
      simp only [FieldView.stale, FieldView.touched, Access.other, List.mem_append, not_or] at clear ⊢
      exact ⟨⟨fun here => (apart name here).1 member, clear.1⟩, clear.2⟩
    | qualified =>
      simp only [FieldView.touched, List.mem_append] at member
      simp only [FieldView.stale, FieldView.touched, Access.other, List.mem_append, not_or]
      rcases member with here | behind
      · exact apart name here
      · have clear := holds.oneWay .qualified name behind
        rwa [FieldView.stale, List.mem_append, not_or] at clear

/-- A call of a method does what is told of it. -/
theorem callFunction_follows {eval : Evaluator} {tell : Teller} (sound : act.Sound)
    (bodies : RunsBodies eval tell act.table act.engine.config) (method : Method) (args : List Arg) :
    act.Follows (callFunction eval (act.table.function method) args (some act.this))
      (method.tellCall act.table act.engine.config tell args) := by
  rintro view engine ⟨names, fields, holds, noted⟩ result after told
  have offers := holds.offers sound noted
  have held : engine.heap.fields act.id = fields := by rw [noted.heap, fields_state sound]
  have config : engine.config = act.engine.config := by
    obtain ⟨events, uses, log, milestones, lastId, rfl⟩ := noted
    rfl
  rw [← config] at bodies told
  obtain ⟨final, left, ran, notedFinal, leaves⟩ :=
    callFunction_offers act.typeTag bodies offers told
  rw [held] at leaves
  refine ⟨final, ⟨names, left, holds.behind leaves, ?_⟩, ran⟩
  -- What the call has noted comes behind what was noted before it.
  refine Engine.Noted.trans ?_ notedFinal
  obtain ⟨events, uses, log, milestones, lastId, rfl⟩ := noted
  refine ⟨events, uses, log, milestones, lastId, ?_⟩
  have replaced : (act.engine.heap.withFields act.id fields).withFields act.id left =
      act.engine.heap.withFields act.id left := Heap.withFields_withFields _ _ _ _
  simp only [state, replaced]

end Activation

end ScriptEngine
