import ScriptEngine.Proofs.Fields.State

/-! A running method. Its frame holds copies of the fields; a field is where its last writer has put
it, in the copy or in the instance. -/

namespace ScriptEngine

/-- A name that is bound in no scope that functions share. -/
structure SymbolTable.Unbound (symbols : SymbolTable) (name : String) : Prop where
  inFile : ∀ file, symbols.fileLocal? file name = none
  inNamespace : ∀ scope, symbols.namespaced? scope name = none
  among : symbols.globals.get? name = none ∧ symbols.natives.get? name = none

/-- The symbols that the bodies of methods rely on: the assignments of the language, no namespace that
`this` could name, and keywords that stand for themselves. -/
structure SymbolTable.Plain (symbols : SymbolTable) : Prop where
  actions : symbols.actions = (preludeActions.foldl SymbolTable.setAction {}).actions
  alone : symbols.hasNamespace "this" = false
  keywords : ∀ word ∈ MethodTable.keywords, symbols.Unbound word

/-- Fields that the methods of a class can use: their names are distinct and stand for nothing else, and
they hold definite numbers. -/
structure MethodTable.Admits (table : MethodTable) (fields : OrderedMap Value) : Prop where
  distinct : fields.names.Nodup
  free : ∀ name ∈ fields.names, name ∉ table.taken
  definite : ∀ name value, fields.get? name = some value → value.isDefinite = true

/-- A word that names a member is not qualified. -/
theorem Ident.unqualified (ident : Ident) : ident.name.toList.contains '.' = false := by
  have word : ∀ c ∈ ident.text, Text.isWordChar c = true :=
    fun c => Text.isWordChar_of_identifier ident.identifier
  rw [Ident.name, String.toList_ofList]
  by_contra dotted
  have point := word '.' (by simpa using dotted)
  exact absurd point (by decide)

namespace FieldView

variable {view changed : FieldView} {access : Access} {field : String} {value : Value}

/-- A field whose value is told is not stale. -/
theorem of_read? (told : view.read? access field = some value) :
    field ∉ view.stale access ∧ view.fields.get? field = some value := by
  unfold read? at told
  split at told
  · cases told
  case isFalse current => exact ⟨current, told⟩

/-- One field has been written. -/
@[simp]
theorem fields_written (view : FieldView) (access : Access) (field : String) (value : Value) :
    (view.written access field value).fields = view.fields.insert field value := by
  cases access <;> rfl

/-- The written field has the value behind the write. -/
theorem get?_written_self (view : FieldView) (access : Access) (field : String) (value : Value) :
    (view.written access field value).fields.get? field = some value := by
  rw [fields_written, OrderedMap.get?_insert_self]

/-- Other fields have their values behind a write. -/
theorem get?_written_of_ne (view : FieldView) (access : Access) (value : Value) {name field : String}
    (other : name ≠ field) :
    (view.written access field value).fields.get? name = view.fields.get? name := by
  rw [fields_written, OrderedMap.get?_insert_of_ne _ _ other]

/-- A write leaves the arguments alone. -/
@[simp]
theorem locals_written (view : FieldView) (access : Access) (field : String) (value : Value) :
    (view.written access field value).locals = view.locals := by
  cases access <;> rfl

/-- A write leaves the number of calls alone. -/
@[simp]
theorem calls_written (view : FieldView) (access : Access) (field : String) (value : Value) :
    (view.written access field value).calls = view.calls := by
  cases access <;> rfl

/-- What calls further out have written does not depend on a write. -/
@[simp]
theorem hidden_written (view : FieldView) (access : Access) (field : String) (value : Value) :
    (view.written access field value).hidden = view.hidden := by
  cases access <;> rfl

/-- A write is noted for its way of access. -/
theorem mem_touched_written {way : Access} {name : String} :
    name ∈ (view.written access field value).touched way ↔
      way = access ∧ name = field ∨ name ∈ view.touched way := by
  cases access <;> cases way <;> simp [written, touched]

/-- A field whose write is told is not stale, and a definite number is written. -/
theorem of_write? (told : view.write? access field value = some changed) :
    (field ∉ view.stale access ∧ field ∈ view.fields.names ∧ value.isDefinite = true) ∧
      changed = view.written access field value := by
  unfold write? at told
  split at told
  · cases told
  case isFalse allowed =>
    simp only [not_or, not_not, Bool.not_eq_false] at allowed
    exact ⟨allowed, (Option.some.inj told).symm⟩

/-- A field that is not stale in one way of access has not been written in the other one. -/
theorem untouched_of_current (current : field ∉ view.stale access) {way : Access}
    (different : way ≠ access) : field ∉ view.touched way := by
  rw [stale, List.mem_append, not_or] at current
  cases access <;> cases way <;> first | exact current.1 | exact absurd rfl different

/-- A field that is written in one way of access is not stale in it behind a further write. -/
theorem oneWay_written (current : field ∉ view.stale access)
    (oneWay : ∀ way, ∀ name ∈ view.touched way, name ∉ view.stale way) (way : Access) :
    ∀ name ∈ (view.written access field value).touched way,
      name ∉ (view.written access field value).stale way := by
  intro name member
  have apart : way.other ≠ way := by cases way <;> simp [Access.other]
  rw [stale, hidden_written, List.mem_append, mem_touched_written]
  rcases mem_touched_written.mp member with ⟨rfl, rfl⟩ | before
  · -- The field that was written is not stale by what was written before.
    rw [stale, List.mem_append, not_or] at current
    tauto
  · have clear := oneWay way name before
    rw [stale, List.mem_append, not_or] at clear
    rintro ((⟨rfl, rfl⟩ | touched) | hidden)
    · exact untouched_of_current current apart.symm before
    · exact clear.1 touched
    · exact clear.2 hidden

end FieldView

/-- The place of a field. -/
def Access.place (access : Access) (field : Ident) : Place :=
  match access with
  | .bare => ⟨field.name, []⟩
  | .qualified => ⟨"this", [.property field.name]⟩

/-- An interpreter in which the methods of an instance can run: no end was asked for, no other thread is
at work, a new frame takes part in the resolution of names, and the instance has these methods under
distinct names. -/
structure Engine.Ready (engine : Engine) (table : MethodTable) (id : Nat) : Prop where
  calm : engine.cancelled = false ∧ engine.hostRequest = none
  alone : engine.isAlone = true
  plain : engine.symbols.Plain
  visible : engine.stack.threshold ≤ engine.stack.depth
  object : ∃ object, engine.heap.instances[id]? = some object ∧
    object.definition.methods = table.definitions
  distinct : table.taken.Nodup

/-- The call of a method that is running. -/
structure Activation where
  table : MethodTable
  /-- The interpreter with the call recorded, without its frame. -/
  engine : Engine
  typeTag : String
  /-- The place of the instance. -/
  id : Nat
  /-- The name of the method. -/
  function : String
  /-- The identifier of the frame. -/
  frame : Nat
  /-- The fields when the call started. -/
  entry : OrderedMap Value
  /-- What the instance held of them. -/
  seeds : OrderedMap Value
  /-- The fields that calls further out had written by bare name. -/
  hidden : List String

namespace Activation

/-- The instance. -/
def this (act : Activation) : Value := .ofData (.object ⟨act.typeTag, .scripted act.id⟩)

/-- The interpreter where the frame binds names and the instance holds fields. -/
def state (act : Activation) (names : OrderedMap Handler) (fields : OrderedMap Value) : Engine :=
  { act.engine with
    stack := { act.engine.stack with
      frames := ⟨act.frame, .call act.function act.table.scope, names⟩ :: act.engine.stack.frames }
    heap := act.engine.heap.withFields act.id fields }

/-- What does not change while the body of a method runs. -/
structure Sound (act : Activation) : Prop where
  ready : act.engine.Ready act.table act.id
  admitted : act.table.Admits act.seeds

/-- What one way of access to a field leads to: the copy in the frame, or the field in the instance. -/
def held (names : OrderedMap Handler) (fields : OrderedMap Value) (access : Access) (field : String) :
    Option Handler :=
  match access with
  | .bare => names.get? field
  | .qualified => (fields.get? field).map .variable

/-- What the frame binds apart from copies of fields: the instance, its methods and the arguments. -/
structure Binds (act : Activation) (locals : OrderedMap Value) (names : OrderedMap Handler) : Prop where
  this : names.get? "this" = some (.variable act.this)
  keyword : ∀ word ∈ MethodTable.keywords, names.get? word = none
  method : ∀ method ∈ act.table.methods,
    names.get? method.name.name = some (.function (act.table.function method))
  argument : ∀ name value, locals.get? name = some value →
    names.get? name = some (.variable value) ∧ name ∉ act.seeds.names

/-- What the frame and the instance hold is what is told. -/
structure Holds (act : Activation) (view : FieldView) (names : OrderedMap Handler)
    (fields : OrderedMap Value) : Prop where
  calls : view.calls = act.engine.calls.length
  hidden : view.hidden = act.hidden
  binds : act.Binds view.locals names
  known : view.fields.names = act.seeds.names
  stored : fields.names = act.seeds.names
  /-- Either way leads to what was last written that way, and else to what was there. -/
  holds : ∀ access, ∀ name ∈ act.seeds.names, held names fields access name =
    ((if name ∈ view.touched access then view.fields else act.seeds).get? name).map .variable
  unchanged : ∀ name, (∀ access, name ∉ view.touched access) →
    view.fields.get? name = act.entry.get? name
  /-- Only where a call further out is ahead, the instance held something else than the field. -/
  fresh : ∀ name, name ∉ view.hidden → act.seeds.get? name = act.entry.get? name
  oneWay : ∀ access, ∀ name ∈ view.touched access, name ∉ view.stale access
  definite : ∀ name value, view.fields.get? name = some value → value.isDefinite = true

/-- The interpreter is one in which a running method holds what is told. -/
def Shows (act : Activation) (view : FieldView) (engine : Engine) : Prop :=
  ∃ names fields, act.Holds view names fields ∧ (act.state names fields).Noted engine

/-- A computation ends as is told. -/
def Reaches {α : Type} (act : Activation) (engine : Engine) (body : Eval α)
    (told : Option (Except Stop α × FieldView)) : Prop :=
  ∀ result view, told = some (result, view) →
    ∃ final, act.Shows view final ∧ body engine = .finished result final

/-- A computation does what is told of it. -/
def Follows {α : Type} (act : Activation) (body : Eval α) (told : Told α) : Prop :=
  ∀ view engine, act.Shows view engine → act.Reaches engine body (told view)

variable {α β : Type} {act : Activation} {engine : Engine} {view : FieldView}
  {names : OrderedMap Handler} {fields : OrderedMap Value}

/-! Computations in a row. -/

namespace Reaches

variable {body : Eval α}

/-- Where nothing is told, nothing needs to be done. -/
theorem untold : act.Reaches engine body none := nofun

/-- A computation ends as it is known to. -/
theorem finished {result : Except Stop α} {final : Engine} (shows : act.Shows view final)
    (ran : body engine = .finished result final) : act.Reaches engine body (some (result, view)) := by
  rintro _ _ ⟨⟩
  exact ⟨final, shows, ran⟩

/-- How a computation runs decides what it reaches. -/
theorem congr {other : Eval α} {start : Engine} {told : Option (Except Stop α × FieldView)}
    (reaches : act.Reaches engine body told) (same : other start = body engine) :
    act.Reaches start other told := by
  intro result view tells
  obtain ⟨final, shows, ran⟩ := reaches result view tells
  exact ⟨final, shows, same.trans ran⟩

end Reaches

namespace Follows

variable {body : Eval α} {told : Told α}

/-- A value is told as one. -/
theorem pure (value : α) : act.Follows (pure value) (Pure.pure value) :=
  fun _ _ shows => .finished shows rfl

/-- A failure is told as one. -/
theorem throw (stop : Stop) : act.Follows (throw stop : Eval α) (MonadExcept.throw stop) :=
  fun _ _ shows => .finished shows rfl

/-- A result is told as one. -/
theorem ofResult (result : Result α) : act.Follows (Eval.ofResult result) (Told.ofResult result) := by
  cases result with
  | ok value => exact .pure value
  | error failure => exact .throw _

/-- What goes on behind a computation is told behind it. -/
theorem bind {next : α → Eval β} {tells : α → Told β} (first : act.Follows body told)
    (second : ∀ value, act.Follows (next value) (tells value)) :
    act.Follows (body >>= next) (told >>= tells) := by
  intro view engine shows result after toldBoth
  change Option.bind (told view) _ = _ at toldBoth
  obtain ⟨⟨reached, middle⟩, toldFirst, toldBoth⟩ := Option.bind_eq_some_iff.mp toldBoth
  obtain ⟨between, showsToo, ran⟩ := first view engine shows reached middle toldFirst
  -- Only behind a value does the second computation run.
  cases reached with
  | error stop =>
    cases toldBoth
    exact ⟨between, showsToo, Eval.bind_error ran next⟩
  | ok value =>
    obtain ⟨final, shows, ranToo⟩ := second value middle between showsToo result after toldBoth
    exact ⟨final, shows, (Eval.bind_ok ran next).trans ranToo⟩

/-- What goes on behind a computation that is told to yield a value is told with that. -/
theorem bind_pure {value : α} {next : α → Eval β} {tells : Told β}
    (first : act.Follows body (Pure.pure value)) (second : act.Follows (next value) tells) :
    act.Follows (body >>= next) tells := by
  intro view engine shows result after told
  obtain ⟨between, showsToo, ran⟩ := first view engine shows (.ok value) view rfl
  obtain ⟨final, shows, ranToo⟩ := second view between showsToo result after told
  exact ⟨final, shows, (Eval.bind_ok ran next).trans ranToo⟩

/-- What is told of a computation is told of one that does the same here. -/
theorem alike {other : Eval α} (same : ∀ view engine, act.Shows view engine → other engine = body engine)
    (follows : act.Follows body told) : act.Follows other told :=
  fun view engine shows => (follows view engine shows).congr (same view engine shows)

/-- What is noted is not told. -/
theorem noting {change : Engine → Engine} (noted : ∀ engine : Engine, engine.Noted (change engine)) :
    act.Follows (modify change) (Pure.pure ⟨⟩) := by
  rintro view engine ⟨names, fields, holds, alike⟩
  exact .finished ⟨names, fields, holds, alike.trans (noted engine)⟩ rfl

/-- The use of a value is at most noted. -/
theorem use (use : Use) (value : Value) : act.Follows (Eval.use use value) (Pure.pure value) := by
  rintro view engine ⟨names, fields, holds, alike⟩
  unfold Eval.use
  cases signal : value.isSignal with
  | true =>
    have noted : engine.Noted (engine.noteUse use) := ⟨_, _, _, _, _, rfl⟩
    exact .finished ⟨names, fields, holds, alike.trans noted⟩ rfl
  | false => exact .finished ⟨names, fields, holds, alike⟩ rfl

/-- Where something is only told if it is allowed, it may be relied on. -/
theorem allow {allowed : FieldView → Prop} [DecidablePred allowed]
    (reaches : ∀ view engine, act.Shows view engine → allowed view →
      act.Reaches engine body (told view)) :
    act.Follows body (Told.allow allowed >>= fun _ => told) := by
  intro view engine shows
  -- What is not allowed is not told, so that nothing has to be shown.
  by_cases held : allowed view
  · have tells : (Told.allow allowed >>= fun _ => told) view = told view := by
      change Option.bind (if allowed view then _ else _) _ = _
      rw [if_pos held]
      rfl
    rw [tells]
    exact reaches view engine shows held
  · have untold : (Told.allow allowed >>= fun _ => told) view = none := by
      change Option.bind (if allowed view then _ else _) _ = _
      rw [if_neg held]
      rfl
    rw [untold]
    exact .untold

/-- A failure of a part outside the interpreter is at most noted. -/
theorem ofHost (result : Result α) : act.Follows (Eval.ofHost result) (Told.ofResult result) := by
  -- A failure leads to one more use of a signal, or to nothing that is noted.
  cases result with
  | ok value => exact .pure value
  | error failure =>
    have noted : ∀ engine : Engine, engine.Noted (engine.receive (.failed failure)) := by
      intro engine
      unfold Engine.receive
      dsimp only
      split
      · exact .refl engine
      · exact ⟨_, _, _, _, _, rfl⟩
    exact (noting noted).bind_pure (.throw _)

end Follows

/-! What names stand for. -/

/-- The frame of a running method takes part in the resolution of names. -/
theorem visible_state (sound : act.Sound) (names : OrderedMap Handler) (fields : OrderedMap Value) :
    (act.state names fields).stack.threshold < (act.state names fields).stack.depth :=
  Nat.lt_succ_of_le sound.ready.visible

/-- The frame of a running method is active. -/
theorem active?_state (sound : act.Sound) (names : OrderedMap Handler) (fields : OrderedMap Value) :
    (act.state names fields).stack.active? =
      some ⟨act.frame, .call act.function act.table.scope, names⟩ :=
  if_pos (visible_state sound names fields)

/-- What the frame binds is found there. -/
theorem resolve?_bound (sound : act.Sound) {name : String} {handler : Handler}
    (plain : name.toList.contains '.' = false) (bound : names.get? name = some handler)
    (file : String) : (act.state names fields).resolve? name file = some handler := by
  unfold Engine.resolve?
  rw [plain, if_neg (by decide), active?_state sound]
  -- The names of the frame come in front of all others.
  have found : (act.state names fields).inFrame?
      ⟨act.frame, .call act.function act.table.scope, names⟩ name = some handler := by
    unfold Engine.inFrame?
    cases act.table.scope with
    | none => exact bound
    | some scope => simp [bound]
  simp [found]

/-- What the frame binds is assigned there. -/
theorem assign_bound (sound : act.Sound) (noted : (act.state names fields).Noted engine)
    {name : String} {handler : Handler} (plain : name.toList.contains '.' = false)
    (bound : names.get? name = some handler) (content : Handler) (file : String) :
    (act.state (names.insert name content) fields).Noted (engine.assign name content file) := by
  have listed : names.contains name = true := by simp [OrderedMap.contains, bound]
  have whole : SymbolTable.splitQualified? name = none := by
    have none := SymbolTable.splitQualified_isSome name
    rw [plain] at none
    simpa using none
  have goes : (act.state names fields).target name file = .frame := by
    unfold Engine.target
    rw [whole, active?_state sound]
    simp [Engine.boundInFrame?, listed]
  -- The target does not depend on what is noted.
  obtain ⟨events, uses, log, milestones, lastId, rfl⟩ := noted
  refine ⟨events, uses, log, milestones, lastId, ?_⟩
  unfold Engine.assign
  refine (congrArg (Engine.bindAt _ name file content) goes).trans ?_
  have defined : ({ (act.state names fields).stack with lastId } : ScopeStack).define name content =
      { (act.state (names.insert name content) fields).stack with lastId } :=
    if_pos (visible_state sound names fields)
  simp only [Engine.bindAt, defined]
  rfl

/-- A keyword stands for itself. -/
theorem resolve?_keyword (sound : act.Sound) {word : String} (member : word ∈ MethodTable.keywords)
    (free : names.get? word = none) (file : String) :
    (act.state names fields).resolve? word file = (Keyword.ofName? word).map .keyword := by
  -- No namespace, file or global name is a keyword, so only the keyword itself is left.
  have unbound := sound.ready.plain.keywords word member
  have symbols : (act.state names fields).symbols = act.engine.symbols := rfl
  have none : (act.state names fields).inFrame?
      ⟨act.frame, .call act.function act.table.scope, names⟩ word = Option.none := by
    unfold Engine.inFrame?
    cases act.table.scope with
    | none => exact free
    | some scope => simp [free, symbols, unbound.inNamespace]
  have plain : word.toList.contains '.' = false := by
    have all : MethodTable.keywords.all (fun word => !word.toList.contains '.') = true := by decide
    simpa using List.all_eq_true.mp all word member
  unfold Engine.resolve?
  rw [plain, if_neg (by decide), active?_state sound]
  simp only [Option.bind_some, none, symbols, unbound.inFile, unbound.among.1, unbound.among.2,
    Option.none_or]

/-! Where a field is. -/

/-- Other names are bound as before behind the binding of a field. -/
theorem Binds.insert {locals : OrderedMap Value} (sound : act.Sound) (binds : act.Binds locals names) {field : String}
    (member : field ∈ act.seeds.names) (content : Handler) :
    act.Binds locals (names.insert field content) := by
  -- A field is neither `this` nor a keyword nor a method.
  have free := sound.admitted.free field member
  simp only [MethodTable.taken, List.mem_cons, List.mem_append, List.mem_map, not_or, not_exists,
    not_and] at free
  refine ⟨?_, fun word reserved => ?_, fun method listed => ?_, fun name value bound => ?_⟩
  · rw [OrderedMap.get?_insert_of_ne _ _ (Ne.symm free.1)]
    exact binds.this
  · have apart : word ≠ field := by
      rintro rfl
      exact free.2.1 reserved
    rw [OrderedMap.get?_insert_of_ne _ _ apart]
    exact binds.keyword word reserved
  · rw [OrderedMap.get?_insert_of_ne _ _ fun same => free.2.2 method listed same]
    exact binds.method method listed
  · obtain ⟨found, other⟩ := binds.argument name value bound
    refine ⟨?_, other⟩
    have apart : name ≠ field := by
      rintro rfl
      exact other member
    rw [OrderedMap.get?_insert_of_ne _ _ apart]
    exact found

namespace Holds

/-- A field that is read and not stale is where its access leads to. -/
theorem current (holds : act.Holds view names fields) {access : Access} {field : String}
    {value : Value} (told : view.read? access field = some value) :
    held names fields access field = some (.variable value) := by
  obtain ⟨current, found⟩ := FieldView.of_read? told
  have member : field ∈ act.seeds.names := holds.known ▸ OrderedMap.mem_names_of_get? found
  have bound := holds.holds access field member
  by_cases touched : field ∈ view.touched access
  · rw [if_pos touched, found] at bound
    exact bound
  · -- Without a write, it is what the call has started with.
    have untouched : ∀ way, field ∉ view.touched way := by
      intro way
      by_cases same : way = access
      · exact same ▸ touched
      · exact FieldView.untouched_of_current current same
    have seen : field ∉ view.hidden := fun hidden => current (List.mem_append_right _ hidden)
    rw [if_neg touched, holds.fresh field seen, ← holds.unchanged field untouched, found] at bound
    exact bound

/-- There is a copy of each field in the frame. -/
theorem copied (holds : act.Holds view names fields) {field : String}
    (listed : field ∈ view.fields.names) : ∃ value, names.get? field = some (.variable value) := by
  have member : field ∈ act.seeds.names := holds.known ▸ listed
  have copy : names.get? field = _ := holds.holds .bare field member
  split at copy
  · obtain ⟨value, found⟩ := OrderedMap.get?_of_mem_names listed
    exact ⟨value, copy.trans (congrArg _ found)⟩
  · obtain ⟨value, found⟩ := OrderedMap.get?_of_mem_names member
    exact ⟨value, copy.trans (congrArg _ found)⟩

/-- Behind a write, each access to a field leads to what was written last in that way, or to what the call
has started with. -/
theorem held_written (holds : act.Holds view names fields) {access : Access} {field : String}
    {value : Value} {newNames : OrderedMap Handler} {newFields : OrderedMap Value}
    (current : field ∉ view.stale access)
    (here : held newNames newFields access field = some (.variable value))
    (elsewhere : ∀ way name, way ≠ access ∨ name ≠ field →
      held newNames newFields way name = held names fields way name)
    (way : Access) (name : String) (listed : name ∈ act.seeds.names) :
    held newNames newFields way name =
      ((if name ∈ (view.written access field value).touched way then
        (view.written access field value).fields else act.seeds).get? name).map .variable := by
  -- The field itself is found at the access that it was written with.
  by_cases same : way = access ∧ name = field
  · obtain ⟨rfl, rfl⟩ := same
    rw [here, if_pos (FieldView.mem_touched_written.mpr (.inl ⟨rfl, rfl⟩)),
      FieldView.get?_written_self]
    rfl
  · rw [elsewhere way name (by tauto), holds.holds way name listed]
    by_cases touched : name ∈ view.touched way
    · -- A field that was written the other way would be stale.
      have other : name ≠ field := by
        rintro rfl
        exact FieldView.untouched_of_current current (fun way => same ⟨way, rfl⟩) touched
      rw [if_pos touched, if_pos (FieldView.mem_touched_written.mpr (.inr touched)),
        FieldView.get?_written_of_ne _ _ _ other]
    · rw [if_neg touched, if_neg (by rw [FieldView.mem_touched_written]; tauto)]

/-- A field that is written goes to where its access leads to. -/
theorem write (holds : act.Holds view names fields) {access : Access} {field : String}
    {value : Value} {changed : FieldView} (told : view.write? access field value = some changed)
    {newNames : OrderedMap Handler} {newFields : OrderedMap Value}
    (binds : act.Binds view.locals newNames) (stored : newFields.names = fields.names)
    (here : held newNames newFields access field = some (.variable value))
    (elsewhere : ∀ way name, way ≠ access ∨ name ≠ field →
      held newNames newFields way name = held names fields way name) :
    act.Holds changed newNames newFields := by
  obtain ⟨⟨current, listed, definite⟩, rfl⟩ := FieldView.of_write? told
  have unchanged : ∀ name, (∀ way, name ∉ (view.written access field value).touched way) →
      (view.written access field value).fields.get? name = act.entry.get? name := by
    -- What has never been written is not the field.
    intro name untouched
    have other : name ≠ field := by
      rintro rfl
      exact untouched access (FieldView.mem_touched_written.mpr (.inl ⟨rfl, rfl⟩))
    rw [FieldView.get?_written_of_ne _ _ _ other]
    exact holds.unchanged name fun way member =>
      untouched way (FieldView.mem_touched_written.mpr (.inr member))
  exact {
    calls := (FieldView.calls_written _ _ _ _).trans holds.calls
    hidden := (FieldView.hidden_written _ _ _ _).trans holds.hidden
    binds := by rwa [FieldView.locals_written]
    known := by rw [FieldView.fields_written, OrderedMap.names_insert listed, holds.known]
    stored := stored.trans holds.stored
    holds := holds.held_written current here elsewhere
    unchanged := unchanged
    fresh := by rw [FieldView.hidden_written]; exact holds.fresh
    oneWay := FieldView.oneWay_written current holds.oneWay
    definite := fun name content found => by
      by_cases same : name = field
      · subst same
        rw [FieldView.get?_written_self] at found
        cases found
        exact definite
      · exact holds.definite name content
          ((FieldView.get?_written_of_ne _ _ _ same).symm.trans found) }

end Holds

/-! Reading and writing of fields. -/

/-- The value of `this` has no properties of its own. -/
theorem getter?_this (act : Activation) (name : String) :
    act.this.getter? name = none ∧ act.this.setter? name = none ∧ act.this.field? name = none :=
  ⟨rfl, rfl, rfl⟩

/-- The fields that the interpreter holds for the instance. -/
theorem fields_state (sound : act.Sound) (names : OrderedMap Handler) (fields : OrderedMap Value) :
    (act.state names fields).heap.fields act.id = fields := by
  obtain ⟨object, found, _⟩ := sound.ready.object
  have there : (act.state names fields).heap.instances[act.id]? = some { object with fields } :=
    Heap.instances_withFields found fields
  rw [Heap.fields, there]
  rfl

/-- The instance is read where the interpreter holds it. -/
theorem getProperty_follows (eval : Evaluator) (site : Site) (sound : act.Sound) (field : Ident) :
    act.Follows (getProperty eval site act.this field.name) (.read .qualified field) := by
  rintro view engine ⟨names, fields, holds, noted⟩
  show act.Reaches _ _ ((view.read? .qualified field.name).map _)
  cases told : view.read? .qualified field.name with
  | none => exact .untold
  | some value =>
    refine .finished ⟨names, fields, holds, noted⟩ ?_
    -- A field of the instance comes before the builtin properties, and no getter before it.
    have found : engine.plainProperty act.this field.name = .ok value := by
      have member : engine.member? act.this field.name = some value := by
        show (engine.heap.fields act.id).get? field.name = some value
        rw [noted.heap, fields_state sound]
        have current := holds.current told
        simpa [held] using current
      simp only [Engine.plainProperty, member, Option.some_or]
    unfold getProperty
    obtain ⟨getter, _, own⟩ := act.getter?_this field.name
    rw [getter, own]
    show (Eval.ofResult (engine.plainProperty act.this field.name)) engine = _
    rw [found]
    rfl

/-- Loading a field reads it. -/
theorem load_follows (eval : Evaluator) (site : Site) (sound : act.Sound) (access : Access) (field : Ident) :
    act.Follows (load eval site (access.place field)) (.read access field) := by
  rintro view engine ⟨names, fields, holds, noted⟩
  -- A bare field is a variable of the frame, and a qualified one a property of `this`.
  cases access with
  | bare =>
    show act.Reaches _ _ ((view.read? .bare field.name).map _)
    cases told : view.read? .bare field.name with
    | none => exact .untold
    | some value =>
      refine .finished ⟨names, fields, holds, noted⟩ ?_
      have bound : engine.resolve? field.name site.file = some (.variable value) := by
        rw [noted.resolve?]
        exact resolve?_bound sound field.unqualified (holds.current told) _
      have found : engine.valueOf? (Access.bare.place field).name site.file = some value :=
        congrArg (Option.bind · Handler.value?) bound
      unfold load
      rw [Eval.get_bind]
      simp only [found]
      rfl
  | qualified =>
    have follows : act.Follows (do
        let value ← getProperty eval site act.this field.name
        Eval.use .current value) (.read .qualified field) := by
      have parts := (getProperty_follows eval site sound field).bind fun value =>
        Follows.use .current value
      rwa [bind_pure] at parts
    refine (follows view engine ⟨names, fields, holds, noted⟩).congr ?_
    have bound : engine.resolve? "this" site.file = some (.variable act.this) := by
      rw [noted.resolve?]
      exact resolve?_bound sound (by decide) holds.binds.this _
    have found : engine.valueOf? (Access.qualified.place field).name site.file = some act.this :=
      congrArg (Option.bind · Handler.value?) bound
    unfold load
    rw [Eval.get_bind]
    simp only [found]
    simp only [Access.place, loadSegments, bind_pure]

/-- Storing a value under the bare name of a field goes to the copy in the frame. -/
theorem store_bare (eval : Evaluator) (site : Site) (sound : act.Sound) (field : Ident) {value : Value}
    {changed : FieldView} (holds : act.Holds view names fields)
    (noted : (act.state names fields).Noted engine)
    (told : view.write? .bare field.name value = some changed) :
    ∃ final, act.Shows changed final ∧
      store eval site (Access.bare.place field) value engine = .finished (.ok ()) final := by
  obtain ⟨⟨_, listed, definite⟩, _⟩ := FieldView.of_write? told
  have member : field.name ∈ act.seeds.names := holds.known ▸ listed
  -- The copy has a place in the frame already.
  obtain ⟨old, bound⟩ := holds.copied listed
  refine ⟨_, ⟨names.insert field.name (.variable value), fields, ?_,
    assign_bound sound noted field.unqualified bound (.variable value) site.file⟩, ?_⟩
  · refine holds.write told (holds.binds.insert sound member _) rfl
      (OrderedMap.get?_insert_self _ _ _) fun way name apart => ?_
    cases way with
    | bare => exact OrderedMap.get?_insert_of_ne _ _ (by simpa using apart)
    | qualified => rfl
  · unfold store
    simp only [Value.isSignal_of_isDefinite definite, Bool.false_eq_true, if_false]
    rfl

/-- Storing a value in a field through `this` goes to the instance, and puts `this` where it was. -/
theorem store_qualified (eval : Evaluator) (site : Site) (sound : act.Sound) (field : Ident)
    {value : Value} {changed : FieldView} (holds : act.Holds view names fields)
    (noted : (act.state names fields).Noted engine)
    (told : view.write? .qualified field.name value = some changed) :
    ∃ final, act.Shows changed final ∧
      store eval site (Access.qualified.place field) value engine = .finished (.ok ()) final := by
  obtain ⟨⟨_, listed, definite⟩, _⟩ := FieldView.of_write? told
  have member : field.name ∈ act.seeds.names := holds.known ▸ listed
  let written : Engine := { engine with heap := engine.heap.setField act.id field.name value }
  have notedToo : (act.state names (fields.insert field.name value)).Noted written := by
    obtain ⟨events, uses, log, milestones, lastId, rfl⟩ := noted
    refine ⟨events, uses, log, milestones, lastId, ?_⟩
    have stored := Heap.setField_withFields act.engine.heap act.id fields field.name value
    simp only [written, state, stored]
  -- The object is stored under its name again, which changes nothing.
  have again := assign_bound sound notedToo (by decide) holds.binds.this (.variable act.this) site.file
  rw [OrderedMap.insert_bound _ holds.binds.this] at again
  refine ⟨_, ⟨names, fields.insert field.name value, ?_, again⟩, ?_⟩
  · refine holds.write told holds.binds
      (OrderedMap.names_insert (holds.stored ▸ member) value) ?_ fun way name apart => ?_
    · exact congrArg (Option.map _) (OrderedMap.get?_insert_self _ _ _)
    · cases way with
      | bare => rfl
      | qualified =>
        exact congrArg (Option.map _) (OrderedMap.get?_insert_of_ne _ _ (by simpa using apart))
  · have bound : engine.resolve? "this" site.file = some (.variable act.this) := by
      rw [noted.resolve?]
      exact resolve?_bound sound (by decide) holds.binds.this _
    have found : engine.resolve? (Access.qualified.place field).name site.file =
        some (.variable act.this) := bound
    have below : (Access.qualified.place field).segments.isEmpty = false := rfl
    unfold store
    simp only [Value.isSignal_of_isDefinite definite, below, Bool.false_eq_true, if_false]
    rw [Eval.get_bind]
    simp only [found]
    rfl

/-- Storing a field writes it. -/
theorem store_follows (eval : Evaluator) (site : Site) (sound : act.Sound) (access : Access)
    (field : Ident) (value : Value) :
    act.Follows (store eval site (access.place field) value) (.write access field value) := by
  rintro view engine ⟨names, fields, holds, noted⟩ result after told
  obtain ⟨changed, written, same⟩ := Option.map_eq_some_iff.mp told
  cases same
  cases access with
  | bare => exact store_bare eval site sound field holds noted written
  | qualified => exact store_qualified eval site sound field holds noted written

end Activation

end ScriptEngine
