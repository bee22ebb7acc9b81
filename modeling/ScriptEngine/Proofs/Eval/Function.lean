import ScriptEngine.Eval.Function
import ScriptEngine.Proofs.Engine.Adjust
import ScriptEngine.Proofs.Eval.Basic

/-! How calls of script functions proceed. -/

namespace ScriptEngine

/-- All arguments of a call are clean. -/
def CleanArgs (args : List Arg) : Prop := ∀ arg ∈ args, arg.value.Clean

/-- All values that are bound in a call are clean. -/
structure Bound.Clean (bound : Bound) : Prop where
  slots : ∀ slot ∈ bound.slots, ∀ value, slot = some value → value.Clean
  extras : ∀ entry ∈ bound.extras, entry.2.Clean

/-- A clean argument keeps what is bound clean. -/
theorem Bound.Clean.add {bound changed : Bound} {params : List Param} {named : Bool}
    {position : Nat} {arg : Arg} (clean : bound.Clean) (argClean : arg.value.Clean)
    (ran : bound.add params named position arg = .ok changed) : changed.Clean := by
  have slot : ∀ value, Bound.defined? arg.value = some value → value.Clean := by
    unfold Bound.defined?
    intro value same
    split at same <;> cases same
    exact argClean
  -- An argument goes into a slot or becomes an extra.
  have placed : ∀ place,
      Bound.Clean { bound with slots := bound.slots.set place (Bound.defined? arg.value) } := by
    refine fun place => ⟨fun found member => ?_, clean.extras⟩
    rcases List.mem_or_eq_of_mem_set member with old | rfl
    · exact clean.slots found old
    · exact slot
  have extra : ∀ name, Bound.Clean { bound with
      extras := bound.extras ++ [(name, (Bound.defined? arg.value).getD .undefined)] } := by
    refine fun name => ⟨clean.slots, fun entry member => ?_⟩
    rcases List.mem_append.mp member with old | new
    · exact clean.extras entry old
    · rw [List.mem_singleton.mp new]
      exact Collection.getD_clean slot Value.clean_undefined
  unfold Bound.add at ran
  dsimp only at ran
  -- The argument is named, or it goes to its position.
  split at ran
  · split at ran
    · split at ran <;> cases ran
      exact placed _
    · cases ran
      exact extra _
  · split at ran
    · cases ran
    · split at ran <;> cases ran
      · exact placed _
      · exact extra _

/-- Clean arguments keep what is bound clean. -/
theorem Bound.Clean.addAll {params : List Param} {args : List Arg} (argsClean : CleanArgs args) :
    ∀ {named position} {bound changed : Bound}, bound.Clean →
      Bound.addAll params named position args bound = .ok changed → changed.Clean := by
  -- The induction is on the arguments that are left.
  induction args with
  | nil =>
    intro named position bound changed clean ran
    cases ran
    exact clean
  | cons arg rest ih =>
    intro named position bound changed clean ran
    obtain ⟨next, added, ran⟩ := ok_of_bind ran
    exact ih (fun other member => argsClean other (List.mem_cons_of_mem _ member))
      (clean.add (argsClean arg List.mem_cons_self) added) ran

/-- What clean arguments are bound as is clean. -/
theorem CleanArgs.bind {function : String} {params : List Param} {args : List Arg} {bound : Bound}
    (clean : CleanArgs args) (ran : bindArgs function params args = .ok bound) : bound.Clean := by
  unfold bindArgs at ran
  split at ran <;> cases ran
  case h_1 made =>
    obtain ⟨filled, added, made⟩ := ok_of_bind made
    split at made <;> cases made
    refine Bound.Clean.addAll clean ⟨?_, by simp⟩ added
    -- Before the arguments are added, no slot holds a value.
    intro slot member value same
    obtain ⟨param, _, rfl⟩ := List.mem_map.mp member
    cases same

variable {strict : Bool} {engine : Engine} {eval : Evaluator}

/-- The arguments of a call are used up one by one. -/
theorem evaluateArgs_runs (lawful : eval.Lawful strict) (site : Site) (parts : List (List Char)) :
    ∀ {engine}, engine.Tidy strict →
      Runs strict engine (fun args now => now.Exempt strict ∨ CleanArgs args)
        (evaluateArgs eval site parts) engine := by
  -- The induction is on the parts that are left.
  induction parts with
  | nil => exact fun tidy => .done (.refl tidy) (.inr (by simp [CleanArgs]))
  | cons part rest ih =>
    intro engine tidy
    refine .bind (evaluateAs_runs lawful tidy .argument site _) fun value now reached used => ?_
    refine .bind (ih reached.tidy) fun args final reached clean => ?_
    refine .done (.refl reached.tidy) ?_
    refine unless_both ((used.clean rfl).imp_left reached.exempt) clean fun first others => ?_
    simpa [CleanArgs, first] using others

/-- The argument list at a cursor is used up. -/
theorem readArgs_runs (lawful : eval.Lawful strict) (tidy : engine.Tidy strict) (cursor : Cursor) :
    Runs strict engine (fun result now => now.Exempt strict ∨ CleanArgs result.1)
      (readArgs eval cursor) engine := by
  unfold readArgs
  dsimp only
  split
  · refine .read (.refl tidy) fun ⟨text, behind⟩ _ => ?_
    refine .bind (evaluateArgs_runs lawful _ _ tidy) fun args now reached clean => ?_
    exact .done (.refl reached.tidy) clean
  · exact .done (.refl tidy) (.inr (by simp [CleanArgs]))

/-- Names for clean values are bound one by one. -/
theorem defineLocal_moved (name file : String) {value : Value}
    (clean : engine.Exempt strict ∨ value.Clean) (tidy : engine.Tidy strict) :
    Moved strict engine (engine.defineLocal name (.variable value) file) :=
  .adjust (Engine.defineLocal_adjusts name (.variable value) file) clean tidy

/-- The parameters of a call are bound one by one. -/
theorem bindParams_runs (lawful : eval.Lawful strict) (function : ScriptFunction)
    (pairs : List (Param × Option Value)) :
    ∀ {engine : Engine}, engine.Tidy strict →
      (engine.Exempt strict ∨ ∀ pair ∈ pairs, ∀ value, pair.2 = some value → value.Clean) →
      Runs strict engine (fun _ _ => True) (bindParams eval function pairs) engine := by
  -- The induction is on the parameters that are left.
  induction pairs with
  | nil => exact fun tidy _ => .done (.refl tidy) trivial
  | cons pair rest ih =>
    intro engine tidy clean
    obtain ⟨param, slot⟩ := pair
    have later : ∀ {now}, Reached strict engine now →
        now.Exempt strict ∨ ∀ pair ∈ rest, ∀ value, pair.2 = some value → value.Clean :=
      fun reached => clean.imp reached.exempt fun clean pair member =>
        clean pair (List.mem_cons_of_mem _ member)
    have binds : ∀ {now value}, Reached strict engine now → now.Exempt strict ∨ value.Clean →
        Runs strict now (fun _ _ => True) (do
          modify (·.defineLocal param.name (.variable value) function.site.file)
          bindParams eval function rest) now := by
      intro now value reached valueClean
      have bound := defineLocal_moved param.name function.site.file valueClean reached.tidy
      exact .change bound (ih bound.tidy (later (reached.trans bound.toReached)))
    unfold bindParams
    split
    case h_1 value =>
      exact binds (.refl tidy) (clean.imp_right fun clean =>
        clean _ List.mem_cons_self value rfl)
    case h_2 default same =>
      refine .bind (evaluateAs_runs lawful tidy .parameterDefault _ _) fun value now reached used => ?_
      exact binds reached (used.clean rfl)
    case h_3 => exact .failed (.refl tidy)

/-- The surplus arguments of a call are bound one by one. -/
theorem bindExtras_runs (file : String) (extras : List (String × Value)) :
    ∀ {engine : Engine}, engine.Tidy strict →
      (engine.Exempt strict ∨ ∀ entry ∈ extras, entry.2.Clean) →
      Runs strict engine (fun _ _ => True) (forIn extras PUnit.unit fun entry _ => do
        modify (·.defineLocal entry.1 (.variable entry.2) file)
        return .yield ⟨⟩) engine := by
  -- The induction is on the arguments that are left.
  induction extras with
  | nil => exact fun tidy _ => .done (.refl tidy) trivial
  | cons entry rest ih =>
    intro engine tidy clean
    rw [List.forIn_cons]
    have first := clean.imp_right fun clean => clean entry List.mem_cons_self
    have bound := defineLocal_moved entry.1 file first tidy
    have later := clean.imp bound.exempt fun clean entry member =>
      clean entry (List.mem_cons_of_mem _ member)
    rw [bind_assoc]
    exact .change bound (ih bound.tidy later)

/-- The body of a call runs behind the binding of its arguments. -/
theorem runBody_yields (lawful : eval.Lawful strict) (tidy : engine.Tidy strict)
    (function : ScriptFunction) {bound : Bound} (clean : engine.Exempt strict ∨ bound.Clean) :
    Yields strict engine (runBody eval function bound) engine := by
  have slots : engine.Exempt strict ∨ ∀ pair ∈ function.params.zip bound.slots, ∀ value,
      pair.2 = some value → value.Clean :=
    clean.imp_right fun clean pair member => clean.slots pair.2 (List.of_mem_zip member).2
  refine .bind (bindParams_runs lawful function _ tidy slots) fun _ now reached _ => ?_
  have extras := clean.imp reached.exempt Bound.Clean.extras
  refine .bind (bindExtras_runs _ _ reached.tidy extras) fun _ now reached _ => ?_
  exact runAll_yields lawful reached.tidy _

/-- The fields that a method changes as locals are written back to its receiver. -/
theorem writeBack_adjusts (this : Value) (seeded : OrderedMap Value) (params : List Param) :
    engine.Adjusts True (engine.writeBack this seeded params) := by
  unfold Engine.writeBack
  split
  case h_1 id frame _ active =>
    refine ⟨.refl _, rfl, rfl, rfl, fun _ clean => { clean with heap := ?_ }⟩
    -- Each field is written from what the frame has for it, or stays.
    refine List.foldlRecOn (motive := fun heap : Heap => heap.Clean) _ _ clean.heap ?_
    intro heap known entry _
    dsimp only
    split
    · exact known
    · split
      case h_1 now found =>
        split
        · exact known
        · exact known.setField id _ ((clean.stack.active active).get found)
      case h_2 => exact known
  case h_2 => exact ⟨.refl _, rfl, rfl, rfl, fun _ => id⟩

/-- Writing fields back commutes with entries in the log. -/
theorem writeBack_note (engine : Engine) (event : Event) (this : Value) (seeded : OrderedMap Value)
    (params : List Param) :
    (engine.note event).writeBack this seeded params =
      (engine.writeBack this seeded params).note event := by
  unfold Engine.writeBack
  dsimp only [Engine.note]
  split <;> rfl

/-- The seeding of a frame leaves its identifier and its kind alone. -/
theorem Frame.tag_seed (frame : Frame) (object : Instance) (this : Value) :
    (frame.seed object this).tag = frame.tag := by
  unfold Frame.seed
  refine List.foldlRecOn (motive := fun seeded : Frame => seeded.tag = frame.tag) _ _ ?_
    fun _ known _ _ => known
  exact List.foldlRecOn (motive := fun seeded : Frame => seeded.tag = frame.tag) _ _ rfl
    fun _ known _ _ => known

/-- The members of a receiver are bound in the frame of a method. -/
theorem seedMethod_runs (tidy : engine.Tidy strict) {this : Value}
    (clean : engine.Exempt strict ∨ this.Clean) :
    Runs strict engine (fun _ _ => True) (seedMethod this) engine := by
  refine .look ?_
  split
  case h_1 => exact .done (.refl tidy) trivial
  case h_2 object found =>
    have adjusts : engine.Adjusts (this.Clean ∧ object.Clean)
        { engine with stack := engine.stack.modifyActive (·.seed object this) } :=
      .active (fun frame => frame.tag_seed object this) fun given _ old => old.seed given.2 given.1
    obtain ⟨id, _, there⟩ := Option.bind_eq_some_iff.mp found
    -- The heap has the object and the stack the receiver, so that the frame has clean values only.
    have given : engine.Exempt strict ∨ this.Clean ∧ object.Clean :=
      unless_both clean tidy fun clean engineClean => ⟨clean, engineClean.instance_clean there⟩
    have reached := Moved.adjust adjusts given tidy
    exact .replace reached (.done (.refl reached.tidy) trivial)

/-- The body of a method runs between the seeding of its frame and the writing back. -/
theorem runMethod_yields (lawful : eval.Lawful strict) (tidy : engine.Tidy strict)
    (function : ScriptFunction) {bound : Bound} {this : Value}
    (clean : engine.Exempt strict ∨ bound.Clean) (thisClean : engine.Exempt strict ∨ this.Clean) :
    Yields strict engine (runMethod eval function bound this) engine := by
  refine .bind (seedMethod_runs tidy thisClean) fun seeded now reached _ => ?_
  -- The fields are written back behind the body, however it ends.
  have inner := runBody_yields lawful reached.tidy function (clean.imp_left reached.exempt)
  refine .closing inner (Reached.refl reached.tidy).toProgressed (fun now reached => ?_)
    (fun now event => writeBack_note now event this seeded function.params)
    (fun now => (writeBack_adjusts this seeded function.params).course)
    fun result now reached yielded value held => ?_
  · have written := Moved.adjust (writeBack_adjusts this seeded function.params) (.inr trivial)
      reached.tidy
    exact reached.trans written.toReached
  · have written := Moved.adjust (writeBack_adjusts this seeded function.params) (.inr trivial)
      reached.tidy
    exact written.keeps.trusted (yielded value held)

/-- A callee runs as the method or the function that it is. -/
theorem runCallee_yields (lawful : eval.Lawful strict) (tidy : engine.Tidy strict)
    (function : ScriptFunction) {bound : Bound} {this : Option Value}
    (clean : engine.Exempt strict ∨ bound.Clean)
    (thisClean : ∀ value, this = some value → engine.Exempt strict ∨ value.Clean) :
    Yields strict engine (runCallee eval function bound this) engine := by
  cases this with
  | some value => exact runMethod_yields lawful tidy function clean (thisClean value rfl)
  | none => exact runBody_yields lawful tidy function clean

/-- A call is entered unless too many are active. -/
theorem enterCall_proceeds {β : Type} {carries : β → Option Value} {goal : β → Engine → Prop}
    {function : String} {next : Unit → Eval β} (tidy : engine.Tidy strict)
    (goesOn : Proceeds strict engine carries goal (next ⟨⟩)
      (engine.recordCall function)) :
    Proceeds strict engine carries goal (enterCall function >>= next) engine := by
  unfold enterCall
  rw [bind_assoc]
  refine .look ?_
  dsimp only
  split
  · exact .failed (.refl tidy)
  · have entered : Turn strict engine (engine.recordCall function) :=
      .of_course rfl
    -- The call is recorded before its frame is there.
    exact goesOn.since fun _ => entered.trans

/-- A call hands out the outcome of its body. -/
theorem callFunction_proceeds (lawful : eval.Lawful strict) (tidy : engine.Tidy strict)
    (function : ScriptFunction) {args : List Arg} {this : Option Value}
    {known : Value → Engine → Prop} (clean : engine.Exempt strict ∨ CleanArgs args)
    (thisClean : ∀ value, this = some value → engine.Exempt strict ∨ value.Clean)
    (holds : ∀ value now, Trusted strict value now → known value.outcome now) :
    Proceeds strict engine Value.quitting? known (callFunction eval function args this) engine := by
  refine .compute (.refl tidy) fun bound made => ?_
  refine enterCall_proceeds tidy ?_
  have entered : Progressed strict engine (engine.recordCall function.name) :=
    .unseen rfl rfl (.inr fun clean => { clean with }) tidy
  have boundClean := clean.imp_right fun clean => clean.bind made
  -- The frame is opened behind the record of the call and closed before it is taken back.
  have framed : Yields strict (engine.recordCall function.name)
      (Eval.withFrame (.call function.name function.scope) (runCallee eval function bound this))
      (engine.recordCall function.name) := by
    refine .withFrame entered.tidy (fun _ _ _ yielded => yielded) fun inside same tidy => ?_
    subst same
    exact runCallee_yields lawful tidy function boundClean thisClean
  have called : Yields strict engine (Eval.inFrame function.name (Eval.closing
      (Eval.withFrame (.call function.name function.scope) (runCallee eval function bound this))
      Engine.exitCall)) (engine.recordCall function.name) := by
    refine .inFrame (.closing framed entered (fun now reached => ?_) (fun _ _ => rfl)
      (fun _ => rfl) fun _ _ _ yielded => yielded) fun _ _ _ yielded => yielded
    -- What is recorded on entry is taken back on exit.
    have left : Progressed strict now now.exitCall :=
      .unseen rfl rfl (.inr fun clean => { clean with }) reached.tidy
    refine ⟨(entered.trans reached.toProgressed).trans left, reached.stack, ?_⟩
    simp [Engine.exitCall, reached.calls, Engine.recordCall]
  refine .bindYielded called fun value now settled => ?_
  exact .settled (settled.handOut (fun _ => Value.QuitsWith.outcome) (holds value now))

/-- A call yields the outcome of its body. -/
theorem callFunction_yields (lawful : eval.Lawful strict) (tidy : engine.Tidy strict)
    (function : ScriptFunction) {args : List Arg} {this : Option Value}
    (clean : engine.Exempt strict ∨ CleanArgs args)
    (thisClean : ∀ value, this = some value → engine.Exempt strict ∨ value.Clean) :
    Yields strict engine (callFunction eval function args this) engine :=
  (callFunction_proceeds lawful tidy function clean thisClean fun _ _ trusted =>
    .of_trusted rfl (trusted.imp_right .outcome)).carry fun _ _ => Value.quitting?_eq_some

/-- A declared name is bound. -/
theorem defineDeclaration_moved (name : String) (handler : Handler) (tidy : engine.Tidy strict)
    (clean : engine.Exempt strict ∨ handler.Clean) :
    Moved strict engine (engine.defineDeclaration name handler) :=
  .adjust (Engine.defineDeclaration_adjusts name handler) clean tidy

/-- The declaration of a function yields null. -/
theorem declareFunction_yields (tidy : engine.Tidy strict) (cursor : Cursor) :
    Yields strict engine (declareFunction cursor) engine := by
  refine .look ?_
  refine .read (.refl tidy) fun ⟨function, behind⟩ _ => ?_
  have bound := defineDeclaration_moved function.name (.function function) tidy (.inr trivial)
  exact .change bound (.done (.refl bound.tidy) (.of_clean rfl (.inr Value.clean_null)))

end ScriptEngine
