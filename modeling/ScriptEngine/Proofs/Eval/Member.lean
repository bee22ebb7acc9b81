import ScriptEngine.Eval.Member
import ScriptEngine.Proofs.Eval.Native

/-! How properties, methods and places are read and written. -/

namespace ScriptEngine

/-- A sound value with a computed getter is clean. -/
theorem Value.Sound.clean_of_getter {value : Value} {name : String} {accessor : Accessor}
    (sound : value.Sound) (found : value.getter? name = some accessor) : value.Clean := by
  cases sound with
  | clean clean => exact clean
  | breakSignal | continueSignal | quitSignal | returnSignal => cases found

/-- A stored or built-in property of a sound value is clean. -/
theorem Engine.Clean.plainProperty {engine : Engine} (clean : engine.Clean) {value found : Value}
    {name : String} (sound : value.Sound) (read : engine.plainProperty value name = .ok found) :
    found.Clean := by
  unfold Engine.plainProperty at read
  split at read
  case h_1 there =>
    cases read
    -- A property is found as a stored member or else as a built-in one.
    rcases Option.or_eq_some_iff.mp there with stored | ⟨_, builtin⟩
    · unfold Engine.member? at stored
      split at stored
      case h_1 => exact clean.heap.field stored
      case h_2 =>
        obtain ⟨number, _, rfl⟩ := Option.map_eq_some_iff.mp stored
        exact Value.clean_ofInt number
      case h_3 data => exact (sound.items data).getKey stored
      case h_4 => cases stored
    · exact sound.builtinProperty builtin
  case h_2 => cases read

/-- In a clean interpreter there are no properties of host types. -/
theorem Engine.Clean.hostProperty {engine : Engine} (clean : engine.Clean) (typeTag name : String) :
    engine.hostProperty? typeTag name = none := by
  simp [Engine.hostProperty?, clean.hostTypes, OrderedMap.get?, OrderedMap.empty]

/-- In a clean interpreter there are no methods of host types. -/
theorem Engine.Clean.hostMethod {engine : Engine} (clean : engine.Clean) (typeTag name : String)
    (count : Nat) : engine.hostMethod? typeTag name count = none := by
  simp [Engine.hostMethod?, clean.hostTypes, OrderedMap.get?, OrderedMap.empty]

variable {strict : Bool} {engine : Engine} {eval : Evaluator}

/-- What a computed property yields is trusted. -/
theorem runAccessor_yields (lawful : eval.Lawful strict) (tidy : engine.Tidy strict) (site : Site)
    {receiver : Value} (accessor : Accessor) {assigned : Option Value}
    (clean : engine.Exempt strict ∨ receiver.Clean)
    (assignedClean : engine.Exempt strict ∨ ∀ value, assigned = some value → value.Clean) :
    Yields strict engine (runAccessor eval site receiver accessor assigned) engine := by
  cases accessor with
  | function name =>
    refine .look ?_
    split
    case h_1 function _ =>
      refine callFunction_yields lawful tidy function ?_ (by simp)
      -- The arguments are the receiver and, where one is assigned, the new content.
      refine unless_both clean assignedClean fun clean assignedClean arg member => ?_
      obtain ⟨value, there, rfl⟩ := List.mem_map.mp member
      rcases List.mem_cons.mp there with rfl | other
      · exact clean
      · exact assignedClean value (Option.mem_toList.mp other)
    case h_2 native found =>
      refine callNative_yields lawful tidy site _ ?_
      exact tidy.imp_right fun clean => clean.resolve found
    case h_3 => exact .failed (.refl tidy)
  | expression text =>
    refine .withFrame tidy (fun _ _ _ yielded => yielded) fun inside same tidy => ?_
    -- The frame gets the receiver and the assigned value as its only names.
    have this : inside.Adjusts receiver.Clean
        { inside with stack := inside.stack.define "this" (.variable receiver) } :=
      .define "this" (.variable receiver)
    have seen := Moved.adjust this (by subst same; exact clean) tidy
    have value : Engine.Adjusts (assigned.getD .undefined).Clean
        { inside with stack := inside.stack.define "this" (.variable receiver) }
        { inside with
          stack := (inside.stack.define "this" (.variable receiver)).define "value"
            (.variable (assigned.getD .undefined)) } :=
      .define "value" (.variable (assigned.getD .undefined))
    have given : inside.Exempt strict ∨ (assigned.getD .undefined).Clean := by
      subst same
      exact assignedClean.imp_right fun clean => Collection.getD_clean clean Value.clean_undefined
    have bound := seen.trans (.adjust value (given.imp_left seen.exempt) seen.tidy)
    exact .change bound (evaluateAll_yields lawful bound.tidy _)

/-- What a property holds is trusted. -/
theorem getProperty_yields (lawful : eval.Lawful strict) (tidy : engine.Tidy strict) (site : Site)
    {value : Value} (name : String) (sound : engine.Exempt strict ∨ value.Sound) :
    Yields strict engine (getProperty eval site value name) engine := by
  unfold getProperty
  split
  -- A getter of the value itself comes first, then its own field, then the host, then the rest.
  case h_1 accessor getter =>
    have clean := sound.imp_right fun sound => sound.clean_of_getter getter
    exact runAccessor_yields lawful tidy site accessor clean (.inr (by simp))
  case h_2 field _ found =>
    exact .done (.refl tidy) (.of_clean rfl (sound.imp_right fun sound => sound.field found))
  case h_3 =>
    refine .look ?_
    dsimp only
    split
    case h_1 result host =>
      refine .hosted (.refl tidy) fun found read => .of_trusted rfl ?_
      -- A clean engine has no properties of the host.
      refine tidy.imp_right fun clean => ?_
      obtain ⟨⟨typeTag, id⟩, _, there⟩ := Option.bind_eq_some_iff.mp host
      rw [clean.hostProperty] at there
      cases there
    case h_2 =>
      refine .computed (.refl tidy) fun found read => .of_clean rfl ?_
      exact unless_both tidy sound fun clean sound => clean.plainProperty sound read

/-- What stands at a place below a sound value is sound. -/
theorem loadSegments_runs (lawful : eval.Lawful strict) (site : Site) (segments : List Segment) :
    ∀ {engine : Engine} {value : Value}, engine.Tidy strict →
      (engine.Exempt strict ∨ value.Sound) →
      Runs strict engine (fun found now => now.Exempt strict ∨ found.Sound)
        (loadSegments eval site value segments) engine := by
  -- The induction is on the steps to the place.
  induction segments with
  | nil => exact fun tidy sound => .done (.refl tidy) sound
  | cons segment rest ih =>
    intro engine value tidy sound
    cases segment with
    | index index =>
      refine .compute (.refl tidy) fun element read => ?_
      exact ih tidy (sound.imp_right fun sound => .clean (sound.index read))
    | property name =>
      refine .bindYielded (getProperty_yields lawful tidy site name sound) fun found now settled => ?_
      refine .use settled rfl fun now reached used => ?_
      exact ih reached.tidy used.sound

/-- What stands at a place is sound. -/
theorem load_runs (lawful : eval.Lawful strict) (tidy : engine.Tidy strict) (site : Site)
    (place : Place) :
    Runs strict engine (fun found now => now.Exempt strict ∨ found.Sound)
      (load eval site place) engine := by
  refine .look ?_
  split
  case h_1 value found =>
    exact loadSegments_runs lawful site _ tidy (tidy.imp_right fun clean => .clean (clean.valueOf found))
  case h_2 => exact .failed (.refl tidy)

/-- Writing clean content to a property of a clean value yields a clean value. -/
theorem setProperty_runs (lawful : eval.Lawful strict) (tidy : engine.Tidy strict) (site : Site)
    {value content : Value} (name : String) (clean : engine.Exempt strict ∨ value.Clean)
    (contentClean : engine.Exempt strict ∨ content.Clean) :
    Runs strict engine (Stored strict) (setProperty eval site value name content) engine := by
  have field : Runs strict engine (Stored strict) (pure (value.setField name content)) engine :=
    .done (.refl tidy) (unless_both clean contentClean fun clean new => clean.setField name new)
  unfold setProperty
  split
  -- A setter takes the content, and what it returns is used up.
  case h_1 accessor _ =>
    refine .bindYielded (runAccessor_yields lawful tidy site accessor clean
      (contentClean.imp_right fun clean value same => by cases same; exact clean))
      fun _ now settled => ?_
    refine .use settled rfl fun now reached _ => ?_
    exact .done (.refl reached.tidy) (clean.imp_left reached.exempt)
  case h_2 =>
    refine .look ?_
    split
    -- Fields of objects and of the host's values change the heap, all others change the value.
    case h_1 id _ =>
      have adjusts : engine.Adjusts content.Clean
          { engine with heap := engine.heap.setField id name content } :=
        .heap fun new old => old.setField id name new
      have reached := Moved.adjust adjusts contentClean tidy
      exact .replace reached (.done (.refl reached.tidy) (clean.imp_left reached.exempt))
    case h_2 typeTag id _ =>
      split
      · split
        · refine .host (.refl tidy) fun state _ => ?_
          have adjusts : engine.Adjusts True
              { engine with heap := engine.heap.setState id state } :=
            .heap fun _ old => old
          have reached := adjusted tidy adjusts
          exact .change reached (.done (.refl reached.tidy) (clean.imp_left reached.exempt))
        · exact .failed (.refl tidy)
      · exact field
    case h_3 collection data =>
      split
      · refine .done (.refl tidy) (unless_both clean contentClean fun clean new => ?_)
        exact clean.withCollection ((clean.items data).insertKey name new)
      · exact field
    case h_4 => exact field

/-- That something is missing is not that an end was asked for. -/
theorem Failure.not_interrupts_of_missing {failure : Failure} (missing : failure.isMissing = true) :
    (Stop.failed failure).interrupts = false := by
  unfold Failure.isMissing at missing
  split at missing
  case h_1 same => simp [Stop.interrupts, same]
  case h_2 => cases missing

/-- Writing clean content to what a path leads to below a clean value yields a clean value. -/
def SegmentsRun (strict : Bool) (eval : Evaluator) (site : Site) (content : Value)
    (segments : List Segment) : Prop :=
  ∀ {engine : Engine} {value : Value}, engine.Tidy strict → Stored strict value engine →
    Stored strict content engine →
    Runs strict engine (Stored strict) (setSegments eval site value content segments) engine

/-- A path that starts with an index writes back the element that it has changed. -/
theorem SegmentsRun.index {site : Site} {content : Value} {rest : List Segment}
    (below : SegmentsRun strict eval site content rest) (index : Value) :
    SegmentsRun strict eval site content (.index index :: rest) := by
  intro engine value tidy clean contentClean
  refine .compute (.refl tidy) fun collection indexed => ?_
  have itemsClean := clean.imp_right fun clean => clean.indexed indexed
  have written : ∀ {now : Engine} {written : Collection Value}, Reached strict engine now →
      (now.Exempt strict ∨ written.Clean) →
      Stored strict ((value.indexable index).withData (.collection written)) now :=
    fun reached new => unless_both (clean.imp_left reached.exempt) new fun clean new =>
      (clean.indexable index).withCollection new
  split
  case h_1 key _ =>
    have inner : Stored strict ((collection.getKey? key).getD .null) engine :=
      itemsClean.imp_right fun clean =>
        Collection.getD_clean (fun _ => clean.getKey) Value.clean_null
    refine .bind (below tidy inner contentClean) fun changed now reached changedClean => ?_
    refine .done (.refl reached.tidy) (written reached ?_)
    exact unless_both (itemsClean.imp_left reached.exempt) changedClean
      fun clean new => clean.insertKey key new
  case h_2 =>
    refine .compute (.refl tidy) fun position _ => ?_
    have inner : Stored strict ((collection.get? position).getD .null) engine :=
      itemsClean.imp_right fun clean =>
        Collection.getD_clean (fun _ => clean.get) Value.clean_null
    refine .bind (below tidy inner contentClean) fun changed now reached changedClean => ?_
    -- The collection may have to grow for the position.
    refine .compute (.refl reached.tidy) fun grown set => ?_
    refine .done (.refl reached.tidy) (written reached ?_)
    exact unless_both (itemsClean.imp_left reached.exempt) changedClean
      fun clean new => clean.setAt new set

/-- A path that goes on below a property writes the property anew. -/
theorem SegmentsRun.property (lawful : eval.Lawful strict) {site : Site} {content : Value}
    {next : Segment} {rest : List Segment} (below : SegmentsRun strict eval site content (next :: rest))
    (name : String) : SegmentsRun strict eval site content (.property name :: next :: rest) := by
  intro engine value tidy clean contentClean
  -- What lies below the property is written into what it held, or into null.
  have goesOn : ∀ {now : Engine} {inner : Value}, Reached strict engine now →
      Stored strict inner now → Runs strict now (Stored strict) (do
        let changed ← setSegments eval site inner content (next :: rest)
        setProperty eval site value name changed) now := by
    intro now inner reached innerClean
    refine .bind (below reached.tidy innerClean (contentClean.imp_left reached.exempt))
      fun changed final onwards changedClean => ?_
    exact setProperty_runs lawful onwards.tidy site name
      (clean.imp_left (onwards.exempt ∘ reached.exempt)) changedClean
  refine .attempt (getProperty_yields lawful tidy site name (clean.imp_right .clean))
    (fun inner now settled => ?_) fun failure now stopped => ?_
  · refine .use settled rfl fun now reached used => ?_
    exact goesOn reached (used.clean rfl)
  · dsimp only
    split
    case isTrue missing =>
      have reached := stopped.reached (Failure.not_interrupts_of_missing missing)
      have noted := Moved.noteCall .handled reached.tidy
      have handled := reached.trans noted.toReached
      exact .after reached (.change noted (goesOn handled (.inr Value.clean_null)))
    case isFalse => exact .stopped stopped

/-- Writing clean content to a place below a clean value yields a clean value. -/
theorem setSegments_runs (lawful : eval.Lawful strict) (site : Site) {content : Value}
    (segments : List Segment) : SegmentsRun strict eval site content segments := by
  -- The induction is on the steps to the place; each one writes back what lies below it.
  induction segments with
  | nil => exact fun tidy _ contentClean => .done (.refl tidy) contentClean
  | cons segment rest ih =>
    cases segment with
    | index index => exact ih.index index
    | property name =>
      cases rest with
      | nil =>
        exact fun tidy clean contentClean =>
          setProperty_runs lawful tidy site name clean contentClean
      | cons next below => exact ih.property lawful name

/-- A clean value is assigned to the variable of a place. -/
theorem assign_runs (tidy : engine.Tidy strict) (site : Site) (place : Place) {written value : Value}
    (writtenClean : Stored strict written engine) (clean : Stored strict value engine) :
    Runs strict engine (fun _ => Stored strict value)
      (modify (·.assign place.name (.variable written) site.file)) engine := by
  have assigned := Moved.adjust
    (Engine.assign_adjusts place.name (.variable written) site.file) writtenClean tidy
  exact .changed assigned (clean.imp_left assigned.exempt)

/-- A clean value is stored below a clean one. -/
theorem storeBelow_runs (lawful : eval.Lawful strict) (tidy : engine.Tidy strict) (site : Site)
    (place : Place) {value root : Value} (clean : Stored strict value engine)
    (rootClean : Stored strict root engine) :
    Runs strict engine (fun _ => Stored strict value) (storeBelow eval site place value root)
      engine := by
  unfold storeBelow
  split
  -- Indices alone change the variable in place; other steps build a new value for it.
  case h_1 indices _ =>
    refine .look ?_
    have adjusts : engine.Adjusts _ _ :=
      Engine.updateVariable_adjusts place.name site.file (·.writeIndexed value indices)
    have reached := Moved.adjust adjusts
      (clean.imp_right fun clean _ old => clean.writeIndexed old indices) tidy
    exact .replace reached
      (.computed (.refl reached.tidy) fun _ _ => clean.imp_left reached.exempt)
  case h_2 =>
    refine .bind (setSegments_runs lawful site _ tidy rootClean clean)
      fun changed now reached changedClean => ?_
    exact assign_runs reached.tidy site place changedClean (clean.imp_left reached.exempt)

/-- What is stored at a place is clean: a signal is refused. -/
theorem store_runs (lawful : eval.Lawful strict) (tidy : engine.Tidy strict) (site : Site)
    (place : Place) {value : Value} (sound : engine.Exempt strict ∨ value.Sound) :
    Runs strict engine (fun _ => Stored strict value) (store eval site place value) engine := by
  unfold store
  dsimp only
  split
  · exact .failed (.refl tidy)
  case isFalse plain =>
    have clean : Stored strict value engine :=
      sound.imp_right fun sound => sound.clean_of_plain (by simpa using plain)
    split
    · -- Without steps the variable is assigned, and with them the value is stored below its
      -- content.
      exact assign_runs tidy site place clean clean
    · refine .look ?_
      split
      case h_1 root found =>
        exact storeBelow_runs lawful tidy site place clean
          (tidy.imp_right fun clean => clean.resolve found)
      case h_2 => exact .failed (.refl tidy)
      case h_3 => exact storeBelow_runs lawful tidy site place clean (.inr Value.clean_null)

/-- An action yields the value that it has given to its target. -/
theorem applyAction_runs (lawful : eval.Lawful strict) (tidy : engine.Tidy strict) (cursor : Cursor)
    (place : Place) {action : Action} (sound : engine.Exempt strict ∨ action.Sound) :
    Runs strict engine (fun result => Stored strict result.1)
      (applyAction eval cursor place action) engine := by
  -- The operand may be a signal; whatever the action makes of one is refused.
  have stores : ∀ {now : Engine} {operand current : Value} {behind : Cursor},
      Reached strict engine now → now.Exempt strict ∨ operand.Sound →
      now.Exempt strict ∨ current.Sound →
      Runs strict now (fun result => Stored strict result.1) (do
        let value ← Eval.ofHost (action.apply current operand)
        store eval behind.site place value
        return (value, behind)) now := by
    intro now operand current behind reached operandSound currentSound
    refine .host (.refl reached.tidy) fun value applied => ?_
    have valueSound : now.Exempt strict ∨ value.Sound := by
      have both := unless_both currentSound operandSound And.intro
      exact unless_both (sound.imp_left reached.exempt) both fun sound both =>
        sound _ _ _ both.1 both.2 applied
    refine .bind (store_runs lawful reached.tidy behind.site place valueSound)
      fun _ final onwards clean => ?_
    exact .done (.refl onwards.tidy) clean
  have reads : ∀ {now : Engine} {operand : Value} {behind : Cursor},
      Reached strict engine now → now.Exempt strict ∨ operand.Sound →
      Runs strict now (fun result => Stored strict result.1) (do
        let current ← if action.readsTarget then load eval behind.site place else pure .null
        let value ← Eval.ofHost (action.apply current operand)
        store eval behind.site place value
        return (value, behind)) now := by
    intro now operand behind reached operandSound
    dsimp only
    split
    · refine .bind (load_runs lawful reached.tidy behind.site place)
        fun current final onwards currentSound => ?_
      exact stores (reached.trans onwards) (operandSound.imp_left onwards.exempt) currentSound
    · exact stores reached operandSound (.inr (.clean Value.clean_null))
  unfold applyAction
  dsimp only
  split
  · refine .bind (evaluateAt_runs lawful tidy .assigned cursor) fun result now reached used => ?_
    exact reads reached used.sound
  · exact reads (.refl tidy) (.inr (.clean Value.clean_null))

/-- A built-in method yields a clean value. -/
theorem callBuiltin_runs (lawful : eval.Lawful strict) (tidy : engine.Tidy strict) (site : Site)
    {receiver : Value} (place : Option Place) (name : String) {arguments : List Value}
    (sound : engine.Exempt strict ∨ receiver.Sound)
    (clean : engine.Exempt strict ∨ ∀ value ∈ arguments, value.Clean) :
    Runs strict engine (Stored strict) (callBuiltin eval site receiver place name arguments)
      engine := by
  unfold callBuiltin
  split
  · refine .compute (.refl tidy) fun found ran => ?_
    split
    case h_1 changed result =>
      -- A method that changes its receiver stores the changed one at the place that it was read
      -- from.
      have both := unless_both sound clean fun sound clean => sound.mutate clean ran
      dsimp only
      split
      · refine .bind (store_runs lawful tidy site _ (both.imp_right fun both => .clean both.1))
          fun _ now reached _ => ?_
        exact .done (.refl reached.tidy) (both.imp reached.exempt And.right)
      · exact .done (.refl tidy) (both.imp_right And.right)
    case h_2 => exact .failed (.refl tidy)
  · refine .compute (.refl tidy) fun found ran => ?_
    split
    case h_1 result =>
      exact .done (.refl tidy) (sound.imp_right fun sound => sound.builtinMethod ran)
    case h_2 => exact .failed (.refl tidy)

/-- A method yields a trusted value. -/
theorem callMethod_yields (lawful : eval.Lawful strict) (tidy : engine.Tidy strict) (site : Site)
    {receiver : Value} (place : Option Place) (name : String) {args : List Arg}
    (sound : engine.Exempt strict ∨ receiver.Sound)
    (clean : engine.Exempt strict ∨ CleanArgs args) :
    Yields strict engine (callMethod eval site receiver place name args) engine := by
  have builtin : Yields strict engine
      (callBuiltin eval site receiver place name (args.map (·.value))) engine := by
    refine ((callBuiltin_runs lawful tidy site place name sound ?_).mono ?_).lift
    · refine clean.imp_right fun clean value member => ?_
      obtain ⟨arg, there, rfl⟩ := List.mem_map.mp member
      exact clean arg there
    · exact fun result now _ stored => .of_clean rfl stored
  refine .look ?_
  dsimp only
  split
  -- A method of an object's class and one of the host's come before the built-in ones.
  case h_1 id data =>
    split
    case h_1 method _ =>
      refine callFunction_yields lawful tidy method clean fun value same => ?_
      cases same
      exact sound.imp_right fun sound => sound.clean_of_plain (by simp [Value.isSignal, data])
    case h_2 => exact builtin
  case h_2 typeTag id _ =>
    split
    case h_1 method found =>
      refine .host (.refl tidy) fun stepped _ => ?_
      obtain ⟨state, result⟩ := stepped
      have adjusts : engine.Adjusts True { engine with heap := engine.heap.setState id state } :=
        .heap fun _ old => old
      have reached := adjusted tidy adjusts
      refine .replace reached (.done (.refl reached.tidy) (.of_trusted rfl ?_))
      -- A clean engine has no methods of the host.
      refine tidy.imp reached.exempt fun engineClean => ?_
      rw [engineClean.hostMethod] at found
      cases found
    case h_2 => exact builtin
  case h_3 => exact builtin

end ScriptEngine
