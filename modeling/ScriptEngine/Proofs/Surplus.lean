import ScriptEngine.Proofs.CallStages
import ScriptEngine.Proofs.Engine.Scoping
import ScriptEngine.Proofs.Eval.Function
import ScriptEngine.Proofs.Grammar.Container

/-! The arguments of a call in its frame. Each parameter holds its argument or its default there, and
surplus arguments are bound behind the parameters, the fields and the receiver, under names that the
caller has chosen. -/

namespace ScriptEngine

/-! The arguments that parameters get. -/

/-- An argument is meant for a parameter: by its name, or by its position if it has no name. -/
def Arg.fits (arg : Arg) (params : List Param) (position : Nat) (param : Param) : Prop :=
  arg.name = some param.name ∨ arg.name = none ∧ params[position]? = some param

/-- The name under which an argument that fits no parameter is bound. -/
def Arg.surplusName? (arg : Arg) (params : List Param) (position : Nat) : Option String :=
  match arg.name with
  | some name => if params.any (·.name == name) then none else some name
  | none =>
    if position < params.length then none else some (Bound.surplusName position arg.source)

/-- Arguments supply a parameter with a value. -/
def Supplies (params : List Param) (args : List Arg) (param : Param) (value : Value) : Prop :=
  ∃ (position : Nat) (arg : Arg), args[position]? = some arg ∧ arg.fits params position param ∧
    Bound.defined? arg.value = some value

/-- The arguments that fit no parameter, under the names that they get. -/
def surplus (params : List Param) (args : List Arg) : List (String × Value) :=
  args.zipIdx.filterMap fun (arg, position) =>
    (arg.surplusName? params position).map (·, (Bound.defined? arg.value).getD .undefined)

variable {params : List Param} {args placed rest : List Arg} {arg : Arg} {bound next : Bound}
  {param : Param} {value : Value}

/-- An argument with a name is meant for the parameter that has it. -/
theorem Arg.fits_named {position : Nat} {name : String} (named : arg.name = some name) :
    arg.fits params position param ↔ param.name = name := by
  simp [fits, named, eq_comm]

/-- An argument without a name is meant for the parameter at its place. -/
theorem Arg.fits_unnamed {position : Nat} (unnamed : arg.name = none) :
    arg.fits params position param ↔ params[position]? = some param := by
  simp [fits, unnamed]

/-- One more argument supplies what it is meant for. -/
theorem supplies_append : Supplies params (placed ++ [arg]) param value ↔
    Supplies params placed param value ∨
      arg.fits params placed.length param ∧ Bound.defined? arg.value = some value := by
  -- A position behind the others is that of the new argument.
  constructor
  · rintro ⟨position, found, here, fits, defined⟩
    rw [List.getElem?_append] at here
    split at here
    case isTrue => exact .inl ⟨position, found, here, fits, defined⟩
    case isFalse behind =>
      have last : position = placed.length := by
        have within := (List.getElem?_eq_some_iff.mp here).1
        simp only [List.length_cons, List.length_nil] at within
        omega
      subst last
      simp only [Nat.sub_self, List.getElem?_cons_zero, Option.some.injEq] at here
      subst here
      exact .inr ⟨fits, defined⟩
  · rintro (⟨position, found, here, fits, defined⟩ | ⟨fits, defined⟩)
    · have within := (List.getElem?_eq_some_iff.mp here).1
      exact ⟨position, found, by rwa [List.getElem?_append_left within], fits, defined⟩
    · exact ⟨placed.length, arg, by simp, fits, defined⟩

/-- One more argument is surplus if it has a name as such. -/
theorem surplus_append : surplus params (placed ++ [arg]) =
    surplus params placed ++ ((arg.surplusName? params placed.length).map
      (·, (Bound.defined? arg.value).getD .undefined)).toList := by
  unfold surplus
  rw [List.zipIdx_append, List.filterMap_append, Nat.zero_add]
  cases named : arg.surplusName? params placed.length <;> simp [named]

/-- Arguments have been put in their places: each parameter has what they supply, and what fits none is
kept aside. -/
structure Placed (params : List Param) (placed : List Arg) (bound : Bound) : Prop where
  length : bound.slots.length = params.length
  slots : ∀ (place : Nat) (param : Param), params[place]? = some param → ∀ value,
    bound.slots[place]? = some (some value) ↔ Supplies params placed param value
  extras : bound.extras = surplus params placed

/-- Parameters with distinct names are told apart by them. -/
theorem place_unique (distinct : (params.map (·.name)).Nodup) {place other : Nat} {second : Param}
    (here : params[place]? = some param) (there : params[other]? = some second)
    (same : param.name = second.name) : place = other := by
  have within : place < (params.map (·.name)).length := by
    simpa using (List.getElem?_eq_some_iff.mp here).1
  refine (List.getElem?_inj within distinct).mp ?_
  rw [List.getElem?_map, List.getElem?_map, here, there, Option.map_some, Option.map_some, same]

namespace Placed

/-- Nothing is in its place at first. -/
theorem start (params : List Param) : Placed params [] ⟨params.map fun _ => none, []⟩ where
  length := by simp
  slots := by
    -- All slots are empty, and no argument supplies anything.
    intro place param here value
    constructor
    · intro set
      rw [List.getElem?_map, here] at set
      cases set
    · rintro ⟨_, _, here, _⟩
      simp at here
  extras := rfl

/-- The places are those from before if a parameter gets nothing from one more argument. -/
theorem slots_append (earlier : Placed params placed bound) {place : Nat}
    (here : params[place]? = some param) (other : ¬ arg.fits params placed.length param)
    (value : Value) :
    bound.slots[place]? = some (some value) ↔ Supplies params (placed ++ [arg]) param value := by
  rw [supplies_append, earlier.slots place param here]
  exact ⟨.inl, fun supplied => supplied.elim id fun new => absurd new.1 other⟩

/-- An argument is put in the place that it is meant for, where nothing was before. -/
theorem set (earlier : Placed params placed bound) (distinct : (params.map (·.name)).Nodup)
    {place : Nat} (here : params[place]? = some param) (fits : arg.fits params placed.length param)
    (only : ∀ other, arg.fits params placed.length other → other.name = param.name)
    (free : ∀ value, ¬ Supplies params placed param value)
    (kept : arg.surplusName? params placed.length = none) :
    Placed params (placed ++ [arg])
      { bound with slots := bound.slots.set place (Bound.defined? arg.value) } where
  length := by simpa using earlier.length
  slots := by
    intro other second there value
    -- Only the slot of the parameter changes; no other parameter is meant.
    by_cases same : place = other
    · subst same
      cases here.symm.trans there
      have within : place < bound.slots.length :=
        earlier.length ▸ (List.getElem?_eq_some_iff.mp here).1
      rw [supplies_append, List.getElem?_set_self within, Option.some.injEq]
      exact ⟨fun defined => .inr ⟨fits, defined⟩,
        fun supplied => supplied.elim (fun old => absurd old (free value)) (·.2)⟩
    · rw [List.getElem?_set_ne same]
      refine earlier.slots_append there (fun fitsToo => same ?_) value
      exact (place_unique distinct there here (only second fitsToo)).symm
  extras := by
    rw [surplus_append, kept]
    simpa using earlier.extras

/-- An argument that fits no parameter is kept aside. -/
theorem keep (earlier : Placed params placed bound) {name : String}
    (kept : arg.surplusName? params placed.length = some name)
    (unfit : ∀ param ∈ params, ¬ arg.fits params placed.length param) :
    Placed params (placed ++ [arg])
      { bound with extras := bound.extras ++ [(name, (Bound.defined? arg.value).getD .undefined)] } where
  length := earlier.length
  slots := fun _ _ here value =>
    earlier.slots_append here (unfit _ (List.mem_of_getElem? here)) value
  extras := by
    rw [surplus_append, kept, earlier.extras]
    rfl

/-- An argument with a name is put in the place of that parameter, or kept aside. -/
theorem add_named (earlier : Placed params placed bound) (distinct : (params.map (·.name)).Nodup)
    {name : String} (named : arg.name = some name) {behindNamed : Bool}
    (added : bound.add params behindNamed placed.length arg = .ok next) :
    Placed params (placed ++ [arg]) next := by
  unfold Bound.add at added
  simp only [named] at added
  cases found : params.findIdx? (·.name == name) with
  | some place =>
    simp only [found] at added
    obtain ⟨within, here, _⟩ := List.findIdx?_eq_some_iff_getElem.mp found
    have meant : (params[place]).name = name := by simpa using here
    have listed : params[place]? = some params[place] := List.getElem?_eq_getElem within
    have known : params.any (·.name == name) = true :=
      List.any_eq_true.mpr ⟨params[place], List.getElem_mem within, by simp [meant]⟩
    split at added
    case isTrue => cases added
    case isFalse empty =>
      cases added
      refine earlier.set distinct listed ((Arg.fits_named named).mpr meant)
        (fun other fits => ((Arg.fits_named named).mp fits).trans meant.symm) (fun value supplied => ?_)
        (by simp [Arg.surplusName?, named, known])
      -- Nothing has been in the place so far.
      rw [← earlier.slots place _ listed] at supplied
      simp [supplied] at empty
  | none =>
    simp only [found] at added
    cases added
    rw [List.findIdx?_eq_none_iff] at found
    have unknown : params.any (·.name == name) = false := by simpa using found
    refine earlier.keep (by simp [Arg.surplusName?, named, unknown]) fun param listed fits => ?_
    have same := (Arg.fits_named named).mp fits
    simpa [same] using found param listed

/-- An argument without a name is put in the place that it stands at, or kept aside. -/
theorem add_unnamed (earlier : Placed params placed bound) (distinct : (params.map (·.name)).Nodup)
    (unnamed : arg.name = none)
    (added : bound.add params (placed.any (·.name.isSome)) placed.length arg = .ok next) :
    Placed params (placed ++ [arg]) next := by
  unfold Bound.add at added
  simp only [unnamed] at added
  split at added
  case isTrue => cases added
  case isFalse positional =>
    split at added
    case isTrue within =>
      cases added
      have listed : params[placed.length]? = some params[placed.length] := List.getElem?_eq_getElem within
      refine earlier.set distinct listed ((Arg.fits_unnamed unnamed).mpr listed) (fun other fits => ?_)
        (fun value supplied => ?_) (by simp [Arg.surplusName?, unnamed, within])
      · cases listed.symm.trans ((Arg.fits_unnamed unnamed).mp fits)
        rfl
      · -- No argument had a name so far, so that an earlier one is meant for another place.
        obtain ⟨position, earlierArg, there, fits, _⟩ := supplied
        rcases fits with same | ⟨_, here⟩
        · refine positional (List.any_eq_true.mpr ⟨earlierArg, List.mem_of_getElem? there, ?_⟩)
          rw [same]
          rfl
        · have same := place_unique distinct here listed rfl
          have before := (List.getElem?_eq_some_iff.mp there).1
          omega
    case isFalse behind =>
      cases added
      refine earlier.keep (by simp [Arg.surplusName?, unnamed, behind]) fun param listed fits => ?_
      exact behind (List.getElem?_eq_some_iff.mp ((Arg.fits_unnamed unnamed).mp fits)).1

/-- One more argument is put in its place. -/
theorem add (earlier : Placed params placed bound) (distinct : (params.map (·.name)).Nodup)
    (added : bound.add params (placed.any (·.name.isSome)) placed.length arg = .ok next) :
    Placed params (placed ++ [arg]) next := by
  cases named : arg.name with
  | some name => exact earlier.add_named distinct named added
  | none => exact earlier.add_unnamed distinct named added

/-- All arguments are put in their places. -/
theorem addAll (earlier : Placed params placed bound) (distinct : (params.map (·.name)).Nodup)
    (added : Bound.addAll params (placed.any (·.name.isSome)) placed.length rest bound = .ok next) :
    Placed params (placed ++ rest) next := by
  -- The induction is on the arguments that are left.
  induction rest generalizing placed bound with
  | nil =>
    cases added
    rwa [List.append_nil]
  | cons arg rest ih =>
    obtain ⟨middle, first, others⟩ := ok_of_bind added
    have one := earlier.add distinct first
    have named : (placed ++ [arg]).any (·.name.isSome) =
        (placed.any (·.name.isSome) || arg.name.isSome) := by simp
    have all := ih one (by rwa [named, List.length_append, List.length_singleton])
    rwa [List.append_assoc] at all

end Placed

/-- Bound arguments are in their places. -/
theorem placed_of_bindArgs {function : String} (distinct : (params.map (·.name)).Nodup)
    (binds : bindArgs function params args = .ok bound) : Placed params args bound := by
  unfold bindArgs at binds
  split at binds
  case h_2 => cases binds
  case h_1 whole found =>
    cases binds
    obtain ⟨added, first, complete⟩ := ok_of_bind found
    have all : Placed params ([] ++ args) added := (Placed.start params).addAll distinct first
    split at complete
    · cases complete
    · cases complete
      exact all

/-! The parameters of a declared function. -/

/-- Parameters are read only under distinct names. -/
theorem readParams_distinct {function : String} {cursor : Cursor} {known : List Param}
    {parts : List (List Char)} (distinct : (known.map (·.name)).Nodup)
    (read : readParams function cursor known parts = .ok params) : (params.map (·.name)).Nodup := by
  -- The induction is on the parts; a name that is known already is refused.
  induction parts generalizing known with
  | nil =>
    cases read
    exact distinct
  | cons part parts ih =>
    unfold readParams at read
    dsimp only at read
    split at read
    · cases read
    · split at read
      case isTrue => cases read
      case isFalse fresh =>
        refine ih ?_ read
        rw [List.map_append, List.nodup_append]
        refine ⟨distinct, by simp, fun name listed other last => ?_⟩
        obtain ⟨param, member, rfl⟩ := List.mem_map.mp listed
        rintro same
        refine fresh (List.any_eq_true.mpr ⟨param, member, ?_⟩)
        rw [same, List.mem_singleton.mp last]
        exact beq_self_eq_true _

/-- A declared function has parameters with distinct names. -/
theorem readFunction_distinct {scope owner : Option String} {cursor behind : Cursor}
    {function : ScriptFunction} (declared : readFunction scope owner cursor = .ok (function, behind)) :
    (function.params.map (·.name)).Nodup := by
  unfold readFunction at declared
  dsimp only at declared
  -- A function without a name is refused.
  split at declared
  · obtain ⟨_, refused, _⟩ := ok_of_bind declared
    cases refused
  · obtain ⟨⟨header, headed⟩, _, declared⟩ := ok_of_bind declared
    obtain ⟨params, read, declared⟩ := ok_of_bind declared
    obtain ⟨⟨body, after⟩, _, declared⟩ := ok_of_bind declared
    cases declared
    have none : (([] : List Param).map (·.name)).Nodup := List.nodup_nil
    exact readParams_distinct none read

/-- What holds of some binding of a name holds of the one that is found, if names are distinct. -/
theorem OrderedMap.any_eq_of_get? {α : Type} {bindings : OrderedMap α} {name : String} {value : α}
    (distinct : bindings.names.Nodup) (found : bindings.get? name = some value) (holds : α → Bool) :
    (bindings.entries.any fun entry => entry.1 == name && holds entry.2) = holds value := by
  obtain ⟨before, behind, listed, _⟩ := List.lookup_eq_some_iff.mp found
  have member : (name, value) ∈ bindings.entries := by simp [listed]
  refine Bool.eq_iff_iff.mpr ⟨fun some => ?_, fun held => List.any_eq_true.mpr ⟨_, member, by simp [held]⟩⟩
  obtain ⟨entry, memberToo, here⟩ := List.any_eq_true.mp some
  rw [Bool.and_eq_true, beq_iff_eq] at here
  -- The two bindings of the name are one.
  have same := List.inj_on_of_nodup_map distinct memberToo member here.1
  rw [same] at here
  exact here.2

/-! The frame of a call. -/

variable {allows : Engine → Engine → Prop} {eval : Evaluator} {start final engine : Engine}
  {function : ScriptFunction} {receiver : Option Value} {name : String}

namespace Engine

/-- The active frame is that of a call. -/
def InCall (engine : Engine) : Prop :=
  ∃ function scope, engine.stack.activeKind? = some (.call function scope)

/-- Within a call, a local name is bound in its frame. -/
theorem InCall.defineLocal_eq (inCall : engine.InCall) (name : String) (handler : Handler)
    (file : String) :
    engine.defineLocal name handler file = { engine with stack := engine.stack.define name handler } := by
  obtain ⟨function, scope, kind⟩ := inCall
  unfold Engine.defineLocal defineIn
  rw [kind]

/-- A local name is bound in the frame, where all other names stand for what they did. -/
theorem InCall.defineLocal (inCall : engine.InCall) (name : String) (handler : Handler) (file : String) :
    (engine.defineLocal name handler file).InCall ∧
      ∀ other, (engine.defineLocal name handler file).local? other =
        if other = name then some handler else engine.local? other := by
  rw [inCall.defineLocal_eq]
  -- The frame of the call is the active one, and it takes the name.
  obtain ⟨function, scope, kind⟩ := inCall
  obtain ⟨frame, active, same⟩ := Option.map_eq_some_iff.mp kind
  have defined := ScopeStack.active?_define name handler active
  refine ⟨⟨function, scope, ?_⟩, fun other => ?_⟩
  · rw [ScopeStack.activeKind?, defined, Option.map_some]
    exact congrArg some same
  · unfold local?
    rw [defined, active, Option.bind_some, Option.bind_some]
    split
    case isTrue here =>
      rw [here]
      exact OrderedMap.get?_insert_self _ _ _
    case isFalse apart => exact OrderedMap.get?_insert_of_ne _ _ apart

/-- An interpreter in which a row of values has been bound under local names. -/
def binding (engine : Engine) (values : List (String × Value)) (file : String) : Engine :=
  values.foldl (fun engine entry => engine.defineLocal entry.1 (.variable entry.2) file) engine

/-- Within a call, a row of values is bound in its frame, the last one for each name. -/
theorem InCall.binding (inCall : engine.InCall) (values : List (String × Value)) (file : String) :
    (engine.binding values file).InCall ∧
      (engine.binding values file).heap = engine.heap ∧
      ∀ name, (engine.binding values file).local? name =
        (((OrderedMap.ofList values).get? name).map .variable).or (engine.local? name) := by
  -- The induction takes the last value away.
  induction values using List.reverseRecOn with
  | nil => exact ⟨inCall, rfl, fun _ => rfl⟩
  | append_singleton values entry ih =>
    obtain ⟨inside, heap, others⟩ := ih
    have last : engine.binding (values ++ [entry]) file =
        (engine.binding values file).defineLocal entry.1 (.variable entry.2) file := by
      simp [Engine.binding]
    have lastToo : OrderedMap.ofList (values ++ [entry]) =
        (OrderedMap.ofList values).insert entry.1 entry.2 := by
      simp [OrderedMap.ofList]
    have defined := inside.defineLocal entry.1 (.variable entry.2) file
    rw [last, lastToo]
    refine ⟨defined.1, ?_, fun name => ?_⟩
    · rw [inside.defineLocal_eq]
      exact heap
    · rw [defined.2]
      by_cases same : name = entry.1
      · rw [if_pos same, same, OrderedMap.get?_insert_self]
        rfl
      · rw [if_neg same, OrderedMap.get?_insert_of_ne _ _ same]
        exact others name

/-- A variable holds the last value that a row binds under its name, and else what it held. -/
theorem InCall.binding_variable (inCall : engine.InCall) {value : Value}
    (holds : engine.local? name = some (.variable value)) (values : List (String × Value)) (file : String) :
    (engine.binding values file).local? name =
      some (.variable (((OrderedMap.ofList values).get? name).getD value)) := by
  rw [(inCall.binding values file).2.2, holds]
  cases (OrderedMap.ofList values).get? name <;> rfl

/-- The active frame is the one from before, with the members of the receiver. -/
theorem showing_shows {frame : Frame} (active : engine.stack.active? = some frame)
    (receiver : Option Value) :
    ∃ shown, (engine.showing receiver).stack.active? = some shown ∧ shown.kind = frame.kind ∧
      ∀ this object, receiver = some this → engine.instance? this = some object →
        shown = frame.seed object this := by
  unfold showing
  -- Without a receiver, or without an instance of it, the frame stays as it is.
  cases receiver with
  | none => exact ⟨frame, active, rfl, nofun⟩
  | some this =>
    rw [Option.bind_some]
    cases found : engine.instance? this with
    | none =>
      refine ⟨frame, active, rfl, fun other object same there => ?_⟩
      cases same
      rw [found] at there
      cases there
    | some object =>
      refine ⟨_, ScopeStack.active?_modifyActive (·.seed object this) active,
        congrArg Prod.snd (Frame.tag_seed frame object this), fun other shown same there => ?_⟩
      cases same
      cases found.symm.trans there
      rfl

/-- The frame of a call is active behind its entry, and shows the receiver and its fields. -/
theorem entered_inCall (visible : start.stack.threshold ≤ start.stack.depth) (function : ScriptFunction)
    (receiver : Option Value) :
    (start.entered function receiver).InCall ∧
      ∀ this object, receiver = some this → start.instance? this = some object →
        (start.entered function receiver).local? "this" = some (.variable this) ∧
        (object.fields.names.Nodup → ∀ field value, field ≠ "this" →
          object.fields.get? field = some value →
          (start.entered function receiver).local? field = some (.variable value)) := by
  have depth : start.stack.threshold < start.stack.frames.length + 1 := Nat.lt_succ_of_le visible
  -- The frame of the call is on top, above the threshold.
  have active : (start.opened function).stack.active? =
      some ⟨start.stack.lastId + 1, .call function.name function.scope, .empty⟩ := if_pos depth
  obtain ⟨shown, framed, kind, seeded⟩ := showing_shows active receiver
  refine ⟨⟨function.name, function.scope, ?_⟩, fun this object given there => ?_⟩
  · rw [ScopeStack.activeKind?, entered, framed, Option.map_some, kind]
  · have names : shown.names = _ :=
      (congrArg Frame.names (seeded this object given there)).trans (Frame.names_seed _ object this)
    simp only [local?, entered, framed, Option.bind_some]
    rw [names]
    refine ⟨OrderedMap.get?_insert_self _ _ _, fun distinct field value other found => ?_⟩
    obtain ⟨before, behind, listed, _⟩ := List.lookup_eq_some_iff.mp found
    rw [OrderedMap.get?_insert_of_ne _ _ other]
    exact OrderedMap.get?_insertAll_of_mem _ _ distinct (by simp [listed])

end Engine

/-! The binding of parameters. -/

/-- What a parameter gets: the value that is supplied, or one that its default evaluates to. -/
def Gets (allows : Engine → Engine → Prop) (eval : Evaluator) (function : ScriptFunction)
    (param : Param) (slot : Option Value) (start : Engine) (value : Value) (middle : Engine) : Prop :=
  (slot = some value ∧ middle = start) ∨
    (slot = none ∧ ∃ default, param.default = some default ∧
      (evaluateAs eval .parameterDefault function.site default start).MayEnd allows (.ok value) middle)

/-- Evaluating the defaults of a function in the frame of a call leaves there what a name stands for. -/
def LeavesLocal (allows : Engine → Engine → Prop) (eval : Evaluator) (function : ScriptFunction)
    (name : String) : Prop :=
  ∀ param ∈ function.params, ∀ default, param.default = some default →
    ∀ (start : Engine) value final, start.InCall →
      (evaluateAs eval .parameterDefault function.site default start).MayEnd allows (.ok value) final →
        final.InCall ∧ final.local? name = start.local? name

/-- A parameter without an argument and a default ends the binding. -/
theorem bindParams_missing (given : param.default = none) (slots : List (Param × Option Value)) :
    bindParams eval function ((param, none) :: slots) =
      (Eval.throwCause (.arguments function.name (.missing param.name)) : Eval Unit) := by
  unfold bindParams
  simp only [given]
  rfl

/-- The default of a parameter without an argument is evaluated, and bound in its place. -/
theorem bindParams_default {default : List Char} (given : param.default = some default)
    (slots : List (Param × Option Value)) :
    bindParams eval function ((param, none) :: slots) =
      (evaluateAs eval .parameterDefault function.site default >>= fun value =>
        modify (·.defineLocal param.name (.variable value) function.site.file) >>= fun _ =>
          bindParams eval function slots) := by
  conv_lhs => unfold bindParams
  simp only [given]

/-- Parameters are bound one after the other. -/
theorem mayEnd_bindParams_cons {slot : Option Value} {slots : List (Param × Option Value)} :
    (bindParams eval function ((param, slot) :: slots) start).MayEnd allows (.ok ()) final ↔
      ∃ value middle, Gets allows eval function param slot start value middle ∧
        (bindParams eval function slots
          (middle.defineLocal param.name (.variable value) function.site.file)).MayEnd
            allows (.ok ()) final := by
  -- An argument is taken as it is; without one, the default is evaluated.
  cases slot with
  | some supplied =>
    constructor
    · exact fun ends => ⟨supplied, start, .inl ⟨rfl, rfl⟩, ends⟩
    · rintro ⟨value, middle, ⟨same, rfl⟩ | ⟨none, _⟩, ends⟩
      · cases same
        exact ends
      · cases none
  | none =>
    cases given : param.default with
    | none =>
      -- The binding fails, and nothing is given.
      rw [bindParams_missing given]
      constructor
      · intro ends
        cases (Step.mayEnd_finished.mp ends).1
      · rintro ⟨value, middle, ⟨some, _⟩ | ⟨_, default, found, _⟩, _⟩
        · cases some
        · rw [given] at found
          cases found
    | some default =>
      rw [bindParams_default given, Eval.mayEnd_bind]
      constructor
      · rintro (⟨stop, failed, _⟩ | ⟨value, middle, evaluated, ends⟩)
        · cases failed
        · exact ⟨value, middle, .inr ⟨rfl, default, given, evaluated⟩, ends⟩
      · rintro ⟨value, middle, ⟨some, _⟩ | ⟨_, other, found, evaluated⟩, ends⟩
        · cases some
        · cases given.symm.trans found
          exact .inr ⟨value, middle, evaluated, ends⟩

/-- Behind the binding of parameters with distinct names, each holds what it got, and other names stand
for what they did, unless the evaluation of a default has changed that. -/
theorem bindParams_holds {slots : List (Param × Option Value)}
    (leaves : LeavesLocal allows eval function name) (listed : ∀ entry ∈ slots, entry.1 ∈ function.params)
    (distinct : (slots.map (·.1.name)).Nodup) (inCall : start.InCall)
    (ends : (bindParams eval function slots start).MayEnd allows (.ok ()) final) :
    final.InCall ∧
      (name ∉ slots.map (·.1.name) → final.local? name = start.local? name) ∧
      ∀ place param slot, slots[place]? = some (param, slot) → param.name = name →
        ∃ value before middle, final.local? name = some (.variable value) ∧
          (bindParams eval function (slots.take place) start).MayEnd allows (.ok ()) before ∧
          Gets allows eval function param slot before value middle := by
  -- The induction is on the slots; a name is bound at most once.
  induction slots generalizing start with
  | nil =>
    obtain ⟨_, rfl⟩ := Step.mayEnd_finished.mp ends
    exact ⟨inCall, fun _ => rfl, fun _ _ _ here => by simp at here⟩
  | cons entry slots ih =>
    obtain ⟨param, slot⟩ := entry
    obtain ⟨value, middle, gets, ends⟩ := mayEnd_bindParams_cons.mp ends
    rw [List.map_cons, List.nodup_cons] at distinct
    -- A default leaves the name alone.
    obtain ⟨inside, same⟩ : middle.InCall ∧ middle.local? name = start.local? name := by
      rcases gets with ⟨_, rfl⟩ | ⟨_, default, given, evaluated⟩
      · exact ⟨inCall, rfl⟩
      · exact leaves param (listed _ List.mem_cons_self) default given start value middle inCall evaluated
    have defined := inside.defineLocal param.name (.variable value) function.site.file
    obtain ⟨finalInCall, others, held⟩ :=
      ih (fun entry member => listed entry (List.mem_cons_of_mem _ member)) distinct.2 defined.1 ends
    refine ⟨finalInCall, fun absent => ?_, fun place other otherSlot here named => ?_⟩
    · rw [List.map_cons, List.mem_cons, not_or] at absent
      rw [others absent.2, defined.2, if_neg absent.1, same]
    · cases place with
      | zero =>
        cases here
        subst named
        refine ⟨value, start, middle, ?_, .finished, gets⟩
        rw [others distinct.1, defined.2, if_pos rfl]
      | succ place =>
        obtain ⟨later, before, after, holds, earlier, getsToo⟩ := held place other otherSlot here named
        exact ⟨later, before, after, holds, mayEnd_bindParams_cons.mpr ⟨value, middle, gets, earlier⟩,
          getsToo⟩

/-- Surplus arguments are bound at once. -/
theorem bindExtras_eq (values : List (String × Value)) (file : String) (engine : Engine) :
    (forIn values PUnit.unit fun entry _ => do
      modify (·.defineLocal entry.1 (.variable entry.2) file)
      pure (ForInStep.yield PUnit.unit) : Eval PUnit) engine =
        .finished (.ok ⟨⟩) (engine.binding values file) := by
  induction values generalizing engine with
  | nil => rfl
  | cons entry values ih =>
    rw [List.forIn_cons]
    exact ih (engine.defineLocal entry.1 (.variable entry.2) file)

/-- The body of a call starts behind the binding of its parameters and surplus arguments. -/
theorem mayEnd_runBody {outcome : Except Stop Value}
    (ends : (runBody eval function bound start).MayEnd allows outcome final) :
    (∃ stop, (bindParams eval function (function.params.zip bound.slots) start).MayEnd allows
      (.error stop) final) ∨
    ∃ filled,
      (bindParams eval function (function.params.zip bound.slots) start).MayEnd allows (.ok ()) filled ∧
      (runText eval function.site function.body
        (filled.binding bound.extras function.site.file)).MayEnd allows outcome final := by
  unfold runBody at ends
  -- Only the binding of parameters can fail in front of the body.
  rcases Eval.mayEnd_bind.mp ends with ⟨stop, _, fails⟩ | ⟨_, filled, binds, ends⟩
  · exact .inl ⟨stop, fails⟩
  · refine .inr ⟨filled, binds, ?_⟩
    rwa [Eval.bind_ok (bindExtras_eq bound.extras function.site.file filled)] at ends

/-- A parameter is given a value: the one that the arguments supply, or else one that its default
evaluates to behind the binding of the parameters before it. -/
def Given (allows : Engine → Engine → Prop) (eval : Evaluator) (function : ScriptFunction)
    (args : List Arg) (slots : List (Param × Option Value)) (start : Engine) (place : Nat) (param : Param)
    (value : Value) : Prop :=
  Supplies function.params args param value ∨
    (∀ other, ¬ Supplies function.params args param other) ∧
      ∃ default before after, param.default = some default ∧
        (bindParams eval function (slots.take place) start).MayEnd allows (.ok ()) before ∧
        (evaluateAs eval .parameterDefault function.site default before).MayEnd allows (.ok value) after

/-- The slots of parameters have the names of these. -/
theorem names_slots (placed : Placed params args bound) :
    (params.zip bound.slots).map (·.1.name) = params.map (·.name) := by
  have firsts : (params.zip bound.slots).map Prod.fst = params :=
    List.map_fst_zip (Nat.le_of_eq placed.length.symm)
  have names := congrArg (List.map Param.name) firsts
  rwa [List.map_map] at names

/-- What stands for a name behind the binding of all parameters: what it is given if it is the name of
one of them, and otherwise what it stood for. -/
theorem bindParams_given {name : String} (distinct : (function.params.map (·.name)).Nodup)
    (placed : Placed function.params args bound) (inCall : start.InCall)
    (leaves : LeavesLocal allows eval function name)
    (ends : (bindParams eval function (function.params.zip bound.slots) start).MayEnd allows (.ok ())
      final) :
    final.InCall ∧
      ((∀ param ∈ function.params, param.name ≠ name) → final.local? name = start.local? name) ∧
      ∀ place param, function.params[place]? = some param → param.name = name →
        ∃ value, final.local? name = some (.variable value) ∧
          Given allows eval function args (function.params.zip bound.slots) start place param value := by
  -- The parameters in the slots are those of the function.
  have listed : ∀ entry ∈ function.params.zip bound.slots, entry.1 ∈ function.params :=
    fun entry member => (List.of_mem_zip member).1
  obtain ⟨inside, others, held⟩ :=
    bindParams_holds leaves listed (names_slots placed ▸ distinct) inCall ends
  refine ⟨inside, fun free => others ?_, fun place param here named => ?_⟩
  · rw [names_slots placed]
    simpa using free
  · -- The slot in the place of the parameter says whether an argument was supplied for it.
    have within : place < bound.slots.length :=
      placed.length ▸ (List.getElem?_eq_some_iff.mp here).1
    have slot := List.getElem?_eq_getElem within
    obtain ⟨value, before, middle, holds, earlier, gets⟩ :=
      held place param _ (List.getElem?_zip_eq_some.mpr ⟨here, slot⟩) named
    refine ⟨value, holds, ?_⟩
    rcases gets with ⟨supplied, _⟩ | ⟨empty, default, given, evaluated⟩
    · exact .inl ((placed.slots place param here value).mp (slot.trans (congrArg some supplied)))
    · refine .inr ⟨fun other supplied => ?_, default, before, middle, given, earlier, evaluated⟩
      rw [← placed.slots place param here other, slot, empty] at supplied
      cases supplied

/-- The receiver gets back what the name of a field stands for in the frame, if that is not equal to what
the field held. -/
theorem Engine.get?_returned_named {ended : Engine} {this before : Value} {id : Nat} {object : Instance}
    {field : String} {named : OrderedMap Value} (receives : this.instanceId? = some id)
    (there : start.heap.instances[id]? = some object) (unique : object.fields.names.Nodup)
    (found : object.fields.get? field = some before) (free : ∀ param ∈ function.params, param.name ≠ field)
    (copied : ended.local? field = some (.variable ((named.get? field).getD before)))
    (untouched : (ended.heap.fields id).get? field = some before) :
    ((ended.returned start function (some this)).heap.fields id).get? field =
      some (match named.get? field with
        | some value => if value == before then before else value
        | none => before) := by
  have listed : field ∈ object.fields.names := OrderedMap.mem_names_of_get? found
  rw [get?_returned receives there listed free copied (untouched.trans found.symm), found,
    OrderedMap.any_eq_of_get? unique found fun first => !((named.get? field).getD before == first)]
  -- Without a surplus argument of the name, the copy has the value that it started with.
  cases named.get? field with
  | none => simp
  | some value =>
    rw [Option.getD_some]
    cases equal : value == before <;> simp [equal]

/-- Every end of a call of a declared function is one of the binding of its parameters that fails, or one
of its body. When the body starts, each parameter holds the value that it is given, and `this` is the
receiver, unless a surplus argument has that name, which stands for the last such argument; and the
receiver keeps the fields that the body leaves alone, unless a surplus argument has the name of one that
no parameter has, which gets the argument if that is not equal to its value. All this holds for names
that the evaluation of defaults leaves alone. -/
theorem surplus_arguments_take_over_their_names {scope owner : Option String} {cursor behind : Cursor}
    {result : Except Stop Value}
    (declared : readFunction scope owner cursor = .ok (function, behind))
    (binds : bindArgs function.name function.params args = .ok bound)
    (room : start.calls.length < start.config.maxCallDepth)
    (visible : start.stack.threshold ≤ start.stack.depth)
    (ends : (callFunction eval function args receiver start).MayEnd allows result final) :
    let slots := function.params.zip bound.slots
    let entered := start.entered function receiver
    let named := OrderedMap.ofList (surplus function.params args)
    (∃ stop ended, (bindParams eval function slots entered).MayEnd allows (.error stop) ended) ∨
    ∃ filled begun outcome ended,
      (bindParams eval function slots entered).MayEnd allows (.ok ()) filled ∧
      begun = filled.binding (surplus function.params args) function.site.file ∧
      (runText eval function.site function.body begun).MayEnd allows outcome ended ∧
      (∀ place param, function.params[place]? = some param →
        LeavesLocal allows eval function param.name →
        ∃ value, Given allows eval function args slots entered place param value ∧
          begun.local? param.name = some (.variable ((named.get? param.name).getD value))) ∧
      (∀ this object, receiver = some this → start.instance? this = some object →
        (∀ param ∈ function.params, param.name ≠ "this") → LeavesLocal allows eval function "this" →
        begun.local? "this" = some (.variable ((named.get? "this").getD this))) ∧
      ∀ this id object field before, receiver = some this → this.instanceId? = some id →
        start.heap.instances[id]? = some object → object.fields.names.Nodup →
        object.fields.get? field = some before → field ≠ "this" →
        (∀ param ∈ function.params, param.name ≠ field) → LeavesLocal allows eval function field →
        ended.local? field = begun.local? field →
        (ended.heap.fields id).get? field = some before →
        (final.heap.fields id).get? field = some (match named.get? field with
          | some value => if value == before then before else value
          | none => before) := by
  intro slots entered named
  have distinct := readFunction_distinct declared
  have placed := placed_of_bindArgs distinct binds
  have inCall := Engine.entered_inCall visible function receiver
  obtain ⟨outcome, ended, ran, heap⟩ := callFunction_ends binds room ends
  rcases mayEnd_runBody ran with ⟨stop, fails⟩ | ⟨filled, filling, body⟩
  · exact .inl ⟨stop, ended, fails⟩
  rw [placed.extras] at body
  refine .inr ⟨filled, _, outcome, ended, filling, rfl, body, fun place param here leaves => ?_,
    fun this object given there free leaves => ?_,
    fun this id object field before given receives there unique found other free leaves same untouched => ?_⟩
  · obtain ⟨inside, _, held⟩ := bindParams_given distinct placed inCall.1 leaves filling
    obtain ⟨value, holds, gets⟩ := held place param here rfl
    exact ⟨value, gets, inside.binding_variable holds _ _⟩
  · obtain ⟨inside, others, _⟩ := bindParams_given distinct placed inCall.1 leaves filling
    exact inside.binding_variable ((others free).trans (inCall.2 this object given there).1) _ _
  · obtain ⟨inside, others, _⟩ := bindParams_given distinct placed inCall.1 leaves filling
    have known : start.instance? this = some object := by
      rw [Engine.instance?, receives, Option.bind_some, there]
    have shown := (inCall.2 this object given known).2 unique field before other found
    have copied : ended.local? field = some (.variable ((named.get? field).getD before)) :=
      same.trans (inside.binding_variable ((others free).trans shown) _ _)
    subst given
    rw [heap]
    exact Engine.get?_returned_named receives there unique found free copied untouched

/-- A function with a parameter. -/
def echo : ScriptFunction := ⟨"f", [⟨"a", none⟩], "return a;".toList, ⟨"main", 1⟩, none, none⟩

/-- The text that declares the function. -/
def echoText : Cursor := .ofText ⟨"main", 1⟩ "f(a){return a;}".toList

/-- A variable with the name of the parameter, given behind the argument for it, is what the body finds. -/
theorem surplus_arguments_take_over_their_names_echo :
    ∃ begun outcome ended,
      (runText (evaluator 5) echo.site echo.body begun).MayEnd Eq outcome ended ∧
      begun.local? "a" = some (.variable (.ofNat 9)) := by
  have parts : splitTopLevel ['a'] ',' = [['a']] :=
    splitParts_last ⟨⟨'a', rfl, by decide⟩, by decide, by decide⟩
  have declared : readFunction none none echoText = .ok (echo, echoText.advanceBy 15) := by
    have token : echoText.readToken = ("f", echoText.advanceBy 1) := rfl
    have header : (echoText.advanceBy 1).readBalanced '(' ')' = .ok (['a'], echoText.advanceBy 4) := rfl
    have body : (echoText.advanceBy 4).skipSpaces.readBalanced '{' '}' =
        .ok ("return a;".toList, echoText.advanceBy 15) := rfl
    unfold readFunction
    rw [token]
    dsimp only
    rw [if_neg (by decide), header, ok_bind]
    dsimp only
    rw [parts, body]
    rfl
  let args : List Arg := [⟨none, ['1'], .ofNat 1⟩, ⟨none, ['a'], .ofNat 9⟩]
  have binds : bindArgs echo.name echo.params args =
      .ok ⟨[some (.ofNat 1)], [("a", .ofNat 9)]⟩ := rfl
  obtain ⟨result, final, ends⟩ := Step.exists_mayEnd (fun _ => rfl)
    (callFunction (evaluator 5) echo args none {})
  -- No parameter has a default.
  have leaves : ∀ name, LeavesLocal Eq (evaluator 5) echo name := by
    intro name param listed default given
    rw [List.mem_singleton.mp listed] at given
    cases given
  rcases surplus_arguments_take_over_their_names declared binds (by decide) (by decide) ends with
    ⟨stop, ended, fails⟩ | ⟨filled, begun, outcome, ended, _, _, body, held, _⟩
  · cases (Step.mayEnd_finished.mp fails).1
  · obtain ⟨value, _, holds⟩ := held 0 _ rfl (leaves "a")
    exact ⟨begun, outcome, ended, body, holds⟩

end ScriptEngine
