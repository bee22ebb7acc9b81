import ScriptEngine.Proofs.Surplus

/-! Which arguments can be bound to parameters, and where each of them is put. -/

namespace ScriptEngine

variable {params : List Param} {args placed rest : List Arg} {arg : Arg} {bound next : Bound}
  {param : Param} {position place : Nat}

/-- An argument can come behind others: behind an argument with a name only if it has one too, and by the
name of a parameter only if none of the others has supplied that. -/
structure Arg.Follows (params : List Param) (placed : List Arg) (arg : Arg) : Prop where
  ordered : arg.name = none → ∀ earlier ∈ placed, earlier.name = none
  fresh : ∀ param ∈ params, arg.name = some param.name → ∀ value, ¬ Supplies params placed param value

/-- Arguments can be bound: each can come behind those in front of it, and each parameter without a
default is supplied. -/
structure Admissible (params : List Param) (args : List Arg) : Prop where
  follows : ∀ before arg behind, args = before ++ arg :: behind → arg.Follows params before
  complete : ∀ param ∈ params, param.default = none → ∃ value, Supplies params args param value

/-- The one place of an argument: it belongs to one parameter and is not surplus, or it is surplus and
belongs to none. -/
inductive Arg.HasOnePlace (params : List Param) (position : Nat) (arg : Arg) : Prop
  | slot (place : Nat) (param : Param) (here : params[place]? = some param)
      (fits : arg.fits params position param)
      (only : ∀ (other : Nat) (second : Param), params[other]? = some second →
        arg.fits params position second → other = place)
      (needed : arg.surplusName? params position = none)
  | surplus (name : String) (named : arg.surplusName? params position = some name)
      (unfit : ∀ param ∈ params, ¬ arg.fits params position param)

/-- Each argument has been put in the one place that it has. -/
structure BoundExactly (params : List Param) (args : List Arg) (bound : Bound) : Prop
    extends Placed params args bound where
  place : ∀ (position : Nat) (arg : Arg), args[position]? = some arg → arg.HasOnePlace params position
  /-- No two arguments with values belong to the same parameter. -/
  once : ∀ (first second : Nat) (arg other : Arg) (param : Param), args[first]? = some arg →
    args[second]? = some other → param ∈ params → arg.fits params first param →
    other.fits params second param → (Bound.defined? arg.value).isSome →
    (Bound.defined? other.value).isSome → first = second

/-! The places of arguments. -/

/-- An argument has one place. -/
theorem Arg.hasOnePlace (distinct : (params.map (·.name)).Nodup) (position : Nat) (arg : Arg) :
    arg.HasOnePlace params position := by
  cases named : arg.name with
  | some name =>
    -- A name that no parameter has is surplus, and so is a position behind the last one.
    by_cases known : ∃ param ∈ params, param.name = name
    · obtain ⟨param, listed, rfl⟩ := known
      obtain ⟨place, here⟩ := List.mem_iff_getElem?.mp listed
      have any : params.any (·.name == param.name) = true :=
        List.any_eq_true.mpr ⟨param, listed, beq_self_eq_true _⟩
      refine .slot place param here ((fits_named named).mpr rfl) (fun other second there fits => ?_)
        (by simp [surplusName?, named, any])
      exact place_unique distinct there here ((fits_named named).mp fits)
    · have none : params.any (·.name == name) = false := by
        simpa using fun param listed same => known ⟨param, listed, same⟩
      exact .surplus name (by simp [surplusName?, named, none])
        fun param listed fits => known ⟨param, listed, (fits_named named).mp fits⟩
  | none =>
    by_cases within : position < params.length
    · have here : params[position]? = some params[position] := List.getElem?_eq_getElem within
      refine .slot position params[position] here ((fits_unnamed named).mpr here)
        (fun other second there fits => ?_) (by simp [surplusName?, named, within])
      exact place_unique distinct there ((fits_unnamed named).mp fits) rfl
    · refine .surplus (Bound.surplusName position arg.source)
        (by simp [surplusName?, named, within]) fun param _ fits => within ?_
      exact (List.getElem?_eq_some_iff.mp ((fits_unnamed named).mp fits)).1

/-- No two arguments that can be bound supply the same parameter. -/
theorem Admissible.not_twice (admissible : Admissible params args)
    (distinct : (params.map (·.name)).Nodup) {first second : Nat} {other : Arg} {value : Value}
    (here : args[first]? = some arg) (there : args[second]? = some other) (before : first < second)
    (listed : param ∈ params) (fits : arg.fits params first param)
    (fitsToo : other.fits params second param) (defined : Bound.defined? arg.value = some value) :
    False := by
  obtain ⟨within, rfl⟩ := List.getElem?_eq_some_iff.mp there
  have early : (args.take second)[first]? = some arg := by
    rwa [List.getElem?_take_of_lt before]
  have follows := admissible.follows (args.take second) args[second] (args.drop (second + 1))
    (by rw [List.getElem_cons_drop, List.take_append_drop])
  rcases fitsToo with named | ⟨unnamed, place⟩
  · exact follows.fresh param listed named value ⟨first, arg, early, fits, defined⟩
  · -- Neither has a name, so that they stand at different places.
    have unnamedToo := follows.ordered unnamed arg (List.mem_of_getElem? early)
    have same := place_unique distinct ((Arg.fits_unnamed unnamedToo).mp fits) place rfl
    omega

/-! Which arguments are accepted. -/

/-- A place holds a value exactly if its parameter is supplied. -/
theorem Placed.holds_iff (earlier : Placed params placed bound) (here : params[place]? = some param) :
    (bound.slots[place]?).join.isSome = true ↔ ∃ value, Supplies params placed param value := by
  simp only [← earlier.slots place param here, Option.isSome_iff_exists, Option.join_eq_some_iff]

/-- One more argument with a name is accepted exactly if its parameter has not been supplied. -/
theorem Placed.add_named_accepts_iff (earlier : Placed params placed bound)
    (distinct : (params.map (·.name)).Nodup) {name : String} (named : arg.name = some name)
    (behindNamed : Bool) :
    (∃ next, bound.add params behindNamed position arg = .ok next) ↔
      ∀ param ∈ params, arg.name = some param.name → ∀ value, ¬ Supplies params placed param value := by
  simp only [Bound.add, named]
  -- Without a parameter of that name, the argument is surplus and can always be added.
  cases found : params.findIdx? (·.name == name) with
  | none =>
    rw [List.findIdx?_eq_none_iff] at found
    refine iff_of_true ⟨_, rfl⟩ fun param member same => ?_
    have equal : name = param.name := Option.some.inj same
    simpa [equal] using found param member
  | some place =>
    obtain ⟨within, here, _⟩ := List.findIdx?_eq_some_iff_getElem.mp found
    have meant : (params[place]).name = name := by simpa using here
    have listed : params[place]? = some params[place] := List.getElem?_eq_getElem within
    have occupied := earlier.holds_iff listed
    -- The parameter with the name is the only one that can have been supplied.
    have only : (∀ param ∈ params, some name = some param.name →
        ∀ value, ¬ Supplies params placed param value) ↔
          ¬ ∃ value, Supplies params placed params[place] value := by
      constructor
      · rintro fresh ⟨value, supplied⟩
        exact fresh _ (List.getElem_mem within) (by rw [meant]) value supplied
      · intro free param member same value supplied
        obtain ⟨other, there⟩ := List.mem_iff_getElem?.mp member
        have one := place_unique distinct there listed ((Option.some.inj same).symm.trans meant.symm)
        subst one
        cases there.symm.trans listed
        exact free ⟨value, supplied⟩
    rw [only, ← occupied]
    dsimp only
    split
    case isTrue taken => simp [taken]
    case isFalse free => exact iff_of_true ⟨_, rfl⟩ free

/-- One more argument without a name is accepted exactly if none before it has one. -/
theorem Bound.add_unnamed_accepts_iff (unnamed : arg.name = none) (behindNamed : Bool) :
    (∃ next, bound.add params behindNamed position arg = .ok next) ↔ behindNamed = false := by
  simp only [Bound.add, unnamed]
  cases behindNamed with
  | true => simp
  | false =>
    refine iff_of_true ?_ rfl
    rw [if_neg Bool.false_ne_true]
    split <;> exact ⟨_, rfl⟩

/-- One more argument is accepted exactly if it can follow those that are in their places. -/
theorem Placed.add_accepts_iff (earlier : Placed params placed bound)
    (distinct : (params.map (·.name)).Nodup) :
    (∃ next, bound.add params (placed.any (·.name.isSome)) placed.length arg = .ok next) ↔
      arg.Follows params placed := by
  cases named : arg.name with
  | some name =>
    rw [earlier.add_named_accepts_iff distinct named]
    exact ⟨fun fresh => ⟨by simp [named], fresh⟩, (·.fresh)⟩
  -- Without a name, it depends on the order alone.
  | none =>
    rw [Bound.add_unnamed_accepts_iff named]
    constructor
    · intro unnamed
      exact ⟨fun _ => by simpa using unnamed, by simp [named]⟩
    · intro follows
      simpa using follows.ordered named

/-- Arguments can follow others if the first one can, and the rest can follow it as well. -/
theorem follow_cons_iff {rest : List Arg} :
    (∀ before other behind, arg :: rest = before ++ other :: behind →
        other.Follows params (placed ++ before)) ↔
      arg.Follows params placed ∧ ∀ before other behind, rest = before ++ other :: behind →
        other.Follows params (placed ++ [arg] ++ before) := by
  constructor
  · intro all
    refine ⟨by simpa using all [] arg rest rfl, fun before other behind same => ?_⟩
    rw [List.append_assoc]
    exact all (arg :: before) other behind (by rw [same]; rfl)
  · rintro ⟨first, others⟩ before other behind same
    cases before with
    | nil =>
      cases same
      rwa [List.append_nil]
    | cons head before =>
      cases same
      rw [List.append_cons]
      exact others before other behind rfl

/-- Further arguments are accepted exactly if each can follow those in front of it. -/
theorem Placed.addAll_accepts_iff (earlier : Placed params placed bound)
    (distinct : (params.map (·.name)).Nodup) (rest : List Arg) :
    (∃ next, Bound.addAll params (placed.any (·.name.isSome)) placed.length rest bound = .ok next) ↔
      ∀ before arg behind, rest = before ++ arg :: behind → arg.Follows params (placed ++ before) := by
  -- The induction is on the further arguments; each is in its place for those behind it.
  induction rest generalizing placed bound with
  | nil => simp [Bound.addAll]
  | cons arg rest ih =>
    rw [follow_cons_iff, ← earlier.add_accepts_iff distinct]
    have named : (placed ++ [arg]).any (·.name.isSome) =
        (placed.any (·.name.isSome) || arg.name.isSome) := by simp
    have later : ∀ {middle}, Placed params (placed ++ [arg]) middle →
        ((∃ next, Bound.addAll params (placed.any (·.name.isSome) || arg.name.isSome)
          (placed.length + 1) rest middle = .ok next) ↔
            ∀ before other behind, rest = before ++ other :: behind →
              other.Follows params (placed ++ [arg] ++ before)) := by
      intro middle one
      rw [← ih one, named, List.length_append, List.length_singleton]
    constructor
    · rintro ⟨next, accepted⟩
      obtain ⟨middle, first, others⟩ := ok_of_bind accepted
      exact ⟨⟨middle, first⟩, (later (earlier.add distinct first)).mp ⟨next, others⟩⟩
    · rintro ⟨⟨middle, first⟩, others⟩
      obtain ⟨next, accepted⟩ := (later (earlier.add distinct first)).mpr others
      refine ⟨next, ?_⟩
      unfold Bound.addAll
      rw [first, ok_bind, accepted]

/-- A slot is empty exactly if its parameter is not supplied. -/
theorem Placed.slot (all : Placed params args bound) (here : params[place]? = some param) :
    ∃ slot, bound.slots[place]? = some slot ∧
      (slot = none ↔ ¬ ∃ value, Supplies params args param value) := by
  have within : place < bound.slots.length := by
    rw [all.length]
    exact (List.getElem?_eq_some_iff.mp here).1
  have there := List.getElem?_eq_getElem within
  refine ⟨_, there, ?_⟩
  rw [← all.holds_iff here, there]
  simp

/-- Nothing is missing exactly if each parameter without a default is supplied. -/
theorem Placed.missing?_eq_none_iff (all : Placed params args bound) :
    bound.missing? params = none ↔
      ∀ param ∈ params, param.default = none → ∃ value, Supplies params args param value := by
  unfold Bound.missing?
  rw [Option.map_eq_none_iff, List.find?_eq_none]
  constructor
  · intro kept param listed bare
    obtain ⟨place, here⟩ := List.mem_iff_getElem?.mp listed
    obtain ⟨slot, there, empty⟩ := all.slot here
    have paired : (params.zip bound.slots)[place]? = some (param, slot) :=
      List.getElem?_zip_eq_some.mpr ⟨here, there⟩
    have held := kept _ (List.mem_of_getElem? paired)
    by_contra unsupplied
    simp [empty.mpr unsupplied, bare] at held
  · rintro supplied ⟨param, found⟩ paired
    obtain ⟨place, both⟩ := List.mem_iff_getElem?.mp paired
    obtain ⟨here, there⟩ := List.getElem?_zip_eq_some.mp both
    obtain ⟨slot, same, empty⟩ := all.slot here
    cases there.symm.trans same
    have filled := supplied param (List.mem_of_getElem? here)
    simp only [Bool.and_eq_true, Option.isNone_iff_eq_none, not_and]
    rintro none bare
    exact (empty.mp none) (filled bare)

/-- Arguments that can be bound are, if parameters have distinct names, and no others. -/
theorem bindArgs_accepts_iff {function : String} (distinct : (params.map (·.name)).Nodup) :
    (∃ bound, bindArgs function params args = .ok bound) ↔ Admissible params args := by
  have follows := (Placed.start params).addAll_accepts_iff distinct args
  have collected : (∃ bound, bindArgs function params args = .ok bound) ↔
      ∃ bound, Bound.addAll params false 0 args ⟨params.map fun _ => none, []⟩ = .ok bound ∧
        bound.missing? params = none := by
    unfold bindArgs Bound.ofArgs
    cases Bound.addAll params false 0 args ⟨params.map fun _ => none, []⟩ with
    | error fault => simp [bind, Except.bind, fail]
    | ok bound =>
      cases missing : bound.missing? params <;> simp [bind, Except.bind, missing, fail, pure, Except.pure]
  rw [collected]
  constructor
  · rintro ⟨bound, added, complete⟩
    have all : Placed params ([] ++ args) bound := (Placed.start params).addAll distinct added
    exact ⟨follows.mp ⟨bound, added⟩, all.missing?_eq_none_iff.mp complete⟩
  · intro admissible
    obtain ⟨bound, added⟩ := follows.mpr admissible.follows
    have all : Placed params ([] ++ args) bound := (Placed.start params).addAll distinct added
    exact ⟨bound, added, all.missing?_eq_none_iff.mpr admissible.complete⟩

/-- Arguments are bound exactly if they can be: none without a name stands behind one with a name, none
names a parameter that an earlier one has supplied, and each parameter without a default is supplied. Then
each has one place, which is the slot of its parameter or one among the surplus arguments in their order,
and a slot holds the value that its parameter is supplied with, if there is one. -/
theorem arguments_are_bound_exactly (function : String) (params : List Param) (args : List Arg)
    (distinct : (params.map (·.name)).Nodup) :
    ((∃ bound, bindArgs function params args = .ok bound) ↔ Admissible params args) ∧
      ∀ bound, bindArgs function params args = .ok bound → BoundExactly params args bound := by
  refine ⟨bindArgs_accepts_iff distinct, fun bound binds => ?_⟩
  have admissible : Admissible params args := (bindArgs_accepts_iff distinct).mp ⟨bound, binds⟩
  refine ⟨placed_of_bindArgs distinct binds, fun position arg _ => arg.hasOnePlace distinct position,
    fun first second arg other param here there listed fits fitsToo defined definedToo => ?_⟩
  obtain ⟨value, defined⟩ := Option.isSome_iff_exists.mp defined
  obtain ⟨valueToo, definedToo⟩ := Option.isSome_iff_exists.mp definedToo
  rcases Nat.lt_trichotomy first second with before | same | behind
  · exact (admissible.not_twice distinct here there before listed fits fitsToo defined).elim
  · exact same
  · exact (admissible.not_twice distinct there here behind listed fitsToo fits definedToo).elim

/-- With a parameter that needs an argument and two that do not, an undefined argument leaves the second to
its default, one with a name supplies the third, and one with another name is surplus. -/
theorem arguments_are_bound_exactly_triple :
    let params : List Param := [⟨"a", none⟩, ⟨"b", some ['2']⟩, ⟨"c", some ['3']⟩]
    let args : List Arg := [⟨none, ['1'], .ofNat 1⟩, ⟨none, ['u'], .undefined⟩,
      ⟨some "c", ['5'], .ofNat 5⟩, ⟨some "d", ['7'], .ofNat 7⟩]
    (params.map (·.name)).Nodup ∧ Admissible params args ∧
      BoundExactly params args ⟨[some (.ofNat 1), none, some (.ofNat 5)], [("d", .ofNat 7)]⟩ := by
  intro params args
  have distinct : (params.map (·.name)).Nodup := by decide
  have binds : bindArgs "f" params args =
      .ok ⟨[some (.ofNat 1), none, some (.ofNat 5)], [("d", .ofNat 7)]⟩ := rfl
  obtain ⟨accepted, exactly⟩ := arguments_are_bound_exactly "f" params args distinct
  exact ⟨distinct, accepted.mp ⟨_, binds⟩, exactly _ binds⟩

end ScriptEngine
