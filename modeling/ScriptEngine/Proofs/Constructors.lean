import ScriptEngine.Interpreter
import ScriptEngine.Proofs.Ends

/-! Which constructor of a class is run for a number of arguments, and whether it accepts them. -/

namespace ScriptEngine

/-- Arguments of some number, all without names and with values. -/
structure InOrder (count : Nat) (args : List Arg) : Prop where
  length : args.length = count
  unnamed : ∀ arg ∈ args, arg.name = none
  defined : ∀ arg ∈ args, arg.value.isUndefined = false

namespace ScriptFunction

/-- A number of arguments is one of those for which a constructor is declared. -/
def InRange (function : ScriptFunction) (count : Nat) : Prop :=
  function.required ≤ count ∧ count ≤ function.params.length

instance (function : ScriptFunction) (count : Nat) : Decidable (function.InRange count) :=
  inferInstanceAs (Decidable (_ ∧ _))

/-- Each parameter from some place on has a default. -/
def DefaultsFrom (function : ScriptFunction) (count : Nat) : Prop :=
  ∀ param ∈ function.params.drop count, param.default.isSome = true

instance (function : ScriptFunction) (count : Nat) : Decidable (function.DefaultsFrom count) :=
  inferInstanceAs (Decidable (∀ _ ∈ _, _))

/-- A function accepts a number of arguments: they can be bound, with none left over. -/
def Accepts (function : ScriptFunction) (count : Nat) : Prop :=
  ∀ args, InOrder count args →
    ∃ bound, bindArgs function.name function.params args = .ok bound ∧ bound.extras = []

/-- The parameters without a default stand in front of the others. -/
def Ordered (function : ScriptFunction) : Prop :=
  function.params.Pairwise fun first second =>
    first.default.isSome = true → second.default.isSome = true

instance (function : ScriptFunction) : Decidable function.Ordered :=
  inferInstanceAs (Decidable (List.Pairwise _ _))

end ScriptFunction

variable {params : List Param} {args : List Arg} {bound : Bound} {function : ScriptFunction}
  {position count : Nat}

/-! Arguments in order. -/

/-- One argument fills its slot, or is surplus behind the last one. -/
theorem add_inOrder {arg : Arg} (position : Nat) (unnamed : arg.name = none)
    (defined : arg.value.isUndefined = false) (slots : bound.slots.length = params.length) :
    ∃ next, bound.add params false position arg = .ok next ∧
      next.slots.length = params.length ∧
      (∀ place < params.length, ((next.slots[place]?).join = none ↔
        (bound.slots[place]?).join = none ∧ place ≠ position)) ∧
      (next.extras = [] ↔ bound.extras = [] ∧ position < params.length) := by
  have value : Bound.defined? arg.value = some arg.value := by simp [Bound.defined?, defined]
  unfold Bound.add
  rw [unnamed, value]
  -- Behind the last slot, an argument is surplus, and the slots stay as they are.
  by_cases within : position < params.length
  · refine ⟨{ bound with slots := bound.slots.set position (some arg.value) }, by simp [within], ?_, ?_,
      by simp [within]⟩
    · simpa using slots
    · intro place inside
      by_cases same : place = position
      · subst same
        simp [slots, within]
      · simp [List.getElem?_set_ne (Ne.symm same), same]
  · refine ⟨_, if_neg within, slots, fun place inside => ?_, by simp [within]⟩
    have other : place ≠ position := by omega
    simp [other]

/-- Arguments in order fill the slots from some place on, and are surplus behind the last one. -/
theorem addAll_inOrder (position : Nat) (inOrder : InOrder count args)
    (slots : bound.slots.length = params.length) :
    ∃ next, Bound.addAll params false position args bound = .ok next ∧
      next.slots.length = params.length ∧
      (∀ place < params.length, ((next.slots[place]?).join = none ↔
        (bound.slots[place]?).join = none ∧ ¬ (position ≤ place ∧ place < position + count))) ∧
      (next.extras = [] ↔ bound.extras = [] ∧ (count = 0 ∨ position + count ≤ params.length)) := by
  -- The induction is on the arguments, each of which is put at the next position.
  induction args generalizing position count bound with
  | nil =>
    obtain rfl : 0 = count := inOrder.length
    refine ⟨bound, rfl, slots, fun place _ => ?_, by simp⟩
    simp only [Nat.add_zero, iff_self_and]
    omega
  | cons arg args ih =>
    obtain ⟨rest, rfl⟩ : ∃ rest, count = rest + 1 := ⟨args.length, inOrder.length.symm⟩
    obtain ⟨unnamed, unnamedBehind⟩ := List.forall_mem_cons.mp inOrder.unnamed
    obtain ⟨defined, definedBehind⟩ := List.forall_mem_cons.mp inOrder.defined
    have behind : InOrder rest args := ⟨Nat.succ.inj inOrder.length, unnamedBehind, definedBehind⟩
    obtain ⟨middle, added, length, slot, extra⟩ := add_inOrder position unnamed defined slots
    obtain ⟨next, ran, lengthToo, slotToo, extraToo⟩ := ih (position + 1) behind length
    refine ⟨next, ?_, lengthToo, fun place inside => ?_, ?_⟩
    · unfold Bound.addAll
      rw [added, unnamed]
      exact ran
    · rw [slotToo place inside, slot place inside, and_assoc]
      refine and_congr_right fun _ => ?_
      omega
    · rw [extraToo, extra, and_assoc]
      refine and_congr_right fun _ => ?_
      omega

/-- A parameter stands from some place on. -/
theorem mem_drop_iff {param : Param} :
    param ∈ params.drop count ↔ ∃ place, count ≤ place ∧ params[place]? = some param := by
  rw [List.mem_iff_getElem?]
  constructor
  · rintro ⟨place, here⟩
    exact ⟨count + place, Nat.le_add_right _ _, by rwa [List.getElem?_drop] at here⟩
  · rintro ⟨place, behind, here⟩
    refine ⟨place - count, ?_⟩
    rwa [List.getElem?_drop, Nat.add_sub_cancel' behind]

/-- Arguments in order are bound if the parameters behind them have defaults, and refused for one of these
parameters otherwise. -/
theorem bindArgs_inOrder (function : ScriptFunction) (inOrder : InOrder count args) :
    (function.DefaultsFrom count ∧ ∃ bound,
      bindArgs function.name function.params args = .ok bound ∧
        (bound.extras = [] ↔ count ≤ function.params.length)) ∨
    ∃ param ∈ function.params.drop count, param.default = none ∧
      bindArgs function.name function.params args =
        fail (.arguments function.name (.missing param.name)) := by
  have slots : (⟨function.params.map fun _ => none, []⟩ : Bound).slots.length =
      function.params.length := List.length_map _
  obtain ⟨bound, added, length, slot, extra⟩ := addAll_inOrder 0 inOrder slots
  -- A slot is empty exactly if it stands behind the arguments.
  have empty : ∀ place param, function.params[place]? = some param →
      ((bound.slots[place]?).join = none ↔ count ≤ place) := by
    intro place param here
    have inside : place < function.params.length := (List.getElem?_eq_some_iff.mp here).1
    rw [slot place inside]
    simp [inside]
  have extras : bound.extras = [] ↔ count ≤ function.params.length := by
    rw [extra]
    simp only [true_and, Nat.zero_add]
    omega
  unfold bindArgs Bound.ofArgs
  rw [added, ok_bind]
  -- What is missed, if anything is, stands behind the arguments.
  cases missing : bound.missing? function.params with
  | none =>
    refine .inl ⟨fun param behind => ?_, bound, rfl, extras⟩
    obtain ⟨place, behind, here⟩ := mem_drop_iff.mp behind
    have inside : place < bound.slots.length := by
      rw [length]
      exact (List.getElem?_eq_some_iff.mp here).1
    have paired : (param, bound.slots[place]) ∈ function.params.zip bound.slots :=
      List.mem_of_getElem? (List.getElem?_zip_eq_some.mpr ⟨here, List.getElem?_eq_getElem inside⟩)
    have unfilled := (empty place param here).mpr behind
    rw [List.getElem?_eq_getElem inside] at unfilled
    have kept := List.find?_eq_none.mp (Option.map_eq_none_iff.mp missing) _ paired
    have bare : bound.slots[place] = none := unfilled
    rw [bare] at kept
    cases given : param.default with
    | none => simp [given] at kept
    | some default => rfl
  | some param =>
    obtain ⟨⟨first, held⟩, found, rfl⟩ := Option.map_eq_some_iff.mp missing
    have lacks := List.find?_some found
    simp only [Bool.and_eq_true, Option.isNone_iff_eq_none] at lacks
    obtain ⟨place, both⟩ := List.mem_iff_getElem?.mp (List.mem_of_find?_eq_some found)
    obtain ⟨here, there⟩ := List.getElem?_zip_eq_some.mp both
    have behind := (empty place first here).mp (by rw [there, lacks.1]; rfl)
    exact .inr ⟨first, mem_drop_iff.mpr ⟨place, behind, here⟩, lacks.2, rfl⟩

/-- Arguments in order can be bound exactly if the parameters behind them have defaults. -/
theorem bindArgs_inOrder_iff (function : ScriptFunction) (inOrder : InOrder count args) :
    (∃ bound, bindArgs function.name function.params args = .ok bound) ↔
      function.DefaultsFrom count := by
  -- What is refused lacks a default, and what is bound does not.
  rcases bindArgs_inOrder function inOrder with ⟨defaults, bound, binds, -⟩ | ⟨param, behind, bare, refuses⟩
  · exact iff_of_true ⟨bound, binds⟩ defaults
  · refine iff_of_false ?_ fun defaults => ?_
    · rintro ⟨bound, binds⟩
      rw [refuses] at binds
      cases binds
    · have given := defaults param behind
      rw [bare] at given
      cases given

namespace ScriptFunction

/-- A function accepts as many arguments as it has parameters, and fewer if those behind have defaults. -/
theorem accepts_iff : function.Accepts count ↔
    count ≤ function.params.length ∧ function.DefaultsFrom count := by
  constructor
  · intro accepts
    -- Whether arguments are bound does not depend on their values, so that nulls tell it for all.
    have sample : InOrder count (List.replicate count (.positional .null)) :=
      ⟨List.length_replicate, fun arg member => by rw [List.eq_of_mem_replicate member]; rfl,
        fun arg member => by rw [List.eq_of_mem_replicate member]; rfl⟩
    obtain ⟨bound, binds, extras⟩ := accepts _ sample
    have defaults := (bindArgs_inOrder_iff function sample).mp ⟨bound, binds⟩
    rcases bindArgs_inOrder function sample with ⟨-, other, bindsToo, none⟩ | ⟨_, _, _, refuses⟩
    · cases binds.symm.trans bindsToo
      exact ⟨none.mp extras, defaults⟩
    · cases binds.symm.trans refuses
  · rintro ⟨fits, defaults⟩ args inOrder
    rcases bindArgs_inOrder function inOrder with ⟨-, bound, binds, none⟩ | ⟨param, behind, bare, -⟩
    · exact ⟨bound, binds, none.mpr fits⟩
    · have given := defaults param behind
      rw [bare] at given
      cases given

instance (function : ScriptFunction) (count : Nat) : Decidable (function.Accepts count) :=
  decidable_of_iff _ accepts_iff.symm

/-- All parameters without a default stand in front of those that have one each. -/
theorem filter_drop_of_defaults (defaults : function.DefaultsFrom count) :
    (function.params.drop count).filter (·.default.isNone) = [] := by
  rw [List.filter_eq_nil_iff]
  intro param behind
  simp [Option.isSome_iff_ne_none.mp (defaults param behind)]

/-- What a function accepts is in its range. -/
theorem Accepts.inRange (accepts : function.Accepts count) : function.InRange count := by
  obtain ⟨fits, defaults⟩ := accepts_iff.mp accepts
  refine ⟨?_, fits⟩
  unfold required
  rw [← List.take_append_drop count function.params, List.filter_append,
    filter_drop_of_defaults defaults, List.append_nil]
  exact Nat.le_trans (List.length_filter_le _ _) (List.length_take_le _ _)

/-- A function accepts all that is in its range exactly if its parameters without a default stand in
front. -/
theorem ordered_iff : function.Ordered ↔ ∀ count, function.InRange count → function.Accepts count := by
  constructor
  · rintro ordered count ⟨enough, fits⟩
    refine accepts_iff.mpr ⟨fits, fun param behind => ?_⟩
    obtain ⟨place, further, here⟩ := mem_drop_iff.mp behind
    obtain ⟨inside, rfl⟩ := List.getElem?_eq_some_iff.mp here
    cases given : function.params[place].default.isSome with
    | true => rfl
    | false =>
      -- Then no parameter up to this one has a default, and they are too many.
      have early : (function.params.take (place + 1)).filter (·.default.isNone) =
          function.params.take (place + 1) := by
        rw [List.filter_eq_self]
        intro other member
        obtain ⟨before, lower, rfl⟩ := List.mem_take_iff_getElem.mp member
        have upTo : before ≤ place := by omega
        have bare : function.params[before].default.isSome = false := by
          rcases Nat.lt_or_eq_of_le upTo with earlier | rfl
          · have later := List.pairwise_iff_getElem.mp ordered before place (by omega) inside earlier
            exact Bool.eq_false_iff.mpr fun some => by simp [later some] at given
          · exact given
        simpa using bare
      have many : place + 1 ≤ function.required := by
        unfold required
        rw [← List.take_append_drop (place + 1) function.params, List.filter_append, early,
          List.length_append, List.length_take]
        omega
      omega
  · intro accepts
    have bounded : function.required ≤ function.params.length := List.length_filter_le _ _
    have behind := (accepts_iff.mp (accepts function.required ⟨Nat.le_refl _, bounded⟩)).2
    -- As many parameters as have no default stand in front, so that none of those has one.
    have front : ∀ param ∈ function.params.take function.required, param.default.isNone = true := by
      have parts := congrArg (fun params => (params.filter (·.default.isNone)).length)
        (List.take_append_drop function.required function.params)
      simp only [List.filter_append, filter_drop_of_defaults behind, List.append_nil] at parts
      rw [← List.length_filter_eq_length_iff, List.length_take_of_le bounded]
      exact parts
    refine List.pairwise_iff_getElem.mpr fun first second inside insideToo earlier given => ?_
    have far : function.required ≤ first := by
      refine Nat.le_of_not_lt fun near => ?_
      have bare := front _ (List.mem_take_iff_getElem.mpr ⟨first, by omega, rfl⟩)
      simp [Option.isNone_iff_eq_none.mp bare] at given
    exact behind _ (mem_drop_iff.mpr ⟨second, by omega, List.getElem?_eq_getElem insideToo⟩)

end ScriptFunction

/-! The constructors of a class. -/

namespace ClassDef

/-- Constructors that are given to some numbers of arguments take the place of earlier ones. -/
theorem constructor?_setAll (definition : ClassDef) (constructor : ScriptFunction) (first length : Nat)
    (count : Nat) :
    ((List.range length).foldl (fun definition extra =>
      definition.setConstructor (first + extra) constructor) definition).constructor? count =
        if first ≤ count ∧ count < first + length then some constructor
        else definition.constructor? count := by
  -- The induction is on the numbers of arguments that are set, the last one first.
  induction length with
  | zero => rw [if_neg (by omega), List.range_zero, List.foldl_nil]
  | succ length ih =>
    rw [List.range_succ, List.foldl_append, List.foldl_cons, List.foldl_nil]
    unfold constructor? at ih ⊢
    rw [setConstructor, List.lookup_cons, ih]
    by_cases same : count = first + length
    · subst same
      rw [beq_self_eq_true]
      exact (if_pos ⟨by omega, by omega⟩).symm
    · rw [beq_false_of_ne same]
      by_cases within : first ≤ count ∧ count < first + length
      · rw [if_pos within, if_pos (by omega)]
      · rw [if_neg within, if_neg (by omega)]

/-- A constructor takes the place of earlier ones for all that is in its range. -/
theorem constructor?_addConstructor (definition : ClassDef) (constructor : ScriptFunction)
    (count : Nat) :
    (definition.addConstructor constructor).constructor? count =
      if constructor.InRange count then some constructor else definition.constructor? count := by
  have bounded : constructor.required ≤ constructor.params.length := List.length_filter_le _ _
  have same : (constructor.required ≤ count ∧ count < constructor.required +
      (constructor.params.length - constructor.required + 1)) = constructor.InRange count := by
    unfold ScriptFunction.InRange
    refine propext (and_congr_right fun _ => ?_)
    omega
  unfold addConstructor
  rw [constructor?_setAll]
  simp only [same]

/-- Takes over the members of a base class with its name. -/
def withBase (definition : ClassDef) (base : String × ClassDef) : ClassDef :=
  { definition.inherit base.2 with bases := definition.bases ++ [base.1] }

/-- Takes over the members of base classes with their names in order. -/
def withBases (definition : ClassDef) (bases : List (String × ClassDef)) : ClassDef :=
  bases.foldl withBase definition

/-- What is inherited takes the place of earlier constructors. -/
theorem constructor?_withBase (definition : ClassDef) (base : String × ClassDef) (count : Nat) :
    (definition.withBase base).constructor? count =
      (base.2.constructor? count).or (definition.constructor? count) := by
  unfold constructor? withBase inherit
  exact List.lookup_append

/-- The last of the base classes that has a constructor for a number of arguments gives it. -/
theorem constructor?_withBases (definition : ClassDef) (bases : List (String × ClassDef))
    (count : Nat) :
    (definition.withBases bases).constructor? count =
      (bases.reverse.findSome? (·.2.constructor? count)).or (definition.constructor? count) := by
  -- The induction is on the base classes, of which each one inherits into what those before it have left.
  induction bases generalizing definition with
  | nil => rfl
  | cons base rest ih =>
    calc
      ((definition.withBase base).withBases rest).constructor? count
      _ = (rest.reverse.findSome? (·.2.constructor? count)).or
            ((base.2.constructor? count).or (definition.constructor? count)) := by
          rw [ih, constructor?_withBase]
      _ = ((base :: rest).reverse.findSome? (·.2.constructor? count)).or
            (definition.constructor? count) := by
          rw [List.reverse_cons, List.findSome?_append, List.findSome?_singleton, Option.or_assoc]

/-- Each constructor of a class accepts the numbers of arguments that it is declared for. -/
def Sound (definition : ClassDef) : Prop :=
  ∀ count constructor, definition.constructor? count = some constructor → constructor.Accepts count

end ClassDef

/-- The names of base classes at a cursor, and the cursor behind them. -/
def Cursor.readBases (cursor : Cursor) : List String × Cursor :=
  match cursor.consume? ":" with
  | some list =>
    let (bases, headed) := list.readUntil (· == '{')
    ((splitTopLevel bases ',').map String.ofList, headed)
  | none => ([], cursor)

/-- Creates an instance of a class and runs one constructor for it. -/
def construct (eval : Evaluator) (definition : ClassDef) (constructor : ScriptFunction)
    (args : List Arg) : Eval Value := do
  let engine ← get
  let (heap, value) := engine.heap.instantiate definition
  set { engine with heap }
  let _ ← Eval.use .construction (← callFunction eval constructor args (some value))
  return value

/-- The constructors of a class with some bases and constructors of its own. -/
structure Selects (bases : List (String × ClassDef)) (own : List ScriptFunction)
    (definition : ClassDef) : Prop where
  /-- The last of its own in whose range a number of arguments is stands in front of those of its bases. -/
  declared : ∀ count, definition.constructor? count =
    (own.filter (·.InRange count)).getLast?.or (bases.reverse.findSome? (·.2.constructor? count))
  /-- It is run if the parameters behind the arguments have defaults. -/
  runs : ∀ {count constructor args}, definition.constructor? count = some constructor →
    InOrder count args → constructor.DefaultsFrom count →
      (∃ bound, bindArgs constructor.name constructor.params args = .ok bound) ∧
        ∀ eval, instantiate eval definition args = construct eval definition constructor args
  /-- Otherwise the object is created and nothing is run. -/
  refuses : ∀ {count constructor args}, definition.constructor? count = some constructor →
    InOrder count args → ¬ constructor.DefaultsFrom count →
      ∃ param ∈ constructor.params.drop count, param.default = none ∧
        ∀ eval engine, instantiate eval definition args engine =
          Eval.throwCause (.arguments constructor.name (.missing param.name))
            { engine with heap := (engine.heap.instantiate definition).1 }
  /-- The last of its own that accepts a number of arguments is the one for it unless that number is in
  the range of a later one. -/
  last : ∀ {count constructor earlier later}, own = earlier ++ constructor :: later →
    constructor.Accepts count → (∀ other ∈ later, ¬ other.InRange count) →
      definition.constructor? count = some constructor
  /-- Where the parameters without a default stand in front, each constructor accepts what it is declared
  for, and the last of its own that accepts a number of arguments is the one for it. -/
  ordered : (∀ constructor ∈ own, constructor.Ordered) →
    ((∀ base ∈ bases, base.2.Sound) → definition.Sound) ∧
      ∀ {count constructor}, (own.filter (·.Accepts count)).getLast? = some constructor →
        definition.constructor? count = some constructor

/-- The members of a class are read from a cursor on: the constructors among them in order, and what the
class has behind them. -/
inductive Members (eval : Evaluator) (allows : Engine → Engine → Prop) :
    ClassDef → Cursor → Engine → List ScriptFunction → ClassDef → Engine → Prop
  | done {definition : ClassDef} {cursor : Cursor} {engine : Engine}
      (ends : cursor.skipSpaces.atEnd = true) :
    Members eval allows definition cursor engine [] definition engine
  | semicolon {definition finished : ClassDef} {cursor behind : Cursor} {engine final : Engine}
      {own : List ScriptFunction} (here : cursor.skipSpaces.consume? ";" = some behind)
      (others : Members eval allows definition behind engine own finished final) :
    Members eval allows definition cursor engine own finished final
  /-- A function with the name of the class is a constructor. -/
  | constructor {definition finished : ClassDef} {cursor behind next : Cursor} {engine final : Engine}
      {constructor : ScriptFunction} {own : List ScriptFunction}
      (here : cursor.skipSpaces.readToken = ("function", behind))
      (read : readFunction engine.activeScope? (some definition.name) behind = .ok (constructor, next))
      (named : constructor.name = definition.name)
      (others : Members eval allows (definition.addConstructor constructor) next engine own finished
        final) :
    Members eval allows definition cursor engine (constructor :: own) finished final
  /-- Any other function is a method. -/
  | method {definition finished : ClassDef} {cursor behind next : Cursor} {engine final : Engine}
      {method : ScriptFunction} {own : List ScriptFunction}
      (here : cursor.skipSpaces.readToken = ("function", behind))
      (read : readFunction engine.activeScope? (some definition.name) behind = .ok (method, next))
      (named : method.name ≠ definition.name)
      (others : Members eval allows (definition.addMethod method) next engine own finished final) :
    Members eval allows definition cursor engine own finished final
  | field {definition finished : ClassDef} {cursor behind next : Cursor} {engine middle final : Engine}
      {token name : String} {value : Value} {own : List ScriptFunction}
      (here : cursor.skipSpaces.readToken = (token, behind)) (word : token ≠ "function")
      (read : (readField eval definition token behind engine).MayEnd allows
        (.ok (definition.addField name value, next)) middle)
      (others : Members eval allows (definition.addField name value) next middle own finished final) :
    Members eval allows definition cursor engine own finished final

variable {eval : Evaluator} {allows : Engine → Engine → Prop} {definition finished : ClassDef}
  {cursor : Cursor} {engine final : Engine} {own : List ScriptFunction}

/-- A field that is read is added to the class. -/
theorem readField_mayEnd {token : String} {changed : ClassDef} {next : Cursor}
    (ends : (readField eval definition token cursor engine).MayEnd allows (.ok (changed, next)) final) :
    ∃ name value, changed = definition.addField name value := by
  unfold readField at ends
  dsimp only at ends
  -- The keyword in front of the name makes no difference.
  generalize (if token = "var" then cursor.readToken else (token, cursor)) = named at ends
  split at ends
  case isTrue => cases ends
  case isFalse =>
    obtain ⟨⟨value, behind⟩, middle, -, ends⟩ := Eval.mayEnd_bind_ok.mp ends
    obtain ⟨last, -, ends⟩ := Eval.of_mayEnd_ofRead ends
    cases ends
    exact ⟨_, value, rfl⟩

/-- The members of a class are read one after the other. -/
theorem readClassMembers_mayEnd {count : Nat}
    (ends : (readClassMembers eval count definition cursor engine).MayEnd allows (.ok finished) final) :
    ∃ own, Members eval allows definition cursor engine own finished final := by
  -- The induction is on the number of members that may still follow.
  induction count generalizing definition cursor engine with
  | zero => cases ends
  | succ count ih =>
    unfold readClassMembers at ends
    dsimp only at ends
    split at ends
    case isTrue ended =>
      cases ends
      exact ⟨[], .done ended⟩
    case isFalse =>
      cases mark : cursor.skipSpaces.consume? ";" with
      | some behind =>
        rw [mark] at ends
        obtain ⟨own, others⟩ := ih ends
        exact ⟨own, .semicolon mark others⟩
      | none =>
        obtain ⟨⟨token, behind⟩, here⟩ : ∃ first, cursor.skipSpaces.readToken = first := ⟨_, rfl⟩
        rw [mark, here] at ends
        dsimp only at ends
        split at ends
        case isTrue word =>
          subst word
          obtain ⟨⟨method, next⟩, read, ends⟩ := Eval.of_mayEnd_ofRead ends
          obtain ⟨own, others⟩ := ih ends
          by_cases named : method.name = definition.name
          · rw [ClassDef.addMethod, if_pos named] at others
            exact ⟨method :: own, .constructor here read named others⟩
          · exact ⟨own, .method here read named others⟩
        case isFalse word =>
          obtain ⟨⟨changed, next⟩, middle, read, ends⟩ := Eval.mayEnd_bind_ok.mp ends
          obtain ⟨name, value, rfl⟩ := readField_mayEnd read
          obtain ⟨own, others⟩ := ih ends
          exact ⟨own, .field here word read others⟩

/-- The constructors of a class are its own ones, the last one in each range, in front of those that it
had. -/
theorem Members.constructor? (members : Members eval allows definition cursor engine own finished final)
    (count : Nat) :
    finished.constructor? count =
      (own.filter (·.InRange count)).getLast?.or (definition.constructor? count) := by
  -- Only a constructor changes the table; it stands in front of the earlier and behind the later ones.
  induction members with
  | done => rfl
  | semicolon _ _ ih => exact ih
  | @constructor definition _ _ _ _ _ _ constructor own _ _ _ _ ih =>
    rw [ih, ClassDef.constructor?_addConstructor, List.filter_cons]
    by_cases inRange : constructor.InRange count
    · simp only [inRange, if_true, decide_true, List.getLast?_cons]
      cases (own.filter (·.InRange count)).getLast? with
      | none => rfl
      | some last => rfl
    · simp only [inRange, if_false, decide_false, Bool.false_eq_true]
  | @method definition _ _ _ _ _ _ method _ _ _ named _ ih =>
    have kept : (definition.addMethod method).constructor? count = definition.constructor? count := by
      rw [ClassDef.addMethod, if_neg named]
      rfl
    rw [ih, kept]
  | field _ _ _ _ ih => exact ih

/-- The base classes of a class are found by their names. -/
theorem inheritAll_mayEnd {file : String} {names : List String}
    (ends : (inheritAll file definition names engine).MayEnd allows (.ok finished) final) :
    final = engine ∧ ∃ bases : List (String × ClassDef), bases.map (·.1) = names ∧
      (∀ base ∈ bases, engine.class? base.1 file = some base.2) ∧
      finished = definition.withBases bases := by
  -- The induction is on the names; one that is no class fails.
  induction names generalizing definition with
  | nil =>
    cases ends
    exact ⟨rfl, [], rfl, nofun, rfl⟩
  | cons name names ih =>
    unfold inheritAll at ends
    obtain ⟨now, middle, looked, ends⟩ := Eval.mayEnd_bind_ok.mp ends
    cases looked
    cases found : engine.class? name file with
    | none =>
      rw [found] at ends
      cases ends
    | some base =>
      rw [found] at ends
      obtain ⟨rfl, bases, rfl, all, rfl⟩ := ih ends
      exact ⟨rfl, (name, base) :: bases, rfl, List.forall_mem_cons.mpr ⟨found, all⟩, rfl⟩

/-- A class that is declared has the members in its body behind those of its base classes. -/
theorem declareClass_mayEnd {name : String} {names : List String} {named headed behind : Cursor}
    {body : List Char} {result : Value × Cursor} (read : cursor.readToken = (name, named))
    (header : named.skipSpaces.readBases = (names, headed))
    (braced : headed.readBalanced '{' '}' = .ok (body, behind))
    (ends : (declareClass eval cursor engine).MayEnd allows (.ok result) final) :
    ∃ bases own definition middle, bases.map (·.1) = names ∧
      (∀ base ∈ bases, engine.class? base.1 headed.file = some base.2) ∧
      Members eval allows (ClassDef.withBases { name } bases) (behind.child body) engine own definition
        middle ∧
      result = (.null, behind) ∧ final = middle.defineDeclaration name (.classDef definition) := by
  -- Without a colon there are no base classes.
  have shape : declareClass eval cursor = (do
      if name = "" then Eval.refuse named .missingClassName
      declareMembers eval name (← inheritAll headed.file { name } names) headed) := by
    unfold declareClass
    unfold Cursor.readBases at header
    rw [read]
    dsimp only at header ⊢
    cases listed : named.skipSpaces.consume? ":" with
    | none =>
      rw [listed] at header
      cases header
      rfl
    | some list =>
      rw [listed] at header
      cases header
      rfl
  rw [shape] at ends
  split at ends
  case isTrue => cases ends
  case isFalse =>
    obtain ⟨first, now, inherited, ends⟩ := Eval.mayEnd_bind_ok.mp ends
    obtain ⟨rfl, bases, rfl, found, rfl⟩ := inheritAll_mayEnd inherited
    unfold declareMembers at ends
    obtain ⟨got, same, ends⟩ := Eval.of_mayEnd_ofRead ends
    cases braced.symm.trans same
    obtain ⟨definition, middle, read, ends⟩ := Eval.mayEnd_bind_ok.mp ends
    obtain ⟨own, members⟩ := readClassMembers_mayEnd read
    cases ends
    exact ⟨bases, own, definition, middle, rfl, found, members, rfl, rfl⟩

/-- An object is created with the constructor that its class has for the number of arguments. -/
theorem instantiate_eq {constructor : ScriptFunction} {count : Nat} {args : List Arg}
    (here : definition.constructor? count = some constructor) (inOrder : InOrder count args) :
    instantiate eval definition args = construct eval definition constructor args := by
  unfold instantiate construct
  rw [inOrder.length, here]

/-- A constructor with a parameter behind the arguments that has no default is not run. -/
theorem instantiate_refused {constructor : ScriptFunction} {count : Nat} {args : List Arg}
    (here : definition.constructor? count = some constructor) (inOrder : InOrder count args)
    (lacks : ¬ constructor.DefaultsFrom count) :
    ∃ param ∈ constructor.params.drop count, param.default = none ∧
      ∀ eval engine, instantiate eval definition args engine =
        Eval.throwCause (.arguments constructor.name (.missing param.name))
          { engine with heap := (engine.heap.instantiate definition).1 } := by
  rcases bindArgs_inOrder constructor inOrder with ⟨defaults, -⟩ | ⟨param, behind, bare, refuses⟩
  · exact absurd defaults lacks
  · refine ⟨param, behind, bare, fun eval engine => ?_⟩
    rw [instantiate_eq here inOrder]
    unfold construct callFunction
    rw [refuses]
    rfl

/-- Constructors whose parameters without a default stand in front accept what they are in range for. -/
theorem filter_inRange (ordered : ∀ constructor ∈ own, constructor.Ordered) (count : Nat) :
    own.filter (·.InRange count) = own.filter (·.Accepts count) := by
  refine List.filter_congr fun constructor member => ?_
  have both : constructor.InRange count ↔ constructor.Accepts count :=
    ⟨ScriptFunction.ordered_iff.mp (ordered constructor member) count, ScriptFunction.Accepts.inRange⟩
  simp only [both]

/-- The constructors of a class whose members have been read. -/
theorem Members.selects {name : String} {bases : List (String × ClassDef)}
    (members : Members eval allows (ClassDef.withBases { name } bases) cursor engine own definition final) :
    Selects bases own definition := by
  -- What a class declares comes in front of what its bases do.
  have declared : ∀ count, definition.constructor? count =
      (own.filter (·.InRange count)).getLast?.or
        (bases.reverse.findSome? (·.2.constructor? count)) := by
    intro count
    have bare : ({ name } : ClassDef).constructor? count = none := rfl
    rw [members.constructor? count, ClassDef.constructor?_withBases, bare, Option.or_none]
  constructor
  case declared => exact declared
  case runs =>
    intro count constructor args here inOrder defaults
    exact ⟨(bindArgs_inOrder_iff constructor inOrder).mpr defaults,
      fun eval => instantiate_eq here inOrder⟩
  case refuses =>
    intro count constructor args here inOrder lacks
    exact instantiate_refused here inOrder lacks
  case last =>
    intro count constructor earlier later parts accepts none
    have behind : later.filter (·.InRange count) = [] :=
      List.filter_eq_nil_iff.mpr fun other member => by simpa using none other member
    rw [declared count, parts, List.filter_append,
      List.filter_cons_of_pos (by simpa using accepts.inRange), behind]
    simp
  case ordered =>
    refine fun ordered => ⟨fun sound count constructor here => ?_, fun {count constructor} last => ?_⟩
    · rw [declared count, filter_inRange ordered] at here
      rcases Option.or_eq_some_iff.mp here with last | ⟨-, inherited⟩
      · simpa using (List.mem_filter.mp (List.mem_of_getLast? last)).2
      · obtain ⟨base, member, given⟩ := List.exists_of_findSome?_eq_some inherited
        exact sound base (List.mem_reverse.mp member) count constructor given
    · rw [declared count, filter_inRange ordered, last]
      rfl

/-- A class that is declared has its members in order behind those of its base classes. For each number of
arguments, the last of its own constructors in whose range that is, or else that of its last base class with
one, is the one that is run; the range goes from the number of the parameters without a default to that of
all parameters. So a constructor accepts its whole range exactly if the parameters without a default stand
in front. -/
theorem class_selects_by_range {name : String} {names : List String} {named headed behind : Cursor}
    {body : List Char} (read : cursor.readToken = (name, named))
    (header : named.skipSpaces.readBases = (names, headed))
    (braced : headed.readBalanced '{' '}' = .ok (body, behind)) (start : Engine) :
    (∀ result final, (declareClass eval cursor start).MayEnd allows (.ok result) final →
      ∃ bases own definition middle, bases.map (·.1) = names ∧
        (∀ base ∈ bases, start.class? base.1 headed.file = some base.2) ∧
        Members eval allows (ClassDef.withBases { name } bases) (behind.child body) start own definition
          middle ∧
        result = (.null, behind) ∧ final = middle.defineDeclaration name (.classDef definition)) ∧
    (∀ bases own definition middle,
      Members eval allows (ClassDef.withBases { name } bases) (behind.child body) start own definition
        middle → Selects bases own definition) ∧
    ∀ constructor : ScriptFunction, constructor.Ordered ↔
      ∀ count, constructor.InRange count → constructor.Accepts count :=
  ⟨fun _ _ ends => declareClass_mayEnd read header braced ends, fun _ _ _ _ members => members.selects,
    fun _ => ScriptFunction.ordered_iff⟩

/-- The declaration of a class of points behind its keyword. -/
def points : Cursor := .ofCanonical ⟨"Point{function Point(x,y=0){}}".toList.map (·, 1)⟩ "main"

/-- The constructor of a point. -/
def pointAt : ScriptFunction :=
  ⟨"Point", [⟨"x", none⟩, ⟨"y", some ['0']⟩], [], ⟨"main", 1⟩, none, some "Point"⟩

/-- The constructor of a point accepts one argument, for which it is declared as well as for two. -/
theorem class_selects_by_range_points :
    (∃ result final, (declareClass (evaluator 3) points (.new {} {})).MayEnd KeepsOwn (.ok result) final) ∧
      ∃ definition, Selects [] [pointAt] definition ∧ definition.Sound ∧
        definition.constructor? 1 = some pointAt ∧ pointAt.Accepts 1 := by
  have read : points.readToken = ("Point", points.advanceBy 5) := by rfl
  have header : (points.advanceBy 5).skipSpaces.readBases = ([], points.advanceBy 5) := by rfl
  have braced : (points.advanceBy 5).readBalanced '{' '}' =
      .ok ("function Point(x,y=0){}".toList, points.advanceBy 30) := by rfl
  let body := (points.advanceBy 30).child "function Point(x,y=0){}".toList
  -- The declaration runs to its end.
  have ended : ((declareClass (evaluator 3) points (.new {} {})).ended?).isSome = true := by
    decide +kernel
  obtain ⟨⟨result, final⟩, ended⟩ := Option.isSome_iff_exists.mp ended
  have first : body.skipSpaces.readToken = ("function", body.advanceBy 8) := by rfl
  have member : (readFunction none (some "Point") (body.advanceBy 8)).toOption.map
      (fun found => (found.1, found.2.skipSpaces.atEnd)) = some (pointAt, true) := by decide +kernel
  obtain ⟨⟨constructor, next⟩, found, same⟩ := Option.map_eq_some_iff.mp member
  obtain ⟨rfl, atEnd⟩ := Prod.mk.inj same
  have parsed : readFunction none (some "Point") (body.advanceBy 8) = .ok (pointAt, next) := by
    cases outcome : readFunction none (some "Point") (body.advanceBy 8) with
    | error stopped =>
      rw [outcome] at found
      cases found
    | ok result =>
      rw [outcome] at found
      exact congrArg _ (Option.some.inj found)
  have members : Members (evaluator 3) KeepsOwn (ClassDef.withBases { name := "Point" } []) body
      (.new {} {}) [pointAt] _ (.new {} {}) :=
    .constructor first parsed rfl (.done atEnd)
  obtain ⟨-, selects, ordered⟩ := @class_selects_by_range (evaluator 3) KeepsOwn _ _ _ _ _ _ _ read
    header braced (.new {} {})
  have selected := selects _ _ _ _ members
  have inFront : ∀ constructor ∈ [pointAt], constructor.Ordered := by decide
  have accepts := (ordered pointAt).mp (inFront _ (List.mem_singleton_self _)) 1 (by decide)
  exact ⟨⟨result, final, .of_ended ended⟩, _, selected, (selected.ordered inFront).1 nofun,
    (selected.declared 1), accepts⟩

/-- The declaration of a class with two constructors. -/
def overlapping : Cursor :=
  .ofCanonical ⟨"P{function P(a){}function P(a=0,b){}}".toList.map (·, 1)⟩ "main"

/-- A constructor with a default in front of a parameter without one is declared for a number of arguments
that it does not accept, in place of an earlier one that does. -/
theorem later_constructor_refuses :
    ((declareClass (evaluator 3) overlapping (.new {} {})).ended?.bind fun ended =>
      (ended.2.class? "P" "main").map fun definition =>
        (definition.constructors.map fun (count, constructor) =>
          (count, constructor.params.map (·.name), decide (constructor.Accepts count)),
        instantiate (evaluator 3) definition [.positional (.ofNat 5)] ended.2 matches
          .finished (.error (.failed ⟨.arguments "P" (.missing "b"), _⟩)) _)) =
      some ([(2, ["a", "b"], true), (1, ["a", "b"], false), (1, ["a"], true)], true) := by
  decide +kernel

end ScriptEngine
