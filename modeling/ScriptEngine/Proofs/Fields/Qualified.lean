import ScriptEngine.Proofs.Fields.Call

/-! Methods where each bare use of a field goes through `this`. Whatever is told of a method is told of
the method with that, since no field is ever stale there. -/

namespace ScriptEngine

variable {known : List String} {view clear : FieldView}

/-! Two views of the same fields. -/

/-- Two views of fields with these names know the same of the fields, the arguments and the calls, and
in the second one no field has been written by bare name. -/
structure FieldView.Clear (known : List String) (view clear : FieldView) : Prop where
  names : view.fields.names = known
  fields : clear.fields = view.fields
  locals : clear.locals = view.locals
  calls : clear.calls = view.calls
  unwritten : clear.ahead = []
  unhidden : clear.hidden = []

namespace FieldView.Clear

/-- No field is stale that is used through `this`. -/
theorem stale (same : view.Clear known clear) : clear.stale .qualified = [] := by
  rw [FieldView.stale, same.unhidden]
  exact (List.append_nil _).trans same.unwritten

/-- A field is read as in the other view. -/
theorem read? (same : view.Clear known clear) {access : Access} {field : String} {value : Value}
    (told : view.read? access field = some value) : clear.read? .qualified field = some value := by
  rw [FieldView.read?, same.stale, if_neg List.not_mem_nil, same.fields]
  exact (FieldView.of_read? told).2

/-- A field is written as in the other view. -/
theorem write? (same : view.Clear known clear) {access : Access} {field : String} {value : Value}
    {after : FieldView} (told : view.write? access field value = some after) :
    ∃ left, clear.write? .qualified field value = some left ∧ after.Clear known left := by
  obtain ⟨⟨_, listed, definite⟩, rfl⟩ := FieldView.of_write? told
  -- What is written can be written through `this` as well, as nothing there is stale.
  have refused : ¬ (field ∈ clear.stale .qualified ∨ field ∉ clear.fields.names ∨
      value.isDefinite = false) := by
    rw [same.stale, same.fields, definite]
    simp [listed]
  refine ⟨_, if_neg refused, ?_, ?_, ?_, ?_, same.unwritten, same.unhidden⟩
  · rw [FieldView.fields_written, OrderedMap.names_insert listed, same.names]
  · rw [FieldView.fields_written, FieldView.fields_written, same.fields]
  · rw [FieldView.locals_written, FieldView.locals_written, same.locals]
  · rw [FieldView.calls_written, FieldView.calls_written, same.calls]

/-- A call starts as in the other view. -/
theorem enter (same : view.Clear known clear) (locals : OrderedMap Value) :
    (view.enter locals).Clear known (clear.enter locals) := by
  refine ⟨same.names, same.fields, rfl, congrArg (· + 1) same.calls, rfl, ?_⟩
  rw [FieldView.enter, same.unwritten, same.unhidden]
  rfl

/-- A call leaves the fields as in the other view. -/
theorem leave (same : view.Clear known clear) {ended endedToo : FieldView}
    (sameEnd : ended.Clear known endedToo) : (view.leave ended).Clear known (clear.leave endedToo) :=
  ⟨sameEnd.names, sameEnd.fields, same.locals, same.calls, same.unwritten, same.unhidden⟩

end FieldView.Clear

/-! What is told in both views. -/

namespace Told

variable {α β γ δ : Type} {rel : α → β → Prop} {relToo : γ → δ → Prop} {told : Told α} {other : Told β}

/-- Two ends are the same failure or related values. -/
inductive SameEnd (rel : α → β → Prop) : Except Stop α → Except Stop β → Prop where
  | value {first : α} {second : β} (related : rel first second) : SameEnd rel (.ok first) (.ok second)
  | stop (stop : Stop) : SameEnd rel (.error stop) (.error stop)

/-- The same ends are equal. -/
theorem SameEnd.eq {result same : Except Stop α} (ends : SameEnd Eq result same) : same = result := by
  cases ends with
  | value related => rw [related]
  | stop stop => rfl

/-- Wherever one computation is told, another is told in the view without stale fields, and ends the
same way. -/
def Carries (known : List String) (rel : α → β → Prop) (told : Told α) (other : Told β) : Prop :=
  ∀ view clear : FieldView, view.Clear known clear → ∀ result after, told view = some (result, after) →
    ∃ same left, other clear = some (same, left) ∧ after.Clear known left ∧ SameEnd rel result same

namespace Carries

/-- Related values are told as such. -/
theorem pure {first : α} {second : β} (related : rel first second) :
    Carries known rel (Pure.pure first) (Pure.pure second) := by
  rintro view clear same _ _ ⟨⟩
  exact ⟨_, clear, rfl, same, .value related⟩

/-- A failure is told as the same one. -/
theorem throw (stop : Stop) : Carries known rel (MonadExcept.throw stop) (MonadExcept.throw stop) := by
  rintro view clear same _ _ ⟨⟩
  exact ⟨_, clear, rfl, same, .stop stop⟩

/-- A result is told as the same one. -/
theorem ofResult (result : Result α) :
    Carries known Eq (Told.ofResult result) (Told.ofResult result) := by
  cases result with
  | ok value => exact .pure rfl
  | error failure => exact .throw _

/-- What goes on behind related values is told behind them. -/
theorem bind {next : α → Told γ} {goesOn : β → Told δ} (first : Carries known rel told other)
    (second : ∀ value same, rel value same → Carries known relToo (next value) (goesOn same)) :
    Carries known relToo (told >>= next) (other >>= goesOn) := by
  intro view clear same result after toldBoth
  change Option.bind (told view) _ = _ at toldBoth
  -- A stop on one side is a stop on the other; else both go on with related values.
  obtain ⟨⟨reached, middle⟩, toldFirst, toldBoth⟩ := Option.bind_eq_some_iff.mp toldBoth
  obtain ⟨reachedToo, between, toldToo, sameToo, ends⟩ := first view clear same reached middle toldFirst
  have tells : (other >>= goesOn) clear = Option.bind (some (reachedToo, between)) _ :=
    congrArg (Option.bind · _) toldToo
  cases ends with
  | stop stop =>
    cases toldBoth
    exact ⟨_, between, tells, sameToo, .stop stop⟩
  | value related =>
    obtain ⟨_, left, toldLast, sameLast, ends⟩ := second _ _ related middle between sameToo _ _ toldBoth
    exact ⟨_, left, tells.trans toldLast, sameLast, ends⟩

/-- What goes on behind a value is told behind it. -/
theorem andThen {other : Told α} {next : α → Told γ} {goesOn : α → Told δ}
    (first : Carries known Eq told other)
    (second : ∀ value, Carries known relToo (next value) (goesOn value)) :
    Carries known relToo (told >>= next) (other >>= goesOn) := by
  refine first.bind fun value same related => ?_
  rw [← related]
  exact second value

/-- A field is read through `this`. -/
theorem read (access : Access) (field : Ident) :
    Carries known Eq (Told.read access field) (Told.read .qualified field) := by
  intro view clear same result after told
  obtain ⟨value, found, ends⟩ := Option.map_eq_some_iff.mp told
  cases ends
  refine ⟨.ok value, clear, ?_, same, .value rfl⟩
  exact congrArg (Option.map _) (same.read? found)

/-- A field is written through `this`. -/
theorem write (access : Access) (field : Ident) (value : Value) :
    Carries known Eq (Told.write access field value) (Told.write .qualified field value) := by
  intro view clear same result after told
  obtain ⟨written, found, ends⟩ := Option.map_eq_some_iff.mp told
  cases ends
  obtain ⟨left, writes, sameToo⟩ := same.write? found
  exact ⟨.ok (), left, congrArg (Option.map _) writes, sameToo, .value rfl⟩

/-- An argument is the same one. -/
theorem argument (name : Ident) : Carries known Eq (Told.argument name) (Told.argument name) := by
  intro view clear same result after told
  obtain ⟨value, found, ends⟩ := Option.map_eq_some_iff.mp told
  cases ends
  refine ⟨.ok value, clear, ?_, same, .value rfl⟩
  exact congrArg (Option.map _) ((congrArg (OrderedMap.get? · name.name) same.locals).trans found)

/-- Nothing is to be shown where nothing is told. -/
theorem untold : Carries known rel (Told.mk fun _ => none) other := by
  rintro view clear same _ _ ⟨⟩

/-- What is allowed in one view is allowed in the other. -/
theorem allow {allowed allowedToo : FieldView → Prop} [DecidablePred allowed] [DecidablePred allowedToo]
    (both : ∀ view clear, FieldView.Clear known view clear → allowed view → allowedToo clear) :
    Carries known Eq (Told.allow allowed) (Told.allow allowedToo) := by
  intro view clear same result after told
  change (if allowed view then some (Except.ok (), view) else none) = _ at told
  split at told
  case isFalse => cases told
  case isTrue held =>
    cases told
    exact ⟨.ok (), clear, if_pos (both view clear same held), same, .value rfl⟩

/-- Whatever is decided before is told by that. -/
theorem ite {holds : Prop} [Decidable holds] {first second : Told α} {firstToo secondToo : Told β}
    (yes : Carries known rel first firstToo) (no : Carries known rel second secondToo) :
    Carries known rel (if holds then first else second) (if holds then firstToo else secondToo) := by
  split
  · exact yes
  · exact no

end Carries

end Told

/-! How expressions change. -/

/-- The same phrase with each bare use of a field through `this`. -/
def MethodPhrase.qualify : MethodPhrase → MethodPhrase
  | .expression expr => .expression expr.qualify
  | .statement phrase => .statement phrase.qualify

namespace MethodExpr

/-- An expression binds as tight as before. -/
theorem level_qualify (expr : MethodExpr) : expr.qualify.level = expr.level := by
  cases expr <;> rfl

/-- No other bare name stands at the start of an expression. -/
theorem lead?_qualify : ∀ (expr : MethodExpr) {name : Ident}, expr.qualify.lead? = some name →
    expr.lead? = some name
  | number _, _, found => found
  | argument _, _, found => found
  | field _ _, _, found => by cases found
  | call access _ _, _, found => by cases access <;> exact found
  | join operator left right, name, found => by
    -- The two sides agree on whether the left operand is enclosed.
    rw [qualify, lead?, level_qualify] at found
    rw [lead?]
    split at found
    case isTrue => cases found
    case isFalse tight =>
      rw [if_neg tight]
      exact left.lead?_qualify found

end MethodExpr

namespace MethodTable

/-- The methods have the same names. -/
theorem taken_qualify (table : MethodTable) : table.qualify.taken = table.taken := by
  simp [taken, qualify, Method.qualify]

/-- A method is found under the same name. -/
theorem find?_qualify (table : MethodTable) (name : String) :
    table.qualify.find? name = (table.find? name).map Method.qualify := by
  unfold find? qualify
  rw [List.find?_map]
  rfl

/-- The names of the methods are the same ones. -/
theorem knows_qualify {table : MethodTable} (same : view.Clear known clear) {name : String}
    (knows : view.knows table name = true) : clear.knows table.qualify name = true := by
  rw [FieldView.knows, find?_qualify, Option.isSome_map, same.fields, same.locals]
  exact knows

end MethodTable

/-! Arguments. -/

/-- An argument is the same, except that it may have been written as the bare name of a field. -/
structure Arg.Alike (known : List String) (arg other : Arg) : Prop where
  name : other.name = arg.name
  value : other.value = arg.value
  surplus : ∀ position, Bound.surplusName position other.source = Bound.surplusName position arg.source ∨
    Bound.surplusName position arg.source ∈ known

/-- Arguments are matched in the same way, except for surplus ones with the name of a field. -/
structure Bound.Alike (known : List String) (bound other : Bound) : Prop where
  slots : other.slots = bound.slots
  extras : other.extras = bound.extras ∨ ∃ name ∈ bound.extras.map (·.1), name ∈ known

/-- Two matchings fail with the same fault or match in the same way. -/
inductive Bound.AlikeEnd (known : List String) :
    Except ArgumentFault Bound → Except ArgumentFault Bound → Prop where
  | bound {bound other : Bound} (alike : bound.Alike known other) : AlikeEnd known (.ok bound) (.ok other)
  | fault (fault : ArgumentFault) : AlikeEnd known (.error fault) (.error fault)

namespace Bound.Alike

variable {bound other : Bound} {params : List Param}

/-- A surplus argument is matched in the same way. -/
theorem extra {slots : List (Option Value)} {extras others : List (String × Value)}
    (alike : Alike known ⟨slots, extras⟩ ⟨slots, others⟩) {name same : String} (value : Value)
    (names : same = name ∨ name ∈ known) :
    Alike known ⟨slots, extras ++ [(name, value)]⟩ ⟨slots, others ++ [(same, value)]⟩ := by
  refine ⟨rfl, ?_⟩
  rcases names with rfl | member
  · rcases alike.extras with equal | ⟨hides, listed, member⟩
    · exact .inl (congrArg (· ++ [(same, value)]) equal)
    · refine .inr ⟨hides, ?_, member⟩
      rw [List.map_append]
      exact List.mem_append_left _ listed
  · exact .inr ⟨name, by simp, member⟩

/-- An argument is matched in the same way. -/
theorem add (alike : bound.Alike known other) {arg same : Arg} (args : arg.Alike known same)
    (named : Bool) (position : Nat) :
    AlikeEnd known (Bound.add params named position arg bound)
      (Bound.add params named position same other) := by
  obtain ⟨slots, extras⟩ := bound
  obtain ⟨slotsToo, others⟩ := other
  obtain rfl : slotsToo = slots := alike.slots
  -- An argument takes its slot, is refused, or stays as an extra one.
  unfold Bound.add
  dsimp only
  rw [args.name, args.value]
  split
  · split
    · split
      · exact .fault _
      · exact .bound ⟨rfl, alike.extras⟩
    · exact .bound (alike.extra _ (.inl rfl))
  · split
    · exact .fault _
    · split
      · exact .bound ⟨rfl, alike.extras⟩
      · exact .bound (alike.extra _ (args.surplus position))

/-- Arguments are matched in the same way. -/
theorem addAll {args same : List Arg} (alikes : List.Forall₂ (Arg.Alike known) args same)
    (alike : bound.Alike known other) (named : Bool) (position : Nat) :
    AlikeEnd known (Bound.addAll params named position args bound)
      (Bound.addAll params named position same other) := by
  -- The induction is on both lists of arguments; a refusal ends both.
  induction alikes generalizing bound other named position with
  | nil => exact .bound alike
  | cons first _ ih =>
    rename_i arg sameArg args sames _
    unfold Bound.addAll
    have added : AlikeEnd known (Bound.add params named position arg bound)
        (Bound.add params named position sameArg other) := alike.add first named position
    revert added
    generalize Bound.add params named position arg bound = reached
    generalize Bound.add params named position sameArg other = reachedToo
    rintro (⟨alike⟩ | ⟨fault⟩)
    · rw [first.name]
      exact ih alike _ _
    · exact .fault fault

end Bound.Alike

/-- Arguments are bound as they were before, unless one is bound under the name of a field. -/
theorem bindArgs_alike {args same : List Arg} (alikes : List.Forall₂ (Arg.Alike known) args same)
    (function : String) (params : List Param) :
    (∃ failure, bindArgs function params args = .error failure ∧
      bindArgs function params same = .error failure) ∨
    ∃ bound other, bindArgs function params args = .ok bound ∧ bindArgs function params same = .ok other ∧
      bound.Alike known other := by
  have start : Bound.Alike known ⟨params.map fun _ => none, []⟩ ⟨params.map fun _ => none, []⟩ :=
    ⟨rfl, .inl rfl⟩
  have matched : Bound.AlikeEnd known (Bound.addAll params false 0 args ⟨params.map fun _ => none, []⟩)
      (Bound.addAll params false 0 same ⟨params.map fun _ => none, []⟩) := start.addAll alikes false 0
  unfold bindArgs Bound.ofArgs
  revert matched
  generalize Bound.addAll params false 0 args ⟨params.map fun _ => none, []⟩ = reached
  generalize Bound.addAll params false 0 same ⟨params.map fun _ => none, []⟩ = reachedToo
  rintro (⟨alike⟩ | ⟨fault⟩)
  · rename_i bound other
    -- The slots are the same ones, so that the same parameter is missing.
    have missing : other.missing? params = bound.missing? params := by
      unfold Bound.missing?
      rw [alike.slots]
    simp only [bind, Except.bind, missing]
    cases bound.missing? params with
    | some param => exact .inl ⟨_, rfl, rfl⟩
    | none => exact .inr ⟨bound, other, rfl, rfl, alike⟩
  · exact .inl ⟨_, rfl, rfl⟩

/-! What is told of methods. -/

/-- Whatever one teller tells, another tells of the phrase where each bare use of a field goes through
`this`; and only fields that there are have values. -/
structure Teller.Qualifies (known : List String) (tell tellToo : Teller) : Prop where
  carries : ∀ phrase, Told.Carries known Eq (tell phrase) (tellToo phrase.qualify)
  listed : ∀ (name : Ident) (view after : FieldView) (value : Value),
    tell (.expression (.field .bare name)) view = some (.ok value, after) →
      name.name ∈ view.fields.names

section Tellers

variable {table : MethodTable} {config : Config} {tell tellToo : Teller}

/-- Statements are told in a row. -/
theorem tellAll_carries (qualifies : tell.Qualifies known tellToo) (last : Value)
    (statements : List MethodStatement) :
    Told.Carries known Eq (tellAll tell last statements)
      (tellAll tellToo last (MethodStatement.qualifyAll statements)) := by
  induction statements generalizing last with
  | nil => exact .pure rfl
  | cons statement rest ih =>
    exact (qualifies.carries (.statement statement)).andThen fun value => .ite (.pure rfl) (ih value)

/-- A call is told. -/
theorem Method.tellCall_carries (qualifies : tell.Qualifies known tellToo) (method : Method)
    {args same : List Arg} (alikes : List.Forall₂ (Arg.Alike known) args same) :
    Told.Carries known Eq (method.tellCall table config tell args)
      (method.qualify.tellCall table.qualify config tellToo same) := by
  intro view clear views result after told
  rcases bindArgs_alike alikes method.name.name method.declared with
    ⟨failure, refused, refusedToo⟩ | ⟨bound, other, accepted, acceptedToo, alike⟩
  · rcases tellCall_cases told with ⟨_, again, rfl, rfl⟩ | ⟨_, again, _⟩ <;> cases refused.symm.trans again
    refine ⟨_, clear, ?_, views, .stop _⟩
    have refused : bindArgs method.qualify.name.name method.qualify.declared same = .error failure :=
      refusedToo
    unfold tellCall Told.mk
    simp only [refused]
  · rcases tellCall_cases told with ⟨_, again, _⟩ | ⟨_, again, ended⟩ <;> cases accepted.symm.trans again
    have accepted : bindArgs method.qualify.name.name method.qualify.declared same = .ok other :=
      -- left.
      acceptedToo
    unfold tellCall Told.mk
    simp only [accepted, views.calls]
    rcases ended with ⟨full, rfl, rfl⟩ | ⟨room, apart, inner, ended, ran, rfl, rfl⟩
    · exact ⟨_, clear, by rw [if_pos full], views, .stop _⟩
    · rw [if_neg (Nat.not_le.mpr room)]
      -- No argument is bound under the name of a field, so that all are bound as before.
      have unhidden : ¬ ∃ name ∈ bound.extras.map (·.1), name ∈ known := by
        rintro ⟨name, listed, member⟩
        exact (apart name (List.mem_append_right _ listed)).2 (views.names ▸ member)
      obtain rfl : other = bound := by
        obtain ⟨slots, extras⟩ := bound
        obtain ⟨slotsToo, others⟩ := other
        obtain rfl : slotsToo = slots := alike.slots
        obtain rfl : others = extras := alike.extras.resolve_right unhidden
        rfl
      obtain ⟨innerToo, left, ranToo, sameToo, ends⟩ :=
        tellAll_carries qualifies .null method.body _ _ (views.enter _) _ _ ran
      obtain rfl := ends.eq
      refine ⟨callOutcome method.name.name innerToo, clear.leave left, ?_, views.leave sameToo, ?_⟩
      · unfold tellBody
        rw [if_neg]
        · exact congrArg (Option.map _) ranToo
        · rintro ⟨name, member, hides⟩
          rw [MethodTable.taken_qualify, views.fields] at hides
          exact hides.elim (apart name member).1 (apart name member).2
      · cases callOutcome method.name.name innerToo with
        | ok value => exact .value rfl
        | error stop => exact .stop stop

/-! Expressions. -/

/-- A text that is no single name gives a surplus argument none. -/
theorem Bound.surplusName_other {source : List Char} {c : Char} (inner : c ∈ source)
    (outside : Text.isWordChar c = false) (position : Nat) :
    Bound.surplusName position source = "_arg" ++ toString position := by
  refine if_neg fun identifier => ?_
  rw [Text.isWordChar_of_identifier identifier inner] at outside
  cases outside

/-- An argument is written alike, unless it is a field by its bare name. -/
theorem MethodExpr.surplusName_qualify (expr : MethodExpr)
    (listed : ∀ name, expr = .field .bare name → name.name ∈ known) (position : Nat) :
    Bound.surplusName position expr.qualify.text = Bound.surplusName position expr.text ∨
      Bound.surplusName position expr.text ∈ known := by
  cases expr with
  | number numeral => exact .inl rfl
  | argument name => exact .inl rfl
  | field access name =>
    cases access with
    | bare =>
      have named : Bound.surplusName position name.text = name.name := if_pos name.identifier
      exact .inr (named ▸ listed name rfl)
    | qualified => exact .inl rfl
  | call access name args =>
    -- The brackets of a call are part of no name.
    have outside : Text.isWordChar '(' = false := by decide
    rw [Bound.surplusName_other (by simp [qualify, text]) outside,
      Bound.surplusName_other (by simp [text]) outside]
    exact .inl rfl
  | join operator left right =>
    obtain ⟨c, symbol, outside⟩ : ∃ c, c ∈ operator.symbol.toList ∧ Text.isWordChar c = false := by
      cases operator with
      | or | and => exact ⟨_, List.mem_cons_self, by decide⟩
      | binary op => cases op <;> exact ⟨_, List.mem_cons_self, by decide⟩
    rw [Bound.surplusName_other (by simp [qualify, text, symbol]) outside,
      Bound.surplusName_other (by simp [text, symbol]) outside]
    exact .inl rfl

/-- Arguments are told. -/
theorem MethodExpr.tellArgs_carries (qualifies : tell.Qualifies known tellToo) (args : List MethodExpr) :
    Told.Carries known (List.Forall₂ (Arg.Alike known)) (MethodExpr.tellArgs tell args)
      (MethodExpr.tellArgs tellToo (MethodExpr.qualifyAll args)) := by
  induction args with
  | nil => exact .pure .nil
  | cons arg rest ih =>
    -- What is told of a field by its bare name is told where there is one.
    have first : Told.Carries known
        (fun value same => same = value ∧ ∀ name, arg = .field .bare name → name.name ∈ known)
        (tell (.expression arg)) (tellToo (.expression arg.qualify)) := by
      intro view clear views result after told
      obtain ⟨same, left, toldToo, viewsToo, ends⟩ := qualifies.carries _ _ _ views _ _ told
      obtain rfl := ends.eq
      refine ⟨same, left, toldToo, viewsToo, ?_⟩
      cases same with
      | error stop => exact .stop stop
      | ok value =>
        refine .value ⟨rfl, ?_⟩
        rintro name rfl
        exact views.names ▸ qualifies.listed name _ _ _ told
    refine first.bind fun value same related => ih.bind fun others sames alikes => .pure (.cons ?_ alikes)
    obtain ⟨rfl, listed⟩ := related
    exact ⟨rfl, rfl, arg.surplusName_qualify listed⟩

/-- Operands are joined as they were. -/
theorem MethodExpr.tellJoin_carries (operator : Operator) (first : Value) {second secondToo : Told Value}
    (carries : Told.Carries known Eq second secondToo) :
    Told.Carries known Eq (MethodExpr.tellJoin operator first second)
      (MethodExpr.tellJoin operator first secondToo) := by
  cases operator with
  | or | and => exact .ite (.pure rfl) (carries.andThen fun value => .pure rfl)
  | binary op => exact carries.andThen fun value => .ofResult _

/-- An expression is told. -/
theorem MethodExpr.tells_carries (qualifies : tell.Qualifies known tellToo) : ∀ expr : MethodExpr,
    Told.Carries known Eq (expr.tells table config tell) (expr.qualify.tells table.qualify config tellToo)
  | number numeral => .pure rfl
  | argument name => .argument name
  | field access name => .read access name
  | call access name args => by
    rw [qualify, tells, tells, MethodTable.find?_qualify]
    cases table.find? name.name with
    | none => exact .untold
    | some method =>
      exact (tellArgs_carries qualifies args).bind fun found same alikes =>
        method.tellCall_carries qualifies alikes
  | join operator left right => by
    rw [qualify, tells, tells, level_qualify, level_qualify]
    have first := left.tells_carries qualifies
    have second := right.tells_carries qualifies
    exact (Told.Carries.ite (qualifies.carries (.expression left)) first).andThen fun value =>
      tellJoin_carries operator value (.ite (qualifies.carries (.expression right)) second)

/-! Statements. -/

/-- What an action does to a field is told. -/
theorem MethodStatement.tellKnown_carries (access : Access) (field : Ident) (action : Action)
    {operand operandToo : Told Value} (carries : Told.Carries known Eq operand operandToo) :
    Told.Carries known Eq (MethodStatement.tellKnown access field action operand)
      (MethodStatement.tellKnown .qualified field action operandToo) := by
  have there : Told.Carries known Eq (Told.allow fun view => field.name ∈ view.fields.names)
      (Told.allow fun view => field.name ∈ view.fields.names) :=
    .allow fun view clear same listed => by rwa [same.fields]
  refine there.andThen fun _ => carries.andThen fun operand => ?_
  -- The target may be read first, and the result is then computed and written.
  have goesOn : ∀ current, Told.Carries known Eq
      (do
        let result ← Told.ofResult (action.apply current operand)
        Told.write access field result
        return result)
      (do
        let result ← Told.ofResult (action.apply current operand)
        Told.write .qualified field result
        return result) :=
    fun current => (Told.Carries.ofResult (action.apply current operand)).andThen fun result =>
      (Told.Carries.write access field result).andThen fun _ => .pure rfl
  exact .ite ((Told.Carries.read access field).andThen goesOn) ((Told.Carries.pure rfl).andThen goesOn)

/-- A statement that is an expression is told. -/
theorem MethodStatement.tellEvaluate_carries (qualifies : tell.Qualifies known tellToo) (value : MethodExpr) :
    Told.Carries known Eq (MethodStatement.tellEvaluate table tell value)
      (MethodStatement.tellEvaluate table.qualify tellToo value.qualify) := by
  refine Told.Carries.andThen (.allow fun view clear same knows name lead => ?_)
    fun _ => qualifies.carries (.expression value)
  exact MethodTable.knows_qualify same (knows name (value.lead?_qualify lead))

/-- A loop is told. -/
theorem MethodStatement.tellLoop_carries (qualifies : tell.Qualifies known tellToo) (condition : MethodExpr)
    (body : List MethodStatement) (left : Nat) :
    Told.Carries known Eq (MethodStatement.tellLoop config tell condition body left)
      (MethodStatement.tellLoop config tellToo condition.qualify (MethodStatement.qualifyAll body) left) := by
  have first := qualifies.carries (.expression condition)
  -- The induction is on the rounds that are left; each one starts with the condition.
  induction left with
  | zero => exact first.andThen fun value => .ite (.throw _) (.pure rfl)
  | succ left ih =>
    refine first.andThen fun value => .ite ?_ (.pure rfl)
    refine (tellAll_carries qualifies .null body).andThen fun value => ?_
    split
    · exact .pure rfl
    · exact .pure rfl
    · exact .pure rfl
    · exact ih

/-- A statement is told. -/
theorem MethodStatement.tells_carries (qualifies : tell.Qualifies known tellToo) (statement : MethodStatement) :
    Told.Carries known Eq (statement.tells table config tell)
      (statement.qualify.tells table.qualify config tellToo) := by
  cases statement with
  | assign access field action value =>
    exact tellKnown_carries access field action.val (qualifies.carries (.expression value))
  | step access field action => exact tellKnown_carries access field action.val (.pure rfl)
  | giveBack value => exact (qualifies.carries (.expression value)).andThen fun value => .pure rfl
  | evaluate value => exact tellEvaluate_carries qualifies value
  | branch condition yes no =>
    refine (qualifies.carries (.expression condition)).andThen fun value => ?_
    cases value.truthy with
    | true => exact (tellAll_carries qualifies .null yes).andThen fun value => .pure rfl
    | false => exact (tellAll_carries qualifies .null no).andThen fun value => .pure rfl
  | loop condition body => exact tellLoop_carries qualifies condition body _

end Tellers

/-- Whatever is told of phrases is told where each bare use of a field goes through `this`. -/
theorem MethodTable.tell_qualifies (table : MethodTable) (config : Config) (known : List String)
    (depth : Nat) : (table.tell config depth).Qualifies known (table.qualify.tell config depth) := by
  -- The induction is on the depth of the table, from which phrases take theirs.
  induction depth with
  | zero =>
    refine ⟨fun phrase => .throw _, fun name view after value told => ?_⟩
    cases told
  | succ depth ih =>
    refine ⟨fun phrase => ?_, fun name view after value told => ?_⟩
    · cases phrase with
      | expression expr => exact expr.tells_carries ih
      | statement statement => exact statement.tells_carries ih
    · obtain ⟨found, read, _⟩ := Option.map_eq_some_iff.mp told
      exact OrderedMap.mem_names_of_get? (FieldView.of_read? read).2

end ScriptEngine
