import ScriptEngine.Proofs.Fields.Call
import ScriptEngine.Proofs.Fields.Shape

/-! The operands in the bodies of methods are evaluated as is told of them: arguments, fields and calls. -/

namespace ScriptEngine

open Cursor

variable {eval : Evaluator} {tell : Teller} {cursor next : Cursor} {rest text : List Char} {level : Nat}

/-- What is told of a computation that ends in front of a place. -/
def Told.upTo {α : Type} (told : Told α) (next : Cursor) : Told (α × Cursor) := do
  let value ← told
  return (value, next)

/-- What is told of a computation is told of it in front of a place. -/
theorem Told.upTo_eq {α : Type} {told : Told α} {view after : FieldView} {result : Except Stop α}
    (tells : told view = some (result, after)) (next : Cursor) :
    told.upTo next view = some (result.map fun value => (value, next), after) := by
  change Option.bind (told view) _ = _
  rw [tells]
  cases result <;> rfl

/-- The place behind a row of computations is that behind the last one. -/
theorem Told.upTo_bind {α β : Type} (told : Told α) (tells : α → Told β) (next : Cursor) :
    (told >>= tells).upTo next = told >>= fun value => (tells value).upTo next :=
  bind_assoc told tells _

/-! Words. -/

/-- What stands behind an operand is not part of a word. -/
theorem Stops.endsWord (stops : Stops level rest) :
    ∀ c, rest.head? = some c → Text.isWordChar c = false := fun _ head => (stops.clear head).2.2

/-- A word is read without a namespace in front of it, unless it names one. -/
theorem readQualified_ident {symbols : SymbolTable} (ident : Ident)
    (shape : cursor.rest = ident.text ++ rest)
    (ends : ∀ c, rest.head? = some c → Text.isWordChar c = false)
    (alone : rest.head? = some '.' → symbols.hasNamespace ident.name = false) :
    cursor.readQualified symbols = (ident.name, cursor.advanceBy ident.text.length) := by
  have behind : (cursor.advanceBy ident.text.length).current = rest.head? := by
    rw [current, rest_advanceBy shape]
  unfold readQualified
  rw [readToken_text ident.identifier shape ends]
  dsimp only
  cases (cursor.advanceBy ident.text.length).left with
  | zero => rfl
  | succ count =>
    -- Without a namespace of that name, the point is left for the steps behind the operand.
    have plain : ¬ ((cursor.advanceBy ident.text.length).current = some '.' ∧
        symbols.hasNamespace (String.ofList ident.text) = true) := by
      rintro ⟨point, named⟩
      rw [behind] at point
      have unnamed := alone point
      rw [Ident.name, named] at unnamed
      cases unnamed
    rw [readMembers, if_neg plain]
    rfl

/-- A word is evaluated as what it stands for. -/
theorem evaluatePrimary_ident {engine : Engine} (ident : Ident)
    (shape : cursor.rest = ident.text ++ rest)
    (ends : ∀ c, rest.head? = some c → Text.isWordChar c = false)
    (alone : rest.head? = some '.' → engine.symbols.hasNamespace ident.name = false) :
    evaluatePrimary eval cursor engine =
      (match engine.resolve? ident.name cursor.file with
        | some (.variable value) =>
          pure (value, some { name := ident.name }, cursor.advanceBy ident.text.length)
        | some handler => do
          let (value, next) ← evaluateHandler eval handler (cursor.advanceBy ident.text.length)
          return (value, none, next)
        | none => Eval.throwCause (.unknownSymbol ident.name) : Eval Operand) engine := by
  have file : (cursor.advanceBy ident.text.length).file = cursor.file := by simp [Cursor.file]
  -- The word is taken for a name, as it stands for no constant.
  rw [evaluatePrimary_word ident.identifier shape]
  unfold evaluateName
  rw [Eval.get_bind, readToken_text ident.identifier shape ends]
  dsimp only
  rw [ident.free]
  dsimp only
  rw [readQualified_ident ident shape ends alone]
  -- The name is resolved in the file of the cursor, which reading it did not change.
  generalize (cursor.advanceBy ident.text.length).file = here at file ⊢
  subst file
  rfl

/-- The name of a variable is an operand with its value. -/
theorem evaluateStepped_variable {engine : Engine} {value : Value} (ident : Ident)
    (spans : cursor.Spans ident.text next) (stops : Stops level next.rest)
    (bound : engine.resolve? ident.name cursor.file = some (.variable value)) :
    evaluateStepped eval cursor engine = .finished (.ok (value, next)) engine := by
  -- No point follows, where the text stops.
  have plain : next.rest.head? ≠ some '.' := fun head => (stops.clear head).1 (by decide)
  have read : evaluatePrimary eval cursor engine =
      .finished (.ok (value, some { name := ident.name }, next)) engine := by
    rw [evaluatePrimary_ident ident spans.2 stops.endsWord fun point => absurd point plain, bound,
      ← spans.eq_advanceBy]
    rfl
  unfold evaluateStepped
  refine (Eval.bind_ok read _).trans ?_
  dsimp only
  rw [evaluateSteps_stops stops]
  rfl

/-- The methods of a class are found under their names. -/
theorem MethodTable.get?_definitions (table : MethodTable) (name : String) :
    table.definitions.get? name = (table.find? name).map table.function := by
  simp only [definitions, OrderedMap.get?, find?]
  generalize table.methods = methods
  -- The induction is on the list of methods, where the first one of a name counts.
  induction methods with
  | nil => rfl
  | cons method rest ih =>
    by_cases same : method.name.name = name
    · simp [same]
    · have other : (name == method.name.name) = false := beq_false_of_ne (Ne.symm same)
      simp [List.lookup_cons, other, same, ih]

/-- The word for the instance. -/
def thisWord : Ident := ⟨"this".toList, by decide, by decide⟩

/-- The steps behind the instance start in front of the point. -/
theorem spans_this {member : Ident} (spans : cursor.Spans (Access.qualified.text member) next) :
    cursor.rest = thisWord.text ++ '.' :: (member.text ++ next.rest) ∧
      (cursor.advanceBy 4).rest = '.' :: (member.text ++ next.rest) ∧
      (cursor.advanceBy 4).advanceBy (member.text.length + 1) = next := by
  have shape : cursor.rest = thisWord.text ++ '.' :: (member.text ++ next.rest) := by
    rw [spans.2]
    rfl
  -- The name of the instance takes four characters, and the point another one.
  have landed := spans.eq_advanceBy
  refine ⟨shape, rest_advanceBy shape, ?_⟩
  rw [landed, advanceBy_advanceBy]
  congr 1
  simp only [Access.text, List.length_append]
  have five : "this.".toList.length = 5 := rfl
  omega

/-- A property is read behind its point. -/
theorem readToken_property (member : Ident) (shape : cursor.rest = '.' :: (member.text ++ rest))
    (ends : ∀ c, rest.head? = some c → Text.isWordChar c = false) :
    cursor.startsProperty = true ∧
      cursor.advance.readToken = (member.name, cursor.advanceBy (member.text.length + 1)) ∧
      (cursor.advanceBy (member.text.length + 1)).current = rest.head? := by
  have point : cursor.current = some '.' := by rw [current, shape]; rfl
  have inside : cursor.advance.rest = member.text ++ rest := by rw [advance_rest, shape]; rfl
  refine ⟨?_, ?_, ?_⟩
  · obtain ⟨c, tail, same, starts⟩ := member.starts
    simp [startsProperty, point, peek, shape, same, starts]
  · rw [readToken_text member.identifier inside ends, advance, advanceBy_advanceBy, Nat.add_comm]
    rfl
  · have whole : cursor.rest = ('.' :: member.text) ++ rest := shape
    have rest := rest_advanceBy whole
    rw [List.length_cons] at rest
    rw [current, rest]

/-- A member behind an operand is called or read. -/
theorem evaluateSteps_member {value : Value} {place : Option Place} (member : Ident)
    (shape : cursor.rest = '.' :: (member.text ++ rest))
    (ends : ∀ c, rest.head? = some c → Text.isWordChar c = false) (count : Nat) :
    evaluateSteps eval (count + 1) (value, place, cursor) =
      (if rest.head? = some '(' then do
        let receiver ← Eval.use .receiver value
        let (args, next) ← readArgs eval (cursor.advanceBy (member.text.length + 1))
        let result ← callMethod eval next.site receiver place member.name args
        evaluateSteps eval count (result, none, next)
      else do
        let receiver ← Eval.use .receiver value
        let property ← getProperty eval (cursor.advanceBy (member.text.length + 1)).site receiver
          member.name
        evaluateSteps eval count (property, place.map (·.below (.property member.name)),
          cursor.advanceBy (member.text.length + 1))) := by
  have point : cursor.current = some '.' := by rw [current, shape]; rfl
  obtain ⟨property, read, behind⟩ := readToken_property member shape ends
  rw [evaluateSteps, if_neg (by rw [point]; decide), property, if_pos rfl, read]
  dsimp only
  rw [behind]

namespace Activation

variable {α β : Type} {act : Activation}

/-- The word for the instance is an operand with that. -/
theorem evaluatePrimary_this (sound : act.Sound) (shape : cursor.rest = thisWord.text ++ rest)
    (ends : ∀ c, rest.head? = some c → Text.isWordChar c = false) :
    act.Follows (evaluatePrimary eval cursor)
      (pure (act.this, some { name := "this" }, cursor.advanceBy 4)) := by
  rintro view engine ⟨names, fields, holds, noted⟩
  refine .finished ⟨names, fields, holds, noted⟩ ?_
  have bound : engine.resolve? thisWord.name cursor.file = some (.variable act.this) := by
    rw [noted.resolve?]
    exact resolve?_bound sound (by decide) holds.binds.this _
  have alone : engine.symbols.hasNamespace thisWord.name = false := by
    rw [noted.symbols]
    exact sound.ready.plain.alone
  rw [evaluatePrimary_ident thisWord shape ends fun _ => alone, bound]
  rfl

/-- A computation that ends in front of a place does what is told of it. -/
theorem Follows.upTo {body : Eval (α × Cursor)} {told : Told α}
    (ends : ∀ view engine, act.Shows view engine → ∀ result after, told view = some (result, after) →
      ∃ final, act.Shows after final ∧
        body engine = .finished (result.map fun value => (value, next)) final) :
    act.Follows body (told.upTo next) := by
  intro view engine shows result after toldBoth
  change Option.bind (told view) _ = _ at toldBoth
  obtain ⟨⟨reached, middle⟩, toldFirst, toldBoth⟩ := Option.bind_eq_some_iff.mp toldBoth
  obtain ⟨final, showsToo, ran⟩ := ends view engine shows reached middle toldFirst
  cases reached <;> cases toldBoth <;> exact ⟨final, showsToo, ran⟩

/-- What goes on in front of a place is told behind what ends there. -/
theorem Follows.bind_upTo {body : Eval (α × Cursor)} {told : Told α}
    {goesOn : α × Cursor → Eval β} {tells : α → Told β}
    (first : act.Follows body (told.upTo next))
    (second : ∀ value, act.Follows (goesOn (value, next)) (tells value)) :
    act.Follows (body >>= goesOn) (told >>= tells) := by
  intro view engine shows result after toldBoth
  -- The first part ends early, or the second one goes on with its value.
  change Option.bind (told view) _ = _ at toldBoth
  obtain ⟨⟨reached, middle⟩, toldFirst, toldBoth⟩ := Option.bind_eq_some_iff.mp toldBoth
  obtain ⟨between, showsToo, ran⟩ := first view engine shows _ _ (Told.upTo_eq toldFirst next)
  cases reached with
  | error stop =>
    cases toldBoth
    exact ⟨between, showsToo, Eval.bind_error ran _⟩
  | ok value =>
    obtain ⟨final, shows, ranToo⟩ := second value middle between showsToo result after toldBoth
    exact ⟨final, shows, (Eval.bind_ok ran _).trans ranToo⟩

/-- An argument is an operand with its value. -/
theorem evaluateStepped_argument (sound : act.Sound) (name : Ident) (spans : cursor.Spans name.text next)
    (stops : Stops level next.rest) :
    act.Follows (evaluateStepped eval cursor) ((Told.argument name).upTo next) := by
  refine .upTo ?_
  rintro view engine ⟨names, fields, holds, noted⟩ result after told
  obtain ⟨value, found, same⟩ := Option.map_eq_some_iff.mp told
  cases same
  refine ⟨engine, ⟨names, fields, holds, noted⟩, evaluateStepped_variable name spans stops ?_⟩
  rw [noted.resolve?]
  exact resolve?_bound sound name.unqualified (holds.binds.argument _ _ found).1 _

/-- A field is an operand with its value. -/
theorem evaluateStepped_field (sound : act.Sound) (access : Access) (field : Ident)
    (spans : cursor.Spans (access.text field) next) (stops : Stops level next.rest) :
    act.Follows (evaluateStepped eval cursor) ((Told.read access field).upTo next) := by
  cases access with
  | bare =>
    refine .upTo ?_
    rintro view engine ⟨names, fields, holds, noted⟩ result after told
    obtain ⟨value, read, same⟩ := Option.map_eq_some_iff.mp told
    cases same
    refine ⟨engine, ⟨names, fields, holds, noted⟩, evaluateStepped_variable field spans stops ?_⟩
    rw [noted.resolve?]
    exact resolve?_bound sound field.unqualified (holds.current read) _
  | qualified =>
    obtain ⟨shape, behind, landed⟩ := spans_this spans
    have plain : next.rest.head? ≠ some '(' := fun head => (stops.clear head).1 (by decide)
    have ends := endsWord_cons (c := '.') (by decide) (field.text ++ next.rest)
    unfold evaluateStepped
    refine (evaluatePrimary_this sound shape ends).bind_pure ?_
    dsimp only
    rw [evaluateSteps_member field behind stops.endsWord, if_neg plain, landed]
    refine (Follows.use .receiver act.this).bind_pure ?_
    refine (getProperty_follows eval _ sound field).bind fun value => ?_
    -- There is still the point that the steps have counted.
    obtain ⟨count, left⟩ : ∃ count, (cursor.advanceBy 4).left = count + 1 := by
      rw [left_eq_length, behind]
      exact ⟨_, rfl⟩
    rw [left, evaluateSteps_stops stops]
    exact .pure _

/-- Phrases that are nested in the bodies of methods are evaluated as is told. -/
structure Nested (eval : Evaluator) (tell : Teller) (act : Activation) : Prop where
  expression : ∀ (expr : MethodExpr) {cursor next : Cursor}, cursor.skipSpaces.Spans expr.text next →
    Stops 0 next.rest → act.Follows (eval .expression cursor) ((tell (.expression expr)).upTo next)
  statement : ∀ (statement : MethodStatement) {cursor next : Cursor},
    cursor.Spans statement.text next →
      act.Follows (eval .statement cursor) ((tell (.statement statement)).upTo next)

/-- A text that is one expression is evaluated as is told of that. -/
theorem Nested.evaluateText (nested : Nested eval tell act) (site : Site) (expr : MethodExpr) :
    act.Follows (evaluateText eval site expr.text) (tell (.expression expr)) := by
  have shape : (Cursor.ofText site expr.text).rest = expr.text ++ [] := (List.append_nil _).symm
  have ended : ((Cursor.ofText site expr.text).advanceBy expr.text.length).rest = [] :=
    rest_advanceBy shape
  have stops : Stops 0 ((Cursor.ofText site expr.text).advanceBy expr.text.length).rest := .inl ended
  have spans : (Cursor.ofText site expr.text).skipSpaces.Spans expr.text
      ((Cursor.ofText site expr.text).advanceBy expr.text.length) := by
    rw [expr.begins.begins.skipSpaces_eq shape]
    exact ⟨by simp, by rw [ended]; exact shape⟩
  -- Nothing is left behind the expression, which is what is checked at the end.
  have nothing : ((Cursor.ofText site expr.text).advanceBy expr.text.length).skipSpaces.current =
      none := by
    rw [stops.skipSpaces_eq, current, ended]
    rfl
  rw [← bind_pure (tell (.expression expr))]
  refine (nested.expression expr spans stops).bind_upTo fun value => ?_
  dsimp only
  rw [nothing]
  exact .pure _

/-- A text whose value is used up is evaluated as is told of it. -/
theorem Nested.evaluateAs (nested : Nested eval tell act) (use : Use) (site : Site) (value : MethodExpr) :
    act.Follows (evaluateAs eval use site value.text) (tell (.expression value)) := by
  have used := (nested.evaluateText site value).bind fun value => Follows.use use value
  rwa [bind_pure] at used

/-- The arguments of a call are evaluated as is told of them. -/
theorem Nested.evaluateArgs (nested : Nested eval tell act) (site : Site) (args : List MethodExpr) :
    act.Follows (evaluateArgs eval site (MethodExpr.texts args)) (MethodExpr.tellArgs tell args) := by
  -- The induction is on the arguments that are left.
  induction args with
  | nil => exact .pure _
  | cons arg rest ih =>
    rw [MethodExpr.texts, ScriptEngine.evaluateArgs, arg.unnamed.splitNamed_eq]
    exact (nested.evaluateAs .argument site arg).bind fun value => ih.bind fun args => .pure _

/-! Calls. -/

/-- The arguments of a call as they are written. -/
def argsText (args : List MethodExpr) : List Char :=
  '(' :: (listed ',' (MethodExpr.texts args) ++ [')'])

/-- The arguments of a call are read and evaluated as is told of them. -/
theorem Nested.readArgs (nested : Nested eval tell act) (args : List MethodExpr)
    (spans : cursor.Spans (argsText args) next) :
    act.Follows (readArgs eval cursor) ((MethodExpr.tellArgs tell args).upTo next) := by
  have parts := MethodExpr.isPart args
  have shape : cursor.rest = '(' :: (listed ',' (MethodExpr.texts args) ++ ')' :: next.rest) := by
    rw [spans.2]
    simp [argsText]
  have landed : cursor.advanceBy ((listed ',' (MethodExpr.texts args)).length + 2) = next := by
    rw [spans.eq_advanceBy]
    simp [argsText]
  rw [readArgs_listed parts shape, landed]
  exact (nested.evaluateArgs next.site args).bind fun found => .pure _

/-- A method that is called by its name alone is called for the instance. -/
theorem evaluateHandler_follows (sound : act.Sound) (nested : Nested eval tell act)
    (bodies : RunsBodies eval tell act.table act.engine.config) (args : List MethodExpr) (method : Method)
    (spans : cursor.Spans (argsText args) next) :
    act.Follows (evaluateHandler eval (.function (act.table.function method)) cursor)
      (Told.upTo (do method.tellCall act.table act.engine.config tell (← MethodExpr.tellArgs tell args))
        next) := by
  rw [Told.upTo_bind]
  refine (nested.readArgs args spans).bind_upTo fun found => ?_
  -- The receiver of the call is what `this` is bound to.
  refine .alike ?_ ((callFunction_follows sound bodies method found).bind fun value => .pure (value, next))
  rintro view engine ⟨names, fields, holds, noted⟩
  have bound : engine.valueOf? "this" next.file = some act.this := by
    rw [Engine.valueOf?, noted.resolve?, resolve?_bound sound (by decide) holds.binds.this]
    rfl
  dsimp only
  rw [Eval.get_bind, bound]
  rfl

/-- A method that is called through `this` is one of the class. -/
theorem callMethod_follows (sound : act.Sound)
    (bodies : RunsBodies eval tell act.table act.engine.config) (site : Site) (place : Option Place)
    {name : String} {method : Method} (found : act.table.find? name = some method) (args : List Arg) :
    act.Follows (callMethod eval site act.this place name args)
      (method.tellCall act.table act.engine.config tell args) := by
  refine .alike ?_ (callFunction_follows sound bodies method args)
  rintro view engine ⟨names, fields, holds, noted⟩
  obtain ⟨object, instances, methods⟩ := sound.ready.object
  -- The instance has the methods of the table.
  have here : (engine.heap.instances[act.id]?).bind (·.definition.methods.get? name) =
      some (act.table.function method) := by
    have there : (act.state names fields).heap.instances[act.id]? = some { object with fields } :=
      Heap.instances_withFields instances fields
    rw [noted.heap, there, Option.bind_some, methods, MethodTable.get?_definitions, found]
    rfl
  unfold callMethod
  rw [Eval.get_bind]
  simp only [Activation.this, Value.ofData, here]

/-- A call by a bare name is an operand with what it gives back. -/
theorem evaluateStepped_bareCall (sound : act.Sound) (nested : Nested eval tell act)
    (bodies : RunsBodies eval tell act.table act.engine.config) (name : Ident) (args : List MethodExpr)
    {method : Method} (found : act.table.find? name.name = some method)
    (spans : cursor.Spans (name.text ++ argsText args) next) (stops : Stops level next.rest) :
    act.Follows (evaluateStepped eval cursor)
      (Told.upTo (do method.tellCall act.table act.engine.config tell (← MethodExpr.tellArgs tell args))
        next) := by
  obtain ⟨before, behind⟩ := spans.split
  have shape : cursor.rest = name.text ++ (argsText args ++ next.rest) := by
    rw [spans.2, List.append_assoc]
  have handled : act.Follows
      (do
        let (value, next) ← evaluateHandler eval (.function (act.table.function method))
          (cursor.advanceBy name.text.length)
        evaluateSteps eval (next.left + 1) (value, none, next))
      (Told.upTo (do
        method.tellCall act.table act.engine.config tell (← MethodExpr.tellArgs tell args)) next) := by
    refine (evaluateHandler_follows sound nested bodies args method behind).bind_upTo fun value => ?_
    dsimp only
    rw [evaluateSteps_stops stops]
    exact .pure _
  refine .alike ?_ handled
  rintro view engine ⟨names, fields, holds, noted⟩
  -- The name stands for the method in the frame, which hides whatever has the name elsewhere.
  have named : method.name.name = name.name := by simpa using List.find?_some found
  have bound : engine.resolve? name.name cursor.file =
      some (.function (act.table.function method)) := by
    rw [noted.resolve?, ← named]
    exact resolve?_bound sound method.name.unqualified
      (holds.binds.method method (List.mem_of_find?_eq_some found)) _
  have ends : ∀ c, (argsText args ++ next.rest).head? = some c → Text.isWordChar c = false :=
    endsWord_cons (by decide) _
  have alone : (argsText args ++ next.rest).head? = some '.' →
      engine.symbols.hasNamespace name.name = false := by
    rintro ⟨⟩
  have primary : evaluatePrimary eval cursor engine =
      (do
        let (value, next) ← evaluateHandler eval (.function (act.table.function method))
          (cursor.advanceBy name.text.length)
        return (value, none, next) : Eval Operand) engine := by
    rw [evaluatePrimary_ident name shape ends alone, bound]
  -- Both ways to run the call differ only in how their parts are bracketed.
  refine (Eval.bind_congr_at primary _).trans ?_
  rw [bind_assoc]
  rfl

/-- A call through `this` is an operand with what it gives back. -/
theorem evaluateStepped_qualifiedCall (sound : act.Sound) (nested : Nested eval tell act)
    (bodies : RunsBodies eval tell act.table act.engine.config) (name : Ident) (args : List MethodExpr)
    {method : Method} (found : act.table.find? name.name = some method)
    (spans : cursor.Spans (Access.qualified.text name ++ argsText args) next)
    (stops : Stops level next.rest) :
    act.Follows (evaluateStepped eval cursor)
      (Told.upTo (do method.tellCall act.table act.engine.config tell (← MethodExpr.tellArgs tell args))
        next) := by
  obtain ⟨before, behind⟩ := spans.split
  obtain ⟨shape, point, landed⟩ := spans_this before
  let middle := cursor.advanceBy (Access.qualified.text name).length
  have opened : middle.rest = argsText args ++ next.rest := behind.2
  have ends : ∀ c, middle.rest.head? = some c → Text.isWordChar c = false := by
    rw [opened]
    exact endsWord_cons (by decide) _
  have pointEnds := endsWord_cons (c := '.') (by decide) (name.text ++ middle.rest)
  have calls : middle.rest.head? = some '(' := by
    rw [opened]
    rfl
  obtain ⟨count, left⟩ : ∃ count, (cursor.advanceBy 4).left = count + 1 := by
    rw [left_eq_length, point]
    exact ⟨_, rfl⟩
  -- The point and the name are left to read, so that there is a round for them.
  unfold evaluateStepped
  refine (evaluatePrimary_this sound shape pointEnds).bind_pure ?_
  dsimp only
  rw [evaluateSteps_member name point ends, if_pos calls, landed, Told.upTo_bind]
  refine (Follows.use .receiver act.this).bind_pure ?_
  refine (nested.readArgs args behind).bind_upTo fun found => ?_
  refine (callMethod_follows sound bodies _ _ ‹_› found).bind fun value => ?_
  rw [left, evaluateSteps_stops stops]
  exact .pure _

/-- A call of a method is an operand with what it gives back. -/
theorem evaluateStepped_call (sound : act.Sound) (nested : Nested eval tell act)
    (bodies : RunsBodies eval tell act.table act.engine.config) (access : Access) (name : Ident)
    (args : List MethodExpr) {method : Method} (found : act.table.find? name.name = some method)
    (spans : cursor.Spans (access.text name ++ argsText args) next) (stops : Stops level next.rest) :
    act.Follows (evaluateStepped eval cursor)
      (Told.upTo (do method.tellCall act.table act.engine.config tell (← MethodExpr.tellArgs tell args))
        next) := by
  cases access with
  | bare => exact evaluateStepped_bareCall sound nested bodies name args found spans stops
  | qualified => exact evaluateStepped_qualifiedCall sound nested bodies name args found spans stops

end Activation

end ScriptEngine
