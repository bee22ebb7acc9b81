import ScriptEngine.Proofs.Account.Bodies

/-! Declarations, native functions, and reading and writing of members do the same, and keep an account,
with evaluators that do. -/

namespace ScriptEngine

variable {account : Account} {eval other : Evaluator}

section Declaration

/-- Binding the name of a declaration has nothing to do with calls. -/
theorem Agree.defineDeclaration (name : String) (handler : Handler) :
    Agree account (modify (·.defineDeclaration name handler) : Eval PUnit)
      (modify (·.defineDeclaration name handler)) :=
  changed fun engine => engine.quiet_defineIn _ _ _

theorem inheritAll_agree (file : String) (definition : ClassDef) (bases : List String) :
    Agree account (inheritAll file definition bases) (inheritAll file definition bases) := by
  -- The induction is on the base classes that are left.
  induction bases generalizing definition with
  | nil => exact .done _
  | cons base rest ih =>
    refine .peek fun seen => ?_
    split
    · exact ih _
    · exact .failed

theorem declareFunction_agree (cursor : Cursor) :
    Agree account (declareFunction cursor) (declareFunction cursor) :=
  .peek fun _ => .bind (.ofRead _) fun _ => .bind (.defineDeclaration _ _) fun _ => .done _

theorem declareCompiled_agree (cursor : Cursor) :
    Agree account (declareCompiled cursor) (declareCompiled cursor) := by
  unfold declareCompiled
  dsimp only
  split
  · exact .failed
  · refine .bind (.ofRead _) fun ⟨header, headed⟩ => ?_
    refine .bind (.ofResult (TypedParam.bare_ofTexts _ _)) fun params => ?_
    refine .bind (.ofRead _) fun ⟨body, behind⟩ => .peek fun seen => ?_
    dsimp only
    split
    · exact .failed
    · split
      · exact .failed
      · exact .bind (.defineDeclaration _ _) fun _ => .done _

theorem runWorker_agree (detached : Bool) (cursor : Cursor) :
    Agree account (runWorker detached cursor) (runWorker detached cursor) := by
  refine .bind (.ofRead _) fun ⟨text, behind⟩ => ?_
  dsimp only
  split
  · exact .failed
  · exact .look fun engine admits => .replace ⟨rfl, rfl, rfl⟩ admits (.done _)

variable (agree : eval.Agrees account other)
include agree

theorem readFieldDefault_agree (cursor : Cursor) :
    Agree account (readFieldDefault eval cursor) (readFieldDefault other cursor) := by
  unfold readFieldDefault
  split
  · exact evaluateAt_agree agree _ _
  · exact .done _

theorem readField_agree (definition : ClassDef) (token : String) (cursor : Cursor) :
    Agree account (readField eval definition token cursor)
      (readField other definition token cursor) := by
  unfold readField
  dsimp only
  generalize (if token = "var" then cursor.readToken else (token, cursor)) = named
  split
  · exact .failed
  · exact .bind (readFieldDefault_agree agree _) fun ⟨value, behind⟩ =>
      .bind (.ofRead _) fun _ => .done _

theorem readClassMembers_agree (count : Nat) (definition : ClassDef) (cursor : Cursor) :
    Agree account (readClassMembers eval count definition cursor)
      (readClassMembers other count definition cursor) := by
  -- The induction is on the number of members that may still follow.
  induction count generalizing definition cursor with
  | zero => exact .exhausted
  | succ count ih =>
    unfold readClassMembers
    dsimp only
    split
    · exact .done _
    · split
      · exact ih _ _
      · split
        · exact .peek fun _ => .bind (.ofRead _) fun _ => ih _ _
        · exact .bind (readField_agree agree _ _ _) fun _ => ih _ _

theorem declareMembers_agree (name : String) (definition : ClassDef) (cursor : Cursor) :
    Agree account (declareMembers eval name definition cursor)
      (declareMembers other name definition cursor) :=
  .bind (.ofRead _) fun _ => .bind (readClassMembers_agree agree _ _ _) fun _ =>
    .bind (.defineDeclaration _ _) fun _ => .done _

theorem declareClass_agree (cursor : Cursor) :
    Agree account (declareClass eval cursor) (declareClass other cursor) := by
  unfold declareClass
  dsimp only
  split
  · exact .failed
  · split
    · exact .bind (inheritAll_agree _ _ _) fun _ => declareMembers_agree agree _ _ _
    · exact declareMembers_agree agree _ _ _

theorem declareVariables_agree (cursor : Cursor) (parts : List (List Char)) :
    Agree account (declareVariables eval cursor parts) (declareVariables other cursor parts) := by
  -- The induction is on the variables that are left.
  induction parts with
  | nil => exact .done _
  | cons part rest ih =>
    have binds : ∀ (name : String) (value : Value), Agree account
        (do modify (·.defineLocal name (.variable value) cursor.file)
            declareVariables eval cursor rest)
        (do modify (·.defineLocal name (.variable value) cursor.file)
            declareVariables other cursor rest) :=
      fun name value => .bind (.defineLocal _ _ _) fun _ => ih
    unfold declareVariables
    dsimp only
    split
    · exact .failed
    · split
      · exact .bind (evaluateAs_agree agree _ _ _) (binds _)
      · exact binds _ _

theorem runVar_agree (cursor : Cursor) : Agree account (runVar eval cursor) (runVar other cursor) :=
  .bind (declareVariables_agree agree _ _) fun _ => .bind (.ofRead _) fun _ => .done _

theorem readEntry_agree (cursor : Cursor) (next : Int) (part : List Char) :
    Agree account (readEntry eval cursor next part) (readEntry other cursor next part) := by
  unfold readEntry
  split
  · exact .done _
  · refine .bind (evaluateAs_agree agree _ _ _) fun value => ?_
    split
    · exact .done _
    · exact .failed

theorem readEntries_agree (cursor : Cursor) (next : Int) (entries : OrderedMap Int)
    (parts : List (List Char)) :
    Agree account (readEntries eval cursor next entries parts)
      (readEntries other cursor next entries parts) := by
  -- The induction is on the entries that are left.
  induction parts generalizing next entries with
  | nil => exact .done _
  | cons part rest ih =>
    refine .bind (readEntry_agree agree _ _ _) fun ⟨name, number⟩ => ?_
    dsimp only
    split
    · exact .failed
    · exact ih _ _

theorem declareEnum_agree (cursor : Cursor) :
    Agree account (declareEnum eval cursor) (declareEnum other cursor) := by
  unfold declareEnum
  dsimp only
  split
  · exact .failed
  · exact .bind (.ofRead _) fun _ => .bind (readEntries_agree agree _ _ _ _) fun _ =>
      .bind (.defineDeclaration _ _) fun _ => .done _

theorem runNamespace_agree (cursor : Cursor) :
    Agree account (runNamespace eval cursor) (runNamespace other cursor) := by
  unfold runNamespace
  dsimp only
  split
  · exact .failed
  · exact .bind (.ofRead _) fun _ => .bind (.changed fun _ => ⟨rfl, rfl, rfl⟩) fun _ =>
      .bind (.withFrame (runText_agree agree _ _)) fun _ => .done _

theorem instantiate_agree (definition : ClassDef) (args : List Arg) :
    Agree account (instantiate eval definition args) (instantiate other definition args) := by
  -- The heap is no part of the account.
  refine .look fun engine admits => ?_
  dsimp only
  refine .replace ⟨rfl, rfl, rfl⟩ admits ?_
  split
  · exact .bind (callFunction_agree agree _ _ _) fun _ => .bind (.use _ _) fun _ => .done _
  · split
    · exact .done _
    · exact .failed

end Declaration

section Native

theorem takeResult_agree (id : Nat) : Agree account (takeResult id) (takeResult id) := by
  refine .peek fun seen => .bind (.changed fun _ => ⟨rfl, rfl, rfl⟩) fun _ => ?_
  split
  · exact .done _
  · dsimp only
    split
    · exact .bind (.note _) fun _ => .received _
    · exact .received _
  · exact .exhausted

theorem joinWorker_agree (id : Nat) : Agree account (joinWorker id) (joinWorker id) := by
  refine .peek fun seen => ?_
  split
  · exact .failed
  · refine .bind (.changed fun _ => ⟨rfl, rfl, rfl⟩) fun _ => ?_
    dsimp only
    split
    · exact .bind (.pause _) fun _ => takeResult_agree id
    · exact takeResult_agree id

theorem napTimes_agree (naps : Nat) : Agree account (napTimes naps) (napTimes naps) := by
  -- The induction is on the naps that are left.
  induction naps with
  | zero => exact .done _
  | succ naps ih => exact .bind .checkCancelled fun _ => .bind (.pause _) fun _ => ih

theorem sleep_agree (milliseconds : Nat) : Agree account (sleep milliseconds) (sleep milliseconds) := by
  refine .peek fun seen => ?_
  dsimp only
  split
  · exact .bind (napTimes_agree _) fun _ => .bind .checkCancelled fun _ =>
      .bind (.pause _) fun _ => .checkCancelled
  · exact .checkCancelled

theorem marshal_agree (value : Value) : Agree account (marshal value) (marshal value) := by
  refine .peek fun seen => ?_
  dsimp only
  split
  · exact .done _
  · exact .exhausted

theorem callCompiled_agree (function : CompiledFunction) (arguments : List Value) :
    Agree account (callCompiled function arguments) (callCompiled function arguments) :=
  .bind (.ofResult (ArgBuckets.bare_sort _ _ _)) fun _ => .ofHost _

variable (agree : eval.Agrees account other)
include agree

/-- Of the functions that every interpreter starts with, only one runs text. -/
theorem runBuiltin_agree (site : Site) (args : List Value) (builtin : Builtin) :
    Agree account (runBuiltin eval site args builtin) (runBuiltin other site args builtin) := by
  cases builtin with
  | print | write | cancel => exact .bind (.changed fun _ => ⟨rfl, rfl, rfl⟩) fun _ => .done _
  | type | str => exact .done _
  | num =>
    unfold runBuiltin
    dsimp only
    split
    · exact .done _
    · exact .failed
  | isDefined => exact .peek fun _ => .done _
  | marshal => exact .bind (marshal_agree _) fun _ => .done _
  | unmarshal => exact .ofResult (bare_toValue _)
  | «include» => exact includeFile_agree agree site _
  | join => exact .bind (.ofResult (Value.bare_toIndex _)) fun _ => joinWorker_agree _
  | sleep => exact .bind (sleep_agree _) fun _ => .done _

theorem callNative_agree (site : Site) (native : Native) (args : List Value) :
    Agree account (callNative eval site native args) (callNative other site native args) := by
  have runs : Agree account (runNative eval site args native.body)
      (runNative other site args native.body) := by
    cases native.body with
    | builtin builtin => exact runBuiltin_agree agree site args builtin
    | host run => exact .peek fun _ => .ofHost _
  unfold callNative
  dsimp only
  split
  · split
    · exact .failed
    · exact runs
  · exact runs

end Native

section Member

theorem Engine.quiet_bindAt (engine : Engine) (name file : String) (handler : Handler)
    (target : Target) : Quiet engine (engine.bindAt name file handler target) := by
  cases target <;> exact ⟨rfl, rfl, rfl⟩

theorem Agree.assign (name file : String) (handler : Handler) :
    Agree account (modify (·.assign name handler file) : Eval PUnit)
      (modify (·.assign name handler file)) :=
  changed fun engine => engine.quiet_bindAt _ _ _ _

theorem Engine.quiet_updateVariable (engine : Engine) (name file : String)
    (change : Value → Value × Result Unit) :
    Quiet engine (engine.updateVariable name file change).1 := by
  -- The name is that of a variable, of something else, or free.
  unfold Engine.updateVariable
  dsimp only
  split
  · exact engine.quiet_bindAt _ _ _ _
  · exact .refl engine
  · split
    · exact engine.quiet_bindAt _ _ _ _
    · exact .refl engine

variable (agree : eval.Agrees account other)
include agree

/-- The frame of an accessor that is an expression is no call, so that the expression runs with the
calls of the code that uses it. -/
theorem runAccessor_agree (site : Site) (receiver : Value) (accessor : Accessor)
    (assigned : Option Value) :
    Agree account (runAccessor eval site receiver accessor assigned)
      (runAccessor other site receiver accessor assigned) := by
  cases accessor with
  | function name =>
    refine .peek fun seen => ?_
    split
    · exact callFunction_agree agree _ _ _
    · exact callNative_agree agree _ _ _
    · exact .failed
  | expression text =>
    exact .withFrame (.bind (.changed fun _ => ⟨rfl, rfl, rfl⟩) fun _ =>
      evaluateText_agree agree _ _)

theorem getProperty_agree (site : Site) (value : Value) (name : String) :
    Agree account (getProperty eval site value name) (getProperty other site value name) := by
  unfold getProperty
  split
  · exact runAccessor_agree agree _ _ _ _
  · exact .done _
  · refine .peek fun seen => ?_
    dsimp only
    split
    · exact .ofHost _
    · exact .ofResult (seen.bare_plainProperty _ _)

theorem loadSegments_agree (site : Site) (value : Value) (segments : List Segment) :
    Agree account (loadSegments eval site value segments) (loadSegments other site value segments) := by
  -- The induction is on the steps that are left.
  induction segments generalizing value with
  | nil => exact .done _
  | cons segment rest ih =>
    cases segment with
    | index index => exact .bind (.ofResult (Value.bare_index _ _)) fun _ => ih _
    | property name =>
      exact .bind (getProperty_agree agree _ _ _) fun _ => .bind (.use _ _) fun _ => ih _

theorem load_agree (site : Site) (place : Place) :
    Agree account (load eval site place) (load other site place) := by
  refine .peek fun seen => ?_
  split
  · exact loadSegments_agree agree _ _ _
  · exact .failed

theorem setProperty_agree (site : Site) (value : Value) (name : String) (content : Value) :
    Agree account (setProperty eval site value name content)
      (setProperty other site value name content) := by
  unfold setProperty
  split
  · exact .bind (runAccessor_agree agree _ _ _ _) fun _ => .bind (.use _ _) fun _ => .done _
  · -- Only computed properties run text; all others change the heap or the value.
    refine .look fun engine admits => ?_
    split
    · exact .replace ⟨rfl, rfl, rfl⟩ admits (.done _)
    · split
      · split
        · refine Agree.bind (.ofHost _) (fun state => ?_) engine admits
          exact .bind (.changed fun _ => ⟨rfl, rfl, rfl⟩) fun _ => .done _
        · exact .finished (account.fails rfl)
      · exact .finished (account.refl engine)
    · split
      · exact .finished (account.refl engine)
      · exact .finished (account.refl engine)
    · exact .finished (account.refl engine)

theorem setSegments_agree (site : Site) (value content : Value) (segments : List Segment) :
    Agree account (setSegments eval site value content segments)
      (setSegments other site value content segments) := by
  -- The induction is on the steps that are left.
  induction segments generalizing value with
  | nil => exact .done _
  | cons segment rest ih =>
    cases segment with
    | index index =>
      refine .bind (.ofResult (Value.bare_indexed _ _)) fun collection => ?_
      split
      · exact .bind (ih _) fun _ => .done _
      · exact .bind (.ofResult (Value.bare_writablePosition _ _)) fun _ => .bind (ih _) fun _ =>
          .bind (.ofResult (Value.bare_setAt _ _ _)) fun _ => .done _
    | property name =>
      cases rest with
      | nil => exact setProperty_agree agree _ _ _ _
      | cons segment rest =>
        have writes : ∀ inner : Value, Agree account
            (do let changed ← setSegments eval site inner content (segment :: rest)
                setProperty eval site value name changed)
            (do let changed ← setSegments other site inner content (segment :: rest)
                setProperty other site value name changed) :=
          fun inner => .bind (ih inner) fun _ => setProperty_agree agree _ _ _ _
        unfold setSegments
        refine fun engine admits => .attempt admits (getProperty_agree agree _ _ _ engine admits)
          (fun inner => .bind (.use _ _) writes) fun failure now back => ?_
        dsimp only
        split
        · obtain ⟨_, handled⟩ := account.handles back
          exact AgreeAt.after (writes .null _ (account.admitted handled admits)) handled
        · exact .finished back

theorem storeBelow_agree (site : Site) (place : Place) (value root : Value) :
    Agree account (storeBelow eval site place value root)
      (storeBelow other site place value root) := by
  unfold storeBelow
  split
  · exact .look fun engine admits =>
      .replace (engine.quiet_updateVariable _ _ _) admits
        (.ofResult (engine.bare_updateVariable _ _ fun _ => Value.bare_writeIndexed _ _ _))
  · exact .bind (setSegments_agree agree _ _ _ _) fun _ => .assign _ _ _

theorem store_agree (site : Site) (place : Place) (value : Value) :
    Agree account (store eval site place value) (store other site place value) := by
  unfold store
  dsimp only
  split
  · exact .failed
  · split
    · exact .assign _ _ _
    · refine .peek fun seen => ?_
      split
      · exact storeBelow_agree agree _ _ _ _
      · exact .failed
      · exact storeBelow_agree agree _ _ _ _

theorem applyAction_agree (cursor : Cursor) (place : Place) (action : Action) :
    Agree account (applyAction eval cursor place action) (applyAction other cursor place action) := by
  have writes : ∀ (current operand : Value) (behind : Cursor), Agree account
      (do let value ← Eval.ofHost (action.apply current operand)
          store eval behind.site place value
          return (value, behind))
      (do let value ← Eval.ofHost (action.apply current operand)
          store other behind.site place value
          return (value, behind)) :=
    fun current operand behind =>
      .bind (.ofHost _) fun _ => .bind (store_agree agree _ _ _) fun _ => .done _
  refine .ite (.bind (evaluateAt_agree agree _ _) fun ⟨operand, behind⟩ => ?_) ?_
  · exact .ite (.bind (load_agree agree _ _) fun current => writes current operand behind)
      (writes _ _ _)
  · exact .ite (.bind (load_agree agree _ _) fun current => writes current _ _) (writes _ _ _)

theorem callBuiltin_agree (site : Site) (receiver : Value) (place : Option Place) (name : String)
    (arguments : List Value) :
    Agree account (callBuiltin eval site receiver place name arguments)
      (callBuiltin other site receiver place name arguments) := by
  unfold callBuiltin
  split
  · refine .bind (.ofResult (Value.bare_mutate _ _ _)) fun outcome => ?_
    split
    · dsimp only
      split
      · exact .bind (store_agree agree _ _ _) fun _ => .done _
      · exact .done _
    · exact .failed
  · refine .bind (.ofResult (Value.bare_builtinMethod _ _ _)) fun outcome => ?_
    split
    · exact .done _
    · exact .failed

theorem callMethod_agree (site : Site) (receiver : Value) (place : Option Place) (name : String)
    (args : List Arg) :
    Agree account (callMethod eval site receiver place name args)
      (callMethod other site receiver place name args) := by
  refine .look fun engine admits => ?_
  dsimp only
  -- Methods of a class are scripted, and all others run nothing.
  split
  · split
    · exact callFunction_agree agree _ _ _ engine admits
    · exact callBuiltin_agree agree _ _ _ _ _ engine admits
  · split
    · exact .host fun ⟨state, result⟩ => .replace ⟨rfl, rfl, rfl⟩ admits (.done _)
    · exact callBuiltin_agree agree _ _ _ _ _ engine admits
  · exact callBuiltin_agree agree _ _ _ _ _ engine admits

end Member

end ScriptEngine
