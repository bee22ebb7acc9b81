import ScriptEngine.Proofs.Interpreter

/-! However an evaluation ends, the frames on the stack and the active calls are those from before it,
and what runs in a frame of its own does not change what the other frames bind. -/

namespace ScriptEngine

/-- While a thread pauses, the others leave its stack, its calls and its log alone. -/
structure KeepsOwn (engine changed : Engine) : Prop where
  stack : changed.stack = engine.stack
  calls : changed.calls = engine.calls
  events : changed.events = engine.events

/-- An interpreter has the frames and the active calls of an earlier one, and all frames but the
innermost bind what they bound. -/
structure BackAt (start now : Engine) : Prop where
  stack : start.stack.SameFrames now.stack
  calls : now.calls = start.calls

/-- An interpreter has the frames of an earlier one with all that they bind, and its active calls. -/
structure LeftAlone (start now : Engine) : Prop where
  frames : now.stack.frames = start.stack.frames
  calls : now.calls = start.calls

/-- However a computation ends, it has left the frames and the calls from `start` alone. -/
def LeavesAlone {α : Type} (start : Engine) (body : Eval α) (engine : Engine) : Prop :=
  (body engine).Ensures (fun _ _ => True) (fun _ => True) KeepsOwn
    (fun _ now => LeftAlone start now) engine

variable {α β : Type} {start engine now final : Engine} {eval : Evaluator}

/-- If it is no concern what is stored, every interpreter is tidy. -/
theorem tidy_of_lax (engine : Engine) : engine.Tidy false := .inl (.inl rfl)

/-- Other threads that do nothing leave alone what is a thread's own. -/
theorem KeepsOwn.refl (engine : Engine) : KeepsOwn engine engine := ⟨rfl, rfl, rfl⟩

/-- What keeps what is a thread's own is what the thread relies on. -/
theorem KeepsOwn.rely (keeps : KeepsOwn engine now) : Rely false engine now :=
  ⟨keeps.stack, keeps.calls, keeps.events, .lax _ _, fun _ => tidy_of_lax now⟩

/-- Where an evaluation has ended, the frames and the calls are those from before it. -/
theorem Ends.backAt {carries : α → Option Value} {post : α → Engine → Prop}
    {result : Except Stop α} (ends : Ends false start carries post result now) :
    BackAt start now := by
  obtain ⟨before, reached, rfl | ⟨event, _, rfl⟩⟩ := ends.reached
  · exact ⟨reached.stack, reached.calls⟩
  · -- The last entry of the log is no part of the stack.
    exact ⟨reached.stack, reached.calls⟩

/-- A computation that proceeds ends with the frames and the calls that it starts with. -/
theorem Proceeds.backAt {carries : α → Option Value} {post : α → Engine → Prop} {body : Eval α}
    (proceeds : Proceeds false start carries post body start) :
    (body start).Ensures (fun _ _ => True) (fun _ => True) KeepsOwn
      (fun _ now => BackAt start now) start :=
  (Step.Ensures.mono proceeds (fun _ _ => trivial) fun _ _ => Ends.backAt).under
    (fun _ _ => KeepsOwn.rely) fun _ _ _ => trivial

/-- What has changed nothing has left all alone. -/
theorem LeftAlone.refl (engine : Engine) : LeftAlone engine engine := ⟨rfl, rfl⟩

namespace LeavesAlone

/-- A computation that ends at once changes nothing. -/
theorem ended {body : Eval α} {result : Except Stop α} (alone : LeftAlone start engine)
    (same : body engine = .finished result engine) : LeavesAlone start body engine := by
  unfold LeavesAlone
  rw [same]
  exact .finished trivial alone

/-- What goes on behind a computation leaves alone what the computation has left alone. -/
theorem bind {body : Eval α} {next : α → Eval β} (first : LeavesAlone start body engine)
    (goesOn : ∀ value now, LeftAlone start now → LeavesAlone start (next value) now) :
    LeavesAlone start (body >>= next) engine := by
  refine Step.Ensures.andThen (fun _ _ => trivial) first fun result now alone => ?_
  cases result with
  | ok value => exact goesOn value now alone
  | error stop => exact .finished trivial alone

/-- What goes on behind a look at the interpreter. -/
theorem look {next : Engine → Eval β} (goesOn : LeavesAlone start (next engine) engine) :
    LeavesAlone start ((get : Eval Engine) >>= next) engine :=
  goesOn

/-- What is read may be handed on, or else ends the evaluation. -/
theorem read {body : Read α} {next : α → Eval β} (alone : LeftAlone start engine)
    (goesOn : ∀ result, LeavesAlone start (next result) engine) :
    LeavesAlone start (Eval.ofRead body >>= next) engine := by
  cases body with
  | ok result => exact goesOn result
  | error stopped => exact .ended alone rfl

/-- What is computed may be handed on, or else ends the evaluation. -/
theorem compute {body : Result α} {next : α → Eval β} (alone : LeftAlone start engine)
    (goesOn : ∀ result, LeavesAlone start (next result) engine) :
    LeavesAlone start (Eval.ofResult body >>= next) engine := by
  cases body with
  | ok result => exact goesOn result
  | error failure => exact .ended alone rfl

/-- What goes on behind a change of the interpreter. -/
theorem change {change : Engine → Engine} {next : PUnit → Eval β}
    (goesOn : LeavesAlone start (next ⟨⟩) (change engine)) :
    LeavesAlone start ((modify change : Eval PUnit) >>= next) engine :=
  goesOn.since fun _ _ => trivial

/-- Behind a computation that comes back, a change that takes the rest back leaves all alone. -/
theorem closing {body : Eval α} {inside : Engine} {after : Engine → Engine}
    (back : (body inside).Ensures (fun _ _ => True) (fun _ => True) KeepsOwn
      (fun _ now => BackAt inside now) inside)
    (closes : ∀ now, BackAt inside now → LeftAlone start (after now)) :
    LeavesAlone start (Eval.closing body after) inside :=
  Step.Ensures.andThen (fun _ _ => trivial) back fun _ now back => .finished trivial (closes now back)

/-- What runs in a frame of its own leaves the frames from before it alone. -/
theorem withFrame [Carrier α] {kind : FrameKind} {body : Eval α}
    (yields : ∀ inside : Engine, Yields false inside body inside)
    (alone : LeftAlone start engine) : LeavesAlone start (Eval.withFrame kind body) engine := by
  have framed : LeavesAlone start
      (Eval.closing body fun now =>
        { now with stack := now.stack.pop (engine.stack.push kind).2 })
      { engine with stack := (engine.stack.push kind).1 } := by
    refine closing (yields _).backAt fun now back => ?_
    exact ⟨back.stack.pop_push.trans alone.frames, back.calls.trans alone.calls⟩
  exact framed.since fun _ _ => trivial

/-- A computation leaves all alone whatever its failure is told. -/
theorem inFrame {function : String} {body : Eval α} (inner : LeavesAlone start body engine) :
    LeavesAlone start (Eval.inFrame function body) engine := by
  refine Step.Ensures.andThen (fun _ _ => trivial) inner fun result now alone => ?_
  match result with
  | .ok _ => exact .finished trivial ⟨alone.frames, alone.calls⟩
  | .error (.failed _) => exact .finished trivial ⟨alone.frames, alone.calls⟩
  | .error .exhausted => exact .finished trivial alone

/-- The call that a computation runs in is left behind it. -/
theorem exitCall {function : String} {body : Eval α}
    (inner : LeavesAlone (start.recordCall function) body engine) :
    LeavesAlone start (Eval.closing body Engine.exitCall) engine :=
  Step.Ensures.andThen (fun _ _ => trivial) inner fun _ _ alone =>
    .finished trivial ⟨alone.frames, by simp [Engine.exitCall, alone.calls, Engine.recordCall]⟩

end LeavesAlone

/-- A call is entered unless too many are active. -/
theorem enterCall_leavesAlone {function : String} {next : Unit → Eval β}
    (goesOn : LeavesAlone start (next ⟨⟩) (start.recordCall function)) :
    LeavesAlone start (enterCall function >>= next) start := by
  unfold enterCall
  rw [bind_assoc]
  refine .look ?_
  dsimp only
  split
  · exact .ended (.refl start) rfl
  · exact goesOn.since fun _ _ => trivial

/-- A call of a function leaves the frames of its callers alone. -/
theorem callFunction_leavesAlone (lawful : eval.Lawful false) (function : ScriptFunction)
    (args : List Arg) (this : Option Value) :
    LeavesAlone start (callFunction eval function args this) start := by
  have free : ∀ engine : Engine, engine.Exempt false := fun _ => .inl rfl
  refine .compute (.refl start) fun bound => enterCall_leavesAlone ?_
  -- The frame of the call goes with it, so that the frames below are the ones from before.
  have framed : LeavesAlone (start.recordCall function.name)
      (Eval.withFrame (.call function.name function.scope) (runCallee eval function bound this))
      (start.recordCall function.name) :=
    .withFrame (fun inside => runCallee_yields lawful (tidy_of_lax inside) function
      (.inl (free inside)) fun _ _ => .inl (free inside)) (.refl _)
  refine .bind (.inFrame (.exitCall framed)) fun value now alone => ?_
  exact .ended alone rfl

/-- An accessor that is an expression leaves the frames of the code that uses it alone. -/
theorem runAccessor_leavesAlone (lawful : eval.Lawful false) (site : Site) (receiver : Value)
    (text : String) (assigned : Option Value) :
    LeavesAlone start (runAccessor eval site receiver (.expression text) assigned) start := by
  refine .withFrame (fun inside => ?_) (.refl start)
  have seen : Moved false inside { inside with
      stack := (inside.stack.define "this" (.variable receiver)).define "value"
        (.variable (assigned.getD .undefined)) } :=
    ⟨⟨.unseen rfl rfl (.inl (.inl rfl)) (tidy_of_lax inside),
      (ScopeStack.SameFrames.define _ _ _).trans (.define _ _ _), rfl⟩, nofun⟩
  exact .change seen (evaluateAll_yields lawful (tidy_of_lax _) _)

/-- A namespace block leaves the frames around it alone. -/
theorem runNamespace_leavesAlone (lawful : eval.Lawful false) (cursor : Cursor) :
    LeavesAlone start (runNamespace eval cursor) start := by
  unfold runNamespace
  dsimp only
  split
  · exact .ended (.refl start) rfl
  · refine .read (.refl start) fun ⟨body, behind⟩ => .change ?_
    refine .bind (.withFrame (fun inside => runAll_yields lawful (tidy_of_lax inside) _) ⟨rfl, rfl⟩)
      fun value now alone => ?_
    exact .ended alone rfl

/-- However a phrase ends, the frames and the active calls are those from before it, and so it is
with a script that a host runs. A call, an expression that is an accessor and a namespace block do
not even change what the innermost of these frames binds. -/
theorem evaluation_restores_frames :
    (∀ depth phrase cursor start result final,
      (evaluator depth phrase cursor start).MayEnd KeepsOwn result final → BackAt start final) ∧
    (∀ depth function args this start result final,
      (callFunction (evaluator depth) function args this start).MayEnd KeepsOwn result final →
        LeftAlone start final) ∧
    (∀ depth site receiver text assigned start result final,
      (runAccessor (evaluator depth) site receiver (.expression text) assigned start).MayEnd
        KeepsOwn result final → LeftAlone start final) ∧
    (∀ depth cursor start result final,
      (runNamespace (evaluator depth) cursor start).MayEnd KeepsOwn result final →
        LeftAlone start final) ∧
    ∀ (interpreter : Interpreter) source file isMain,
      (interpreter.process source file isMain).1 ≠ .error .exhausted →
        BackAt interpreter.engine (interpreter.process source file isMain).2.engine := by
  -- Nothing is asked of the signals here, only of the frames and the calls.
  have lawful : ∀ depth, (evaluator depth).Lawful false := evaluator_lawful
  refine ⟨fun depth phrase cursor start _ _ ends => ?_, fun depth _ _ _ _ _ _ ends => ?_,
    fun depth _ _ _ _ _ _ _ ends => ?_, fun depth _ _ _ _ ends => ?_,
    fun interpreter source file isMain bounded => ?_⟩
  · exact (lawful depth phrase cursor start (tidy_of_lax start)).backAt.at_end ends
  · exact (callFunction_leavesAlone (lawful depth) _ _ _).at_end ends
  · exact (runAccessor_leavesAlone (lawful depth) _ _ _ _).at_end ends
  · exact (runNamespace_leavesAlone (lawful depth) _).at_end ends
  · rcases process_ends interpreter source file isMain with ⟨ended, ends, same⟩ | ⟨gaveUp, _⟩
    · rw [same]
      exact ⟨ends.backAt.stack, ends.backAt.calls⟩
    · exact absurd gaveUp bounded

/-- An interpreter within a call whose frame binds a name. -/
def withinCall : Interpreter where
  engine :=
    { stack := { frames := [⟨7, .call "outer" none, .ofList [("x", .variable (.ofInt 1))]⟩] }
      calls := ["outer"] }

/-- A script that handles the failure of a call within a namespace, and quits there. -/
def quittingWithin : String :=
  "function f() { throw 1; } namespace n { try { f(); } catch (e) { quit(2); } }"

/-- The script quits within the call, whose frame is there behind it; and a call that assigns to the
name that the frame binds, and fails, leaves that alone. -/
theorem evaluation_restores_frames_withinCall :
    ((withinCall.process quittingWithin "main" true).1 ≠ .error .exhausted ∧
      BackAt withinCall.engine (withinCall.process quittingWithin "main" true).2.engine) ∧
    ∃ result final,
      (callFunction (evaluator 9) ⟨"f", [], "x = 2; throw 1;".toList, ⟨"main", 1⟩, none, none⟩ []
        none withinCall.engine).MayEnd KeepsOwn result final ∧
      LeftAlone withinCall.engine final := by
  -- The script has ended, so that the request was not given up.
  have quits : (withinCall.process quittingWithin "main" true).1.toBool = true := by decide +kernel
  have bounded : (withinCall.process quittingWithin "main" true).1 ≠ .error .exhausted := by
    intro same
    rw [same] at quits
    cases quits
  obtain ⟨result, final, ends⟩ := Step.exists_mayEnd KeepsOwn.refl
    (callFunction (evaluator 9) ⟨"f", [], "x = 2; throw 1;".toList, ⟨"main", 1⟩, none, none⟩ []
      none withinCall.engine)
  exact ⟨⟨bounded, evaluation_restores_frames.2.2.2.2 _ _ _ _ bounded⟩, result, final, ends,
    evaluation_restores_frames.2.1 _ _ _ _ _ _ _ ends⟩

end ScriptEngine
