import ScriptEngine.Proofs.Eval.Function

/-! How calls of native functions proceed, and the waiting for other threads. -/

namespace ScriptEngine

variable {strict : Bool} {engine : Engine} {eval : Evaluator}

/-- A change that no log shows and that keeps every interpreter neat is no matter. -/
theorem adjusted {changed : Engine} (tidy : engine.Tidy strict)
    (adjusts : engine.Adjusts True changed) : Moved strict engine changed :=
  .adjust adjusts (.inr trivial) tidy

/-- What comes in leaves the log as it is. -/
theorem receive_note (engine : Engine) (stop : Stop) (event : Event) :
    (engine.note event).receive stop = (engine.receive stop).note event := by
  unfold Engine.receive
  repeat' split
  all_goals rfl

/-- The result of a worker is trusted. -/
theorem takeResult_yields (tidy : engine.Tidy strict) (id : Nat) :
    Yields strict engine (takeResult id) engine := by
  -- The worker is forgotten whatever it has ended with.
  have dropped := adjusted tidy (Engine.dropWorker_adjusts id)
  refine .look (.change dropped ?_)
  split
  case h_1 value found =>
    refine .done (.refl dropped.tidy) (.of_trusted rfl (dropped.keeps.trusted ?_))
    exact tidy.imp_right fun neat => neat.resultOf found
  case h_2 stop _ =>
    dsimp only
    have received := Moved.receive stop dropped.tidy
    split
    case isTrue interrupts =>
      -- The note may be taken for the latest entry, behind what came from the worker.
      have same := receive_note (engine.dropWorker id) stop .interrupted
      have noted : Turn strict (engine.dropWorker id)
          (((engine.dropWorker id).note .interrupted).receive stop) := by
        rw [same]
        exact received.turn.trans (.of_course rfl)
      exact .finished noted (.inr ⟨interrupts, _, received.toReached, same⟩)
    case isFalse => exact .change received (.failed (.refl received.tidy))
  case h_3 => exact .failed (.refl dropped.tidy)

/-- However long a worker takes, its result is taken once it is there. -/
theorem joinWorker_yields (tidy : engine.Tidy strict) (id : Nat) :
    Yields strict engine (joinWorker id) engine := by
  refine .look ?_
  split
  case h_1 => exact .failed (.refl tidy)
  case h_2 worker _ =>
    -- The thread that waits is noted as such, and while it pauses the worker may end.
    have awaited := adjusted tidy (Engine.await_adjusts id)
    refine .change awaited ?_
    dsimp only
    split
    · refine .pause (.refl awaited.tidy) fun now reached _ => ?_
      exact (takeResult_yields reached.tidy id).after reached
    · exact takeResult_yields awaited.tidy id

/-- A thread that naps changes nothing. -/
theorem napTimes_runs (naps : Nat) :
    ∀ {engine : Engine}, engine.Tidy strict →
      Runs strict engine (fun _ _ => True) (napTimes naps) engine := by
  -- The induction is on the naps that are left.
  induction naps with
  | zero => exact fun tidy => .done (.refl tidy) trivial
  | succ naps ih =>
    intro engine tidy
    refine .checkCancelled tidy fun now reached _ => ?_
    refine .pause (.refl reached.tidy) fun now reached _ => ?_
    exact (ih reached.tidy).after reached

/-- A thread that sleeps changes nothing. -/
theorem sleep_runs (tidy : engine.Tidy strict) (milliseconds : Nat) :
    Runs strict engine (fun _ _ => True) (sleep milliseconds) engine := by
  -- Between the naps and the rest of the time, and behind it, an end may have been asked for.
  have checks : ∀ {engine : Engine}, engine.Tidy strict →
      Runs strict engine (fun _ _ => True) Eval.checkCancelled engine := by
    intro engine tidy
    rw [← bind_pure Eval.checkCancelled]
    exact .checkCancelled tidy fun now reached _ => .done (.refl reached.tidy) trivial
  refine .look ?_
  dsimp only
  split
  · refine .bind (napTimes_runs _ tidy) fun _ now reached _ => ?_
    refine .bind (checks reached.tidy) fun _ now reached _ => ?_
    refine .pause (.refl reached.tidy) fun now reached _ => ?_
    exact (checks reached.tidy).after reached
  · exact checks tidy

/-- The functions that every interpreter starts with yield clean values, but for included scripts
and workers. -/
theorem runBuiltin_yields (lawful : eval.Lawful strict) (tidy : engine.Tidy strict) (site : Site)
    (args : List Value) (builtin : Builtin) :
    Yields strict engine (runBuiltin eval site args builtin) engine := by
  have text : ∀ {engine : Engine} (text : String), engine.Tidy strict →
      Yields strict engine (pure (Value.string text)) engine := fun text tidy =>
    .done (.refl tidy) (.of_clean rfl (.inr (Value.clean_string text)))
  have null : ∀ {engine : Engine}, engine.Tidy strict →
      Yields strict engine (pure Value.null) engine := fun tidy =>
    .done (.refl tidy) (.of_clean rfl (.inr Value.clean_null))
  -- Most functions yield text, numbers or null, which are clean in themselves.
  cases builtin with
  | print | write =>
    have printed : ∀ text, Moved strict engine (engine.write text) :=
      fun text => adjusted tidy (Engine.emit_adjusts text false)
    exact .change (printed _) (null (printed _).tidy)
  | type | str => exact text _ tidy
  | num =>
    unfold runBuiltin
    dsimp only
    split
    · exact .done (.refl tidy) (.of_clean rfl (.inr (Value.clean_number _)))
    · exact .failed (.refl tidy)
  | isDefined => exact .look (.done (.refl tidy) (.of_clean rfl (.inr (Value.clean_ofBool _))))
  | marshal =>
    unfold runBuiltin marshal
    rw [bind_assoc]
    refine .look ?_
    dsimp only
    split
    · exact text _ tidy
    · exact .failed (.refl tidy)
  | unmarshal =>
    refine .computed (.refl tidy) fun value read => ?_
    exact .of_clean rfl (.inr (Tagged.clean_toValue read))
  | «include» => exact includeFile_yields lawful tidy site _
  | join => exact .compute (.refl tidy) fun id _ => joinWorker_yields tidy id
  | sleep => exact .bind (sleep_runs tidy _) fun _ now reached _ => null reached.tidy
  | cancel => exact .change (.cancel tidy) (null (Moved.cancel tidy).tidy)

/-- A native function yields a trusted value, if it is one that every interpreter starts with. -/
theorem callNative_yields (lawful : eval.Lawful strict) (tidy : engine.Tidy strict) (site : Site)
    {native : Native} (args : List Value)
    (clean : engine.Exempt strict ∨ ∃ builtin, native.body = .builtin builtin) :
    Yields strict engine (callNative eval site native args) engine := by
  have calls : Yields strict engine (runNative eval site args native.body) engine := by
    -- A host function may yield any value; natives of a clean interpreter are all built in.
    cases body : native.body with
    | builtin builtin => exact runBuiltin_yields lawful tidy site args builtin
    | host run =>
      refine .look (.hosted (.refl tidy) fun value _ => .of_trusted rfl ?_)
      rcases clean with free | ⟨builtin, same⟩
      · exact .inl free
      · rw [same] at body
        cases body
  unfold callNative
  dsimp only
  split
  · split
    · exact .failed (.refl tidy)
    · exact calls
  · exact calls

end ScriptEngine
