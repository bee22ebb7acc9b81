import ScriptEngine.Eval.Step

/-! What holds at every pause of an evaluation and at its end, whatever other threads do meanwhile. -/

namespace ScriptEngine

namespace Step

variable {α β : Type} {turn : Engine → Engine → Prop} {rest : Engine → Prop}
  {rely : Engine → Engine → Prop}

/-- An evaluation rests only at interpreters with a property and ends only as `post` says, provided
that the other threads change the interpreter of a pause only as `rely` says. `turn` relates the
interpreter that the evaluation starts or goes on with to the one at its next pause or its end. -/
inductive Ensures (turn : Engine → Engine → Prop) (rest : Engine → Prop)
    (rely : Engine → Engine → Prop) (post : Except Stop α → Engine → Prop) :
    Engine → Step α → Prop
  | finished {base engine : Engine} {result : Except Stop α} (since : turn base engine)
      (ends : post result engine) : Ensures turn rest rely post base (.finished result engine)
  | paused {base engine : Engine} {wait : Wait} {resume : Engine → Step α}
      (since : turn base engine) (rests : rest engine)
      (goesOn : ∀ changed, rely engine changed →
        Ensures turn rest rely post changed (resume changed)) :
    Ensures turn rest rely post base (.paused wait engine resume)

/-- An evaluation can end with a result and an interpreter if other threads change the interpreter of
each pause in a way that `allows` admits. -/
inductive MayEnd (allows : Engine → Engine → Prop) :
    Step α → Except Stop α → Engine → Prop
  | finished {result : Except Stop α} {engine : Engine} :
    MayEnd allows (.finished result engine) result engine
  | paused {wait : Wait} {engine changed final : Engine} {resume : Engine → Step α}
      {result : Except Stop α} (allowed : allows engine changed)
      (ends : MayEnd allows (resume changed) result final) :
    MayEnd allows (.paused wait engine resume) result final

/-- What goes on behind an end of an evaluation leads to an end of both parts. -/
theorem MayEnd.andThen {allows : Engine → Engine → Prop} {step : Step α} {first : Except Stop α}
    {middle final : Engine} {next : Except Stop α → Engine → Step β} {result : Except Stop β}
    (ends : step.MayEnd allows first middle) (goesOn : (next first middle).MayEnd allows result final) :
    (step.andThen next).MayEnd allows result final := by
  induction ends with
  | finished => exact goesOn
  | paused allowed _ ih => exact .paused allowed (ih goesOn)

/-- An evaluation that is left alone at its pauses ends. -/
theorem exists_mayEnd {allows : Engine → Engine → Prop} (idle : ∀ engine, allows engine engine)
    (step : Step α) : ∃ result final, step.MayEnd allows result final := by
  induction step with
  | finished result engine => exact ⟨result, engine, .finished⟩
  | paused wait engine resume ih =>
    obtain ⟨result, final, ends⟩ := ih engine
    exact ⟨result, final, .paused (idle engine) ends⟩

namespace Ensures

variable {post : Except Stop α → Engine → Prop} {base : Engine} {step : Step α}

/-- What an evaluation ensures is so at each of its possible ends. -/
theorem at_end {result : Except Stop α} {final : Engine}
    (ensures : step.Ensures turn rest rely post base) (ends : step.MayEnd rely result final) :
    post result final := by
  induction ends generalizing base with
  | finished =>
    cases ensures with
    | finished _ ends => exact ends
  | paused allowed _ ih =>
    cases ensures with
    | paused _ _ goesOn => exact ih (goesOn _ allowed)

/-- What an evaluation ensures can be weakened. -/
theorem mono {weaker : Engine → Prop} {other : Except Stop α → Engine → Prop}
    (ensures : step.Ensures turn rest rely post base) (rests : ∀ engine, rest engine → weaker engine)
    (ends : ∀ result engine, post result engine → other result engine) :
    step.Ensures turn weaker rely other base := by
  induction ensures with
  | finished since holds => exact .finished since (ends _ _ holds)
  | paused since holds _ ih => exact .paused since (rests _ holds) ih

/-- What an evaluation ensures whatever other threads do, it ensures if they do less. -/
theorem under {other weaker : Engine → Engine → Prop} (ensures : step.Ensures turn rest rely post base)
    (relies : ∀ engine changed, other engine changed → rely engine changed)
    (turns : ∀ engine now, turn engine now → weaker engine now) :
    step.Ensures weaker rest other post base := by
  induction ensures with
  | finished since holds => exact .finished (turns _ _ since) holds
  | paused since holds _ ih =>
    exact .paused (turns _ _ since) holds fun changed allowed => ih changed (relies _ _ allowed)

/-- The turn that an evaluation is in may have started earlier. -/
theorem since {earlier : Engine} (ensures : step.Ensures turn rest rely post base)
    (before : ∀ engine, turn base engine → turn earlier engine) :
    step.Ensures turn rest rely post earlier := by
  cases ensures with
  | finished since holds => exact .finished (before _ since) holds
  | paused since holds goesOn => exact .paused (before _ since) holds goesOn

/-- An evaluation and what goes on behind its end ensure what both parts do. -/
theorem andThen {final : Except Stop β → Engine → Prop} {next : Except Stop α → Engine → Step β}
    (trans : ∀ {first second third}, turn first second → turn second third → turn first third)
    (ensures : step.Ensures turn rest rely post base)
    (goesOn : ∀ result engine, post result engine →
      (next result engine).Ensures turn rest rely final engine) :
    (step.andThen next).Ensures turn rest rely final base := by
  -- The induction goes from pause to pause of the first part.
  induction ensures with
  | finished since holds => exact (goesOn _ _ holds).since fun _ => trans since
  | paused since holds _ ih => exact .paused since holds ih

end Ensures

/-- What goes on behind two parts of an evaluation goes on behind the second. -/
theorem andThen_assoc {γ : Type} (step : Step α) (next : Except Stop α → Engine → Step β)
    (last : Except Stop β → Engine → Step γ) :
    (step.andThen next).andThen last =
      step.andThen fun result engine => (next result engine).andThen last := by
  induction step with
  | finished => rfl
  | paused wait engine resume ih =>
    simp only [andThen]
    exact congrArg _ (funext ih)

/-- An evaluation that nothing goes on behind. -/
theorem andThen_finished (step : Step α) : step.andThen .finished = step := by
  induction step with
  | finished => rfl
  | paused wait engine resume ih =>
    simp only [andThen]
    exact congrArg _ (funext ih)

end Step

instance : LawfulMonad Eval := by
  refine LawfulMonad.mk' Eval ?_ ?_ ?_
  · intro α body
    funext engine
    refine Eq.trans (congrArg (fun next => (body engine).andThen next) ?_)
      (body engine).andThen_finished
    funext result engine
    cases result <;> rfl
  · intro α β value next
    rfl
  · intro α β γ body next last
    funext engine
    refine ((body engine).andThen_assoc _ _).trans (congrArg (fun next => (body engine).andThen next) ?_)
    funext result engine
    cases result <;> rfl

namespace Eval

variable {α β : Type} {body : Eval α} {engine middle : Engine}

/-- Behind a value, a computation goes on with it. -/
theorem bind_ok {value : α} (ran : body engine = .finished (.ok value) middle) (next : α → Eval β) :
    (body >>= next) engine = next value middle := by
  show Step.andThen _ (body engine) = _
  rw [ran]
  rfl

/-- Behind an end without a value, a computation does not go on. -/
theorem bind_error {stop : Stop} (ran : body engine = .finished (.error stop) middle)
    (next : α → Eval β) : (body >>= next) engine = .finished (.error stop) middle := by
  show Step.andThen _ (body engine) = _
  rw [ran]
  rfl

/-- What goes on behind a computation depends on no more than how the computation runs. -/
theorem bind_congr_at {body other : Eval α} (same : body engine = other engine)
    (next : α → Eval β) : (body >>= next) engine = (other >>= next) engine := by
  show Step.andThen _ (body engine) = Step.andThen _ (other engine)
  rw [same]

/-- A computation that looks at the interpreter goes on with the one that it runs on. -/
theorem get_bind (next : Engine → Eval β) (engine : Engine) :
    ((get : Eval Engine) >>= next) engine = next engine engine := rfl

/-- What a computation has settled for is handed out, also if it is a failure. -/
theorem attempt_finished {result : Result α}
    (ran : body engine = .finished (result.mapError .failed) middle) :
    attempt body engine = .finished (.ok result) middle := by
  unfold attempt Eval.andThen
  rw [ran]
  cases result <;> rfl

end Eval

end ScriptEngine
