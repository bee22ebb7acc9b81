import ScriptEngine.Proofs.Frames

/-! What the parts of an evaluation have done if the whole returns a result, and how its log grows. -/

namespace ScriptEngine

variable {α β : Type} {start final middle : Engine} {result : α}

/-- An evaluation can return a result while other threads leave alone what is the thread's own. -/
def Returns (body : Eval α) (start : Engine) (result : α) (final : Engine) : Prop :=
  (body start).MayEnd KeepsOwn (.ok result) final

/-- The log of an interpreter goes on with what the log of an earlier one has. -/
def Grows (start now : Engine) : Prop := ∃ fresh, now.events = fresh ++ start.events

/-- What an interpreter has got into its log. -/
theorem Grows.trans (first : Grows start middle) (second : Grows middle final) :
    Grows start final := by
  obtain ⟨early, same⟩ := first
  obtain ⟨late, sameToo⟩ := second
  exact ⟨late ++ early, by rw [sameToo, same, List.append_assoc]⟩

theorem Grows.refl (engine : Engine) : Grows engine engine := ⟨[], rfl⟩

/-- The end of an evaluation in two parts comes from an end of its first part. -/
theorem Step.MayEnd.of_andThen {allows : Engine → Engine → Prop} {step : Step α}
    {next : Except Stop α → Engine → Step β} {result : Except Stop β}
    (ends : (step.andThen next).MayEnd allows result final) :
    ∃ first middle, step.MayEnd allows first middle ∧ (next first middle).MayEnd allows result final := by
  -- The induction is on the pauses of the first part.
  induction step with
  | finished first middle => exact ⟨first, middle, .finished, ends⟩
  | paused wait engine resume ih =>
    cases ends with
    | paused allowed ends =>
      obtain ⟨first, middle, early, late⟩ := ih _ ends
      exact ⟨first, middle, .paused allowed early, late⟩

/-- The result of an evaluation without pauses that has not failed, with the interpreter it leaves. -/
def Step.ended? : Step α → Option (α × Engine)
  | .finished (.ok value) engine => some (value, engine)
  | .finished (.error _) _ => none
  | .paused .. => none

/-- An evaluation without pauses can end with its result whatever other threads do. -/
theorem Step.MayEnd.of_ended {allows : Engine → Engine → Prop} {step : Step α}
    (ended : step.ended? = some (result, final)) : step.MayEnd allows (.ok result) final := by
  unfold Step.ended? at ended
  split at ended
  case h_1 =>
    cases ended
    exact .finished
  case h_2 => cases ended
  case h_3 => cases ended

namespace Returns

/-- An evaluation without pauses returns its result. -/
theorem of_ended {body : Eval α} (ended : (body start).ended? = some (result, final)) :
    Returns body start result final :=
  Step.MayEnd.of_ended ended

/-- Both parts of an evaluation have returned. -/
theorem bind {body : Eval α} {next : α → Eval β} {result : β}
    (returns : Returns (body >>= next) start result final) :
    ∃ value middle, Returns body start value middle ∧ Returns (next value) middle result final := by
  obtain ⟨first, middle, early, late⟩ := Step.MayEnd.of_andThen returns
  cases first with
  | ok value => exact ⟨value, middle, early, late⟩
  | error stop => cases late

/-- What has a result at once returns it. -/
theorem done {value : α} (returns : Returns (pure value) start result final) :
    value = result ∧ start = final := by
  cases returns
  exact ⟨rfl, rfl⟩

/-- What fails returns nothing. -/
theorem failed {stop : Stop} (returns : Returns (throw stop : Eval α) start result final) :
    False := by
  cases returns

/-- What was made of a value has been returned. -/
theorem mapped {body : Eval α} {shape : α → β} {result : β}
    (returns : Returns (body >>= fun value => pure (shape value)) start result final) :
    ∃ value, Returns body start value final ∧ shape value = result := by
  obtain ⟨value, middle, evaluated, rest⟩ := bind returns
  obtain ⟨same, rfl⟩ := done rest
  exact ⟨value, evaluated, same⟩

/-- What was read has been returned. -/
theorem ofRead {read : Read α} (returns : Returns (Eval.ofRead read) start result final) :
    read = .ok result ∧ start = final := by
  cases read with
  | ok value =>
    obtain ⟨rfl, same⟩ := done returns
    exact ⟨rfl, same⟩
  | error stopped => exact (failed returns).elim

/-- What was computed has been returned. -/
theorem ofResult {computed : Result α} (returns : Returns (Eval.ofResult computed) start result final) :
    computed = .ok result ∧ start = final := by
  cases computed with
  | ok value =>
    obtain ⟨rfl, same⟩ := done returns
    exact ⟨rfl, same⟩
  | error failure => exact (failed returns).elim

/-- What was read behind a value has been returned. -/
theorem ofReadBehind {value : Value} {read : Read α}
    (returns : Returns (Eval.ofReadBehind value read) start result final) :
    read = .ok result ∧ start = final := by
  cases read with
  | ok value =>
    obtain ⟨rfl, same⟩ := done returns
    exact ⟨rfl, same⟩
  | error stopped =>
    obtain ⟨_, _, _, late⟩ := bind returns
    cases (ofRead late).1

/-- What was read is handed on. -/
theorem read {read : Read α} {next : α → Eval β} {result : β}
    (returns : Returns (Eval.ofRead read >>= next) start result final) :
    ∃ value, read = .ok value ∧ Returns (next value) start result final := by
  obtain ⟨value, middle, early, late⟩ := bind returns
  obtain ⟨same, rfl⟩ := ofRead early
  exact ⟨value, same, late⟩

/-- What was computed is handed on. -/
theorem compute {computed : Result α} {next : α → Eval β} {result : β}
    (returns : Returns (Eval.ofResult computed >>= next) start result final) :
    ∃ value, computed = .ok value ∧ Returns (next value) start result final := by
  obtain ⟨value, middle, early, late⟩ := bind returns
  obtain ⟨same, rfl⟩ := ofResult early
  exact ⟨value, same, late⟩

/-- What a part outside the interpreter has yielded is handed on. -/
theorem host {yielded : Result α} {next : α → Eval β} {result : β}
    (returns : Returns (Eval.ofHost yielded >>= next) start result final) :
    ∃ value, yielded = .ok value ∧ Returns (next value) start result final := by
  cases yielded with
  | ok value => exact ⟨value, rfl, returns⟩
  | error failure =>
    obtain ⟨_, _, stops, _⟩ := returns.bind
    cases stops

/-- A look at the interpreter changes nothing. -/
theorem look {next : Engine → Eval β} {result : β}
    (returns : Returns ((get : Eval Engine) >>= next) start result final) :
    Returns (next start) start result final :=
  returns

/-- A change of the interpreter is where the rest starts. -/
theorem change {change : Engine → Engine} {next : PUnit → Eval β} {result : β}
    (returns : Returns ((modify change : Eval PUnit) >>= next) start result final) :
    Returns (next ⟨⟩) (change start) result final :=
  returns

/-- The interpreter that replaces another is where the rest starts. -/
theorem replace {changed : Engine} {next : PUnit → Eval β} {result : β}
    (returns : Returns ((set changed : Eval PUnit) >>= next) start result final) :
    Returns (next ⟨⟩) changed result final :=
  returns

/-- What a change was made behind has returned the result. -/
theorem closing {body : Eval α} {after : Engine → Engine}
    (returns : Returns (Eval.closing body after) start result final) :
    ∃ middle, Returns body start result middle ∧ final = after middle := by
  obtain ⟨first, middle, early, late⟩ := Step.MayEnd.of_andThen returns
  cases late
  exact ⟨middle, early, rfl⟩

/-- What runs in a frame of its own has returned the result there. -/
theorem withFrame {kind : FrameKind} {body : Eval α}
    (returns : Returns (Eval.withFrame kind body) start result final) :
    ∃ middle, Returns body { start with stack := (start.stack.push kind).1 } result middle := by
  obtain ⟨middle, ran, _⟩ := returns.look.change.closing
  exact ⟨middle, ran⟩

/-- What has returned within a call is told nothing about it. -/
theorem inFrame {function : String} {body : Eval α}
    (returns : Returns (Eval.inFrame function body) start result final) :
    ∃ middle, Returns body start result middle ∧ final = middle.noteCall (.left function) := by
  obtain ⟨first, middle, early, late⟩ := Step.MayEnd.of_andThen returns
  match first with
  | .ok value =>
    cases late
    exact ⟨middle, early, rfl⟩
  | .error (.failed _) => cases late
  | .error .exhausted => cases late

/-- Behind a look for a request to end, the rest starts only if there is none. -/
theorem checked {next : Unit → Eval β} {result : β}
    (returns : Returns (Eval.checkCancelled >>= next) start result final) :
    start.look.cancelled = false ∧ Returns (next ⟨⟩) start.look result final := by
  unfold Eval.checkCancelled at returns
  rw [bind_assoc] at returns
  have returns := returns.change
  rw [bind_assoc] at returns
  have returns := returns.look
  -- With a request, the rest would have to start behind a failure.
  split at returns
  · rw [bind_assoc] at returns
    obtain ⟨_, _, stops, _⟩ := returns.change.bind
    exact stops.failed.elim
  case isFalse free => exact ⟨by simpa using free, returns⟩

/-- A value that is used up is handed on. -/
theorem use {use : Use} {value : Value} {next : Value → Eval β} {result : β}
    (returns : Returns (Eval.use use value >>= next) start result final) :
    ∃ middle, Grows start middle ∧ Returns (next value) middle result final := by
  -- Only the use of a signal is noted.
  by_cases signal : value.isSignal
  · refine ⟨start.noteUse use, ⟨[.used use], rfl⟩, ?_⟩
    unfold Eval.use at returns
    rw [if_pos signal] at returns
    exact returns
  · refine ⟨start, .refl start, ?_⟩
    unfold Eval.use at returns
    rw [if_neg signal] at returns
    exact returns

/-- A value that is used up makes the log grow. -/
theorem used {use : Use} {value taken : Value}
    (returns : Returns (Eval.use use value) start taken final) : Grows start final := by
  rw [← bind_pure (Eval.use use value)] at returns
  obtain ⟨middle, grows, returns⟩ := Returns.use returns
  exact returns.done.2 ▸ grows

/-- The log of an evaluation that proceeds grows. -/
theorem grows {carries : α → Option Value} {post : α → Engine → Prop} {body : Eval α}
    (returns : Returns body start result final)
    (proceeds : Proceeds false start carries post body start) : Grows start final := by
  have ends : Ends false start carries post (.ok result) final :=
    (Step.Ensures.under proceeds (fun _ _ => KeepsOwn.rely) fun _ _ => id).at_end returns
  -- A quit is noted behind all that the evaluation has noted itself.
  rcases ends with ⟨reached, _⟩ | ⟨_, code, before, _, _, reached, rfl⟩
  · obtain ⟨fresh, same, _⟩ := reached.log
    exact ⟨fresh, same⟩
  · obtain ⟨fresh, same, _⟩ := reached.log
    exact ⟨.quit code :: fresh, by rw [Engine.note, same]; rfl⟩

end Returns

end ScriptEngine
