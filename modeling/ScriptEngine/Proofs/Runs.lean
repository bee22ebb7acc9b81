import ScriptEngine.Eval.Loop
import ScriptEngine.Proofs.Engine.Reached
import ScriptEngine.Proofs.Step

/-! Evaluations that change an interpreter only as they should, and how they are put together. -/

namespace ScriptEngine

/-- The results of evaluations that can be a control signal on its way. -/
class Carrier (α : Type) where
  /-- The value in the result that can be a control signal. -/
  carried? : α → Option Value

instance : Carrier Value := ⟨some⟩

instance {α : Type} : Carrier (Value × α) := ⟨fun result => some result.1⟩

instance : Carrier Flow where
  carried?
    | .exit signal => some signal
    | _ => none

/-- A value is the signal of a `quit`, by itself or as what a call returns. -/
def Value.QuitsWith (value : Value) (code : Int) : Prop :=
  value = .quitSignal code ∨ value = .returnSignal (.quitSignal code)

/-- The value that a script or a worker hands out, if it is the signal of a `quit`. -/
def Value.quitting? (value : Value) : Option Value :=
  if value.quitCode?.isSome then some value else none

/-- The latest entry of the log is a `quit`, and `value` carries its signal. -/
def Pending (strict : Bool) (start : Engine) (value : Option Value) (now : Engine) : Prop :=
  ∃ signal code before, value = some signal ∧ signal.QuitsWith code ∧
    Reached strict start before ∧ now = before.note (.quit code)

variable {α β : Type}

/-- An evaluation has ended with a result of which `post` holds, or with a `quit` on its way. -/
def Settled (strict : Bool) (start : Engine) (carries : α → Option Value)
    (post : α → Engine → Prop) (result : α) (now : Engine) : Prop :=
  (Reached strict start now ∧ post result now) ∨ Pending strict start (carries result) now

/-- An evaluation has ended without a value. If the latest entry of the log is that an end was asked
for, then the evaluation ends for that. -/
def Stopped (strict : Bool) (start : Engine) (stop : Stop) (now : Engine) : Prop :=
  Reached strict start now ∨
    stop.interrupts = true ∧ ∃ before, Reached strict start before ∧ now = before.note .interrupted

/-- How an evaluation ends. -/
def Ends (strict : Bool) (start : Engine) (carries : α → Option Value)
    (post : α → Engine → Prop) : Except Stop α → Engine → Prop
  | .ok result, now => Settled strict start carries post result now
  | .error stop, now => Stopped strict start stop now

/-- An evaluation goes from an interpreter to pauses and to an end as it should, seen from where it
started. The end is a result of which `post` holds or that carries a `quit`. -/
def Proceeds (strict : Bool) (start : Engine) (carries : α → Option Value)
    (post : α → Engine → Prop) (body : Eval α) (engine : Engine) : Prop :=
  (body engine).Ensures (Turn strict) (Progressed strict start) (Rely strict)
    (Ends strict start carries post) engine

/-- An evaluation proceeds to a result of which `post` holds, with no `quit` on its way. -/
abbrev Runs (strict : Bool) (start : Engine) (post : α → Engine → Prop) (body : Eval α)
    (engine : Engine) : Prop :=
  Proceeds strict start (fun _ => none) post body engine

/-- A result carries a trusted value, unless storage is of no concern. -/
def Yielded [Carrier α] (strict : Bool) (result : α) (now : Engine) : Prop :=
  ∀ value, Carrier.carried? result = some value → Trusted strict value now

/-- An evaluation proceeds to a result that carries a trusted value or a `quit`. -/
abbrev Yields [Carrier α] (strict : Bool) (start : Engine) (body : Eval α) (engine : Engine) : Prop :=
  Proceeds strict start Carrier.carried? (Yielded strict) body engine

/-- An evaluation has yielded a result that carries a trusted value or a `quit`. -/
abbrev HasYielded [Carrier α] (strict : Bool) (start : Engine) (result : α) (now : Engine) : Prop :=
  Settled strict start Carrier.carried? (Yielded strict) result now

/-- An evaluator runs every phrase as it should. -/
def Evaluator.Lawful (strict : Bool) (eval : Evaluator) : Prop :=
  ∀ phrase cursor engine, engine.Tidy strict → Yields strict engine (eval phrase cursor) engine

/-- What is known of a value that was used up: it is sound, noted if it is a signal, and clean where it
can be stored. -/
structure Used (strict : Bool) (use : Use) (value : Value) (now : Engine) : Prop where
  sound : now.Exempt strict ∨ value.Sound
  noted : value.isSignal = true → use ∈ now.signalUses
  clean : use.stores = true → now.Exempt strict ∨ value.Clean

/-- A value is clean, unless storage is of no concern. -/
abbrev Stored (strict : Bool) (value : Value) (now : Engine) : Prop :=
  now.Exempt strict ∨ value.Clean

variable {strict : Bool} {start engine now : Engine} {carries : α → Option Value}
  {carries' : β → Option Value} {mid post : α → Engine → Prop} {goal : β → Engine → Prop}

/-- A result is yielded if the value in it is trusted. -/
theorem Yielded.of_trusted [Carrier α] {result : α} {value : Value}
    (held : Carrier.carried? result = some value) (trusted : Trusted strict value now) :
    Yielded strict result now := by
  intro other same
  rw [held] at same
  cases same
  exact trusted

/-- A result is yielded if the value in it is clean. -/
theorem Yielded.of_clean [Carrier α] {result : α} {value : Value}
    (held : Carrier.carried? result = some value) (clean : now.Exempt strict ∨ value.Clean) :
    Yielded strict result now :=
  .of_trusted held (clean.imp_right .of_clean)

/-- What is handed out as the signal of a `quit` is the value itself. -/
theorem Value.quitting?_eq_some {value signal : Value} (carried : value.quitting? = some signal) :
    some value = some signal := by
  unfold Value.quitting? at carried
  split at carried
  · exact carried
  · cases carried

/-- A `quit` that is on its way from a later point is on its way from an earlier one. -/
theorem Pending.after {value : Option Value} (reached : Reached strict start engine)
    (pending : Pending strict engine value now) : Pending strict start value now := by
  obtain ⟨signal, code, before, carried, quits, ran, same⟩ := pending
  exact ⟨signal, code, before, carried, quits, reached.trans ran, same⟩

namespace Stopped

variable {stop : Stop}

/-- The end of an evaluation seen from an earlier start. -/
theorem after (reached : Reached strict start engine) (stopped : Stopped strict engine stop now) :
    Stopped strict start stop now :=
  stopped.imp reached.trans fun ⟨interrupts, before, ran, same⟩ =>
    ⟨interrupts, before, reached.trans ran, same⟩

/-- Nothing is missing in the log of an evaluation that has not ended because it was to. -/
theorem reached (stopped : Stopped strict start stop now) (other : stop.interrupts = false) :
    Reached strict start now := by
  rcases stopped with reached | ⟨interrupts, _⟩
  · exact reached
  · rw [other] at interrupts
    cases interrupts

/-- Behind an evaluation a change is taken back. -/
theorem closing {after : Engine → Engine} {inside : Engine} (stopped : Stopped strict inside stop now)
    (closes : ∀ now, Reached strict inside now → Reached strict start (after now))
    (notes : ∀ now event, after (now.note event) = (after now).note event) :
    Stopped strict start stop (after now) := by
  rcases stopped with reached | ⟨interrupts, before, reached, rfl⟩
  · exact .inl (closes now reached)
  · exact .inr ⟨interrupts, after before, closes before reached, notes _ _⟩

end Stopped

namespace Value.QuitsWith

variable {value : Value} {code : Int}

/-- What quits is a signal. -/
theorem isSignal (quits : value.QuitsWith code) : value.isSignal = true := by
  rcases quits with rfl | rfl <;> rfl

/-- What quits holds no other signals. -/
theorem sound (quits : value.QuitsWith code) : value.Sound := by
  rcases quits with rfl | rfl
  · exact .quitSignal code
  · exact .returnSignal (.quitSignal code)

end Value.QuitsWith

namespace Settled

/-- The end of an evaluation seen from an earlier start. -/
theorem after {result : α} (reached : Reached strict start engine)
    (settled : Settled strict engine carries post result now) :
    Settled strict start carries post result now :=
  settled.imp (fun ⟨ran, holds⟩ => ⟨reached.trans ran, holds⟩) (·.after reached)

/-- Without a carried value there is no `quit` on its way. -/
theorem plain {result : α} (settled : Settled strict start (fun _ => none) post result now) :
    Reached strict start now ∧ post result now := by
  rcases settled with done | ⟨_, _, _, carried, _⟩
  · exact done
  · cases carried

/-- A value that does not quit has been reached. -/
theorem unless_quits [Carrier α] {result : α} {value : Value}
    (settled : HasYielded strict start result now) (held : Carrier.carried? result = some value)
    (other : ∀ code, ¬ value.QuitsWith code) :
    Reached strict start now ∧ Trusted strict value now := by
  rcases settled with ⟨reached, yielded⟩ | ⟨signal, code, _, carried, quits, _⟩
  · exact ⟨reached, yielded value held⟩
  · rw [held] at carried
    cases carried
    exact absurd quits (other code)

/-- A script, a worker or a call hands out a value that it takes out of the result of its statements. -/
theorem handOut {first second : Value} {known : Value → Engine → Prop}
    (settled : HasYielded strict start first now)
    (quits : ∀ code, first.QuitsWith code → second = .quitSignal code)
    (holds : Trusted strict first now → known second now) :
    Settled strict start Value.quitting? known second now := by
  rcases settled with ⟨reached, yielded⟩ | ⟨signal, code, before, carried, quit, rest⟩
  · exact .inl ⟨reached, holds (yielded first rfl)⟩
  · cases carried
    rw [quits code quit]
    exact .inr ⟨.quitSignal code, code, before, rfl, .inl rfl, rest⟩

/-- A result can be turned into one whose value is a `quit` or trusted where that of the first is. -/
theorem convert [Carrier α] [Carrier β] {first : α} {second : β} {value other : Value}
    (settled : HasYielded strict start first now) (held : Carrier.carried? first = some value)
    (holds : Carrier.carried? second = some other)
    (quits : ∀ code, value.QuitsWith code → other.QuitsWith code)
    (trusted : now.Trusts value → now.Trusts other) : HasYielded strict start second now := by
  rcases settled with ⟨reached, yielded⟩ | ⟨signal, code, before, carried, quit, rest⟩
  · refine .inl ⟨reached, fun found same => ?_⟩
    rw [holds] at same
    cases same
    exact (yielded value held).imp_right trusted
  · rw [held] at carried
    cases carried
    exact .inr ⟨other, code, before, holds, quits code quit, rest⟩

/-- A result can be turned into another one with the same value. -/
theorem keep [Carrier α] [Carrier β] {first : α} {second : β} {value : Value}
    (settled : HasYielded strict start first now) (held : Carrier.carried? first = some value)
    (holds : Carrier.carried? second = some value) : HasYielded strict start second now :=
  settled.convert held holds (fun _ => id) id

end Settled

/-- The end of an evaluation seen from an earlier start. -/
theorem Ends.after {result : Except Stop α} (reached : Reached strict start engine)
    (ends : Ends strict engine carries post result now) :
    Ends strict start carries post result now := by
  cases result with
  | ok result => exact Settled.after reached ends
  | error stop => exact Stopped.after reached ends

/-- An entry in the log of the calls behind the end of an evaluation is no matter. -/
theorem Ends.noteCall {result : Except Stop α} (event : CallEvent)
    (ends : Ends strict start carries post result now)
    (keeps : ∀ result now, post result now → post result (now.noteCall event)) :
    Ends strict start carries post result (now.noteCall event) := by
  have reached : ∀ {now}, Reached strict start now → Reached strict start (now.noteCall event) :=
    fun reached => reached.trans (Moved.noteCall event reached.tidy).toReached
  cases result with
  | error stop => exact Stopped.closing ends (fun _ => reached) fun _ _ => rfl
  | ok value =>
    rcases ends with ⟨ran, holds⟩ | ⟨signal, code, before, carried, quits, ran, rfl⟩
    · exact .inl ⟨reached ran, keeps value now holds⟩
    · exact .inr ⟨signal, code, before.noteCall event, carried, quits, reached ran, rfl⟩

/-- Where an evaluation has ended, all but at most one last entry of its log was made on the way. -/
theorem Ends.reached {result : Except Stop α} (ends : Ends strict start carries post result now) :
    ∃ before, Reached strict start before ∧
      (now = before ∨ ∃ event : Event, event.site? = none ∧ now = before.note event) := by
  -- An interruption and a `quit` are noted at the very end.
  cases result with
  | error stop =>
    rcases ends with reached | ⟨_, before, reached, same⟩
    · exact ⟨now, reached, .inl rfl⟩
    · exact ⟨before, reached, .inr ⟨.interrupted, rfl, same⟩⟩
  | ok value =>
    rcases ends with ⟨reached, _⟩ | ⟨_, code, before, _, _, reached, same⟩
    · exact ⟨now, reached, .inl rfl⟩
    · exact ⟨before, reached, .inr ⟨.quit code, rfl, same⟩⟩

namespace Proceeds

/-- An evaluation seen from an earlier start. -/
theorem after {body : Eval α} (reached : Reached strict start engine)
    (proceeds : Proceeds strict engine carries post body now) :
    Proceeds strict start carries post body now :=
  Step.Ensures.mono proceeds (fun _ => reached.toProgressed.trans) fun _ _ => .after reached

/-- What holds of the result can be weakened. -/
theorem mono {body : Eval α} {weaker : α → Engine → Prop}
    (proceeds : Proceeds strict start carries post body engine)
    (weaken : ∀ result now, Reached strict start now → post result now → weaker result now) :
    Proceeds strict start carries weaker body engine := by
  refine Step.Ensures.mono proceeds (fun _ => id) fun result now ends => ?_
  cases result with
  | ok result => exact Or.imp_left (fun ⟨ran, holds⟩ => ⟨ran, weaken result now ran holds⟩) ends
  | error stop => exact ends

/-- A plain result may be taken for one that could carry a `quit`. -/
theorem lift {body : Eval α} (runs : Runs strict start post body engine) :
    Proceeds strict start carries post body engine := by
  refine Step.Ensures.mono runs (fun _ => id) fun result now ends => ?_
  cases result with
  | ok result => exact .inl (Settled.plain ends)
  | error stop => exact ends

/-- What carries a `quit` as one kind of result carries it as a more general one. -/
theorem carry {body : Eval α} {wider : α → Option Value}
    (proceeds : Proceeds strict start carries post body engine)
    (widens : ∀ result signal, carries result = some signal → wider result = some signal) :
    Proceeds strict start wider post body engine := by
  refine Step.Ensures.mono proceeds (fun _ => id) fun result now ends => ?_
  cases result with
  | ok result =>
    refine Or.imp_right ?_ ends
    rintro ⟨signal, code, before, carried, rest⟩
    exact ⟨signal, code, before, widens _ _ carried, rest⟩
  | error stop => exact ends

/-- An evaluation that has ended. -/
theorem settled {result : α} (settled : Settled strict start carries post result engine) :
    Proceeds strict start carries post (pure result) engine :=
  .finished (.refl _) settled

/-- An evaluation that has ended with a plain result. -/
theorem done {result : α} (reached : Reached strict start engine) (holds : post result engine) :
    Proceeds strict start carries post (pure result) engine :=
  .finished (.refl _) (.inl ⟨reached, holds⟩)

/-- An evaluation that has stopped. -/
theorem stopped {stop : Stop} (stopped : Stopped strict start stop engine) :
    Proceeds strict start carries post (throw stop) engine :=
  .finished (.refl _) stopped

/-- An evaluation that has failed. -/
theorem failed {stop : Stop} (reached : Reached strict start engine) :
    Proceeds strict start carries post (throw stop) engine :=
  stopped (.inl reached)

/-- What goes on behind a result that may be a `quit` on its way. -/
theorem bindYielded {body : Eval α} {next : α → Eval β}
    (first : Proceeds strict start carries mid body engine)
    (goesOn : ∀ result now, Settled strict start carries mid result now →
      Proceeds strict start carries' goal (next result) now) :
    Proceeds strict start carries' goal (body >>= next) engine := by
  refine Step.Ensures.andThen Turn.trans first fun result now ends => ?_
  cases result with
  | ok result => exact goesOn result now ends
  | error stop => exact .finished (.refl _) ends

/-- What goes on behind a plain result, seen from the interpreter that it leaves. -/
theorem bind {body : Eval α} {next : α → Eval β} (first : Runs strict start mid body engine)
    (goesOn : ∀ result now, Reached strict start now → mid result now →
      Proceeds strict now carries' goal (next result) now) :
    Proceeds strict start carries' goal (body >>= next) engine := by
  refine bindYielded first fun result now settled => ?_
  obtain ⟨reached, holds⟩ := settled.plain
  exact (goesOn result now reached holds).after reached

/-- What goes on behind a look at the interpreter. -/
theorem look {next : Engine → Eval β}
    (goesOn : Proceeds strict start carries' goal (next engine) engine) :
    Proceeds strict start carries' goal ((get : Eval Engine) >>= next) engine :=
  goesOn

/-- What goes on behind the replacement of the interpreter. -/
theorem replace {changed : Engine} {next : PUnit → Eval β} (moved : Moved strict engine changed)
    (goesOn : Proceeds strict changed carries' goal (next ⟨⟩) changed) :
    Proceeds strict engine carries' goal ((set changed : Eval PUnit) >>= next) engine :=
  (goesOn.after moved.toReached).since fun _ => moved.turn.trans

/-- What goes on behind a change of the interpreter. -/
theorem change {change : Engine → Engine} {next : PUnit → Eval β}
    (moved : Moved strict engine (change engine))
    (goesOn : Proceeds strict (change engine) carries' goal (next ⟨⟩) (change engine)) :
    Proceeds strict engine carries' goal ((modify change : Eval PUnit) >>= next) engine :=
  replace moved goesOn

/-- The replacement of the interpreter ends an evaluation. -/
theorem replaced {changed : Engine} {holds : PUnit → Engine → Prop}
    (moved : Moved strict engine changed) (known : holds ⟨⟩ changed) :
    Runs strict engine holds (set changed : Eval PUnit) engine :=
  .finished moved.turn (.inl ⟨moved.toReached, known⟩)

/-- A change of the interpreter ends an evaluation. -/
theorem changed {change : Engine → Engine} {holds : PUnit → Engine → Prop}
    (moved : Moved strict engine (change engine)) (known : holds ⟨⟩ (change engine)) :
    Runs strict engine holds (modify change : Eval PUnit) engine :=
  replaced moved known

/-- What is read may be handed on, or else ends the evaluation. -/
theorem read {body : Read α} {next : α → Eval β} (reached : Reached strict start engine)
    (goesOn : ∀ result, body = .ok result →
      Proceeds strict start carries' goal (next result) engine) :
    Proceeds strict start carries' goal (Eval.ofRead body >>= next) engine := by
  cases body with
  | ok result => exact goesOn result rfl
  | error stopped => exact .failed reached

/-- What is computed may be handed on, or else ends the evaluation. -/
theorem compute {body : Result α} {next : α → Eval β} (reached : Reached strict start engine)
    (goesOn : ∀ result, body = .ok result →
      Proceeds strict start carries' goal (next result) engine) :
    Proceeds strict start carries' goal (Eval.ofResult body >>= next) engine := by
  cases body with
  | ok result => exact goesOn result rfl
  | error failure => exact .failed reached

/-- A computation in the end yields its value, or else the evaluation fails. -/
theorem computed {body : Result α} (reached : Reached strict start engine)
    (holds : ∀ result, body = .ok result → post result engine) :
    Proceeds strict start carries post (Eval.ofResult body) engine := by
  cases body with
  | ok result => exact .done reached (holds result rfl)
  | error failure => exact .failed reached

/-- What a part outside the interpreter yields may be handed on, or else ends the evaluation. -/
theorem host {body : Result α} {next : α → Eval β} (reached : Reached strict start engine)
    (goesOn : ∀ result, body = .ok result →
      Proceeds strict start carries' goal (next result) engine) :
    Proceeds strict start carries' goal (Eval.ofHost body >>= next) engine := by
  cases body with
  | ok result => exact goesOn result rfl
  | error failure =>
    have received := Moved.receive (.failed failure) reached.tidy
    exact .finished received.turn (.inl (reached.trans received.toReached))

/-- A part outside the interpreter yields a value in the end, or else the evaluation fails. -/
theorem hosted {body : Result α} (reached : Reached strict start engine)
    (holds : ∀ result, body = .ok result → post result engine) :
    Proceeds strict start carries post (Eval.ofHost body) engine := by
  rw [← bind_pure (Eval.ofHost body)]
  exact .host reached fun result same => .done reached (holds result same)

/-- Using a value up takes a `quit` off its way. -/
theorem used [Carrier α] {result : α} {value : Value} {use : Use}
    (settled : HasYielded strict start result engine)
    (held : Carrier.carried? result = some value) :
    Runs strict start (fun taken now => taken = value ∧ Used strict use value now)
      (Eval.use use value) engine := by
  by_cases signal : value.isSignal
  · -- A signal is noted, so that it may be stored from now on.
    have same : Eval.use use value engine = .finished (.ok value) (engine.noteUse use) := by
      simp only [Eval.use, signal, if_true]
      rfl
    have stored : use.stores = true → (engine.noteUse use).Exempt strict ∨ value.Clean :=
      fun stores => .inl (Moved.exempt_noteUse stores)
    unfold Runs Proceeds
    rw [same]
    have known : value.isSignal = true → use ∈ (engine.noteUse use).signalUses :=
      fun _ => List.mem_cons_self
    rcases settled with ⟨reached, yielded⟩ | ⟨signal, code, before, carried, quits, ran, rfl⟩
    · have noted := Moved.noteUse use reached.tidy
      have sound := (yielded value held).imp noted.exempt Engine.Trusts.sound
      exact .finished noted.turn (.inl ⟨reached.trans noted.toReached, rfl, sound, known, stored⟩)
    · rw [held] at carried
      cases carried
      have noted := Moved.quit_noteUse use code ran.tidy
      exact .finished (Moved.turn_noteUse use)
        (.inl ⟨ran.trans noted.toReached, rfl, .inr quits.sound, known, stored⟩)
  · have same : Eval.use use value engine = .finished (.ok value) engine := by
      simp only [Eval.use, signal]
      rfl
    unfold Runs Proceeds
    rw [same]
    obtain ⟨reached, trusted⟩ := settled.unless_quits held fun _ quits => signal quits.isSignal
    have sound := trusted.imp_right Engine.Trusts.sound
    exact .finished (.refl _) (.inl ⟨reached, rfl, sound, fun signals => absurd signals signal,
      fun _ => sound.imp_right fun sound => sound.clean_of_plain (by simpa using signal)⟩)

/-- What goes on behind the use of a value. -/
theorem use [Carrier α] {result : α} {value : Value} {use : Use} {next : Value → Eval β}
    (settled : HasYielded strict start result engine)
    (held : Carrier.carried? result = some value)
    (goesOn : ∀ now, Reached strict start now → Used strict use value now →
      Proceeds strict now carries' goal (next value) now) :
    Proceeds strict start carries' goal (Eval.use use value >>= next) engine := by
  refine .bind (used settled held) ?_
  rintro _ now reached ⟨rfl, used⟩
  exact goesOn now reached used

/-- What cannot be read behind a value takes the place of the value, which is used up. -/
theorem readBehind [Carrier α] {γ : Type} {result : α} {value : Value} {body : Read γ}
    {next : γ → Eval β} (settled : HasYielded strict start result engine)
    (held : Carrier.carried? result = some value)
    (goesOn : ∀ behind, body = .ok behind →
      Proceeds strict start carries' goal (next behind) engine) :
    Proceeds strict start carries' goal (Eval.ofReadBehind value body >>= next) engine := by
  cases body with
  | ok behind => exact goesOn behind rfl
  | error stopped =>
    have fails : Proceeds strict start carries' goal
        (Eval.use .superseded value >>= fun _ => Eval.throwCause stopped.cause) engine :=
      .use settled held fun now reached _ => .failed (.refl reached.tidy)
    have same : (Eval.ofReadBehind value (.error stopped) >>= next) engine =
        (Eval.use .superseded value >>= fun _ => Eval.throwCause stopped.cause) engine := by
      -- A signal is noted as used, and anything else is dropped without a note.
      by_cases signal : value.isSignal
      · simp only [Eval.ofReadBehind, Eval.use, signal]
        rfl
      · simp only [Eval.ofReadBehind, Eval.use, signal]
        rfl
    unfold Proceeds
    rw [same]
    exact fails

/-- What goes on behind an entry in the log that is neither about a `quit` nor about a statement. -/
theorem note {event : Event} {next : Unit → Eval β} (tidy : engine.Tidy strict)
    (handed : HandedOn [event]) (other : event.site? = none)
    (goesOn : Proceeds strict (engine.note event) carries' goal (next ⟨⟩) (engine.note event)) :
    Proceeds strict engine carries' goal (Eval.note event >>= next) engine :=
  change (.note tidy handed other) goesOn

/-- Behind a computation that has run in changed surroundings the change is taken back. -/
theorem closing {body : Eval α} {inside : Engine} {after : Engine → Engine}
    {final : α → Engine → Prop} (inner : Proceeds strict inside carries post body inside)
    (rests : Progressed strict start inside)
    (closes : ∀ now, Reached strict inside now → Reached strict start (after now))
    (notes : ∀ now event, after (now.note event) = (after now).note event)
    (course : ∀ now, (after now).course = now.course)
    (keeps : ∀ result now, Reached strict inside now → post result now → final result (after now)) :
    Proceeds strict start carries final (Eval.closing body after) inside := by
  refine Step.Ensures.andThen Turn.trans
    (Step.Ensures.mono inner (fun _ => rests.trans) fun _ _ => id) fun result now ends => ?_
  refine .finished (.of_course (course now)) ?_
  -- What was noted inside is noted outside as well, where the change is taken back.
  cases result with
  | ok result =>
    rcases ends with ⟨reached, holds⟩ | ⟨signal, code, before, carried, quits, ran, rfl⟩
    · exact .inl ⟨closes now reached, keeps result now reached holds⟩
    · exact .inr ⟨signal, code, after before, carried, quits, closes before ran, notes _ _⟩
  | error stop => exact Stopped.closing ends closes notes

/-- A computation proceeds in a new frame, which is gone behind it. -/
theorem withFrame {kind : FrameKind} {body : Eval α} (tidy : engine.Tidy strict)
    (keeps : ∀ result now stack, post result now → post result { now with stack })
    (inner : ∀ inside, inside = { engine with stack := (engine.stack.push kind).1 } →
      inside.Tidy strict → Proceeds strict inside carries post body inside) :
    Proceeds strict engine carries post (Eval.withFrame kind body) engine := by
  have entered : Progressed strict engine { engine with stack := (engine.stack.push kind).1 } :=
    .unseen rfl rfl (.inr fun clean => { clean with stack := clean.stack.push kind }) tidy
  have turn : Turn strict engine { engine with stack := (engine.stack.push kind).1 } :=
    .of_course rfl
  -- The frame is the only change, and it is popped by its own number.
  have framed : Proceeds strict engine carries post
      (Eval.closing body fun now =>
        { now with stack := now.stack.pop (engine.stack.push kind).2 })
      { engine with stack := (engine.stack.push kind).1 } := by
    refine .closing (inner _ rfl entered.tidy) entered (fun now reached => ?_) (fun _ _ => rfl)
      (fun _ => rfl) fun result now _ => keeps result now _
    have left : Progressed strict now
        { now with stack := now.stack.pop (engine.stack.push kind).2 } :=
      .unseen rfl rfl (.inr fun clean => { clean with stack := clean.stack.pop _ }) reached.tidy
    refine ⟨(entered.trans reached.toProgressed).trans left, ?_, reached.calls⟩
    have restored := reached.stack.pop_push
    exact ⟨congrArg (List.map Frame.tag) restored, congrArg List.tail restored⟩
  exact framed.since fun _ => turn.trans

/-- A computation proceeds whatever its failure is told. -/
theorem inFrame {function : String} {body : Eval α}
    (inner : Proceeds strict start carries post body engine)
    (keeps : ∀ result now event, post result now → post result (now.noteCall event)) :
    Proceeds strict start carries post (Eval.inFrame function body) engine := by
  refine Step.Ensures.andThen Turn.trans inner fun result now ends => ?_
  match result with
  | .ok _ => exact .finished (.of_course rfl) (ends.noteCall _ fun result now => keeps result now _)
  | .error (.failed _) =>
    exact .finished (.of_course rfl) (ends.noteCall _ fun result now => keeps result now _)
  | .error .exhausted => exact .finished (.refl _) ends

/-- A computation proceeds whether or not its failure is handed out in place of failing. -/
theorem attempt {body : Eval α} {next : Except Failure α → Eval β}
    (inner : Proceeds strict start carries post body engine)
    (succeeds : ∀ result now, Settled strict start carries post result now →
      Proceeds strict start carries' goal (next (.ok result)) now)
    (fails : ∀ failure now, Stopped strict start (.failed failure) now →
      Proceeds strict start carries' goal (next (.error failure)) now) :
    Proceeds strict start carries' goal (Eval.attempt body >>= next) engine := by
  -- A failure becomes a result, so that only giving up ends the evaluation here.
  have ended : (Eval.attempt body engine).Ensures (Turn strict) (Progressed strict start)
      (Rely strict) (fun (result : Except Stop (Except Failure α)) now => match result with
        | .ok (.ok value) => Settled strict start carries post value now
        | .ok (.error failure) => Stopped strict start (.failed failure) now
        | .error stop => Stopped strict start stop now) engine := by
    refine Step.Ensures.andThen Turn.trans inner fun result now ends => ?_
    match result with
    | .ok _ => exact .finished (.refl _) ends
    | .error (.failed _) => exact .finished (.refl _) ends
    | .error .exhausted => exact .finished (.refl _) ends
  refine Step.Ensures.andThen Turn.trans ended fun result now ends => ?_
  match result with
  | .ok (.ok value) => exact succeeds value now ends
  | .ok (.error failure) => exact fails failure now ends
  | .error stop => exact .finished (.refl _) ends

/-- What goes on behind a look for a request to end, if there is none. -/
theorem checkCancelled {next : Unit → Eval β} (tidy : engine.Tidy strict)
    (goesOn : ∀ now, Reached strict engine now → now.cancelled = false →
      Proceeds strict now carries' goal (next ⟨⟩) now) :
    Proceeds strict engine carries' goal (Eval.checkCancelled >>= next) engine := by
  have looked := Moved.look tidy
  unfold Eval.checkCancelled
  rw [bind_assoc]
  refine .change looked ?_
  rw [bind_assoc]
  refine .look ?_
  -- A request ends the evaluation with its note.
  split
  · exact .finished (.of_course rfl) (.inr ⟨rfl, engine.look, .refl looked.tidy, rfl⟩)
  case isFalse free => exact goesOn _ looked.toReached (by simpa using free)

/-- What goes on behind a pause. -/
theorem pause {wait : Wait} {next : Unit → Eval β} (reached : Reached strict start engine)
    (goesOn : ∀ now, Reached strict start now → Rely strict engine now →
      Proceeds strict start carries' goal (next ⟨⟩) now) :
    Proceeds strict start carries' goal (Eval.pause wait >>= next) engine :=
  .paused (.refl _) reached.toProgressed fun changed rely => goesOn changed (reached.rely rely) rely

end Proceeds

end ScriptEngine
