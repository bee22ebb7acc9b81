import ScriptEngine.Interpreter
import ScriptEngine.Proofs.Depth.Limit
import ScriptEngine.Proofs.Returns

/-! The trace of a failure lists the calls that were active where the failure came up, as the log of the
calls has them: each evaluation that fails leaves a log in which the trace can be read off. -/

namespace ScriptEngine

/-- The calls that are active once `function`, the innermost of them, has been left. -/
def leave? (function : String) : List String → Option (List String)
  | innermost :: outer => if innermost = function then some outer else none
  | [] => none

namespace CallEvent

/-- The calls that a log, the latest entry first, has recorded and that are still active, the innermost
first; none if the log leaves a call that is not the innermost of those that it has recorded. -/
def active? : List CallEvent → Option (List String)
  | [] => some []
  | .entered function :: earlier => (active? earlier).map (function :: ·)
  | .left function :: earlier => (active? earlier).bind (leave? function)
  | .unwound function :: earlier => (active? earlier).bind (leave? function)
  | .handled :: earlier => active? earlier
  | .foreign :: earlier => active? earlier

/-- The latest entry of a log is that a failure has left a call. -/
def Unwinding (log : List CallEvent) : Prop := ∃ function, log.head? = some (.unwound function)

end CallEvent

open CallEvent

/-- A failure has come up where the calls of its trace were active, of those that this log, the latest
entry first, has recorded, and then has left each of them: nothing else has happened since. -/
def Failure.Traces (failure : Failure) (log : List CallEvent) : Prop :=
  ∃ raised, log = failure.trace.reverse.map .unwound ++ raised ∧
    active? raised = some failure.trace ∧ ¬ Unwinding raised

/-- What the log of an evaluation has recorded of calls fits the way it has ended: behind a value all of
them are left, and a failure traces them. -/
def CallsFit : Option Stop → List CallEvent → Prop
  | none, log => active? log = some [] ∧ ¬ Unwinding log
  | some (.failed failure), log => failure.Traces log
  | some .exhausted, _ => True

/-- An evaluation is back at its calls, and its log fits the way it has ended unless a failure came in
that has left calls elsewhere. -/
structure Accounted (start : Engine) (stop : Option Stop) (now : Engine) : Prop where
  calls : now.calls = start.calls
  log : ∃ fresh, now.callLog = fresh ++ start.callLog ∧ (.foreign ∈ fresh ∨ CallsFit stop fresh)

/-- While a thread pauses, the others leave its stack, its calls and its logs alone. -/
structure KeepsThread (engine changed : Engine) : Prop where
  stack : changed.stack = engine.stack
  calls : changed.calls = engine.calls
  events : changed.events = engine.events
  callLog : changed.callLog = engine.callLog

variable {start engine now final : Engine} {failure : Failure} {function : String}

/-- Only the innermost call can be left. -/
theorem leave?_eq_some {active outer : List String} :
    leave? function active = some outer ↔ active = function :: outer := by
  unfold leave?
  split
  case h_1 innermost rest =>
    split
    case isTrue same => simp [same]
    case isFalse other => simp [other]
  case h_2 => simp

namespace CallEvent

variable {late early raised : List CallEvent} {inner outer : List String}

/-- What is active behind two logs is what each of them has left active. -/
theorem active?_append (first : active? early = some outer) (next : active? late = some inner) :
    active? (late ++ early) = some (inner ++ outer) := by
  have leaves : ∀ {function rest inner}, (∀ {active}, active? rest = some active →
        active? (rest ++ early) = some (active ++ outer)) →
      (active? rest).bind (leave? function) = some inner →
        (active? (rest ++ early)).bind (leave? function) = some (inner ++ outer) := by
    intro function rest inner ih next
    obtain ⟨active, found, left⟩ := Option.bind_eq_some_iff.mp next
    cases leave?_eq_some.mp left
    rw [ih found]
    exact leave?_eq_some.mpr rfl
  -- The induction is on the later log, from its latest entry on.
  induction late generalizing inner with
  | nil =>
    cases next
    exact first
  | cons event rest ih =>
    cases event with
    | entered function =>
      obtain ⟨active, found, rfl⟩ := Option.map_eq_some_iff.mp next
      show (active? (rest ++ early)).map (function :: ·) = _
      rw [ih found]
      rfl
    | left function => exact leaves ih next
    | unwound function => exact leaves ih next
    | handled => exact ih next
    | foreign => exact ih next

/-- A failure that leaves the innermost calls leaves the others active. -/
theorem active?_unwound (names : List String) (active : active? raised = some (names ++ outer)) :
    active? (names.reverse.map .unwound ++ raised) = some outer := by
  -- The induction is on the calls that are left, the innermost first.
  induction names generalizing raised with
  | nil => exact active
  | cons name rest ih =>
    rw [List.reverse_cons, List.map_append, List.append_assoc]
    refine ih ?_
    show (active? raised).bind (leave? name) = _
    rw [active]
    exact leave?_eq_some.mpr rfl

/-- Where nothing has been recorded since, the latest entry is that of the earlier log. -/
theorem not_unwinding_append (first : ¬ Unwinding early) (next : ¬ Unwinding late) :
    ¬ Unwinding (late ++ early) := by
  cases late with
  | nil => exact first
  | cons event rest => exact next

end CallEvent

namespace Failure.Traces

/-- The calls that a failure has left are active no more. -/
theorem active? {log : List CallEvent} (traces : failure.Traces log) :
    CallEvent.active? log = some [] := by
  obtain ⟨raised, rfl, active, _⟩ := traces
  exact active?_unwound failure.trace (by simpa using active)

/-- A failure that has left no call traces the empty log. -/
theorem bare (bare : failure.trace = []) : failure.Traces [] :=
  ⟨[], by simp [bare], by simp [bare, CallEvent.active?], nofun⟩

/-- The calls that were recorded and left before are no part of a trace. -/
theorem append {late early : List CallEvent} (traces : failure.Traces late)
    (left : CallEvent.active? early = some []) (settled : ¬ Unwinding early) :
    failure.Traces (late ++ early) := by
  obtain ⟨raised, rfl, active, newly⟩ := traces
  refine ⟨raised ++ early, List.append_assoc _ _ _, ?_, not_unwinding_append settled newly⟩
  simpa using active?_append left active

/-- A failure that leaves the call around it traces it too. -/
theorem inFrame {log : List CallEvent} (traces : failure.Traces log) (function : String) :
    (failure.inFrame function).Traces (.unwound function :: (log ++ [.entered function])) := by
  obtain ⟨raised, rfl, active, newly⟩ := traces
  refine ⟨raised ++ [.entered function], ?_, active?_append rfl active,
    not_unwinding_append nofun newly⟩
  simp [Failure.inFrame]

end Failure.Traces

namespace Accounted

variable {stop : Option Stop}

/-- What ran before the evaluation that has ended had left all its calls. -/
theorem trans (first : Accounted start none engine) (next : Accounted engine stop now) :
    Accounted start stop now := by
  obtain ⟨early, startLog, fits⟩ := first.log
  obtain ⟨late, midLog, fitsToo⟩ := next.log
  refine ⟨next.calls.trans first.calls, late ++ early, ?_, ?_⟩
  · rw [midLog, startLog, List.append_assoc]
  -- A foreign failure on either side tells nothing of the calls.
  rcases fits with came | ⟨left, settled⟩
  · exact .inl (List.mem_append_right late came)
  rcases fitsToo with came | fits
  · exact .inl (List.mem_append_left early came)
  refine .inr ?_
  match stop with
  | none => exact ⟨by simpa using active?_append left fits.1, not_unwinding_append settled fits.2⟩
  | some (.failed failure) => exact Failure.Traces.append fits left settled
  | some .exhausted => trivial

/-- What ends a call and is noted turns the log of its body into that of the call. -/
theorem leave {other : Option Stop} {event : CallEvent}
    (within : Accounted (engine.recordCall function) stop now)
    (fits : ∀ log, CallsFit stop log → CallsFit other (event :: (log ++ [.entered function]))) :
    Accounted engine other (now.exitCall.noteCall event) := by
  obtain ⟨log, same, known⟩ := within.log
  refine ⟨?_, event :: (log ++ [.entered function]), ?_, ?_⟩
  · simp [Engine.noteCall, Engine.exitCall, within.calls, Engine.recordCall]
  · simp [Engine.noteCall, Engine.exitCall, same, Engine.recordCall]
  · exact known.imp (fun came => by simp [came]) (fits log)

end Accounted

/-- The account of the traces of failures. -/
def Account.traces : Account where
  admits _ := True
  rely := KeepsThread
  ends := Accounted
  refl _ := ⟨rfl, [], rfl, .inr ⟨rfl, nofun⟩⟩
  trans := Accounted.trans
  settles accounted quiet := by
    obtain ⟨fresh, same, fits⟩ := accounted.log
    exact ⟨quiet.calls.trans accounted.calls, fresh, quiet.callLog.trans same, fits⟩
  admitted _ _ := trivial
  meanwhile keeps := ⟨keeps.calls, [], keeps.callLog, .inr ⟨rfl, nofun⟩⟩
  receives engine stop := by
    unfold Engine.receive
    split
    case h_1 failure =>
      split
      case isTrue bare =>
        exact ⟨rfl, [], rfl, .inr (.bare (List.isEmpty_iff.mp bare))⟩
      case isFalse => exact ⟨rfl, [.foreign], rfl, .inl List.mem_cons_self⟩
    case h_2 => exact ⟨rfl, [], rfl, .inr trivial⟩
  enters _ _ _ := trivial
  returns within := within.leave fun log fits => by
    refine ⟨?_, nofun⟩
    show (active? (log ++ [_])).bind (leave? _) = _
    rw [active?_append rfl fits.1]
    exact leave?_eq_some.mpr rfl
  unwinds within := within.leave fun _ fits => fits.inFrame _
  exhausts := by
    intro engine function now within
    obtain ⟨log, same, known⟩ := within.log
    refine ⟨?_, log ++ [.entered function], ?_, .inr trivial⟩
    · simp [Engine.exitCall, within.calls, Engine.recordCall]
    · simp [Engine.exitCall, same, Engine.recordCall, Engine.noteCall]
  handles accounted := by
    refine ⟨accounted.calls, accounted.calls, ?_⟩
    obtain ⟨fresh, same, fits⟩ := accounted.log
    refine ⟨.handled :: fresh, by simp [Engine.noteCall, same], ?_⟩
    exact fits.imp (List.mem_cons_of_mem _) fun traces => ⟨traces.active?, nofun⟩

variable {α β : Type} {body : Eval α} {eval : Evaluator}

/-- Wherever an evaluation fails, the failure traces the calls in what has come into the log since
`start`, unless it has left calls elsewhere before it came in. -/
def TracesFailures (body : Eval α) (start : Engine) : Prop :=
  ∀ failure final, (body start).MayEnd KeepsThread (.error (.failed failure)) final →
    ∃ log, final.callLog = log ++ start.callLog ∧ (.foreign ∉ log → failure.Traces log)

/-- An evaluation that keeps every account traces its failures. -/
theorem Agree.tracesFailures (agree : Agree .traces body body) (start : Engine) :
    TracesFailures body start := by
  intro failure final ends
  obtain ⟨log, same, fits⟩ := ((agree start trivial).mayEnd ends).2.log
  exact ⟨log, same, fits.resolve_left⟩

/-- What goes on behind an evaluation whose failure is handed out goes on behind an end of it. -/
theorem Step.MayEnd.of_attempt {allows : Engine → Engine → Prop} {next : Except Failure α → Eval β}
    {result : Except Stop β}
    (ends : ((Eval.attempt body >>= next) start).MayEnd allows result final) :
    (∃ value middle, (body start).MayEnd allows (.ok value) middle ∧
        (next (.ok value) middle).MayEnd allows result final) ∨
      (∃ failure middle, (body start).MayEnd allows (.error (.failed failure)) middle ∧
        (next (.error failure) middle).MayEnd allows result final) ∨
      result = .error .exhausted ∧ (body start).MayEnd allows (.error .exhausted) final := by
  obtain ⟨attempted, middle, attempts, ends⟩ := Step.MayEnd.of_andThen ends
  obtain ⟨first, _, ran, ended⟩ := Step.MayEnd.of_andThen attempts
  -- The body settles for a value or a failure, or gives up.
  match first with
  | .ok value =>
    cases ended
    exact .inl ⟨value, middle, ran, ends⟩
  | .error (.failed failure) =>
    cases ended
    exact .inr (.inl ⟨failure, middle, ran, ends⟩)
  | .error .exhausted =>
    cases ended
    cases ends
    exact .inr (.inr ⟨rfl, ran⟩)

/-- A handler runs behind a failure of the body, with the frames and the calls that were there before.
Else the body has ended with a value, or without one in a way that nothing handles. -/
theorem Step.MayEnd.of_runGuarded {site : Site} {text handler : List Char} {names : List String}
    {allows : Engine → Engine → Prop} {result : Except Stop Value}
    (ends : (runGuarded eval site text names handler start).MayEnd allows result final) :
    (∃ failure middle, (runText eval site text start).MayEnd allows (.error (.failed failure)) middle ∧
        failure.cause ≠ .interrupted ∧
        ((do bindFailure site.file failure names; runText eval site handler : Eval Value)
          (middle.unwindTo start.stack.depth start.calls.length)).MayEnd allows result final) ∨
      (runText eval site text start).MayEnd allows result final ∧
        ∀ failure, result = .error (.failed failure) → failure.cause = .interrupted := by
  -- Of the failures, the interruption alone is not handled.
  rcases Step.MayEnd.of_attempt ends with ⟨value, middle, ran, ends⟩ |
    ⟨failure, middle, ran, ends⟩ | ⟨rfl, ran⟩
  · cases ends
    exact .inr ⟨ran, nofun⟩
  · by_cases interrupts : failure.cause = .interrupted
    · simp only [interrupts, if_true] at ends
      cases ends
      refine .inr ⟨ran, ?_⟩
      rintro _ ⟨⟩
      exact interrupts
    · simp only [interrupts, if_false] at ends
      exact .inl ⟨failure, middle, ran, interrupts, ends⟩
  · exact .inr ⟨ran, nofun⟩

/-- The text of a trace has a line for each of its calls. -/
theorem Failure.traceText_lines (named : ∀ name ∈ failure.trace, '\n' ∉ name.toList)
    (left : failure.trace ≠ []) :
    (failure.traceText.split '\n').toList.map (·.copy) =
      failure.trace.map fun name => "at " ++ name ++ "()" := by
  have plain : ∀ line ∈ failure.trace.map fun name => "at " ++ name ++ "()", '\n' ∉ line.toList := by
    simpa using named
  refine (String.toList_split_intercalate plain).trans (if_neg ?_)
  simpa using left

/-- The handler of a failure finds the text of its trace in the value that it gets. -/
theorem Failure.stack_caught (failure : Failure) :
    failure.caught.field? "stack" = some (.string failure.traceText) :=
  OrderedMap.get?_insert_self _ _ _

/-- A request that a host's thread runs ends as its computation may end, seen from where the thread had
its first turn, or has no end. -/
theorem Interpreter.drive_mayEnd (turns : Nat) (interpreter : Interpreter) (main : Thread α) :
    (drive turns interpreter main).1 = .error .exhausted ∨
      ∃ begun last,
        (main.resume (main.enter begun)).MayEnd KeepsThread (drive turns interpreter main).1 last ∧
          (drive turns interpreter main).2.engine = { last with launched := [] } := by
  -- The induction is on the turns that are left.
  induction turns generalizing interpreter main with
  | zero => exact .inl rfl
  | succ turns ih =>
    rw [drive]
    split
    · exact ih _ _
    · split
      · cases ran : main.resume (main.enter interpreter.engine) with
        | finished result engine =>
          simp only [takeTurn, ran]
          exact .inr ⟨interpreter.engine, engine, ran ▸ .finished, rfl⟩
        | paused wait engine resume =>
          simp only [takeTurn, ran]
          -- The thread goes on with its own calls and log, whatever the others have changed.
          rcases ih _ _ with gaveUp | ran'
          · exact .inl gaveUp
          · obtain ⟨begun, last, ends, same⟩ := ran'
            refine .inr ⟨interpreter.engine, last, ?_, same⟩
            rw [ran]
            refine .paused ?_ ends
            exact ⟨rfl, rfl, rfl, rfl⟩
      · exact .inl rfl

/-- Where a script of a host fails, the failure traces the calls. -/
theorem Interpreter.process_tracesFailures (interpreter : Interpreter) (source file : String)
    (isMain : Bool) (failed : (interpreter.process source file isMain).1 = .error (.failed failure)) :
    ∃ log, (interpreter.process source file isMain).2.engine.callLog =
        log ++ interpreter.engine.callLog ∧ (.foreign ∉ log → failure.Traces log) := by
  let main : Thread Value :=
    ⟨interpreter.engine.thread, interpreter.engine.stack, interpreter.engine.calls,
      interpreter.engine.events, interpreter.engine.callLog, interpreter.now, .turn,
      runScript hostEvaluator source file isMain⟩
  -- What the thread runs traces its failures wherever it begins.
  have traces : ∀ begun, TracesFailures (runScript hostEvaluator source file isMain) begun :=
    (runScript_agree (evaluator_agrees .traces nestingLimit) source file isMain).tracesFailures
  rcases drive_mayEnd turnLimit interpreter main with gaveUp | ran
  · cases failed.symm.trans gaveUp
  · obtain ⟨begun, last, ends, same⟩ := ran
    obtain ⟨log, logged, fits⟩ := traces (main.enter begun) failure last (failed ▸ ends)
    refine ⟨log, ?_, fits⟩
    exact (congrArg Engine.callLog same).trans logged

/-- A call whose arguments cannot be bound changes nothing. -/
theorem callFunction_unbound {scripted : ScriptFunction} {args : List Arg} {this : Option Value}
    (unbound : bindArgs scripted.name scripted.params args = .error failure) :
    callFunction eval scripted args this start = .finished (.error (.failed failure)) start := by
  unfold callFunction
  rw [unbound]
  rfl

/-- However deep a phrase is nested, a script runs or a call is made, a failure traces exactly the calls
that were recorded since then and were active where it came up, unless a failure came in that has left
calls elsewhere. A call whose arguments cannot be bound, or that the limit refuses, fails without one.
A handler runs behind a failure of its body that traces the calls left since the `try`, with a line for
each in the text that it is given. -/
theorem failures_trace_active_calls (depth : Nat) (start : Engine) :
    (∀ phrase cursor, TracesFailures (evaluator depth phrase cursor) start) ∧
    (∀ site text, TracesFailures (runText (evaluator depth) site text) start) ∧
    (∀ source file isMain, TracesFailures (runScript (evaluator depth) source file isMain) start) ∧
    (∀ function args this, TracesFailures (callFunction (evaluator depth) function args this) start ∧
      (∀ failure, bindArgs function.name function.params args = .error failure →
        callFunction (evaluator depth) function args this start =
          .finished (.error (.failed failure)) start ∧ failure.trace = []) ∧
      ∀ bound, bindArgs function.name function.params args = .ok bound →
        start.config.maxCallDepth ≤ start.calls.length →
          callFunction (evaluator depth) function args this start =
            .finished (.error (.failed ⟨.stackOverflow start.calls.length start.config.maxCallDepth,
              []⟩)) start) ∧
    (∀ site text names handler result final,
      (runGuarded (evaluator depth) site text names handler start).MayEnd KeepsThread result final →
        (∃ failure middle log,
          (runText (evaluator depth) site text start).MayEnd KeepsThread (.error (.failed failure))
              middle ∧
            middle.callLog = log ++ start.callLog ∧ (.foreign ∉ log → failure.Traces log) ∧
            failure.caught.field? "stack" = some (.string failure.traceText) ∧
            ((∀ name ∈ failure.trace, '\n' ∉ name.toList) → failure.trace ≠ [] →
              (failure.traceText.split '\n').toList.map (·.copy) =
                failure.trace.map fun name => "at " ++ name ++ "()") ∧
            ((do bindFailure site.file failure names; runText (evaluator depth) site handler :
                Eval Value) (middle.unwindTo start.stack.depth start.calls.length)).MayEnd
              KeepsThread result final) ∨
          (runText (evaluator depth) site text start).MayEnd KeepsThread result final ∧
            ∀ failure, result = .error (.failed failure) → failure.cause = .interrupted) ∧
    ∀ (interpreter : Interpreter) source file isMain failure,
      (interpreter.process source file isMain).1 = .error (.failed failure) →
        ∃ log, (interpreter.process source file isMain).2.engine.callLog =
          log ++ interpreter.engine.callLog ∧ (.foreign ∉ log → failure.Traces log) := by
  have agrees := evaluator_agrees .traces depth
  refine ⟨fun phrase cursor => (agrees phrase cursor).tracesFailures start,
    fun site text => (runText_agree agrees site text).tracesFailures start,
    fun source file isMain => (runScript_agree agrees source file isMain).tracesFailures start,
    fun function args this => ⟨(callFunction_agree agrees function args this).tracesFailures start,
      fun failure unbound => ⟨callFunction_unbound unbound, bare_bindArgs _ _ _ failure unbound⟩,
      fun bound binds full => callFunction_overflows binds full⟩,
    fun site text names handler result final ends => ?_,
    fun interpreter source file isMain failure =>
      interpreter.process_tracesFailures source file isMain⟩
  -- Behind a failure that is handled, its trace is that of the body.
  rcases ends.of_runGuarded with ⟨failure, middle, ran, _, handles⟩ | unhandled
  · obtain ⟨log, same, traces⟩ :=
      (runText_agree agrees site text).tracesFailures start failure middle ran
    exact .inl ⟨failure, middle, log, ran, same, traces, failure.stack_caught,
      fun named left => failure.traceText_lines named left, handles⟩
  · exact .inr unhandled

/-- The failure of an evaluation without pauses, with the interpreter it leaves. -/
def Step.failure? : Step α → Option (Failure × Engine)
  | .finished (.error (.failed failure)) engine => some (failure, engine)
  | _ => none

/-- An evaluation without pauses that fails has ended so. -/
theorem Step.eq_of_failure {step : Step α} (failed : step.failure? = some (failure, final)) :
    step = .finished (.error (.failed failure)) final := by
  unfold Step.failure? at failed
  split at failed
  case h_1 =>
    cases failed
    rfl
  case h_2 => cases failed

/-- Other threads that do nothing leave alone what is a thread's own. -/
theorem KeepsThread.refl (engine : Engine) : KeepsThread engine engine := ⟨rfl, rfl, rfl, rfl⟩

/-- A function that fails. -/
def throwing : ScriptFunction := ⟨"f", [], "throw 1;".toList, ⟨"main", 1⟩, none, none⟩

/-- A function that needs an argument. -/
def needy : ScriptFunction := ⟨"g", [⟨"x", none⟩], [], ⟨"main", 1⟩, none, none⟩

/-- An interpreter that knows a function that fails, and admits one call. -/
def knowingThrowing : Engine :=
  { Engine.new {} {} with
    config := { maxCallDepth := 1 }
    symbols := (Engine.new {} {}).symbols.setGlobal "f" (.function throwing) }

/-- A text that calls the function. -/
def throwingCall : List Char := "f();".toList

/-- The text fails with a trace of the call. -/
theorem runText_throwingCall : ∃ final,
    runText (evaluator 9) ⟨"main", 1⟩ throwingCall knowingThrowing =
      .finished (.error (.failed ⟨.thrown "1", ["f"]⟩)) final ∧
    final.callLog = [.unwound "f", .entered "f"] := by
  have ran : (runText (evaluator 9) ⟨"main", 1⟩ throwingCall knowingThrowing).failure?.map
      (fun ended => (ended.1, ended.2.callLog)) =
        some (⟨.thrown "1", ["f"]⟩, [.unwound "f", .entered "f"]) := by decide +kernel
  obtain ⟨⟨failure, final⟩, failed, same⟩ := Option.map_eq_some_iff.mp ran
  simp only [Prod.mk.injEq] at same
  obtain ⟨rfl, logged⟩ := same
  exact ⟨final, Step.eq_of_failure failed, logged⟩

/-- A script that handles the failure of a call within a call, and fails again. -/
def failingAgain : String :=
  "function f() { throw 1; } function g() { try { f(); } catch (e) { f(); } } g();"

/-- The failure of a request. -/
def failureOf? {α : Type} : Except Stop α → Option Failure
  | .error (.failed failure) => some failure
  | _ => none

/-- A request has failed with its failure. -/
theorem eq_of_failureOf {result : Except Stop α} (failed : failureOf? result = some failure) :
    result = .error (.failed failure) := by
  unfold failureOf? at failed
  split at failed
  case h_1 =>
    cases failed
    rfl
  case h_2 => cases failed

/-- A text that fails within a call has its trace, and so has a handler around it; a call without its
argument and one beyond the limit have none; and a script that fails again in the handler of a failure
traces only what the second failure has left. -/
theorem failures_trace_active_calls_again :
    (∃ failure final log,
      (runText (evaluator 9) ⟨"main", 1⟩ throwingCall knowingThrowing).MayEnd KeepsThread
        (.error (.failed failure)) final ∧
      failure.trace = ["f"] ∧ final.callLog = log ∧ .foreign ∉ log ∧ failure.Traces log) ∧
    (∃ failure, bindArgs needy.name needy.params [] = .error failure ∧
      callFunction (evaluator 9) needy [] none knowingThrowing =
        .finished (.error (.failed failure)) knowingThrowing ∧ failure.trace = []) ∧
    callFunction (evaluator 9) idleFunction [] none withinOnlyCall =
      .finished (.error (.failed ⟨.stackOverflow 1 1, []⟩)) withinOnlyCall ∧
    (∃ failure middle result final,
      (runText (evaluator 9) ⟨"main", 1⟩ throwingCall knowingThrowing).MayEnd KeepsThread
        (.error (.failed failure)) middle ∧
      failure.caught.field? "stack" = some (.string failure.traceText) ∧
      (failure.traceText.split '\n').toList.map (·.copy) = ["at f()"] ∧
      ((do bindFailure "main" failure ["e"]; runText (evaluator 9) ⟨"main", 1⟩ [] : Eval Value)
        (middle.unwindTo knowingThrowing.stack.depth knowingThrowing.calls.length)).MayEnd
          KeepsThread result final) ∧
    ∃ failure log,
      ((Interpreter.new {} {}).process failingAgain "main" true).1 = .error (.failed failure) ∧
        failure.trace = ["f", "g"] ∧
        ((Interpreter.new {} {}).process failingAgain "main" true).2.engine.callLog = log ∧
        .foreign ∉ log ∧ failure.Traces log := by
  obtain ⟨ended, ran, logged⟩ := runText_throwingCall
  have ends : (runText (evaluator 9) ⟨"main", 1⟩ throwingCall knowingThrowing).MayEnd KeepsThread
      (.error (.failed ⟨.thrown "1", ["f"]⟩)) ended := ran ▸ .finished
  -- All five follow from the theorem, at different interpreters.
  have traced := failures_trace_active_calls 9 knowingThrowing
  refine ⟨⟨_, ended, _, ends, rfl, rfl, ?_⟩, ?_, ?_, ?_, ?_⟩
  · obtain ⟨log, same, traces⟩ := traced.2.1 _ _ _ _ ends
    have all : ended.callLog = log := same.trans (List.append_nil log)
    have own : .foreign ∉ ended.callLog := by simp [logged]
    exact ⟨own, all ▸ traces (all ▸ own)⟩
  · obtain ⟨failure, unbound⟩ : ∃ failure, bindArgs needy.name needy.params [] = .error failure :=
      ⟨_, rfl⟩
    exact ⟨failure, unbound, (traced.2.2.2.1 needy [] none).2.1 failure unbound⟩
  · exact ((failures_trace_active_calls 9 withinOnlyCall).2.2.2.1 idleFunction [] none).2.2
      ⟨[], []⟩ rfl (by decide)
  · obtain ⟨result, final, handles⟩ := Step.exists_mayEnd KeepsThread.refl
      (runGuarded (evaluator 9) ⟨"main", 1⟩ throwingCall ["e"] [] knowingThrowing)
    rcases traced.2.2.2.2.1 _ _ _ _ _ _ handles with
      ⟨failure, middle, log, failed, _, _, stack, lines, handled⟩ | ⟨failed, interrupts⟩
    · refine ⟨failure, middle, result, final, failed, stack, ?_, handled⟩
      rw [ran] at failed
      cases failed
      exact lines (by decide) (by decide)
    · rw [ran] at failed
      cases failed
      cases interrupts _ rfl
  · have failed : failureOf? ((Interpreter.new {} {}).process failingAgain "main" true).1 =
        some ⟨.thrown "1", ["f", "g"]⟩ := by decide +kernel
    have own : .foreign ∉ ((Interpreter.new {} {}).process failingAgain "main" true).2.engine.callLog := by
      decide +kernel
    obtain ⟨log, same, traces⟩ := traced.2.2.2.2.2 _ _ _ _ _ (eq_of_failureOf failed)
    have all := same.trans (List.append_nil log)
    exact ⟨_, _, eq_of_failureOf failed, rfl, rfl, own, all ▸ traces (all ▸ own)⟩

end ScriptEngine
