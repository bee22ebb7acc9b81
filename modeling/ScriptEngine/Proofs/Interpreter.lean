import ScriptEngine.Interpreter
import ScriptEngine.Proofs.Eval.Expression

/-! How the threads of an interpreter take their turns: the host's own is not disturbed by the others,
and a neat interpreter stays neat whichever thread goes on. -/

namespace ScriptEngine

/-- The worker whose turn it is is one of the threads. -/
theorem Interpreter.nextThread_mem {α : Type} {interpreter : Interpreter} {main : Thread α}
    {worker : Thread Value} (next : interpreter.nextThread? main = some worker) : worker ∈ interpreter.threads := by
  unfold Interpreter.nextThread? at next
  dsimp only at next
  split at next
  case h_1 => cases next
  case h_2 first others found =>
    cases next
    -- The worker that comes first is one of those that may go on.
    have among : others.foldl earlier first ∈ first :: others := by
      refine List.foldlRecOn (motive := fun best : Thread Value => best ∈ first :: others) _ _
        List.mem_cons_self fun best known other there => ?_
      unfold earlier
      split
      · exact known
      · exact List.mem_cons_of_mem _ there
    rw [← found] at among
    exact (List.mem_filter.mp among).1

variable {α : Type} {strict : Bool} {start engine now : Engine} {carries : α → Option Value}
  {post : α → Engine → Prop}

/-- What an evaluation that has ended leaves is tidy. -/
theorem Ends.tidy {result : Except Stop α} (ends : Ends strict start carries post result now) :
    now.Tidy strict := by
  obtain ⟨before, reached, rfl | ⟨event, _, rfl⟩⟩ := ends.reached
  · exact reached.tidy
  · exact reached.tidy.imp_right fun neat => { neat with }

/-- What a worker has ended with is trusted. -/
theorem Ends.trusted {result : Except Stop Value} {value : Value}
    (ends : Ends strict start Value.quitting? (Yielded strict) result now)
    (same : result = .ok value) : Trusted strict value now := by
  subst same
  rcases ends with ⟨_, yielded⟩ | ⟨signal, code, _, carried, quits, _⟩
  · exact yielded value rfl
  · cases Value.quitting?_eq_some carried
    rcases quits with rfl | rfl
    · exact .inr (.quitSignal code)
    · exact .inr (.returnSignal_quit rfl (.quitSignal code))

/-- A worker hands out a trusted value or the signal of a `quit`. -/
theorem launch_proceeds {eval : Evaluator} (lawful : eval.Lawful strict) (launch : Launch)
    (tidy : engine.Tidy strict) :
    Proceeds strict engine Value.quitting? (Yielded strict) (launch.run eval) engine := by
  refine .bindYielded (evaluateAll_yields lawful tidy launch.cursor) fun value now settled => ?_
  refine .settled (settled.handOut (fun code quits => ?_) fun trusted =>
    .of_trusted rfl (trusted.imp_right .returned))
  rcases quits with rfl | rfl <;> rfl

namespace Thread

/-- What is its own of a thread that is not running is what it had at the pause, so that it may be
resumed once the others have only done what is theirs to do. -/
structure Steady (strict : Bool) (start : Engine) (carries : α → Option Value)
    (post : α → Engine → Prop) (now : Engine) (thread : Thread α) : Prop where
  stack : now.Exempt strict ∨ thread.stack.Clean
  goesOn : ∃ paused : Engine, Progressed strict start paused ∧ paused.stack = thread.stack ∧
    paused.calls = thread.calls ∧ paused.events = thread.events ∧ Keeps strict paused now ∧
    ∀ changed, Rely strict paused changed →
      (thread.resume changed).Ensures (Turn strict) (Progressed strict start) (Rely strict)
        (Ends strict start carries post) changed

/-- A thread stays steady as long as the turns of others keep what they should. -/
theorem Steady.onward {thread : Thread α} (steady : thread.Steady strict start carries post engine)
    (keeps : Keeps strict engine now) : thread.Steady strict start carries post now := by
  obtain ⟨paused, progressed, stack, calls, events, kept, resumes⟩ := steady.goesOn
  exact ⟨steady.stack.imp_left keeps.exempt,
    ⟨paused, progressed, stack, calls, events, kept.trans keeps, resumes⟩⟩

/-- A tidy interpreter is tidy for a steady thread. -/
theorem Steady.tidy {thread : Thread α} (steady : thread.Steady strict start carries post now)
    (tidy : now.Tidy strict) : (thread.enter now).Tidy strict :=
  unless_both tidy steady.stack fun clean stack => { clean with stack }

/-- A steady thread goes on in its turn. -/
theorem Steady.resumes {thread : Thread α} (steady : thread.Steady strict start carries post now)
    (tidy : now.Tidy strict) :
    (thread.resume (thread.enter now)).Ensures (Turn strict) (Progressed strict start)
      (Rely strict) (Ends strict start carries post) (thread.enter now) := by
  obtain ⟨paused, _, stack, calls, events, keeps, resumes⟩ := steady.goesOn
  have entered : Keeps strict now (thread.enter now) := .of_course rfl
  exact resumes _ ⟨stack.symm, calls.symm, events.symm, keeps.trans entered, fun _ => steady.tidy tidy⟩

/-- A thread that starts with a computation is steady if the computation proceeds from wherever the
thread starts. -/
theorem Steady.fresh {thread : Thread α} (tidy : (thread.enter now).Tidy strict)
    (proceeds : ∀ {engine : Engine}, engine.Tidy strict →
      Proceeds strict engine carries post thread.resume engine) :
    thread.Steady strict (thread.enter now) carries post now := by
  refine ⟨tidy.imp_right (·.stack), thread.enter now, (Reached.refl tidy).toProgressed, rfl, rfl,
    rfl, .of_course rfl, fun changed rely => ?_⟩
  exact (proceeds (rely.tidy tidy)).after ((Reached.refl tidy).rely rely)

end Thread

/-- A turn of a steady thread is one, and ends as the thread should or leaves it steady. -/
theorem Thread.Steady.takeTurn {interpreter : Interpreter} {thread : Thread α}
    (mine : thread.Steady strict start carries post interpreter.engine)
    (tidy : interpreter.engine.Tidy strict) :
    Turn strict interpreter.engine (interpreter.takeTurn thread).2.engine ∧
    (∀ result, (interpreter.takeTurn thread).1 = .inl result → ∃ final,
      Ends strict start carries post result final ∧
      (interpreter.takeTurn thread).2.engine = { final with launched := [] }) ∧
    ∀ paused, (interpreter.takeTurn thread).1 = .inr paused →
      paused.Steady strict start carries post (interpreter.takeTurn thread).2.engine := by
  have resumes := mine.resumes tidy
  have entered : Turn strict interpreter.engine (thread.enter interpreter.engine) := .of_course rfl
  -- The workers that were launched are no matter.
  have emptied : ∀ engine : Engine, Turn strict engine { engine with launched := [] } :=
    fun _ => .of_course rfl
  unfold Interpreter.takeTurn
  dsimp only
  generalize thread.resume (thread.enter interpreter.engine) = step at resumes
  cases resumes with
  | @finished _ engine result since ends =>
    refine ⟨(entered.trans since).trans (emptied _), ?_, by simp⟩
    rintro _ ⟨⟩
    exact ⟨engine, ends, rfl⟩
  | @paused _ engine wait resume since rests goesOn =>
    refine ⟨(entered.trans since).trans (emptied _), by simp, ?_⟩
    rintro _ ⟨⟩
    exact ⟨rests.tidy.imp_right (·.stack), engine, rests, rfl, rfl, rfl, (emptied _).toKeeps, goesOn⟩

/-- All that an interpreter holds is tidy, and so are its threads, and nothing has started while an end
was asked for, if the evaluation is `strict`. -/
structure Interpreter.Steady (strict : Bool) (interpreter : Interpreter) : Prop where
  tidy : interpreter.engine.Tidy strict
  orderly : strict = true → interpreter.engine.Orderly
  threads : strict = true → ∀ thread ∈ interpreter.threads, ∃ start,
    thread.Steady strict start Value.quitting? (Yielded strict) interpreter.engine

/-- How a request ends: as the host's own thread does, or by giving up at one of its pauses. -/
def RequestEnds (strict : Bool) (start : Engine) (carries : α → Option Value)
    (post : α → Engine → Prop) (result : Except Stop α) (final : Engine) : Prop :=
  (∃ ended : Engine, Ends strict start carries post result ended ∧
    final = { ended with launched := [] }) ∨
  (result = .error .exhausted ∧ Progressed strict start final)

/-- What a request leaves that threads were driven for: an end of it in a steady interpreter, and no
request to end lifted since the thread of the host started. -/
structure Driven (strict : Bool) (start : Engine) (carries : α → Option Value)
    (post : α → Engine → Prop) (outcome : Except Stop α × Interpreter) : Prop where
  ends : RequestEnds strict start carries post outcome.1 outcome.2.engine
  steady : outcome.2.Steady strict
  turn : Turn strict start outcome.2.engine

namespace Interpreter.Steady

variable {interpreter : Interpreter}

/-- If it is no concern what is stored and when threads start something, every interpreter is steady. -/
theorem lax (interpreter : Interpreter) : interpreter.Steady false := ⟨.inl (.inl rfl), nofun, nofun⟩

/-- The threads of launched workers are steady. -/
theorem startLaunched {threads : List (Thread Value)} {time : Nat} (tidy : engine.Tidy strict)
    (orderly : strict = true → engine.Orderly)
    (steady : strict = true → ∀ thread ∈ threads, ∃ start,
      thread.Steady strict start Value.quitting? (Yielded strict) engine) :
    ({ engine, threads, now := time } : Interpreter).startLaunched.Steady strict := by
  have emptied : ({ engine with launched := [] } : Engine).Tidy strict :=
    tidy.imp_right fun clean => { clean with launched := by simp }
  have keeps : Keeps strict engine { engine with launched := [] } := .of_course rfl
  refine ⟨emptied, orderly, fun holds thread member => ?_⟩
  -- A thread was there before, or it is that of a launched worker.
  rcases List.mem_append.mp member with old | new
  · obtain ⟨start, steady⟩ := steady holds thread old
    exact ⟨start, steady.onward keeps⟩
  · obtain ⟨launch, there, rfl⟩ := List.mem_map.mp new
    have stack : engine.Exempt strict ∨ launch.stack.Clean :=
      tidy.imp_right fun clean => clean.launched launch there
    refine ⟨_, .fresh ?_ (launch_proceeds (evaluator_lawful nestingLimit) launch)⟩
    exact unless_both emptied stack fun clean stack => { clean with stack }

/-- A turn of a steady thread leaves an interpreter steady. -/
theorem takeTurn {thread : Thread α} (steady : interpreter.Steady strict)
    (mine : thread.Steady strict start carries post interpreter.engine) :
    (interpreter.takeTurn thread).2.Steady strict := by
  have resumes := mine.resumes steady.tidy
  have entered : Keeps strict interpreter.engine (thread.enter interpreter.engine) := .of_course rfl
  unfold Interpreter.takeTurn
  dsimp only
  generalize thread.resume (thread.enter interpreter.engine) = step at resumes
  -- What the turn leaves is steady, as far as it has come.
  have leaves : ∀ {now : Engine} {time : Nat}, Keeps strict (thread.enter interpreter.engine) now →
      now.Tidy strict → ({ engine := now, threads := interpreter.threads, now := time } :
        Interpreter).startLaunched.Steady strict := by
    intro now time since tidy
    have keeps := entered.trans since
    exact startLaunched tidy (fun holds => keeps.orderly holds (steady.orderly holds))
      fun holds other member =>
        (steady.threads holds other member).imp fun _ steady => steady.onward keeps
  cases resumes with
  | finished since ends => exact leaves since.toKeeps ends.tidy
  | paused since rests goesOn => exact leaves since.toKeeps rests.tidy

/-- The turn of a worker leaves an interpreter steady. -/
theorem advance {worker : Thread Value} (steady : interpreter.Steady strict)
    (member : worker ∈ interpreter.threads) :
    (interpreter.advance worker).Steady strict ∧
      Turn strict interpreter.engine (interpreter.advance worker).engine := by
  cases strict with
  | false => exact ⟨.lax _, .lax _ _⟩
  | true =>
    obtain ⟨start, mine⟩ := steady.threads rfl worker member
    have behind := steady.takeTurn mine
    obtain ⟨turned, ended, rests⟩ := mine.takeTurn steady.tidy
    unfold Interpreter.advance
    generalize interpreter.takeTurn worker = turn at behind turned ended rests
    -- A worker that has ended leaves its result; a paused one takes its own place again.
    obtain ⟨result | paused, after⟩ := turn
    · obtain ⟨final, ends, same⟩ := ended result rfl
      have trusted : after.engine.Exempt true ∨
          ∀ value, result = .ok value → after.engine.Trusts value := by
        dsimp only at same
        rw [same]
        cases result with
        | ok value =>
          exact (ends.trusted rfl).imp_right fun trusts _ same => by cases same; exact trusts
        | error stop => exact .inr (by simp)
      have finished := Moved.adjust (Engine.finishWorker_adjusts worker.id result) trusted behind.tidy
      refine ⟨⟨finished.tidy, fun holds => finished.keeps.orderly holds (behind.orderly holds),
        fun holds thread there => ?_⟩, turned.trans finished.turn⟩
      obtain ⟨start, steady⟩ := behind.threads holds thread (List.mem_filter.mp there).1
      exact ⟨start, steady.onward finished.keeps⟩
    · refine ⟨⟨behind.tidy, behind.orderly, fun holds thread there => ?_⟩, turned⟩
      obtain ⟨before, old, rfl⟩ := List.mem_map.mp there
      dsimp only
      split
      · exact ⟨start, rests paused rfl⟩
      · exact behind.threads holds before old

/-- Giving up ends a request at a pause. -/
theorem giveUp {main : Thread α} (steady : interpreter.Steady strict)
    (turn : Turn strict start interpreter.engine)
    (mine : main.Steady strict start carries post interpreter.engine) :
    Driven strict start carries post (interpreter.giveUp main) := by
  obtain ⟨paused, progressed, _, _, events, since, _⟩ := mine.goesOn
  have entered : Turn strict interpreter.engine (main.enter interpreter.engine) := .of_course rfl
  have tidy := mine.tidy steady.tidy
  -- Nothing has run since the pause but the other threads.
  have meanwhile : Progressed strict paused (main.enter interpreter.engine) :=
    ⟨⟨[], events.symm, .nil⟩, since.trans entered.toKeeps,
      fun holds => .meanwhile events.symm (since.history holds), tidy⟩
  exact ⟨.inr ⟨rfl, progressed.trans meanwhile⟩,
    ⟨tidy, fun holds => entered.orderly holds (steady.orderly holds), fun holds thread member =>
      (steady.threads holds thread member).imp fun _ steady => steady.onward entered.toKeeps⟩,
    turn.trans entered⟩

/-- A request ends as the host's own thread does, in which no other has a part. -/
theorem drive (turns : Nat) :
    ∀ {interpreter : Interpreter} {main : Thread α}, interpreter.Steady strict →
      Turn strict start interpreter.engine →
      main.Steady strict start carries post interpreter.engine →
      Driven strict start carries post (Interpreter.drive turns interpreter main) := by
  -- The induction is on the turns that are left.
  induction turns with
  | zero => exact fun steady turn mine => steady.giveUp turn mine
  | succ turns ih =>
    intro interpreter main steady turn mine
    unfold Interpreter.drive
    split
    case h_1 worker next =>
      obtain ⟨behind, turned⟩ := steady.advance (Interpreter.nextThread_mem next)
      exact ih behind (turn.trans turned) (mine.onward turned.toKeeps)
    case h_2 =>
      split
      · have behind := steady.takeTurn mine
        obtain ⟨turned, ended, rests⟩ := mine.takeTurn steady.tidy
        split
        case h_1 same =>
          rw [same] at behind turned ended
          exact ⟨.inl (ended _ rfl), behind, turn.trans turned⟩
        case h_2 same =>
          rw [same] at behind turned rests
          exact ih behind (turn.trans turned) (rests _ rfl)
      · exact steady.giveUp turn mine

end Interpreter.Steady

/-- The thread of the host with a script to run. -/
def Interpreter.scriptThread (interpreter : Interpreter) (source file : String) : Thread Value :=
  ⟨interpreter.engine.thread, interpreter.engine.stack, interpreter.engine.calls,
    interpreter.engine.events, interpreter.engine.callLog, interpreter.now, .turn,
    runScript hostEvaluator source file false⟩

/-- The stack of a tidy interpreter is clean if it has to be. -/
theorem Engine.Tidy.stack (tidy : engine.Tidy strict) : engine.Exempt strict ∨ engine.stack.Clean :=
  tidy.imp_right (·.stack)

/-- The thread of the host is steady behind a pause at which its script starts. -/
theorem Interpreter.Steady.scriptThread {behind : Interpreter} (steady : behind.Steady strict)
    (interpreter : Interpreter) (stack : behind.engine.Exempt strict ∨ interpreter.engine.stack.Clean)
    (source file : String) :
    (interpreter.scriptThread source file).Steady strict
      ((interpreter.scriptThread source file).enter behind.engine) Value.quitting? (Yielded strict)
      behind.engine :=
  .fresh (unless_both steady.tidy stack fun clean stack => { clean with stack }) fun tidy =>
    runScript_proceeds (evaluator_lawful nestingLimit) tidy source file

/-- A script that is no main script ends as its statements do, or by giving up at a pause. -/
theorem Interpreter.Steady.processOther {interpreter : Interpreter} (steady : interpreter.Steady strict)
    (source file : String) :
    Driven strict interpreter.engine Value.quitting? (Yielded strict)
      (interpreter.process source file false) :=
  steady.drive turnLimit (.refl _) (steady.scriptThread interpreter steady.tidy.stack source file)

/-- A thread that starts a main script in its first turn. -/
def Thread.startingMain (thread : Thread α) (file : String) : Thread α :=
  { thread with resume := fun engine => thread.resume (engine.startMain file) }

/-- Threads that wait for the same take their turns alike. -/
theorem Interpreter.nextThread_startMain (interpreter : Interpreter) (main : Thread α) (file : String) :
    (interpreter.modify (·.startMain file)).nextThread? main = interpreter.nextThread? main := rfl

/-- A thread that starts a main script does so at some point, where all is steady, or has no turn. -/
theorem Interpreter.Steady.drive_startingMain (turns : Nat) (main : Thread α) (file : String) :
    ∀ {interpreter : Interpreter}, interpreter.Steady strict → Turn strict start interpreter.engine →
      ∃ behind : Interpreter, behind.Steady strict ∧ Turn strict start behind.engine ∧
        (Interpreter.drive turns interpreter (main.startingMain file) = behind.giveUp main ∨
          ∃ left, Interpreter.drive turns interpreter (main.startingMain file) =
            Interpreter.drive left (behind.modify (·.startMain file)) main) := by
  -- The induction is on the turns that are left.
  induction turns with
  | zero => exact fun {interpreter} steady turn => ⟨interpreter, steady, turn, .inl rfl⟩
  | succ turns ih =>
    intro interpreter steady turn
    cases next : interpreter.nextThread? main with
    | some worker =>
      obtain ⟨behind, turned⟩ := steady.advance (Interpreter.nextThread_mem next)
      have goesOn : Interpreter.drive (turns + 1) interpreter (main.startingMain file) =
          Interpreter.drive turns (interpreter.advance worker) (main.startingMain file) := by
        have same : interpreter.nextThread? (main.startingMain file) = some worker := next
        rw [Interpreter.drive, same]
      rw [goesOn]
      exact ih behind (turn.trans turned)
    | none =>
      refine ⟨interpreter, steady, turn, ?_⟩
      have here : interpreter.nextThread? (main.startingMain file) = none := next
      by_cases ready : main.canGoOn interpreter.engine
      · have goesOn : (main.startingMain file).canGoOn interpreter.engine := ready
        have goesToo : main.canGoOn (interpreter.modify (·.startMain file)).engine := ready
        refine .inr ⟨turns + 1, ?_⟩
        rw [Interpreter.drive, Interpreter.drive, here, Interpreter.nextThread_startMain, next]
        dsimp only
        rw [if_pos goesOn, if_pos goesToo]
        rfl
      · have waits : ¬ (main.startingMain file).canGoOn interpreter.engine := ready
        refine .inl ?_
        rw [Interpreter.drive, here]
        dsimp only
        rw [if_neg waits]
        rfl

/-- A tidy interpreter stays so where a main script starts. -/
theorem Engine.Tidy.startMain (tidy : engine.Tidy strict) (file : String) :
    (engine.startMain file).Tidy strict :=
  tidy.imp id fun neat => { neat with }

/-- A steady interpreter stays so where a main script starts. -/
theorem Interpreter.Steady.startMain {interpreter : Interpreter} (steady : interpreter.Steady strict)
    (file : String) : (interpreter.modify (·.startMain file)).Steady strict :=
  ⟨steady.tidy.startMain file, fun holds => (steady.orderly holds).lifted, fun holds thread member =>
    (steady.threads holds thread member).imp fun _ steady => steady.onward (.startMain _ file)⟩

/-- A main script starts behind the lifting of earlier requests to end, unless it has no turn, and ends
as its statements do, or by giving up at a pause. -/
theorem Interpreter.Steady.processMain {interpreter : Interpreter} (steady : interpreter.Steady strict)
    (source file : String) :
    ∃ start, Reached strict interpreter.engine start ∧ start.events = interpreter.engine.events ∧
      Driven strict start Value.quitting? (Yielded strict) (interpreter.process source file true) ∧
      (start.cancelled = false ∨
        (interpreter.process source file true).2.engine.events = interpreter.engine.events) := by
  let main := interpreter.scriptThread source file
  obtain ⟨behind, rests, turn, ran⟩ :=
    steady.drive_startingMain turnLimit main file (.refl interpreter.engine)
  change interpreter.process source file true = behind.giveUp main ∨
    ∃ left, interpreter.process source file true = _ at ran
  -- Either the script has no turn, or it starts and is driven to its end.
  rcases ran with ran | ⟨left, ran⟩
  · have mine := steady.scriptThread interpreter steady.tidy.stack source file
    rw [ran]
    exact ⟨interpreter.engine, .refl steady.tidy, rfl, rests.giveUp turn (mine.onward turn.toKeeps), .inr rfl⟩
  · have started := rests.startMain file
    have keeps : Keeps strict interpreter.engine (behind.engine.startMain file) :=
      turn.toKeeps.trans (.startMain behind.engine file)
    have arrives : Keeps strict interpreter.engine (main.enter (behind.engine.startMain file)) :=
      keeps.trans (.of_course rfl)
    have mine := started.scriptThread interpreter (steady.tidy.stack.imp_left keeps.exempt) source file
    rw [ran]
    refine ⟨main.enter (behind.engine.startMain file), ?_, rfl,
      started.drive left (.of_course rfl) mine, .inl rfl⟩
    exact ⟨⟨⟨[], rfl, .nil⟩, arrives, fun holds => .meanwhile rfl (arrives.history holds),
      mine.tidy started.tidy⟩, .refl _, rfl⟩

/-- The end of a request seen from an earlier start. -/
theorem RequestEnds.after {result : Except Stop Value} {final : Engine}
    (reached : Reached strict start engine)
    (ends : RequestEnds strict engine Value.quitting? (Yielded strict) result final) :
    RequestEnds strict start Value.quitting? (Yielded strict) result final := by
  rcases ends with ⟨ended, ends, same⟩ | ⟨gaveUp, progressed⟩
  · exact .inl ⟨ended, ends.after reached, same⟩
  · exact .inr ⟨gaveUp, reached.toProgressed.trans progressed⟩

/-- A script ends as its statements do, or by giving up at a pause, and leaves an interpreter steady. -/
theorem Interpreter.Steady.process {interpreter : Interpreter} (steady : interpreter.Steady strict)
    (source file : String) (isMain : Bool) :
    RequestEnds strict interpreter.engine Value.quitting? (Yielded strict)
        (interpreter.process source file isMain).1
        (interpreter.process source file isMain).2.engine ∧
      (interpreter.process source file isMain).2.Steady strict := by
  cases isMain with
  | false =>
    have driven := steady.processOther source file
    exact ⟨driven.ends, driven.steady⟩
  | true =>
    obtain ⟨start, reached, _, driven, _⟩ := steady.processMain source file
    exact ⟨driven.ends.after reached, driven.steady⟩

/-- A script ends as its statements do, or by giving up at a pause. -/
theorem process_ends (interpreter : Interpreter) (source file : String) (isMain : Bool) :
    RequestEnds false interpreter.engine Value.quitting? (Yielded false)
      (interpreter.process source file isMain).1 (interpreter.process source file isMain).2.engine :=
  (Interpreter.Steady.lax interpreter).process source file isMain |>.1

end ScriptEngine
