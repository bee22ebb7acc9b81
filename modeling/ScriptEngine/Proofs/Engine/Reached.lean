import ScriptEngine.Proofs.Engine.Clean

/-! How an evaluation changes the interpreter that it starts in: the stack and the calls are restored,
each `quit` is handed on at once, and a clean interpreter stays clean. -/

namespace ScriptEngine

/-- What identifies a frame whatever it binds. -/
def Frame.tag (frame : Frame) : Nat × FrameKind := (frame.id, frame.kind)

/-- Two stacks have the same frames, and all but the innermost ones bind the same names alike. -/
structure ScopeStack.SameFrames (start now : ScopeStack) : Prop where
  tags : now.frames.map Frame.tag = start.frames.map Frame.tag
  outer : now.frames.tail = start.frames.tail

namespace ScopeStack.SameFrames

theorem refl (stack : ScopeStack) : stack.SameFrames stack := ⟨rfl, rfl⟩

theorem trans {first second third : ScopeStack} (start : first.SameFrames second)
    (next : second.SameFrames third) : first.SameFrames third :=
  ⟨next.tags.trans start.tags, next.outer.trans start.outer⟩

/-- Stacks with the same frames are equally deep. -/
theorem depth {start now : ScopeStack} (same : start.SameFrames now) : now.depth = start.depth := by
  have lengths := congrArg List.length same.tags
  simpa [ScopeStack.depth] using lengths

/-- A change that leaves identifier and kind of the active frame alone keeps the frames. -/
theorem modifyActive (stack : ScopeStack) {change : Frame → Frame}
    (keeps : ∀ frame, (change frame).tag = frame.tag) : stack.SameFrames (stack.modifyActive change) := by
  unfold ScopeStack.modifyActive
  split
  case h_1 frame outer same =>
    split
    · exact ⟨by simp [same, keeps], by simp [same]⟩
    · exact refl stack
  case h_2 => exact refl stack

/-- Binding a name keeps the frames. -/
theorem define (stack : ScopeStack) (name : String) (handler : Handler) :
    stack.SameFrames (stack.define name handler) :=
  modifyActive stack fun _ => rfl

/-- When what ran on a pushed frame has kept the frames, popping it leaves the frames from before
with all that they bind. -/
theorem pop_push {stack now : ScopeStack} {kind : FrameKind}
    (same : (stack.push kind).1.SameFrames now) :
    (now.pop (stack.push kind).2).frames = stack.frames := by
  obtain ⟨frames, lastId, threshold⟩ := now
  have tags := same.tags
  have outer := same.outer
  simp only [push, List.map_cons, List.tail_cons] at tags outer
  -- The frame that was pushed is still the innermost one, and behind it nothing has changed.
  cases frames with
  | nil => cases tags
  | cons top rest =>
    simp only [List.map_cons, List.cons.injEq, Frame.tag, Prod.mk.injEq, List.tail_cons] at tags outer
    simp [pop, push, tags.1.1, outer]

end ScopeStack.SameFrames

/-- In this log, the latest entry first, each `quit` was followed at once by a use of its signal. -/
inductive HandedOn : List Event → Prop
  | nil : HandedOn []
  | statement (site : Site) {log : List Event} (earlier : HandedOn log) :
    HandedOn (.statement site :: log)
  | used (use : Use) {log : List Event} (earlier : HandedOn log) : HandedOn (.used use :: log)
  | embedded (keyword : Keyword) (cursor : Cursor) {log : List Event} (earlier : HandedOn log) :
    HandedOn (.embedded keyword cursor :: log)
  | quit (use : Use) (code : Int) {log : List Event} (earlier : HandedOn log) :
    HandedOn (.used use :: .quit code :: log)

/-- A log goes on where another one ends. -/
theorem HandedOn.append {later earlier : List Event} (laterOn : HandedOn later)
    (earlierOn : HandedOn earlier) : HandedOn (later ++ earlier) := by
  induction laterOn with
  | nil => exact earlierOn
  | statement site _ ih => exact .statement site ih
  | used use _ ih => exact .used use ih
  | embedded keyword cursor _ ih => exact .embedded keyword cursor ih
  | quit use code _ ih => exact .quit use code ih

/-- Requests to end were obeyed in this history, the latest milestone first: nothing starts while an end
is asked for. The flag says whether one still is. -/
inductive Obeyed : List Milestone → Bool → Prop
  | nil : Obeyed [] false
  | statement (site : Site) {history : List Milestone} (earlier : Obeyed history false) :
    Obeyed (.statement site :: history) false
  | pass {history : List Milestone} (earlier : Obeyed history false) : Obeyed (.pass :: history) false
  | request {history : List Milestone} {asked : Bool} (earlier : Obeyed history asked) :
    Obeyed (.request :: history) true
  | lifted {history : List Milestone} {asked : Bool} (earlier : Obeyed history asked) :
    Obeyed (.lifted :: history) false

/-- The site of a statement that starts. -/
def Milestone.site? : Milestone → Option Site
  | .statement site => some site
  | _ => none

/-- The site of a statement that starts. -/
def Event.site? : Event → Option Site
  | .statement site => some site
  | _ => none

/-- What a thread has got into its log and all threads into the history between two points: each statement
that the thread has started is in the history. -/
def Recorded (start now : Engine) : Prop :=
  ∃ new fresh, now.events = new ++ start.events ∧ now.milestones = fresh ++ start.milestones ∧
    (new.filterMap Event.site?).Sublist (fresh.filterMap Milestone.site?)

namespace Engine

/-- A control signal has been used where it can be stored, or storage is of no concern. -/
def Exempt (strict : Bool) (engine : Engine) : Prop :=
  strict = false ∨ ∃ use ∈ engine.signalUses, use.stores = true

/-- An interpreter is neat if it has to be. -/
def Tidy (strict : Bool) (engine : Engine) : Prop := engine.Exempt strict ∨ engine.Neat

/-- A look for a request to end changes only what is known of such requests. -/
theorem look_eq (engine : Engine) : ∃ cancelled hostRequest milestones,
    engine.look = { engine with cancelled, hostRequest, milestones } := by
  unfold look
  split
  · exact ⟨_, _, _, rfl⟩
  · exact ⟨_, _, _, rfl⟩
  · exact ⟨_, _, _, rfl⟩

/-- Nothing has started while an end was asked for. -/
def Orderly (engine : Engine) : Prop := Obeyed engine.milestones engine.cancelled

/-- What all threads together have come to. -/
def course (engine : Engine) : List Use × Bool × List Milestone :=
  (engine.signalUses, engine.cancelled, engine.milestones)

/-- How often a request to end was lifted. -/
def lifts (engine : Engine) : Nat := engine.milestones.count .lifted

end Engine

/-- The threads that ran between two points have forgotten no use of a signal and have started nothing
behind a request to end, if the evaluation is `strict`. -/
structure Keeps (strict : Bool) (base now : Engine) : Prop where
  uses : strict = true → base.signalUses ⊆ now.signalUses
  history : strict = true → base.milestones <:+ now.milestones
  orderly : strict = true → base.Orderly → now.Orderly

/-- Two things that are known but for an exception lead to a third. -/
theorem unless_both {exception first second third : Prop} (left : exception ∨ first)
    (right : exception ∨ second) (joined : first → second → third) : exception ∨ third := by
  rcases left with except | left
  · exact .inl except
  · exact right.imp_right (joined left)

/-- What ran from a point to a later one, with nothing between them, has kept what it should and has
lifted no request to end. -/
structure Turn (strict : Bool) (base now : Engine) : Prop extends Keeps strict base now where
  lifts : strict = true → now.lifts = base.lifts

/-- What an evaluation has done since it started, as long as no `quit` is on its way. If it is
`strict`, clean interpreters have to stay clean. -/
structure Progressed (strict : Bool) (start now : Engine) : Prop where
  log : ∃ new, now.events = new ++ start.events ∧ HandedOn new
  keeps : Keeps strict start now
  recorded : strict = true → Recorded start now
  tidy : now.Tidy strict

/-- An evaluation has progressed and has left all frames and calls that it has entered. -/
structure Reached (strict : Bool) (start now : Engine) : Prop extends
    Progressed strict start now where
  stack : start.stack.SameFrames now.stack
  calls : now.calls = start.calls

/-- An evaluation has reached a point at once. -/
structure Moved (strict : Bool) (start now : Engine) : Prop extends Reached strict start now where
  lifts : strict = true → now.lifts = start.lifts

/-- What the other threads may do while a thread pauses. -/
structure Rely (strict : Bool) (engine changed : Engine) : Prop where
  stack : changed.stack = engine.stack
  calls : changed.calls = engine.calls
  events : changed.events = engine.events
  keeps : Keeps strict engine changed
  tidy : engine.Tidy strict → changed.Tidy strict

/-- A change that leaves the frames, the calls and the logs alone, and keeps an interpreter clean if
what is `given` holds. -/
structure Engine.Adjusts (given : Prop) (engine changed : Engine) : Prop where
  stack : engine.stack.SameFrames changed.stack
  calls : changed.calls = engine.calls
  events : changed.events = engine.events
  course : changed.course = engine.course
  neat : given → engine.Neat → changed.Neat

variable {strict : Bool} {start engine now : Engine}

/-- A value is known to be trusted in an interpreter, unless storage is of no concern. -/
abbrev Trusted (strict : Bool) (value : Value) (engine : Engine) : Prop :=
  engine.Exempt strict ∨ engine.Trusts value

namespace Keeps

/-- Between a point and itself nothing runs. -/
theorem refl (engine : Engine) : Keeps strict engine engine :=
  ⟨fun _ => .refl _, fun _ => List.suffix_refl _, fun _ => id⟩

/-- What is kept on the way to a point and from there on is kept. -/
theorem trans (first : Keeps strict start engine) (next : Keeps strict engine now) :
    Keeps strict start now :=
  ⟨fun holds => List.Subset.trans (first.uses holds) (next.uses holds),
    fun holds => (first.history holds).trans (next.history holds),
    fun holds => next.orderly holds ∘ first.orderly holds⟩

/-- A change of nothing that the threads have come to is no matter. -/
theorem of_course (same : now.course = engine.course) : Keeps strict engine now := by
  simp only [Engine.course, Prod.mk.injEq] at same
  obtain ⟨uses, cancelled, milestones⟩ := same
  refine ⟨fun _ => uses ▸ .refl _, fun _ => milestones ▸ List.suffix_refl _, fun _ orderly => ?_⟩
  unfold Engine.Orderly
  rw [cancelled, milestones]
  exact orderly

/-- If it is no concern what happens, nothing has to be kept. -/
theorem lax (base now : Engine) : Keeps false base now := ⟨nofun, nofun, nofun⟩

/-- The start of a main script keeps what it should. -/
theorem startMain (engine : Engine) (file : String) : Keeps strict engine (engine.startMain file) :=
  ⟨fun _ => .refl _, fun _ => List.suffix_cons _ _, fun _ => .lifted⟩

/-- An exempt interpreter stays so. -/
theorem exempt (keeps : Keeps strict engine now) (exempt : engine.Exempt strict) :
    now.Exempt strict := by
  cases strict with
  | false => exact .inl rfl
  | true => exact exempt.imp id fun ⟨use, used, stores⟩ => ⟨use, keeps.uses rfl used, stores⟩

/-- A trusted value stays so. -/
theorem trusted (keeps : Keeps strict engine now) {value : Value}
    (trusted : Trusted strict value engine) : Trusted strict value now := by
  cases strict with
  | false => exact .inl (.inl rfl)
  | true =>
    refine trusted.imp keeps.exempt fun trusts => ⟨trusts.sound, fun held same signal => ?_⟩
    exact (trusts.2 held same signal).imp_right fun used => keeps.uses rfl used

end Keeps

namespace Turn

/-- Between a point and itself nothing runs. -/
theorem refl (engine : Engine) : Turn strict engine engine := ⟨.refl engine, fun _ => rfl⟩

/-- What runs goes on at once. -/
theorem trans (first : Turn strict start engine) (next : Turn strict engine now) :
    Turn strict start now :=
  ⟨first.toKeeps.trans next.toKeeps, fun holds => (next.lifts holds).trans (first.lifts holds)⟩

/-- A change of nothing that the threads have come to is no matter. -/
theorem of_course (same : now.course = engine.course) : Turn strict engine now := by
  refine ⟨.of_course same, fun _ => ?_⟩
  simp only [Engine.course, Prod.mk.injEq] at same
  rw [Engine.lifts, same.2.2, Engine.lifts]

/-- If it is no concern what happens, nothing has to be kept. -/
theorem lax (base now : Engine) : Turn false base now := ⟨.lax base now, nofun⟩

/-- What is new in the history lifts no request to end. -/
theorem not_lifted (turn : Turn true engine now) {fresh : List Milestone}
    (history : now.milestones = fresh ++ engine.milestones) : .lifted ∉ fresh := by
  have lifts := turn.lifts rfl
  rw [Engine.lifts, Engine.lifts, history, List.count_append] at lifts
  exact List.count_eq_zero.mp (by omega)

end Turn

namespace Recorded

/-- What is recorded on the way to a point and from there on is recorded. -/
theorem trans (first : Recorded start engine) (next : Recorded engine now) : Recorded start now := by
  obtain ⟨early, before, log, history, sites⟩ := first
  obtain ⟨late, behind, logToo, historyToo, sitesToo⟩ := next
  refine ⟨late ++ early, behind ++ before, ?_, ?_, ?_⟩
  · rw [logToo, log, List.append_assoc]
  · rw [historyToo, history, List.append_assoc]
  · rw [List.filterMap_append, List.filterMap_append]
    exact sitesToo.append sites

/-- While a thread starts nothing, all that the others come to may be recorded. -/
theorem meanwhile (events : now.events = engine.events)
    (history : engine.milestones <:+ now.milestones) : Recorded engine now := by
  obtain ⟨fresh, same⟩ := history
  exact ⟨[], fresh, events, same.symm, List.nil_sublist _⟩

/-- An entry in the log other than that a statement starts leaves the history as it is. -/
theorem note {event : Event} (other : event.site? = none) : Recorded engine (engine.note event) :=
  ⟨[event], [], rfl, rfl, by simp [other]⟩

end Recorded

namespace Progressed

/-- Evaluations follow each other. -/
theorem trans (first : Progressed strict start engine) (next : Progressed strict engine now) :
    Progressed strict start now := by
  obtain ⟨earlier, startLog, earlierOn⟩ := first.log
  obtain ⟨later, midLog, laterOn⟩ := next.log
  exact ⟨⟨later ++ earlier, by rw [midLog, startLog, List.append_assoc], laterOn.append earlierOn⟩,
    first.keeps.trans next.keeps, fun holds => (first.recorded holds).trans (next.recorded holds),
    next.tidy⟩

/-- An exempt interpreter stays so. -/
theorem exempt (progressed : Progressed strict engine now) : engine.Exempt strict → now.Exempt strict :=
  progressed.keeps.exempt

/-- A change that the logs do not show. -/
theorem unseen (events : now.events = engine.events) (course : now.course = engine.course)
    (neat : engine.Exempt strict ∨ (engine.Neat → now.Neat)) (tidy : engine.Tidy strict) :
    Progressed strict engine now := by
  have keeps : Keeps strict engine now := .of_course course
  refine ⟨⟨[], events, .nil⟩, keeps, fun holds => .meanwhile events (keeps.history holds), ?_⟩
  rcases neat with free | neat
  · exact .inl (keeps.exempt free)
  · exact tidy.imp keeps.exempt neat

end Progressed

namespace Reached

/-- An evaluation starts where it starts. -/
theorem refl (tidy : engine.Tidy strict) : Reached strict engine engine :=
  ⟨.unseen rfl rfl (.inr id) tidy, .refl _, rfl⟩

/-- Evaluations follow each other. -/
theorem trans (first : Reached strict start engine) (next : Reached strict engine now) :
    Reached strict start now :=
  ⟨first.toProgressed.trans next.toProgressed, first.stack.trans next.stack,
    next.calls.trans first.calls⟩

/-- What other threads do meanwhile is no matter. -/
theorem rely (reached : Reached strict start engine) (changed : Rely strict engine now) :
    Reached strict start now := by
  refine reached.trans ⟨⟨⟨[], changed.events, .nil⟩, changed.keeps,
    fun holds => .meanwhile changed.events (changed.keeps.history holds), changed.tidy reached.tidy⟩,
    ?_, changed.calls⟩
  rw [changed.stack]
  exact .refl _

end Reached

namespace Moved

/-- What was reached at once was reached in a turn. -/
theorem turn (moved : Moved strict engine now) : Turn strict engine now := ⟨moved.keeps, moved.lifts⟩

/-- Nothing is reached at once. -/
theorem refl (tidy : engine.Tidy strict) : Moved strict engine engine := ⟨.refl tidy, fun _ => rfl⟩

/-- Changes follow each other at once. -/
theorem trans (first : Moved strict start engine) (next : Moved strict engine now) :
    Moved strict start now :=
  ⟨first.toReached.trans next.toReached, fun holds => (next.lifts holds).trans (first.lifts holds)⟩

/-- A change that leaves the frames, the calls and the logs alone. -/
theorem adjust {given : Prop} (adjusts : Engine.Adjusts given engine now)
    (holds : engine.Exempt strict ∨ given) (tidy : engine.Tidy strict) : Moved strict engine now :=
  ⟨⟨.unseen adjusts.events adjusts.course (holds.imp_right adjusts.neat) tidy, adjusts.stack,
    adjusts.calls⟩, (Turn.of_course adjusts.course).lifts⟩

/-- An entry in the log of the calls. -/
theorem noteCall (event : CallEvent) (tidy : engine.Tidy strict) :
    Moved strict engine (engine.noteCall event) := by
  have adjusts : engine.Adjusts True (engine.noteCall event) :=
    ⟨.refl _, rfl, rfl, rfl, fun _ neat => { neat with }⟩
  exact adjust adjusts (.inr trivial) tidy

/-- An end comes in, which may have left calls elsewhere. -/
theorem receive (stop : Stop) (tidy : engine.Tidy strict) :
    Moved strict engine (engine.receive stop) := by
  unfold Engine.receive
  split
  · split
    · exact refl tidy
    · exact noteCall .foreign tidy
  · exact refl tidy

/-- An entry in the log that is neither about a `quit` nor about a statement. -/
theorem note {event : Event} (tidy : engine.Tidy strict) (handed : HandedOn [event])
    (other : event.site? = none) : Moved strict engine (engine.note event) :=
  ⟨⟨⟨⟨[event], rfl, handed⟩, .of_course rfl, fun _ => .note other,
    tidy.imp id fun neat => { neat with }⟩, .refl _, rfl⟩, fun _ => rfl⟩

/-- The use of a control signal takes nothing back that the threads have come to. -/
theorem turn_noteUse (use : Use) : Turn strict engine (engine.noteUse use) :=
  ⟨⟨fun _ => List.subset_cons_self _ _, fun _ => List.suffix_refl _, fun _ => id⟩, fun _ => rfl⟩

/-- An interpreter is exempt once a control signal is used where it can be stored. -/
theorem exempt_noteUse {use : Use} (stores : use.stores = true) :
    (engine.noteUse use).Exempt strict :=
  .inr ⟨use, List.mem_cons_self, stores⟩

/-- Noting a use keeps an interpreter tidy. -/
theorem tidy_noteUse (use : Use) (tidy : engine.Tidy strict) : (engine.noteUse use).Tidy strict := by
  refine tidy.imp (turn_noteUse use).exempt fun neat => { neat with results := ?_ }
  intro worker member value result held same signal
  exact (neat.results worker member value result held same signal).imp_right
    (List.mem_cons_of_mem _)

/-- The use of a control signal is noted. -/
theorem noteUse (use : Use) (tidy : engine.Tidy strict) : Moved strict engine (engine.noteUse use) :=
  ⟨⟨⟨⟨[.used use], rfl, .used use .nil⟩, (turn_noteUse use).toKeeps,
    fun _ => ⟨[_], [], rfl, rfl, .slnil⟩, tidy_noteUse use tidy⟩, .refl _, rfl⟩, fun _ => rfl⟩

/-- The use of the signal of a `quit` hands the `quit` on. -/
theorem quit_noteUse (use : Use) (code : Int) (tidy : engine.Tidy strict) :
    Moved strict engine ((engine.note (.quit code)).noteUse use) := by
  have noted : Keeps strict engine (engine.note (.quit code)) := .of_course rfl
  exact ⟨⟨⟨⟨[.used use, .quit code], rfl, .quit use code .nil⟩, noted.trans (turn_noteUse use).toKeeps,
    fun _ => ⟨[_, _], [], rfl, rfl, .slnil⟩,
    tidy_noteUse use (tidy.imp id fun neat => { neat with })⟩, .refl _, rfl⟩, fun _ => rfl⟩

/-- A change of what is known of requests to end. -/
theorem asked {cancelled : Bool} {hostRequest : Option Nat} (fresh : List Milestone)
    (tidy : engine.Tidy strict) (unlifted : .lifted ∉ fresh)
    (orderly : engine.Orderly → Obeyed (fresh ++ engine.milestones) cancelled) :
    Moved strict engine
      { engine with cancelled, hostRequest, milestones := fresh ++ engine.milestones } := by
  have history := List.suffix_append fresh engine.milestones
  refine ⟨⟨⟨⟨[], rfl, .nil⟩, ⟨fun _ => .refl _, fun _ => history, fun _ => orderly⟩,
    fun _ => .meanwhile rfl history, tidy.imp id fun neat => { neat with }⟩, .refl _, rfl⟩, fun _ => ?_⟩
  rw [Engine.lifts, List.count_append, List.count_eq_zero.mpr unlifted, Nat.zero_add, Engine.lifts]

/-- A statement starts, as long as no end is asked for. -/
theorem startStatement (site : Site) (tidy : engine.Tidy strict) (free : engine.cancelled = false) :
    Moved strict engine (engine.startStatement site) := by
  -- As no end is asked for, the statement is one more milestone that may be reached.
  have orderly : engine.Orderly → (engine.startStatement site).Orderly := by
    unfold Engine.Orderly Engine.startStatement Engine.note
    dsimp only
    rw [free]
    exact .statement site
  exact ⟨⟨⟨⟨[.statement site], rfl, .statement site .nil⟩,
    ⟨fun _ => .refl _, fun _ => List.suffix_cons _ _, fun _ => orderly⟩,
    fun _ => ⟨[_], [_], rfl, rfl, .refl _⟩, tidy.imp id fun neat => { neat with }⟩, .refl _, rfl⟩,
    fun _ => List.count_cons_of_ne (by simp)⟩

/-- A pass starts, as long as no end is asked for. -/
theorem startPass (tidy : engine.Tidy strict) (free : engine.cancelled = false) :
    Moved strict engine engine.startPass := by
  refine asked [.pass] tidy (by simp) fun orderly => ?_
  unfold Engine.Orderly at orderly
  rw [free] at orderly ⊢
  exact orderly.pass

/-- An end is asked for. -/
theorem cancel (tidy : engine.Tidy strict) : Moved strict engine engine.cancel :=
  asked [.request] tidy (by simp) fun orderly => orderly.request

/-- A request to end is looked for. -/
theorem look (tidy : engine.Tidy strict) : Moved strict engine engine.look := by
  unfold Engine.look
  split
  · exact refl tidy
  · exact asked [.request] tidy (by simp) fun orderly => orderly.request
  · exact asked [] tidy List.not_mem_nil id

end Moved

end ScriptEngine
