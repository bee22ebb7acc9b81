import ScriptEngine.Interpreter
import ScriptEngine.Proofs.Grammar.Container

/-! What a worker sees of the names that its launcher sees, and what comes back when its result is
taken. -/

namespace ScriptEngine

open Cursor

variable {engine other : Engine} {name file : String}

/-! The names that a worker starts with. -/

namespace Engine

/-- The interpreter that a worker starts with if it does so right behind its launch. -/
def workerStart (engine : Engine) (cursor : Cursor) (detached : Bool) : Engine :=
  let (after, id) := engine.launch cursor detached
  { after with
    launched := [], thread := id, stack := engine.stack.fork, calls := [], events := [], callLog := [] }

/-- The interpreter as it is outside all frames. -/
def outermost (engine : Engine) : Engine := { engine with stack := {} }

/-- What a name stands for only because of the namespace that the active frame belongs to. -/
def throughNamespace? (engine : Engine) (name : String) : Option Handler :=
  engine.stack.active?.bind fun frame =>
    match frame.kind with
    | .namespaceBlock space => engine.symbols.namespaced? space name
    | .call _ (some space) =>
      if (frame.names.get? name).isSome then none else engine.symbols.namespaced? space name
    | _ => none

/-- What a name that is not qualified stands for by the namespace of the active frame, it stands for
outside all frames as well. -/
def SeenOutside (engine : Engine) (name file : String) : Prop :=
  '.' ∉ name.toList → ∀ handler, engine.throughNamespace? name = some handler →
    engine.outermost.resolve? name file = some handler

/-- An active frame of a namespace block does not bind a name itself, since definitions go to the
namespace. -/
def LeavesToNamespace (engine : Engine) (name : String) : Prop :=
  ∀ frame space, engine.stack.active? = some frame → frame.kind = .namespaceBlock space →
    frame.names.get? name = none

/-- What names stand for depends on nothing but the stack and the symbols. -/
theorem resolve?_congr (stack : other.stack = engine.stack) (symbols : other.symbols = engine.symbols) :
    other.resolve? name file = engine.resolve? name file := by
  simp only [resolve?, inFrame?, stack, symbols]

/-- A name that is not qualified is looked for in the active frame first. -/
theorem resolve?_plain (engine : Engine) (file : String) (plain : '.' ∉ name.toList) :
    engine.resolve? name file =
      (engine.stack.active?.bind fun frame => engine.inFrame? frame name).or
        (engine.outermost.resolve? name file) := by
  simp [resolve?, plain, outermost, ScopeStack.active?, ScopeStack.depth, Option.or_assoc]

/-- The only frame of a worker has the names of the frame that was active at its launch. -/
theorem fork_active? (stack : ScopeStack) :
    stack.fork.active? =
      some ⟨stack.lastId + 1, .thread, (stack.active?.map (·.names)).getD .empty⟩ := rfl

/-- A worker finds a name in its copy of the active frame, and else outside all frames. -/
theorem resolve?_workerStart (cursor : Cursor) (detached : Bool) (plain : '.' ∉ name.toList) :
    (engine.workerStart cursor detached).resolve? name file =
      (engine.stack.active?.bind (·.names.get? name)).or (engine.outermost.resolve? name file) := by
  have outside : (engine.workerStart cursor detached).outermost.resolve? name file =
      engine.outermost.resolve? name file := resolve?_congr rfl rfl
  rw [resolve?_plain _ file plain, outside]
  congr 1
  show (engine.stack.fork.active?.bind fun frame => _) = _
  rw [fork_active?]
  cases engine.stack.active? <;> rfl

/-- A first choice changes nothing exactly if the second one is no other. -/
theorem eq_or_iff {first second : Option Handler} :
    second = first.or second ↔ ∀ handler, first = some handler → second = some handler := by
  cases first with
  | none => simp
  | some handler => simp

/-- A worker resolves a name as its launcher does, exactly unless the launcher finds it by the
namespace of the active frame and outside all frames it stands for something else. -/
theorem resolve?_workerStart_iff (cursor : Cursor) (detached : Bool)
    (leaves : engine.LeavesToNamespace name) :
    (engine.workerStart cursor detached).resolve? name file = engine.resolve? name file ↔
      engine.SeenOutside name file := by
  by_cases qualified : '.' ∈ name.toList
  · -- Both find the member of a namespace, which they share.
    have same : (engine.workerStart cursor detached).resolve? name file =
        engine.resolve? name file := by
      simp [resolve?, qualified, workerStart, launch]
    exact ⟨fun _ plain => absurd qualified plain, fun _ => same⟩
  rw [resolve?_workerStart cursor detached qualified, resolve?_plain engine file qualified]
  unfold SeenOutside throughNamespace?
  simp only [qualified, not_false_eq_true, true_implies]
  cases active : engine.stack.active? with
  | none => simp
  | some frame =>
    simp only [Option.bind_some, inFrame?]
    cases kind : frame.kind with
    | thread => simp
    | namespaceBlock space =>
      rw [leaves frame space active kind, Option.none_or]
      exact eq_or_iff
    | call function scope =>
      cases scope with
      | none => simp
      | some space =>
        -- What the call binds itself comes first for both.
        cases own : frame.names.get? name with
        | some handler => simp
        | none => simpa using eq_or_iff

end Engine

/-! One operand that starts with a word and goes up to the end of the text. -/

variable {α β : Type} {eval : Evaluator} {cursor next : Cursor} {depth : Nat} {handler : Handler}
  {word text : List Char} {inner : Eval Value}

/-- A name in front of a parenthesis is one word. -/
theorem readQualified_call {symbols : SymbolTable} {rest : List Char}
    (identifier : Text.isIdentifier word = true) (shape : cursor.rest = word ++ '(' :: rest) :
    cursor.readQualified symbols = (String.ofList word, cursor.advanceBy word.length) := by
  have read := readToken_text identifier shape fun c head => by
    cases head
    decide
  have bracket : (cursor.advanceBy word.length).current = some '(' := by
    rw [current, rest_advanceBy shape]
    rfl
  unfold readQualified
  rw [read]
  dsimp only
  -- Only behind a point the name would go on.
  cases (cursor.advanceBy word.length).left with
  | zero => rfl
  | succ count => simp [readMembers, bracket]

/-- What a word in front of a parenthesis stands for is an operand. -/
theorem evaluatePrimary_call {rest : List Char} (identifier : Text.isIdentifier word = true)
    (free : constant? (String.ofList word) = none) (shape : cursor.rest = word ++ '(' :: rest)
    (found : engine.resolve? (String.ofList word) cursor.file = some handler)
    (handled : evaluateHandler eval handler (cursor.advanceBy word.length) engine =
      (do let value ← inner; return (value, next)) engine)
    (changeless : ∀ value, handler ≠ .variable value) :
    evaluatePrimary eval cursor engine =
      (do let value ← inner; return (value, none, next)) engine := by
  have read := readToken_text identifier shape fun c head => by
    cases head
    decide
  have file : (cursor.advanceBy word.length).file = cursor.file := by simp [Cursor.file]
  rw [evaluatePrimary_word identifier shape]
  unfold evaluateName
  rw [Eval.get_bind, read]
  dsimp only
  rw [free]
  dsimp only
  rw [readQualified_call identifier shape]
  dsimp only
  rw [file, found]
  have goesOn := Eval.bind_congr_at handled fun made => pure (made.1, (none : Option Place), made.2)
  rw [bind_assoc] at goesOn
  -- All but a variable are handled alike.
  rcases handler with _ | _ | _ | _ | _ | value | _
  all_goals first
    | exact goesOn
    | exact absurd rfl (changeless value)

/-- An operand at the end of a text is the operand of every level. -/
theorem evaluateFrom_last (ended : next.rest = [])
    (operand : evaluateOperand eval cursor engine = (do let value ← inner; return (value, next)) engine)
    (level : Nat) (bound : level ≤ 6) :
    evaluateFrom eval level cursor engine = (do let value ← inner; return (value, next)) engine := by
  -- The induction goes down from the operands without operators.
  induction bound using Nat.decreasingInduction with
  | self => exact operand
  | of_succ level below ih =>
    have stops : Stops level next.rest := .inl ended
    rw [evaluateFrom_eq below]
    refine (Eval.bind_congr_at ih _).trans ?_
    rw [bind_assoc]
    refine congrArg (fun step : Eval (Value × Cursor) => step engine) (congrArg (inner >>= ·) ?_)
    funext value
    rw [pure_bind]
    exact joinOperands_none stops.skipSpaces_eq (stops.operator?_eq_none (Nat.le_refl _)) _ _

/-- A word in front of a parenthesis with what belongs to it is an operand of its own at the end of a
text. -/
theorem evaluateOperand_call {rest : List Char} (identifier : Text.isIdentifier word = true)
    (free : constant? (String.ofList word) = none) (shape : cursor.rest = word ++ '(' :: rest)
    (found : engine.resolve? (String.ofList word) cursor.file = some handler)
    (changeless : ∀ value, handler ≠ .variable value)
    (handled : evaluateHandler eval handler (cursor.advanceBy word.length) engine =
      (do let value ← inner; return (value, next)) engine)
    (ended : next.rest = []) :
    evaluateOperand eval cursor engine = (do let value ← inner; return (value, next)) engine := by
  have primary := evaluatePrimary_call identifier free shape found handled changeless
  -- No step goes on behind the end.
  have stepped : evaluateStepped eval cursor engine =
      (do let value ← inner; return (value, next)) engine := by
    refine (Eval.bind_congr_at primary _).trans ?_
    rw [bind_assoc]
    refine congrArg (fun step : Eval (Value × Cursor) => step engine) (congrArg (inner >>= ·) ?_)
    funext value
    rw [pure_bind]
    have stops : Stops 0 next.rest := .inl ended
    exact evaluateSteps_stops stops _
  obtain ⟨c, tail, rfl⟩ : ∃ c tail, word = c :: tail := by
    cases word with
    | nil => cases identifier
    | cons c tail => exact ⟨c, tail, rfl⟩
  -- No sign stands in front of the word.
  have solid : c ≠ ' ' := by
    rintro rfl
    exact absurd identifier (by simp [Text.isIdentifier, show Text.isWordStart ' ' = false by decide])
  have tight : cursor.skipSpaces = cursor := skipSpaces_cons shape solid
  have first : cursor.skipSpaces.current = some c := by
    rw [tight, current, shape]
    rfl
  have head : ((c :: tail) ++ []).head? = some c := rfl
  have unsigned := Expr.identifier_unsigned identifier head
  rw [evaluateOperand_eq (readSigns_plain first unsigned _), tight]
  refine (Eval.bind_congr_at stepped _).trans ?_
  rw [bind_assoc]
  rfl

/-- A text that is a word in front of a parenthesis with what belongs to it has the value of that. -/
theorem evaluateAll_call {rest : List Char} (identifier : Text.isIdentifier word = true)
    (free : constant? (String.ofList word) = none) (shape : cursor.rest = word ++ '(' :: rest)
    (found : engine.resolve? (String.ofList word) cursor.file = some handler)
    (changeless : ∀ value, handler ≠ .variable value)
    (handled : evaluateHandler (evaluator depth) handler (cursor.advanceBy word.length) engine =
      (do let value ← inner; return (value, next)) engine)
    (ended : next.rest = []) :
    evaluateAll (evaluator (depth + 1)) cursor engine = inner engine := by
  have operand := evaluateOperand_call identifier free shape found changeless handled ended
  -- The operand is the whole expression, and nothing stands behind it.
  have whole : evaluator (depth + 1) .expression cursor engine =
      (do let value ← inner; return (value, next)) engine :=
    evaluateFrom_last ended operand 0 (Nat.zero_le _)
  have stops : Stops 0 next.rest := .inl ended
  have atEnd : next.skipSpaces.current = none := by
    rw [stops.skipSpaces_eq, current, ended]
    rfl
  refine (Eval.bind_congr_at whole _).trans ?_
  rw [bind_assoc]
  simp only [pure_bind, atEnd, bind_pure]

/-! The launch of a worker and the way of its result. -/

/-- The native function that takes the result of a worker. -/
def joinNative : Native := ⟨"join", some 1, .builtin .join⟩

/-- The launch of a worker as it is written. -/
def threadText (text : List Char) : List Char := "thread".toList ++ '(' :: (text ++ [')'])

theorem threadText_eq (text : List Char) :
    threadText text = "thread".toList ++ '(' :: (text ++ [')']) := rfl

/-- The launch of a worker whose result is taken at once, as it is written. -/
def joinText (text : List Char) : List Char := "join".toList ++ '(' :: (threadText text ++ [')'])

/-- The launch of a worker is one part between commas. -/
theorem threadText_isPart (balanced : Balanced nothing text) : IsPart ',' (threadText text) := by
  have last : (threadText text).getLast? = some ')' := by
    simp [threadText_eq, List.getLast?_cons]
  -- The text starts with a word and ends with the bracket that it opens.
  refine ⟨⟨'t', rfl, by decide⟩, ?_, Text.trim_eq (fun c starts => ?_) fun c ends => ?_⟩
  · have word : Balanced (endsPart ',') "thread".toList := by decide
    have group : Balanced (endsPart ',') ('(' :: text ++ [')']) := balanced.group rfl rfl
    exact word.append group
  · cases starts
    decide
  · rw [last] at ends
    cases ends
    decide

/-- The launch of a worker names no parameter. -/
theorem splitNamed_threadText (text : List Char) :
    splitNamed (threadText text) = (none, threadText text) := by
  have word : ∀ c ∈ "thread".toList, Text.isWordChar c = true :=
    List.all_eq_true.mp (by decide)
  have behind : (threadText text).dropWhile Text.isWordChar = '(' :: (text ++ [')']) := by
    rw [threadText_eq, List.dropWhile_append_of_pos word]
    exact List.dropWhile_cons_of_neg (by decide)
  unfold splitNamed
  rw [behind]
  rfl

/-- A launch adds a worker and yields its number. -/
theorem evaluateAll_threadText (depth : Nat) (balanced : Balanced nothing text)
    (starts : ∃ c tail, text = c :: tail ∧ Text.isBlank c = false)
    (keyword : engine.resolve? "thread" cursor.file = some (.keyword .threadKeyword))
    (whole : cursor.rest = threadText text) :
    ∃ (place : Cursor) (event : Event), place.file = cursor.file ∧ place.rest = text ∧
      evaluateAll (evaluator (depth + 1)) cursor engine =
        .finished (.ok (.ofNat (engine.lastWorker + 1)))
          ((engine.note event).launch place false).1 := by
  let next := cursor.advanceBy (threadText text).length
  have ended : next.rest = [] := by
    rw [advanceBy_rest, whole, List.drop_length]
  have behindWord : (cursor.advanceBy 6).rest = '(' :: (text ++ ')' :: []) := by
    rw [advanceBy_rest, whole]
    rfl
  -- The word takes six characters, and the brackets two more than what is between them.
  have landed : (cursor.advanceBy 6).advanceBy (text.length + 2) = next := by
    rw [advanceBy_advanceBy]
    congr 1
    simp only [threadText_eq, List.length_append, List.length_cons, List.length_nil]
    have length : "thread".toList.length = 6 := rfl
    omega
  have read := readBalanced_text rfl balanced behindWord
  rw [landed] at read
  have filled : (Text.trim text).isEmpty = false := by
    obtain ⟨c, tail, rfl, solid⟩ := starts
    simpa using Text.trim_ne_nil solid
  let event : Event := .embedded .threadKeyword (cursor.advanceBy 6)
  refine ⟨next.child text, event, by simp [next, Cursor.file, child, ofText, start, site], rfl, ?_⟩
  let inner : Eval Value := fun engine =>
    .finished (.ok (.ofNat (engine.lastWorker + 1)))
      ((engine.note event).launch (next.child text) false).1
  have identifier : Text.isIdentifier "thread".toList = true := by decide
  show _ = inner engine
  refine evaluateAll_call identifier rfl whole keyword (by simp) ?_ ended
  unfold evaluateHandler runKeyword runWorker
  show (Eval.ofRead ((cursor.advanceBy 6).readBalanced '(' ')') >>= _) _ = _
  rw [read]
  simp only [Eval.ofRead, pure_bind, filled]
  rfl

/-- Joining the worker that was launched last pauses until it is done. -/
theorem joinWorker_launched (engine : Engine) (place : Cursor) :
    joinWorker (engine.lastWorker + 1) (engine.launch place false).1 =
      .paused (.result (engine.lastWorker + 1))
        ((engine.launch place false).1.await (engine.lastWorker + 1))
        (takeResult (engine.lastWorker + 1)) := by
  have joinable : (engine.launch place false).1.joinable? (engine.lastWorker + 1) =
      some ⟨engine.lastWorker + 1, false, false, none⟩ := by
    simp [Engine.launch, Engine.joinable?]
  unfold joinWorker
  rw [Eval.get_bind, joinable]
  rfl

/-- The launch of a worker is an argument with the number of the worker. -/
theorem evaluateArgs_threadText (depth : Nat) {site : Site} (balanced : Balanced nothing text)
    (starts : ∃ c tail, text = c :: tail ∧ Text.isBlank c = false)
    (keyword : engine.resolve? "thread" site.file = some (.keyword .threadKeyword)) :
    ∃ (place : Cursor) (event : Event), place.file = site.file ∧ place.rest = text ∧
      evaluateArgs (evaluator (depth + 1)) site [threadText text] engine =
        .finished (.ok [⟨none, threadText text, .ofNat (engine.lastWorker + 1)⟩])
          ((engine.note event).launch place false).1 := by
  have named : engine.resolve? "thread" (Cursor.ofText site (threadText text)).file =
      some (.keyword .threadKeyword) := keyword
  obtain ⟨place, event, inFile, shape, launched⟩ :=
    evaluateAll_threadText depth balanced starts named rfl
  refine ⟨place, event, inFile, shape, ?_⟩
  have value : evaluateAs (evaluator (depth + 1)) .argument site (threadText text) engine =
      .finished (.ok (.ofNat (engine.lastWorker + 1))) ((engine.note event).launch place false).1 :=
    Eval.bind_ok launched _
  unfold evaluateArgs
  rw [splitNamed_threadText]
  exact Eval.bind_ok value _

/-- Evaluating a worker whose result is taken at once launches it and pauses until it is done. -/
theorem evaluateText_joinText (depth : Nat) {site : Site} (balanced : Balanced nothing text)
    (starts : ∃ c tail, text = c :: tail ∧ Text.isBlank c = false)
    (native : engine.resolve? "join" site.file = some (.native joinNative))
    (keyword : engine.resolve? "thread" site.file = some (.keyword .threadKeyword))
    (index : (Value.ofNat (engine.lastWorker + 1)).toIndex = .ok (engine.lastWorker + 1)) :
    ∃ (place : Cursor) (event : Event), place.file = site.file ∧ place.rest = text ∧
      evaluateText (evaluator (depth + 2)) site (joinText text) engine =
        .paused (.result (engine.lastWorker + 1))
          (((engine.note event).launch place false).1.await (engine.lastWorker + 1))
          (takeResult (engine.lastWorker + 1)) := by
  let cursor := Cursor.ofText site (joinText text)
  let next := (cursor.advanceBy 4).advanceBy ((threadText text).length + 2)
  have behindWord : (cursor.advanceBy 4).rest = '(' :: (threadText text ++ ')' :: []) := by
    rw [advanceBy_rest]
    rfl
  have ended : next.rest = [] := by
    rw [advanceBy_rest, behindWord, List.drop_eq_nil_iff]
    simp
  have file : next.site.file = site.file := by
    simp [next, cursor, Cursor.site, Cursor.file, ofText, start]
  -- The only argument is the launch, which is evaluated as a text of its own.
  have isPart : ∀ part ∈ [threadText text], IsPart ',' part := by
    simpa using threadText_isPart balanced
  have args : readArgs (evaluator (depth + 1)) (cursor.advanceBy 4) = (do
      let args ← evaluateArgs (evaluator (depth + 1)) next.site [threadText text]
      return (args, next)) := by
    rw [readArgs_listed isPart behindWord]
    rfl
  obtain ⟨place, event, inFile, shape, one⟩ :=
    evaluateArgs_threadText depth balanced starts (file.symm ▸ keyword)
  refine ⟨place, event, inFile.trans file, shape, ?_⟩
  let inner : Eval Value := do
    let args ← evaluateArgs (evaluator (depth + 1)) next.site [threadText text]
    callNative (evaluator (depth + 1)) next.site joinNative (args.map (·.value))
  have handled : evaluateHandler (evaluator (depth + 1)) (.native joinNative) (cursor.advanceBy 4) engine =
      (do let value ← inner; return (value, next)) engine := by
    unfold evaluateHandler
    dsimp only
    rw [args]
    simp only [inner, bind_assoc, pure_bind]
  have identifier : Text.isIdentifier "join".toList = true := by decide
  have called : evaluateAll (evaluator (depth + 1 + 1)) cursor engine = inner engine :=
    evaluateAll_call identifier rfl rfl native (by simp) handled ended
  refine called.trans ?_
  refine (Eval.bind_ok one _).trans ?_
  show (do joinWorker (← Eval.ofResult (Value.ofNat (engine.lastWorker + 1)).toIndex))
    ((engine.note event).launch place false).1 = _
  rw [index]
  show joinWorker (engine.lastWorker + 1) ((engine.note event).launch place false).1 = _
  exact joinWorker_launched (engine.note event) place

/-- The host's thread is alone: no worker is at work, and those whose results have not been taken have
numbers that were given. -/
structure Interpreter.Alone (interpreter : Interpreter) : Prop where
  threads : interpreter.threads = []
  launched : interpreter.engine.launched = []
  given : ∀ worker ∈ interpreter.engine.workers, worker.id ≤ interpreter.engine.lastWorker

namespace Interpreter

variable {interpreter : Interpreter}

/-- A turn ends where the thread pauses. -/
theorem takeTurn_paused (interpreter : Interpreter) {thread : Thread α} {wait : Wait} {resume : Engine → Step α}
    (ran : thread.resume (thread.enter interpreter.engine) = .paused wait engine resume) :
    interpreter.takeTurn thread =
      (.inr ⟨thread.id, engine.stack, engine.calls, engine.events, engine.callLog,
          max interpreter.now thread.readyAt + wait.duration, wait, resume⟩,
        { interpreter with engine, now := max interpreter.now thread.readyAt }.startLaunched) := by
  unfold takeTurn
  rw [ran]

/-- A turn ends where the thread is done. -/
theorem takeTurn_finished (interpreter : Interpreter) (thread : Thread α) {result : Except Stop α}
    (ran : thread.resume (thread.enter interpreter.engine) = .finished result engine) :
    interpreter.takeTurn thread = (.inl result,
      { interpreter with engine, now := max interpreter.now thread.readyAt }.startLaunched) := by
  unfold takeTurn
  rw [ran]

variable {main paused : Thread α} {behind : Interpreter}

/-- Where no worker is at work, the host's thread takes its turn and pauses. -/
theorem drive_paused (none : interpreter.threads = [])
    (ready : main.canGoOn interpreter.engine = true)
    (turn : interpreter.takeTurn main = (.inr paused, behind)) (turns : Nat) :
    drive (turns + 1) interpreter main = drive turns behind paused := by
  rw [drive, nextThread?, none]
  simp only [List.filter_nil, ready, if_true, turn]

/-- Where no worker is at work, the host's thread takes its last turn. -/
theorem drive_finished {result : Except Stop α} (none : interpreter.threads = [])
    (ready : main.canGoOn interpreter.engine = true)
    (turn : interpreter.takeTurn main = (.inl result, behind)) (turns : Nat) :
    drive (turns + 1) interpreter main = (result, behind) := by
  rw [drive, nextThread?, none]
  simp only [List.filter_nil, ready, if_true, turn]

/-- Where the host's thread waits for something else, the only worker takes its turn. -/
theorem drive_worker {worker : Thread Value} (only : interpreter.threads = [worker])
    (ready : worker.canGoOn interpreter.engine = true)
    (waits : main.canGoOn interpreter.engine = false) (turns : Nat) :
    drive (turns + 1) interpreter main = drive turns (interpreter.advance worker) main := by
  rw [drive, nextThread?, only]
  simp [ready, waits]

/-- Workers with other numbers are left as they are. -/
theorem map_others {workers : List Worker} {id : Nat} (fresh : ∀ worker ∈ workers, worker.id ≠ id)
    (change : Worker → Worker) :
    workers.map (fun worker => if worker.id = id then change worker else worker) = workers := by
  refine (List.map_congr_left fun worker member => ?_).trans (List.map_id' _)
  rw [if_neg (fresh worker member)]

/-- A thread that launches a worker and waits for it leaves a worker with a new number. -/
theorem await_launch (engine : Engine) {id : Nat} (number : engine.lastWorker + 1 = id)
    (fresh : ∀ worker ∈ engine.workers, worker.id ≠ id) (place : Cursor) :
    (engine.launch place false).1.await id =
      { engine with
        lastWorker := id
        workers := ⟨id, false, true, none⟩ :: engine.workers
        launched := engine.launched ++ [⟨id, place, engine.stack.fork⟩] } := by
  have others := map_others fresh fun worker => { worker with awaited := true }
  simp [Engine.launch, Engine.await, number, others]

/-- A worker that is waited for leaves its result. -/
theorem finishWorker_awaited {engine : Engine} {id : Nat} (others : List Worker)
    (listed : engine.workers = ⟨id, false, true, none⟩ :: others)
    (fresh : ∀ worker ∈ others, worker.id ≠ id) (outcome : Except Stop Value) :
    engine.finishWorker id outcome =
      { engine with workers := ⟨id, false, true, some outcome⟩ :: others } := by
  have kept := map_others fresh fun worker => { worker with result := some outcome }
  have attached : others.any (fun worker => worker.id == id && worker.detached) = false := by
    simpa using fun worker member same => absurd same (fresh worker member)
  simp [Engine.finishWorker, listed, attached, kept]

/-- A result that is there is taken, whatever it is. -/
theorem takeResult_found {engine : Engine} {id : Nat} {outcome : Except Stop Value}
    (found : engine.resultOf? id = some outcome) :
    ∃ behind, takeResult id engine = .finished outcome behind := by
  unfold takeResult
  rw [Eval.get_bind, found]
  -- An interruption is noted once more, and any other failure is handed on.
  cases outcome with
  | ok value => exact ⟨_, rfl⟩
  | error stop =>
    by_cases interrupts : stop.interrupts
    · simp only [interrupts, if_true]
      exact ⟨_, rfl⟩
    · simp only [interrupts]
      exact ⟨_, rfl⟩

/-- The thread of a launched worker, in front of its first turn. -/
def threadOf (launch : Launch) (now : Nat) : Thread Value :=
  ⟨launch.id, launch.stack, [], [], [], now + startTime, .turn, launch.run hostEvaluator⟩

/-- Behind a turn in which the host's thread launches a worker and waits for it, the worker is the only
one at work. -/
theorem takeTurn_launching (interpreter : Interpreter) {waiting : Engine} {launch : Launch}
    {resume : Engine → Step α} (none : interpreter.threads = []) (unlaunched : waiting.launched = [])
    (ran : main.resume (main.enter interpreter.engine) =
      .paused (.result launch.id) { waiting with launched := [launch] } resume) :
    interpreter.takeTurn main =
      (.inr ⟨main.id, waiting.stack, waiting.calls, waiting.events, waiting.callLog,
          max interpreter.now main.readyAt, .result launch.id, resume⟩,
        ⟨waiting, [threadOf launch (max interpreter.now main.readyAt)],
          max interpreter.now main.readyAt⟩) := by
  have same : ({ waiting with launched := [] } : Engine) = waiting := by rw [← unlaunched]
  refine (takeTurn_paused interpreter ran).trans ?_
  simp [startLaunched, threadOf, Wait.duration, none, same]

/-- The last turn of the only worker, which is waited for, leaves its result. -/
theorem advance_awaited (interpreter : Interpreter) {worker : Thread Value} {others : List Worker}
    {outcome : Except Stop Value} {last : Engine} (only : interpreter.threads = [worker])
    (unlaunched : last.launched = []) (listed : last.workers = ⟨worker.id, false, true, .none⟩ :: others)
    (fresh : ∀ other ∈ others, other.id ≠ worker.id)
    (ended : worker.resume (worker.enter interpreter.engine) = .finished outcome last) :
    interpreter.advance worker =
      ⟨{ last with workers := ⟨worker.id, false, true, some outcome⟩ :: others }, [],
        max interpreter.now worker.readyAt⟩ := by
  have same : ({ last with launched := [] } : Engine) = last := by rw [← unlaunched]
  unfold advance
  rw [takeTurn_finished interpreter worker ended]
  simp only [startLaunched, unlaunched, same, only, List.map_nil, List.append_nil]
  rw [finishWorker_awaited others listed fresh]
  simp [unlaunched]

/-- A worker ends with what its expression yields, which is returned. -/
theorem run_launch {launch : Launch} {start : Engine} {result : Result Value}
    (settles : Settles start (evaluateAll hostEvaluator launch.cursor) result) :
    ∃ events signalUses, launch.run hostEvaluator start =
      .finished ((result.map Value.returned).mapError .failed) { start with events, signalUses } := by
  obtain ⟨_, ⟨events, signalUses, rfl⟩, ran⟩ := settles start (.refl start)
  refine ⟨events, signalUses, ?_⟩
  unfold Launch.run
  rw [map_eq_pure_bind]
  -- A value is handed out as returned, and a failure as it is.
  cases result with
  | ok value => exact Eval.bind_ok ran _
  | error failure => exact Eval.bind_error ran _

/-- A thread that is alone gets the result of a worker that it launches and waits for. -/
theorem run_joined (alone : interpreter.Alone) {body : Eval Value} {place : Cursor} {event : Event}
    {result : Result Value}
    (pauses : body interpreter.engine = .paused (.result (interpreter.engine.lastWorker + 1))
      (((interpreter.engine.note event).launch place false).1.await
        (interpreter.engine.lastWorker + 1)) (takeResult (interpreter.engine.lastWorker + 1)))
    (settles : ∀ start : Engine, start.symbols = interpreter.engine.symbols →
      start.stack = interpreter.engine.stack.fork →
        Settles start (evaluateAll hostEvaluator place) result) :
    ∃ final, interpreter.run body = ((result.map Value.returned).mapError .failed, final) := by
  obtain ⟨engine, threads, now⟩ := interpreter
  obtain ⟨rfl, unlaunched, given⟩ := alone
  dsimp only at unlaunched given pauses settles ⊢
  generalize number : engine.lastWorker + 1 = id at pauses
  have fresh : ∀ worker ∈ engine.workers, worker.id ≠ id := fun worker member same =>
    absurd (given worker member) (by omega)
  let launch : Launch := ⟨id, place, engine.stack.fork⟩
  let waiting : Engine :=
    { engine.note event with
      lastWorker := id, workers := ⟨id, false, true, none⟩ :: engine.workers }
  have awaited : ((engine.note event).launch place false).1.await id =
      { waiting with launched := [launch] } := by
    rw [await_launch (engine.note event) number fresh]
    simp [waiting, launch, Engine.note, unlaunched]
  rw [awaited] at pauses
  have idle : waiting.launched = [] := unlaunched
  -- In the first turn the thread launches the worker and pauses.
  let main : Thread Value :=
    ⟨engine.thread, engine.stack, engine.calls, engine.events, engine.callLog, now, .turn, body⟩
  let paused : Thread Value :=
    ⟨engine.thread, waiting.stack, waiting.calls, waiting.events, waiting.callLog, max now now,
      .result id, takeResult id⟩
  let worker := threadOf launch (max now now)
  have launches : main.resume (main.enter engine) =
      .paused (.result launch.id) { waiting with launched := [launch] } (takeResult id) := pauses
  have first : takeTurn ⟨engine, [], now⟩ main = (.inr paused, ⟨waiting, [worker], max now now⟩) :=
    takeTurn_launching ⟨engine, [], now⟩ rfl idle launches
  -- In the second one the worker evaluates the expression and leaves its result.
  let outcome : Except Stop Value := (result.map Value.returned).mapError .failed
  obtain ⟨events, signalUses, ended⟩ : ∃ events signalUses, launch.run hostEvaluator
      (worker.enter waiting) = .finished outcome { worker.enter waiting with events, signalUses } :=
    run_launch (settles (worker.enter waiting) rfl rfl)
  let last : Engine := { worker.enter waiting with events, signalUses }
  let done : Engine := { last with workers := ⟨id, false, true, some outcome⟩ :: engine.workers }
  have second : advance ⟨waiting, [worker], max now now⟩ worker =
      ⟨done, [], max (max now now) worker.readyAt⟩ :=
    advance_awaited ⟨waiting, [worker], max now now⟩ rfl (show last.launched = [] from idle) rfl fresh ended
  -- In the third one the thread takes the result.
  have found : (paused.enter done).resultOf? id = some outcome := by
    simp [Engine.resultOf?, Thread.enter, done]
  obtain ⟨left, taken⟩ := takeResult_found found
  have third := takeTurn_finished ⟨done, [], max (max now now) worker.readyAt⟩ paused taken
  have waits : paused.canGoOn waiting = false := by
    simp [Thread.canGoOn, paused, Engine.resultOf?, waiting]
  have ready : paused.canGoOn done = true := by
    simp [Thread.canGoOn, paused, Engine.resultOf?, done]
  have turns : turnLimit = 999_999_997 + 1 + 1 + 1 := rfl
  unfold run
  dsimp only
  rw [turns, drive_paused rfl rfl first, drive_worker (show _ = [worker] from rfl) rfl waits, second,
    drive_finished rfl ready third]
  exact ⟨_, rfl⟩

/-- A thread that is alone gets what a computation without pauses yields. -/
theorem run_settles (alone : interpreter.Alone) {body : Eval α} {result : Result α}
    (settles : Settles interpreter.engine body result) :
    ∃ final, interpreter.run body = (result.mapError .failed, final) := by
  obtain ⟨after, _, ran⟩ := settles interpreter.engine (.refl _)
  have turns : turnLimit = 999_999_999 + 1 := rfl
  unfold run
  dsimp only
  rw [turns]
  exact ⟨_, drive_finished alone.threads rfl (takeTurn_finished _ _ ran) _⟩

end Interpreter

/-- Scripts of a file reach the launch of workers and the taking of results by the names that these
have from the start, and the next worker has a number that can be an index. -/
structure Engine.CanJoin (engine : Engine) (file : String) : Prop where
  native : engine.resolve? "join" file = some (.native joinNative)
  keyword : engine.resolve? "thread" file = some (.keyword .threadKeyword)
  index : (Value.ofNat (engine.lastWorker + 1)).toIndex = .ok (engine.lastWorker + 1)

/-- A worker starts with a view in which each name stands for what it does for the launcher, exactly
unless the launcher finds the name by the namespace of its active frame and the name stands for
something else outside all frames. An expression over names without that exception has as the result
of a worker the meaning that it has for the launcher, but for a stored signal to return, which is
unwrapped. -/
theorem worker_agrees_with_launcher (interpreter : Interpreter) (site : Site) :
    (∀ cursor detached name, interpreter.engine.LeavesToNamespace name →
      ((interpreter.engine.workerStart cursor detached).resolve? name site.file =
          interpreter.engine.resolve? name site.file ↔
        interpreter.engine.SeenOutside name site.file)) ∧
    ∀ (values : Name → Option Value) (expr : Expr) (meaning : Result Value),
      interpreter.Alone → interpreter.engine.CanJoin site.file →
      interpreter.engine.Binds site.file values →
      (∀ name value, values name = some value →
        interpreter.engine.LeavesToNamespace (String.ofList name.text) ∧
          interpreter.engine.SeenOutside (String.ofList name.text) site.file) →
      expr.value? values = some meaning → expr.height < nestingLimit →
        (∃ direct, interpreter.run (evaluateText hostEvaluator site expr.text) =
          (meaning.mapError .failed, direct)) ∧
        ∃ joined, interpreter.run (evaluateText hostEvaluator site (joinText expr.text)) =
          ((meaning.map Value.returned).mapError .failed, joined) := by
  refine ⟨fun cursor detached name leaves =>
    Engine.resolve?_workerStart_iff cursor detached leaves, ?_⟩
  intro values expr meaning alone canJoin binds seen found deep
  constructor
  · have yields : expr.Yields interpreter.engine site.file meaning := Expr.yields binds found
    exact interpreter.run_settles alone (yields.all deep rfl rfl)
  · have begins := (Expr.yields binds found).begins
    have balanced : Balanced nothing expr.text := (expr.print_balanced (Nat.zero_le _)).lax
    have nesting : nestingLimit = 999_999_998 + 2 := rfl
    obtain ⟨place, event, inFile, shape, pauses⟩ :=
      evaluateText_joinText 999_999_998 balanced begins.solid canJoin.native canJoin.keyword
        canJoin.index
    rw [← nesting] at pauses
    refine interpreter.run_joined alone pauses fun start symbols stack => ?_
    -- For the worker the names are bound as they are for the launcher.
    have bindsToo : start.Binds site.file values := by
      intro name value bound
      obtain ⟨qualifies, resolved⟩ := binds name value bound
      obtain ⟨leaves, outside⟩ := seen name value bound
      refine ⟨symbols ▸ qualifies, ?_⟩
      have same : start.resolve? (String.ofList name.text) site.file =
          (interpreter.engine.workerStart place false).resolve? (String.ofList name.text) site.file :=
        Engine.resolve?_congr stack symbols
      rw [same, (Engine.resolve?_workerStart_iff place false leaves).mpr outside, resolved]
    exact (Expr.yields bindsToo found).all deep inFile shape

/-- An interpreter with one frame, in which a variable is true. -/
def truthIn (kind : FrameKind) : Interpreter where
  engine := { Engine.new {} {} with
    stack := { frames := [⟨1, kind, OrderedMap.empty.insert "x" (.variable (.ofBool true))⟩], lastId := 1 } }

/-- In a call without a namespace, a worker has the value of the variable. -/
theorem worker_agrees_with_launcher_withinCall :
    ∃ joined, (truthIn (.call "f" none)).run
        (evaluateText hostEvaluator ⟨"main", 1⟩ "join(thread(x))".toList) =
      (.ok (.ofBool true), joined) := by
  have alone : (truthIn (.call "f" none)).Alone := ⟨rfl, rfl, nofun⟩
  have canJoin : (truthIn (.call "f" none)).engine.CanJoin "main" :=
    ⟨rfl, rfl, by decide +kernel⟩
  have binds : (truthIn (.call "f" none)).engine.Binds "main" truthValue? := by
    rintro ⟨first, members, free⟩ value bound
    unfold truthValue? at bound
    split at bound
    case isTrue same =>
      obtain ⟨word, rfl⟩ := same
      cases bound
      refine ⟨trivial, ?_⟩
      simp only [Name.text, Name.membersText, List.flatMap_nil, List.append_nil]
      rw [word]
      rfl
    case isFalse => cases bound
  have seen : ∀ name value, truthValue? name = some value →
      (truthIn (.call "f" none)).engine.LeavesToNamespace (String.ofList name.text) ∧
        (truthIn (.call "f" none)).engine.SeenOutside (String.ofList name.text) "main" := by
    refine fun name value _ => ⟨fun frame space active kind => ?_, fun _ handler found => ?_⟩
    · cases active
      cases kind
    · cases found
  exact ((worker_agrees_with_launcher (truthIn (.call "f" none)) ⟨"main", 1⟩).2 truthValue? truthOperand
    (.ok (.ofBool true)) alone canJoin binds seen rfl (by decide)).2

/-- A script that takes the result of a worker within a namespace block. -/
def namespaceJoin : String := "namespace n { x = 1; t = thread(x); r = join(t); }"

/-- The cause for which a request failed. -/
def failureCause? {α : Type} : Except Stop α → Option Cause
  | .error (.failed failure) => some failure.cause
  | _ => none

/-- The worker of a namespace block does not find a name that its launcher has bound there. -/
theorem worker_misses_namespace :
    failureCause? ((Interpreter.new {} {}).process namespaceJoin "main" true).1 =
        some (.unknownSymbol "x") ∧
      (((Interpreter.new {} {}).process namespaceJoin "main" true).2.engine.resolve?
        "n.x" "main").isSome = true := by
  decide +kernel

end ScriptEngine
