import ScriptEngine.Eval.Loop
import ScriptEngine.Proofs.Ends

/-! Loops count their passes. All forms of loops are one course: passes follow each other as long as
another one is wanted, each within the limit, and the course closes in one of seven ways. -/

namespace ScriptEngine

variable {α β : Type} {allows : Engine → Engine → Prop} {start final : Engine}

/-! Passes are admitted. -/

namespace Eval

/-- Giving way to other threads goes on at once or behind a pause. -/
theorem giveWay_cases (start : Engine) :
    giveWay start = .finished (.ok ()) start ∨ giveWay start = (pause .turn : Eval Unit) start := by
  unfold giveWay
  rw [get_bind]
  cases start.isAlone with
  | true => exact .inl rfl
  | false => exact .inr rfl

/-- Giving way to other threads does not fail. -/
theorem mayEnd_giveWay {result : Except Stop Unit} (ends : (giveWay start).MayEnd allows result final) :
    result = .ok () := by
  rcases giveWay_cases start with same | same
  · rw [same] at ends
    exact (Step.mayEnd_finished.mp ends).1
  · rw [same] at ends
    obtain _ | ⟨_, ends⟩ := ends
    exact (Step.mayEnd_finished.mp ends).1

end Eval

/-! The parts of loops. -/

/-- What a body that has this value makes of the loop around it, if it ends the loop: a `break` leaves
nothing, and `return` and `quit` go on as they are. -/
def Value.leavesLoop? (value : Value) : Option Value :=
  match value.data with
  | .breakSignal => some .null
  | .returnSignal _ => some value
  | .quitSignal _ => some value
  | _ => none

/-- The parts of a loop, where passes are counted from 0. -/
structure LoopParts where
  /-- Whether another pass is wanted behind so many. -/
  wants : Nat → Eval Bool
  body : Nat → Eval Value
  /-- What stands behind each pass that does not end the loop. -/
  step : Eval Unit

namespace LoopParts

/-- A loop whose condition is tested in front of each pass. -/
def pretested (condition : Eval Bool) (body : Eval Value) (step : Eval Unit) : LoopParts where
  wants _ := condition
  body _ := body
  step := step

/-- A loop whose condition is tested behind each pass. -/
def posttested (condition : Eval Bool) (body : Eval Value) : LoopParts where
  wants count := if count = 0 then pure true else condition
  body _ := body
  step := pure ()

/-- A loop with a pass for each element, `visit` having made the element known to it. -/
def each (visit : Value → Eval Unit) (elements : List Value) (body : Eval Value) : LoopParts where
  wants count := pure (count < elements.length)
  body count := do
    if let some element := elements[count]? then visit element
    body
  step := pure ()

variable (parts : LoopParts)

/-- Another pass is wanted behind so many, and the other threads have had their turn. -/
def Wanted (allows : Engine → Engine → Prop) (count : Nat) (start turned : Engine) : Prop :=
  ∃ tested, (parts.wants count start).MayEnd allows (.ok true) tested ∧
    (Eval.giveWay tested).MayEnd allows (.ok ()) turned

/-- The body is entered for another pass and ends: the pass was wanted, and no end was asked for. -/
def Enters (allows : Engine → Engine → Prop) (count : Nat) (start : Engine)
    (result : Except Stop Value) (final : Engine) : Prop :=
  ∃ turned, parts.Wanted allows count start turned ∧ turned.look.cancelled = false ∧
    (parts.body count turned.look.startPass).MayEnd allows result final

/-- Passes follow each other from one count to another, none of which ends the loop. -/
inductive Passed (allows : Engine → Engine → Prop) : Nat → Engine → Nat → Engine → Prop
  | none (count : Nat) (start : Engine) : Passed allows count start count start
  | more {count last : Nat} {start left after reached : Engine} {value : Value}
      (enters : parts.Enters allows count start (.ok value) left) (stays : value.leavesLoop? = none)
      (steps : (parts.step left).MayEnd allows (.ok ()) after)
      (rest : Passed allows (count + 1) after last reached) : Passed allows count start last reached

/-- How a loop closes that has passed so often and may enter its body so often in all; the second count
is how often it has. -/
inductive Closes (allows : Engine → Engine → Prop) (limit count : Nat) (start : Engine) :
    Nat → Except Stop Value → Engine → Prop
  /-- No further pass is wanted. -/
  | enough {final : Engine} (enough : (parts.wants count start).MayEnd allows (.ok false) final) :
    Closes allows limit count start count (.ok .null) final
  | undecided {stop : Stop} {final : Engine}
      (fails : (parts.wants count start).MayEnd allows (.error stop) final) :
    Closes allows limit count start count (.error stop) final
  | interrupted {turned : Engine} (wanted : parts.Wanted allows count start turned)
      (cancelled : turned.look.cancelled = true) :
    Closes allows limit count start count (.error (.failed ⟨.interrupted, []⟩))
      (turned.look.note .interrupted)
  /-- A further pass is wanted beyond the limit. -/
  | tooMany {turned : Engine} (wanted : parts.Wanted allows count start turned)
      (free : turned.look.cancelled = false) (spent : count = limit) :
    Closes allows limit count start count
      (.error (.failed ⟨.infiniteLoop turned.config.maxLoopIterations, []⟩)) turned.look
  /-- A `break`, `return` or `quit` leaves the loop at once. -/
  | leaves {value result : Value} {final : Engine} (within : count < limit)
      (enters : parts.Enters allows count start (.ok value) final)
      (leaves : value.leavesLoop? = some result) :
    Closes allows limit count start (count + 1) (.ok result) final
  | failed {stop : Stop} {final : Engine} (within : count < limit)
      (enters : parts.Enters allows count start (.error stop) final) :
    Closes allows limit count start (count + 1) (.error stop) final
  | unstepped {value : Value} {stop : Stop} {left final : Engine} (within : count < limit)
      (enters : parts.Enters allows count start (.ok value) left) (stays : value.leavesLoop? = none)
      (fails : (parts.step left).MayEnd allows (.error stop) final) :
    Closes allows limit count start (count + 1) (.error stop) final

/-- Runs a loop from its parts, behind so many passes and with so many left. -/
def run : Nat → Nat → Eval Value
  | 0, count => do
    if ← parts.wants count then
      admitPass 0
      return .null
    else return .null
  | left + 1, count => do
    if ← parts.wants count then
      admitPass (left + 1)
      let value ← parts.body count
      match value.leavesLoop? with
      | some result => return result
      | none =>
        parts.step
        run left (count + 1)
    else return .null

/-! The course of a loop. -/

section Course

variable {count left limit last entered : Nat} {result : Except Stop Value}

/-- What is admitted behind the turn of the other threads: an end that was asked for comes first, then
the limit. -/
theorem admits_eq (left : Nat) (turned : Engine) :
    (do
      Eval.checkCancelled
      if left = 0 then Eval.throwCause (.infiniteLoop (← get).config.maxLoopIterations)
      modify (·.startPass) : Eval Unit) turned =
      if turned.look.cancelled then
        .finished (.error (.failed ⟨.interrupted, []⟩)) (turned.look.note .interrupted)
      else if left = 0 then
        .finished (.error (.failed ⟨.infiniteLoop turned.config.maxLoopIterations, []⟩)) turned.look
      else .finished (.ok ()) turned.look.startPass := by
  have config : turned.look.config = turned.config := by
    unfold Engine.look
    split <;> rfl
  -- The check stops with a note if an end was asked for.
  have checked : Eval.checkCancelled turned =
      if turned.look.cancelled then
        .finished (.error (.failed ⟨.interrupted, []⟩)) (turned.look.note .interrupted)
      else .finished (.ok ()) turned.look := by
    unfold Eval.checkCancelled
    show (if turned.look.cancelled = true then _ else _ : Eval Unit) turned.look = _
    split <;> rfl
  by_cases cancelled : turned.look.cancelled = true
  · rw [if_pos cancelled] at checked ⊢
    exact Eval.bind_error checked _
  · rw [if_neg cancelled] at checked ⊢
    refine (Eval.bind_ok checked _).trans ?_
    split
    · rw [← config]
      rfl
    · rfl

/-- The ends of the admission of a pass. -/
theorem mayEnd_admitPass {result : Except Stop Unit} :
    (admitPass left start).MayEnd allows result final ↔
      ∃ turned, (Eval.giveWay start).MayEnd allows (.ok ()) turned ∧
        ((turned.look.cancelled = true ∧ result = .error (.failed ⟨.interrupted, []⟩) ∧
            final = turned.look.note .interrupted) ∨
          turned.look.cancelled = false ∧
            (left = 0 ∧ final = turned.look ∧
                result = .error (.failed ⟨.infiniteLoop turned.config.maxLoopIterations, []⟩) ∨
              left ≠ 0 ∧ final = turned.look.startPass ∧ result = .ok ())) := by
  unfold admitPass
  rw [Eval.mayEnd_bind]
  -- Giving way never fails, so that what the check says decides.
  constructor
  · rintro (⟨stop, rfl, fails⟩ | ⟨⟨⟩, turned, turns, admits⟩)
    · cases Eval.mayEnd_giveWay fails
    · refine ⟨turned, turns, ?_⟩
      rw [admits_eq] at admits
      split at admits
      · exact .inl ⟨‹_›, Step.mayEnd_finished.mp admits⟩
      case isFalse free =>
        refine .inr ⟨by simpa using free, ?_⟩
        split at admits
        · exact .inl ⟨‹_›, (Step.mayEnd_finished.mp admits).symm⟩
        · exact .inr ⟨‹_›, (Step.mayEnd_finished.mp admits).symm⟩
  · rintro ⟨turned, turns, admits⟩
    refine .inr ⟨(), turned, turns, ?_⟩
    rw [admits_eq]
    rcases admits with ⟨cancelled, rfl, rfl⟩ | ⟨free, ⟨spent, rfl, rfl⟩ | ⟨some, rfl, rfl⟩⟩
    · rw [if_pos cancelled]
      exact .finished
    · rw [if_neg (by simp [free]), if_pos spent]
      exact .finished
    · rw [if_neg (by simp [free]), if_neg some]
      exact .finished

variable {parts}

/-- Passes only add to the count. -/
theorem Passed.le {reached : Engine} (passed : parts.Passed allows count start last reached) :
    count ≤ last := by
  induction passed with
  | none => exact Nat.le_refl _
  | more _ _ _ _ ih => exact Nat.le_of_succ_le ih

/-- A body is entered only for a pass within the limit. -/
theorem Closes.entered_le (closes : parts.Closes allows limit count start entered result final)
    (within : count ≤ limit) : entered ≤ limit := by
  cases closes <;> omega

/-- A loop has entered its body for each pass. -/
theorem Closes.count_le (closes : parts.Closes allows limit count start entered result final) :
    count ≤ entered := by
  cases closes <;> omega

/-- A loop closes in front of its body, or enters it for a pass that was wanted. -/
theorem mayEnd_opening {next : Eval Value} :
    ((parts.wants count >>= fun wanted =>
        if wanted then admitPass left >>= fun _ => next else return .null) start).MayEnd
        allows result final ↔
      parts.Closes allows (count + left) count start count result final ∨
        ∃ turned, parts.Wanted allows count start turned ∧ turned.look.cancelled = false ∧ left ≠ 0 ∧
          (next turned.look.startPass).MayEnd allows result final := by
  rw [Eval.mayEnd_bind]
  constructor
  · rintro (⟨stop, rfl, fails⟩ | ⟨wanted, tested, decides, ends⟩)
    · exact .inl (.undecided fails)
    · -- No further pass is wanted, or the admission decides.
      cases wanted with
      | false =>
        obtain ⟨rfl, rfl⟩ := Eval.mayEnd_pure.mp ends
        exact .inl (.enough decides)
      | true =>
        rw [if_pos rfl, Eval.mayEnd_bind] at ends
        rcases ends with ⟨stop, rfl, fails⟩ | ⟨⟨⟩, middle, admits, ends⟩
        · obtain ⟨turned, turns, ⟨cancelled, same, rfl⟩ | ⟨free, ⟨rfl, rfl, same⟩ | ⟨_, _, same⟩⟩⟩ :=
            mayEnd_admitPass.mp fails
          · cases same
            exact .inl (.interrupted ⟨tested, decides, turns⟩ cancelled)
          · cases same
            exact .inl (.tooMany ⟨tested, decides, turns⟩ free rfl)
          · cases same
        · obtain ⟨turned, turns, ⟨_, same, _⟩ | ⟨free, ⟨_, _, same⟩ | ⟨some, rfl, _⟩⟩⟩ :=
            mayEnd_admitPass.mp admits
          · cases same
          · cases same
          · exact .inr ⟨turned, ⟨tested, decides, turns⟩, free, some, ends⟩
  · rintro (closes | ⟨turned, ⟨tested, decides, turns⟩, free, some, ends⟩)
    · cases closes with
      | enough enough => exact .inr ⟨false, final, enough, .finished⟩
      | undecided fails => exact .inl ⟨_, rfl, fails⟩
      | interrupted wanted cancelled =>
        obtain ⟨tested, decides, turns⟩ := wanted
        refine .inr ⟨true, tested, decides, ?_⟩
        rw [if_pos rfl, Eval.mayEnd_bind]
        exact .inl ⟨_, rfl, mayEnd_admitPass.mpr ⟨_, turns, .inl ⟨cancelled, rfl, rfl⟩⟩⟩
      | tooMany wanted free spent =>
        obtain ⟨tested, decides, turns⟩ := wanted
        refine .inr ⟨true, tested, decides, ?_⟩
        rw [if_pos rfl, Eval.mayEnd_bind]
        have none : left = 0 := by omega
        exact .inl ⟨_, rfl, mayEnd_admitPass.mpr ⟨_, turns, .inr ⟨free, .inl ⟨none, rfl, rfl⟩⟩⟩⟩
    · refine .inr ⟨true, tested, decides, ?_⟩
      rw [if_pos rfl, Eval.mayEnd_bind]
      exact .inr ⟨(), _, mayEnd_admitPass.mpr ⟨_, turns, .inr ⟨free, .inr ⟨some, rfl, rfl⟩⟩⟩, ends⟩

/-- A loop closes behind the passes so far, or goes on behind one more. -/
theorem mayEnd_run_succ :
    (parts.run (left + 1) count start).MayEnd allows result final ↔
      (∃ entered, parts.Closes allows (count + (left + 1)) count start entered result final) ∨
        ∃ value middle after, parts.Enters allows count start (.ok value) middle ∧
          value.leavesLoop? = none ∧ (parts.step middle).MayEnd allows (.ok ()) after ∧
            (parts.run left (count + 1) after).MayEnd allows result final := by
  have within : count < count + (left + 1) := by omega
  rw [run, mayEnd_opening]
  constructor
  · rintro (closes | ⟨turned, wanted, free, _, ends⟩)
    · exact .inl ⟨count, closes⟩
    · -- The body is entered: it fails, leaves the loop, or is followed by the step.
      rcases Eval.mayEnd_bind.mp ends with ⟨stop, rfl, fails⟩ | ⟨value, middle, ran, ends⟩
      · exact .inl ⟨count + 1, .failed within ⟨turned, wanted, free, fails⟩⟩
      have enters : parts.Enters allows count start (.ok value) middle := ⟨turned, wanted, free, ran⟩
      cases leaves : value.leavesLoop? with
      | some result =>
        rw [leaves] at ends
        obtain ⟨rfl, rfl⟩ := Eval.mayEnd_pure.mp ends
        exact .inl ⟨count + 1, .leaves within enters leaves⟩
      | none =>
        rw [leaves] at ends
        rcases Eval.mayEnd_bind.mp ends with ⟨stop, rfl, fails⟩ | ⟨⟨⟩, after, steps, ends⟩
        · exact .inl ⟨count + 1, .unstepped within enters leaves fails⟩
        · exact .inr ⟨value, middle, after, enters, leaves, steps, ends⟩
  · rintro (⟨entered, closes⟩ | ⟨value, middle, after, ⟨turned, wanted, free, ran⟩, stays, steps, ends⟩)
    · cases closes with
      | enough enough => exact .inl (.enough enough)
      | undecided fails => exact .inl (.undecided fails)
      | interrupted wanted cancelled => exact .inl (.interrupted wanted cancelled)
      | tooMany wanted free spent => exact .inl (.tooMany wanted free spent)
      -- Behind here the body has been entered, which the admission in front of it has to allow.
      | leaves _ enters leaves =>
        obtain ⟨turned, wanted, free, ran⟩ := enters
        refine .inr ⟨turned, wanted, free, by omega, Eval.mayEnd_bind.mpr (.inr ⟨_, _, ran, ?_⟩)⟩
        rw [leaves]
        exact .finished
      | failed _ enters =>
        obtain ⟨turned, wanted, free, ran⟩ := enters
        exact .inr ⟨turned, wanted, free, by omega, Eval.mayEnd_bind.mpr (.inl ⟨_, rfl, ran⟩)⟩
      | unstepped _ enters stays fails =>
        obtain ⟨turned, wanted, free, ran⟩ := enters
        refine .inr ⟨turned, wanted, free, by omega, Eval.mayEnd_bind.mpr (.inr ⟨_, _, ran, ?_⟩)⟩
        rw [stays]
        exact Eval.mayEnd_bind.mpr (.inl ⟨_, rfl, fails⟩)
    · refine .inr ⟨turned, wanted, free, by omega, Eval.mayEnd_bind.mpr (.inr ⟨_, _, ran, ?_⟩)⟩
      rw [stays]
      exact Eval.mayEnd_bind.mpr (.inr ⟨_, _, steps, ends⟩)

/-- A loop has the ends of its courses. -/
theorem mayEnd_run :
    (parts.run left count start).MayEnd allows result final ↔
      ∃ last reached entered, parts.Passed allows count start last reached ∧ last ≤ count + left ∧
        parts.Closes allows (count + left) last reached entered result final := by
  -- The induction is on the passes that are left.
  induction left generalizing count start with
  | zero =>
    rw [run, mayEnd_opening]
    constructor
    · rintro (closes | ⟨_, _, _, some, _⟩)
      · exact ⟨count, start, count, .none count start, Nat.le_refl _, closes⟩
      · exact absurd rfl some
    · rintro ⟨last, reached, entered, passed, le, closes⟩
      cases passed with
      | none =>
        refine .inl ?_
        cases closes with
        | enough enough => exact .enough enough
        | undecided fails => exact .undecided fails
        | interrupted wanted cancelled => exact .interrupted wanted cancelled
        | tooMany wanted free spent => exact .tooMany wanted free spent
        | leaves within | failed within | unstepped within => exact absurd within (Nat.lt_irrefl _)
      | more _ _ _ rest => exact absurd (Nat.le_trans rest.le le) (Nat.not_succ_le_self _)
  | succ left ih =>
    rw [mayEnd_run_succ]
    have sum : count + (left + 1) = count + 1 + left := by omega
    constructor
    · rintro (⟨entered, closes⟩ | ⟨value, middle, after, enters, stays, steps, ends⟩)
      · exact ⟨count, start, entered, .none count start, by omega, closes⟩
      · obtain ⟨last, reached, entered, passed, le, closes⟩ := ih.mp ends
        rw [sum]
        exact ⟨last, reached, entered, .more enters stays steps passed, le, closes⟩
    · rintro ⟨last, reached, entered, passed, le, closes⟩
      cases passed with
      | none => exact .inl ⟨entered, closes⟩
      | more enters stays steps rest =>
        rw [sum] at le closes
        exact .inr ⟨_, _, _, enters, stays, steps, ih.mpr ⟨last, reached, entered, rest, le, closes⟩⟩

end Course

end LoopParts

/-! The loops of the language have these parts. -/

/-- What goes on behind a pass goes on behind the body, unless that ends the loop. -/
theorem runPass_follow (eval : Evaluator) (site : Site) (body : List Char) (goesOn : Eval Value) :
    (do (← runPass eval site body).follow goesOn) = (do
      let value ← runText eval site body
      match value.leavesLoop? with
      | some result => return result
      | none => goesOn) := by
  unfold runPass
  rw [bind_assoc]
  refine bind_congr fun value => ?_
  rw [pure_bind]
  unfold Value.leavesLoop?
  cases value.data <;> rfl

section Forms

variable (eval : Evaluator) (site : Site) (body : List Char) (condition : Eval Bool)

/-- A loop with its condition in front is one with these parts. -/
theorem whileLoop_eq_run (step : Eval Unit) (left count : Nat) :
    whileLoop condition (runPass eval site body) step left =
      (LoopParts.pretested condition (runText eval site body) step).run left count := by
  -- The induction is on the passes that are left.
  induction left generalizing count with
  | zero => rfl
  | succ left ih =>
    unfold whileLoop LoopParts.run
    rw [ih (count + 1)]
    refine bind_congr fun held => ?_
    split
    · exact bind_congr fun _ => runPass_follow eval site body _
    · rfl

/-- A loop with its condition behind is one with these parts. -/
theorem doLoop_eq_run (left : Nat) :
    doLoop condition (runPass eval site body) left =
      (LoopParts.posttested condition (runText eval site body)).run left 0 := by
  -- Behind the first pass, the condition is tested in front of each further one.
  have further : ∀ left count,
      (condition >>= fun held =>
        if held then doLoop condition (runPass eval site body) left else return .null) =
        (LoopParts.posttested condition (runText eval site body)).run left (count + 1) := by
    intro left
    induction left with
    | zero => exact fun _ => rfl
    | succ left ih =>
      intro count
      unfold doLoop LoopParts.run
      refine bind_congr fun held => ?_
      split
      · refine bind_congr fun _ => ?_
        rw [runPass_follow, ih (count + 1)]
        rfl
      · rfl
  cases left with
  | zero => rfl
  | succ left =>
    unfold doLoop LoopParts.run
    refine bind_congr fun _ => ?_
    rw [runPass_follow, further left 0]
    rfl

/-- A loop over elements is one with these parts. -/
theorem eachLoop_eq_run (visit : Value → Eval Unit) (elements : List Value) (left count : Nat) :
    eachLoop visit (runPass eval site body) left (elements.drop count) =
      (LoopParts.each visit elements (runText eval site body)).run left count := by
  -- The induction is on the passes that are left; the elements are those behind the counted ones.
  induction left generalizing count with
  | zero =>
    by_cases more : count < elements.length
    · rw [List.drop_eq_getElem_cons more]
      simp [eachLoop, LoopParts.run, LoopParts.each, more]
    · rw [List.drop_eq_nil_of_le (Nat.le_of_not_lt more)]
      simp [eachLoop, LoopParts.run, LoopParts.each, more]
  | succ left ih =>
    by_cases more : count < elements.length
    · rw [List.drop_eq_getElem_cons more]
      simp only [eachLoop, runPass_follow, ih (count + 1)]
      simp [LoopParts.run, LoopParts.each, more]
    · rw [List.drop_eq_nil_of_le (Nat.le_of_not_lt more)]
      simp [eachLoop, LoopParts.run, LoopParts.each, more]

end Forms

/-- A loop in a script: how it is run, how its parts come about, and the cursor behind it. -/
inductive LoopStatement (eval : Evaluator) (cursor : Cursor) :
    Eval (Value × Cursor) → Eval LoopParts → Cursor → Prop
  | whileLoop {condition body : List Char} {headed behind : Cursor}
      (header : cursor.readBalanced '(' ')' = .ok (condition, headed))
      (block : headed.readBody = .ok (body, behind)) :
    LoopStatement eval cursor (runWhile eval cursor)
      (return .pretested (holds eval behind.site condition) (runText eval behind.site body) (pure ()))
      behind
  | doLoop {condition body : List Char} {next named headed behind : Cursor}
      (block : cursor.readBody = .ok (body, next)) (word : next.readToken = ("while", named))
      (header : named.readBalanced '(' ')' = .ok (condition, headed))
      (ended : headed.endStatement = .ok behind) :
    LoopStatement eval cursor (runDo eval cursor)
      (return .posttested (holds eval behind.site condition) (runText eval behind.site body)) behind
  | counted {header init condition step body : List Char} {headed behind : Cursor}
      (read : cursor.readBalanced '(' ')' = .ok (header, headed))
      (block : headed.readBody = .ok (body, behind))
      (parted : splitTopLevel header ';' = [init, condition, step]) :
    LoopStatement eval cursor (runFor eval cursor)
      (do
        runAside eval behind.site init
        return .pretested (holds eval behind.site condition) (runText eval behind.site body)
          (runAside eval behind.site step))
      behind
  | each {header text name source body : List Char} {headed behind : Cursor}
      (read : cursor.readBalanced '(' ')' = .ok (header, headed))
      (block : headed.readBody = .ok (body, behind)) (whole : splitTopLevel header ';' = [text])
      (split : splitEach? text = some (name, source)) :
    LoopStatement eval cursor (runFor eval cursor)
      (do
        let value ← evaluateAs eval .source behind.site source
        let elements ← Eval.ofHost ((← get).elements value)
        return .each (fun element =>
            modify (·.defineLocal (String.ofList name) (.variable element) behind.site.file))
          elements (runText eval behind.site body))
      behind

/-- A loop reads the limit when its parts have come about, and then runs from them. -/
theorem LoopStatement.running_eq {eval : Evaluator} {cursor behind : Cursor}
    {running : Eval (Value × Cursor)} {opening : Eval LoopParts}
    (statement : LoopStatement eval cursor running opening behind) :
    running = (opening >>= fun parts => do
      let limit ← passLimit
      parts.run limit 0) >>= fun value => pure (value, behind) := by
  -- Each kind of loop reads its own header, and then runs one of the general ones.
  cases statement with
  | whileLoop header block =>
    unfold runWhile
    rw [header]
    simp only [Eval.ofRead, pure_bind, block, whileLoop_eq_run _ _ _ _ _ _ 0, bind_assoc]
  | doLoop block word header ended =>
    unfold runDo
    rw [block]
    simp only [Eval.ofRead, pure_bind, word, header, ended, doLoop_eq_run, bind_assoc]
    simp
  | counted read block parted =>
    unfold runFor
    rw [read]
    simp only [Eval.ofRead, pure_bind, block, parted, runCounted, whileLoop_eq_run _ _ _ _ _ _ 0,
      bind_assoc]
  | @each _ _ _ _ body _ _ read block whole split =>
    have visits : ∀ visit elements limit,
        eachLoop visit (runPass eval behind.site body) limit elements =
          (LoopParts.each visit elements (runText eval behind.site body)).run limit 0 :=
      fun visit elements limit => eachLoop_eq_run eval behind.site body visit elements limit 0
    unfold runFor
    rw [read]
    simp only [Eval.ofRead, pure_bind, block, whole, runEach, split, bind_assoc, visits]

/-! A loop with a header of three parts as a loop with a condition. -/

/-- No run of a text yields a control signal. -/
def YieldsNoSignal (eval : Evaluator) (site : Site) (text : List Char) : Prop :=
  ∀ start value final, (runText eval site text start).MayEnd (fun _ _ => True) (.ok value) final →
    value.isSignal = false

/-- A pass of a body with another text behind it, if the body does not end the loop. -/
def runPassThen (eval : Evaluator) (site : Site) (body step : List Char) : Eval Flow := do
  match ← runPass eval site body with
  | .next => runPass eval site step
  | ends => return ends

/-- What goes on alike behind all values of a computation makes the same computation. -/
theorem Eval.bind_congr_of_mayEnd {body : Eval α} {next other : α → Eval β}
    (alike : ∀ start value final, (body start).MayEnd (fun _ _ => True) (.ok value) final →
      next value = other value) : body >>= next = body >>= other := by
  funext start
  refine Step.andThen_congr fun result final ends => ?_
  cases result with
  | error stop => rfl
  | ok value => exact congrFun (alike start value final ends) final

section Counted

variable {eval : Evaluator} {site : Site} {text : List Char}

/-- Text that yields no signal is run for its effects as any other. -/
theorem runAside_eq (quiet : YieldsNoSignal eval site text) :
    runAside eval site text = (do let _ ← runText eval site text) := by
  unfold runAside
  -- An empty text is not run at all.
  cases text with
  | nil => rfl
  | cons c rest =>
    simp only [List.isEmpty_cons, Bool.not_false, if_true]
    refine Eval.bind_congr_of_mayEnd fun start value final ends => ?_
    unfold Eval.use
    rw [quiet start value final ends]
    rfl

/-- A pass of text that yields no signal is followed by the next one. -/
theorem runPass_quiet (quiet : YieldsNoSignal eval site text) :
    runPass eval site text = (do let _ ← runText eval site text; return .next) := by
  refine Eval.bind_congr_of_mayEnd fun start value final ends => ?_
  have plain := quiet start value final ends
  revert plain
  unfold Value.isSignal
  cases value.data <;> simp

/-- Behind each pass, a step that yields no signal is part of the body. -/
theorem whileLoop_step (body : List Char) {step : List Char} (quiet : YieldsNoSignal eval site step)
    (condition : Eval Bool) (left : Nat) :
    whileLoop condition (runPass eval site body) (runAside eval site step) left =
      whileLoop condition (runPassThen eval site body step) (pure ()) left := by
  -- The induction is on the passes that are left; the step is only reached where the body goes on.
  induction left with
  | zero => rfl
  | succ left ih =>
    unfold whileLoop
    rw [ih]
    refine bind_congr fun held => ?_
    split
    · refine bind_congr fun _ => ?_
      unfold runPassThen
      rw [bind_assoc]
      refine bind_congr fun flow => ?_
      cases flow with
      | next =>
        simp only [Flow.follow, runAside_eq quiet, runPass_quiet quiet, bind_assoc, pure_bind]
      | stop => rfl
      | exit signal => rfl
    · rfl

end Counted

/-- Every loop runs the courses of its parts: its body is entered at most as often as the limit says,
and fails for that only if a pass beyond it is wanted while no end was asked for; a loop with a header of
three parts is its first part and a loop with a condition around the body and the last part. -/
theorem loops_count_passes {eval : Evaluator} {cursor behind : Cursor}
    {running : Eval (Value × Cursor)} {opening : Eval LoopParts}
    (statement : LoopStatement eval cursor running opening behind) (allows : Engine → Engine → Prop)
    (start : Engine) (result : Except Stop (Value × Cursor)) (final : Engine) :
    ((running start).MayEnd allows result final ↔
      (∃ stop, result = .error stop ∧ (opening start).MayEnd allows (.error stop) final) ∨
        ∃ parts opened count reached entered ended,
          (opening start).MayEnd allows (.ok parts) opened ∧
          parts.Passed allows 0 opened count reached ∧
          parts.Closes allows opened.config.maxLoopIterations count reached entered ended final ∧
          entered ≤ opened.config.maxLoopIterations ∧
          result = ended.map (·, behind)) ∧
    ∀ site init condition step body, YieldsNoSignal eval site init → YieldsNoSignal eval site step →
      runCounted eval site init condition step body = (do
        let _ ← runText eval site init
        whileLoop (holds eval site condition) (runPassThen eval site body step) (pure ())
          (← passLimit)) := by
  refine ⟨?_, fun site init condition step body quiet quietToo => ?_⟩
  · rw [statement.running_eq, Eval.mayEnd_map]
    constructor
    · rintro ⟨ended, ends, rfl⟩
      rcases Eval.mayEnd_bind.mp ends with ⟨stop, rfl, fails⟩ | ⟨parts, opened, opens, runs⟩
      · exact .inl ⟨stop, rfl, fails⟩
      · -- The passes are counted from none, so the count is the number of the passes.
        obtain ⟨count, reached, entered, passed, le, closes⟩ := LoopParts.mayEnd_run.mp runs
        rw [Nat.zero_add] at le closes
        exact .inr ⟨parts, opened, count, reached, entered, ended, opens, passed, closes,
          closes.entered_le le, rfl⟩
    · rintro (⟨stop, rfl, fails⟩ |
        ⟨parts, opened, count, reached, entered, ended, opens, passed, closes, le, rfl⟩)
      · exact ⟨.error stop, Eval.mayEnd_bind.mpr (.inl ⟨stop, rfl, fails⟩), rfl⟩
      · refine ⟨ended, Eval.mayEnd_bind.mpr (.inr ⟨parts, opened, opens, ?_⟩), rfl⟩
        have within : count ≤ opened.config.maxLoopIterations := Nat.le_trans closes.count_le le
        rw [← Nat.zero_add opened.config.maxLoopIterations] at within closes
        exact LoopParts.mayEnd_run.mpr ⟨count, reached, entered, passed, within, closes⟩
  · unfold runCounted
    rw [runAside_eq quiet, bind_assoc]
    simp only [whileLoop_step body quietToo, pure_bind]

/-- The header and the body of a loop without an end. -/
def endlessLoop : Cursor := .ofText ⟨"loop", 1⟩ "(){}".toList

/-- A loop without an end fails behind two passes if that is the limit. -/
theorem loops_count_passes_endless :
    (∃ final, ((runWhile (evaluator 0) endlessLoop) { config := { maxLoopIterations := 2 } }).MayEnd Eq
      (.error (.failed ⟨.infiniteLoop 2, []⟩)) final) ∧
    runCounted (evaluator 0) ⟨"loop", 1⟩ [] [] [] [] = (do
      let _ ← runText (evaluator 0) ⟨"loop", 1⟩ []
      whileLoop (holds (evaluator 0) ⟨"loop", 1⟩ []) (runPassThen (evaluator 0) ⟨"loop", 1⟩ [] [])
        (pure ()) (← passLimit)) := by
  have statement : LoopStatement (evaluator 0) endlessLoop (runWhile (evaluator 0) endlessLoop) _
      (endlessLoop.advanceBy 4) := .whileLoop rfl rfl
  have quiet : YieldsNoSignal (evaluator 0) ⟨"loop", 1⟩ [] := by
    intro start value final ends
    obtain ⟨same, rfl⟩ := Step.mayEnd_finished.mp ends
    cases same
    rfl
  have counts := fun final => loops_count_passes statement Eq { config := { maxLoopIterations := 2 } }
    (.error (.failed ⟨.infiniteLoop 2, []⟩)) final
  -- Nothing but the two passes is left behind.
  let passed : Engine :=
    { config := { maxLoopIterations := 2 }, milestones := [.pass, .pass] }
  refine ⟨⟨passed, (counts passed).1.mpr (.inr ⟨_, _, 2, passed, 2,
    .error (.failed ⟨.infiniteLoop 2, []⟩), .finished, ?_, ?_, ?_, rfl⟩)⟩,
    (counts passed).2 _ _ _ _ _ quiet quiet⟩
  · exact .more ⟨_, ⟨_, .finished, .finished⟩, rfl, .finished⟩ rfl .finished
      (.more ⟨_, ⟨_, .finished, .finished⟩, rfl, .finished⟩ rfl .finished (.none _ _))
  · refine .tooMany (?_ : LoopParts.Wanted _ _ _ _ passed) rfl rfl
    exact ⟨passed, .finished, .finished⟩
  · exact Nat.le_refl 2

end ScriptEngine
