import ScriptEngine.Eval.Evaluator
import ScriptEngine.Proofs.Grammar.Operand

/-! Recursion that is no call: a file that includes itself and a property whose expression reads the
property use up any nesting, and not one call is active on their account. -/

namespace ScriptEngine

variable {α β : Type} {eval : Evaluator} {engine middle : Engine}

/-- A computation uses up the nesting that it is given, and is back at its calls then. -/
def Exhausts (body : Eval α) (engine : Engine) : Prop :=
  ∃ final, body engine = .finished (.error .exhausted) final ∧ final.calls = engine.calls

namespace Exhausts

variable {body : Eval α} {next : α → Eval β}

/-- Where no nesting is left, it is used up. -/
theorem atOnce : Exhausts (throw .exhausted : Eval α) engine := ⟨engine, rfl, rfl⟩

/-- Nothing goes on behind a computation that is exhausted. -/
theorem bind (first : Exhausts body engine) : Exhausts (body >>= next) engine := by
  obtain ⟨final, ran, back⟩ := first
  exact ⟨final, Eval.bind_error ran next, back⟩

/-- What goes on behind a value is exhausted. -/
theorem behind (value : α) (ran : body engine = .finished (.ok value) middle)
    (kept : middle.calls = engine.calls) (goesOn : Exhausts (next value) middle) :
    Exhausts (body >>= next) engine := by
  obtain ⟨final, ends, back⟩ := goesOn
  exact ⟨final, (Eval.bind_ok ran next).trans ends, back.trans kept⟩

/-- A computation in a frame of its own is exhausted like any other. -/
theorem withFrame {kind : FrameKind}
    (inner : Exhausts body { engine with stack := (engine.stack.push kind).1 }) :
    Exhausts (Eval.withFrame kind body) engine := by
  obtain ⟨final, ran, back⟩ := inner
  refine ⟨{ final with stack := final.stack.pop (engine.stack.push kind).2 }, ?_, back⟩
  exact congrArg (fun step => step.andThen fun result now => .finished result
    { now with stack := now.stack.pop (engine.stack.push kind).2 }) ran

/-- An expression is exhausted if the name that it starts with is. -/
theorem name {cursor : Cursor} (word rest : List Char) (identifier : Text.isIdentifier word = true)
    (shape : cursor.rest = word ++ rest) (unsigned : cursor.readSigns cursor.left = ([], cursor))
    (name : Exhausts (evaluateName eval cursor >>= fun operand =>
      evaluateSteps eval (operand.2.2.left + 1) operand) engine) :
    Exhausts (evaluateExpression eval cursor) engine := by
  have operand : Exhausts (evaluateOperand eval cursor) engine := by
    have signed : Exhausts ((evaluateName eval cursor >>= fun operand =>
        evaluateSteps eval (operand.2.2.left + 1) operand) >>= fun stepped : Value × Cursor => do
          return (← Eval.ofResult (applySigns stepped.1 []), stepped.2)) engine := name.bind
    obtain ⟨final, ran, back⟩ := signed
    refine ⟨final, ?_, back⟩
    unfold evaluateOperand
    rw [unsigned, ← ran, bind_assoc]
    simp only [evaluatePrimary_word identifier shape]
    rfl
  -- The operand is below six levels of operators.
  exact .bind (.bind (.bind (.bind (.bind (.bind operand)))))

end Exhausts

/-! A file that includes itself. -/

/-- The text of a file "a" that includes itself. -/
def selfInclusion : String := "include(\"a\")"

/-- The cursor at the start of such a file. -/
def selfInclusionStart : Cursor :=
  .ofCanonical ⟨['i', 'n', 'c', 'l', 'u', 'd', 'e', '(', '"', 'a', '"', ')'].map (·, 1)⟩ "a"

/-- A path without a separator has one part. -/
theorem splitOn_a : "a".splitOn "/" = ["a"] := by
  unfold String.splitOn
  rw [if_neg (by decide), String.splitOnAux, if_neg (by decide), if_neg (by decide),
    String.splitOnAux, if_pos (by decide)]
  decide

/-- Beside a file without a directory, a path without a directory is meant as it is. -/
theorem resolve_a : FileTree.resolve "a" "a" = "a" := by
  simp [FileTree.resolve, FileTree.parent?, splitOn_a]

/-- An interpreter outside of all frames knows what a new one does and has a file that includes
itself. -/
structure Engine.FindsItself (engine : Engine) : Prop where
  symbols : engine.symbols = (Engine.new {} {}).symbols
  stack : engine.stack = {}
  running : engine.cancelled = false
  unasked : engine.hostRequest = none
  file : engine.files.read "a" = .ok selfInclusion

namespace Engine.FindsItself

/-- Such an interpreter with what matters here written out. -/
theorem shape (finds : engine.FindsItself) :
    engine = { engine with
      symbols := (Engine.new {} {}).symbols, stack := {}, cancelled := false,
      hostRequest := none } := by
  rw [← finds.symbols, ← finds.stack, ← finds.running, ← finds.unasked]

/-- A file that includes itself is in canonical form. -/
theorem ofSource_selfInclusion : Cursor.ofSource selfInclusion "a" = .ok selfInclusionStart := by
  have normal : (Canonical.ofSource selfInclusion "a").toOption =
      some ⟨['i', 'n', 'c', 'l', 'u', 'd', 'e', '(', '"', 'a', '"', ')'].map (·, 1)⟩ := by
    decide
  unfold Cursor.ofSource
  cases made : Canonical.ofSource selfInclusion "a" with
  | error failure =>
    rw [made] at normal
    cases normal
  | ok canonical =>
    rw [made] at normal
    cases normal
    rfl

set_option maxRecDepth 4000 in
/-- The only argument of the inclusion is a literal. -/
theorem readArgs_selfInclusion (eval : Evaluator) (engine : Engine) :
    readArgs eval (selfInclusionStart.advanceBy 7) engine = (do
      let args ← evaluateArgs eval ⟨"a", 1⟩ [['"', 'a', '"']]
      return (args, Cursor.finish selfInclusionStart.source)) engine := by
  have parts : splitTopLevel ['"', 'a', '"'] ',' = [['"', 'a', '"']] := by decide +kernel
  rw [← parts]
  rfl

/-- The argument is the name of the file, if there is any nesting left for it. -/
theorem readArgs_name (depth : Nat) (engine : Engine) :
    readArgs (evaluator (depth + 1)) (selfInclusionStart.advanceBy 7) engine =
      .finished (.ok ([⟨none, ['"', 'a', '"'], .string "a"⟩],
        Cursor.finish selfInclusionStart.source)) engine := by
  -- The text of the argument is a literal, which is a value in itself.
  have literal : evaluator (depth + 1) .expression (.ofText ⟨"a", 1⟩ ['"', 'a', '"']) engine =
      .finished (.ok (.string "a", .finish (Cursor.ofText ⟨"a", 1⟩ ['"', 'a', '"']).source)) engine :=
    rfl
  have text : evaluateText (evaluator (depth + 1)) ⟨"a", 1⟩ ['"', 'a', '"'] engine =
      .finished (.ok (.string "a")) engine := Eval.bind_ok literal _
  have value : evaluateAs (evaluator (depth + 1)) .argument ⟨"a", 1⟩ ['"', 'a', '"'] engine =
      .finished (.ok (.string "a")) engine := Eval.bind_ok text _
  rw [readArgs_selfInclusion]
  exact Eval.bind_ok (Eval.bind_ok value _) _

/-- The call of `include` is exhausted if running the file once more is. -/
theorem evaluateName_exhausts {depth : Nat} (finds : engine.FindsItself)
    (again : Exhausts (includeFile (evaluator depth) ⟨"a", 1⟩ "a") engine) :
    Exhausts (evaluateName (evaluator depth) selfInclusionStart) engine := by
  have unread := readArgs_selfInclusion (evaluator 0)
  have read := readArgs_name
  rw [finds.shape] at again ⊢
  refine .behind _ rfl rfl (.bind ?_)
  cases depth with
  | zero => exact .bind ⟨_, unread _, rfl⟩
  | succ depth => exact .behind _ (read depth _) rfl (.bind again)

/-- The only statement of the file is exhausted if running the file once more is. -/
theorem runStatement_exhausts {depth : Nat} (finds : engine.FindsItself)
    (again : ∀ fewer < depth, ∀ {engine : Engine}, engine.FindsItself →
      Exhausts (includeFile (evaluator fewer) ⟨"a", 1⟩ "a") engine) :
    Exhausts (runStatement (evaluator depth) selfInclusionStart) engine := by
  have noted : (engine.startStatement ⟨"a", 1⟩).FindsItself := { finds with }
  have expression : Exhausts (evaluator depth .expression selfInclusionStart)
      (engine.startStatement ⟨"a", 1⟩) := by
    cases depth with
    | zero => exact .atOnce
    | succ depth =>
      refine .name "include".toList _ (by decide) rfl rfl (.bind ?_)
      exact evaluateName_exhausts noted (again depth (Nat.lt_succ_self depth) noted)
  rw [finds.shape] at expression ⊢
  refine .behind ⟨⟩ rfl rfl (.behind _ rfl rfl ?_)
  -- The word starts neither a statement of its own nor an assignment.
  exact .behind _ rfl rfl (.behind none rfl rfl (.bind expression))

/-- Running such a file is exhausted if running it once more is. -/
theorem runScript_exhausts {depth : Nat} (finds : engine.FindsItself)
    (again : ∀ fewer < depth, ∀ {engine : Engine}, engine.FindsItself →
      Exhausts (includeFile (evaluator fewer) ⟨"a", 1⟩ "a") engine) :
    Exhausts (runScript (evaluator depth) selfInclusion "a" false) engine := by
  unfold runScript
  dsimp only
  rw [ofSource_selfInclusion]
  refine .behind _ rfl rfl (.bind (.bind ?_))
  cases depth with
  | zero => exact .atOnce
  | succ depth => exact runStatement_exhausts finds fun fewer less => again fewer (by omega)

/-- The inclusion of a file that includes itself uses up any nesting. -/
theorem includeFile_exhausts (depth : Nat) :
    ∀ {engine : Engine}, engine.FindsItself →
      Exhausts (includeFile (evaluator depth) ⟨"a", 1⟩ "a") engine := by
  -- The induction is on the nesting, of which each inclusion takes a statement and an expression.
  induction depth using Nat.strongRecOn with
  | ind depth ih =>
    intro engine finds
    refine .behind _ rfl rfl ?_
    rw [resolve_a, finds.file]
    exact runScript_exhausts finds ih

end Engine.FindsItself

/-! A property whose expression reads the property. -/

/-- The expression of such a property. -/
def selfReference : String := "this.p"

/-- The cursor at the start of the expression in a file. -/
def selfReferenceStart (site : Site) : Cursor := .ofText site ['t', 'h', 'i', 's', '.', 'p']

/-- The frame of an accessor would be in use, and the name of the receiver is that of no namespace. -/
structure Engine.RunsAccessors (engine : Engine) : Prop where
  unnamed : engine.symbols.hasNamespace "this" = false
  active : engine.stack.threshold ≤ engine.stack.depth

/-- An interpreter in the frame of an accessor. -/
def Engine.inAccessor (engine : Engine) (receiver : Value) (assigned : Option Value) : Engine :=
  let stack := (engine.stack.push (.call "property" none)).1.define "this" (.variable receiver)
  { engine with stack := stack.define "value" (.variable (assigned.getD .undefined)) }

namespace Engine.RunsAccessors

variable {receiver : Value} {assigned : Option Value} {site : Site}

/-- In the frame of an accessor its receiver is bound. -/
theorem resolve_this (runs : engine.RunsAccessors) (file : String) :
    (engine.inAccessor receiver assigned).resolve? "this" file = some (.variable receiver) := by
  have within : engine.stack.threshold < engine.stack.frames.length + 1 :=
    Nat.lt_succ_of_le runs.active
  simp [Engine.resolve?, Engine.inAccessor, ScopeStack.define, ScopeStack.modifyActive,
    ScopeStack.push, ScopeStack.depth, ScopeStack.active?, within, Engine.inFrame?, Frame.define,
    OrderedMap.get?_insert_self, OrderedMap.get?_insert_of_ne]

/-- An accessor runs others. -/
theorem inAccessor (receiver : Value) (assigned : Option Value) (runs : engine.RunsAccessors) :
    (engine.inAccessor receiver assigned).RunsAccessors := by
  have within : engine.stack.threshold < engine.stack.frames.length + 1 :=
    Nat.lt_succ_of_le runs.active
  refine ⟨runs.unnamed, ?_⟩
  simpa [Engine.inAccessor, ScopeStack.define, ScopeStack.modifyActive, ScopeStack.push,
    ScopeStack.depth, within] using Nat.le_of_lt within

/-- Using a value up is at most noted. -/
theorem use (runs : engine.RunsAccessors) (use : Use) (value : Value) :
    ∃ middle : Engine, Eval.use use value engine = .finished (.ok value) middle ∧
      middle.calls = engine.calls ∧ middle.RunsAccessors := by
  -- A signal is noted as used up, and any other value leaves the interpreter as it is.
  cases signal : value.isSignal with
  | true =>
    refine ⟨engine.noteUse use, ?_, rfl, ⟨runs.unnamed, runs.active⟩⟩
    simp only [Eval.use, signal]
    rfl
  | false =>
    refine ⟨engine, ?_, rfl, runs⟩
    simp only [Eval.use, signal]
    rfl

/-- The name of the receiver is read without the property behind it. -/
theorem evaluateName_this (eval : Evaluator) (site : Site) (receiver : Value)
    (assigned : Option Value) (runs : engine.RunsAccessors) :
    evaluateName eval (selfReferenceStart site) (engine.inAccessor receiver assigned) =
      .finished (.ok (receiver, some ⟨"this", []⟩, (selfReferenceStart site).advanceBy 4))
        (engine.inAccessor receiver assigned) := by
  have read : (selfReferenceStart site).readQualified engine.symbols =
      ("this", (selfReferenceStart site).advanceBy 4) := by
    change Cursor.readMembers engine.symbols 2 "this" _ = _
    unfold Cursor.readMembers
    -- The name is read up to the point, since no namespace has it.
    rw [if_neg (by simp [runs.unnamed])]
    rfl
  have word : (selfReferenceStart site).readToken =
      ("this", (selfReferenceStart site).advanceBy 4) := rfl
  have symbols : (engine.inAccessor receiver assigned).symbols = engine.symbols := rfl
  unfold evaluateName
  rw [Eval.get_bind, word]
  simp only [constant?]
  rw [symbols, read]
  dsimp only
  rw [runs.resolve_this]
  rfl

/-- The expression is exhausted if reading the property once more is. -/
theorem evaluateText_exhausts {depth : Nat} (assigned : Option Value)
    (runs : engine.RunsAccessors)
    (again : ∀ fewer < depth, ∀ {site : Site} {engine : Engine}, engine.RunsAccessors →
      Exhausts (getProperty (evaluator fewer) site receiver "p") engine) :
    Exhausts (evaluateText (evaluator depth) site selfReference.toList)
      (engine.inAccessor receiver assigned) := by
  have text : selfReference.toList = ['t', 'h', 'i', 's', '.', 'p'] := by decide
  rw [text]
  cases depth with
  | zero => exact .bind .atOnce
  | succ depth =>
    have named := runs.evaluateName_this (evaluator depth) site receiver assigned
    obtain ⟨middle, used, kept, still⟩ := (runs.inAccessor receiver assigned).use .receiver receiver
    generalize engine.inAccessor receiver assigned = engine at named used kept ⊢
    -- The steps read the property in the middle of the access to it, with less nesting left.
    have property : Exhausts (evaluateSteps (evaluator depth) 3
        (receiver, some ⟨"this", []⟩, (selfReferenceStart site).advanceBy 4)) engine := by
      unfold evaluateSteps
      exact .behind _ used kept (.bind (again depth (Nat.lt_succ_self depth) still))
    have left : ((selfReferenceStart site).advanceBy 4).left + 1 = 3 := rfl
    refine .bind (.name "this".toList ['.', 'p'] (by decide) rfl rfl
      (.behind _ named rfl ?_))
    rw [left]
    exact property

/-- A property whose expression reads the property uses up any nesting. -/
theorem getProperty_exhausts (computed : receiver.getter? "p" = some (.expression selfReference))
    (depth : Nat) : ∀ {site : Site} {engine : Engine}, engine.RunsAccessors →
      Exhausts (getProperty (evaluator depth) site receiver "p") engine := by
  -- The induction is on the nesting, of which each run of the expression takes one level.
  induction depth using Nat.strongRecOn with
  | ind depth ih =>
    intro site engine runs
    unfold getProperty
    rw [computed]
    exact .withFrame (.behind _ rfl rfl (evaluateText_exhausts none runs ih))

end Engine.RunsAccessors

end ScriptEngine
