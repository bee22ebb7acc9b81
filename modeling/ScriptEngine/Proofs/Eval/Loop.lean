import ScriptEngine.Proofs.Eval.Native

/-! How loops proceed. -/

namespace ScriptEngine

/-- The elements of a sound value are clean. -/
theorem Engine.Clean.elements {engine : Engine} (clean : engine.Clean) {value : Value}
    {elements : List Value} (sound : value.Sound) (ran : engine.elements value = .ok elements) :
    ∀ element ∈ elements, element.Clean := by
  unfold Engine.elements at ran
  split at ran
  case h_1 data =>
    cases ran
    exact sound.items data
  case h_2 =>
    cases ran
    intro element member
    obtain ⟨c, _, rfl⟩ := List.mem_map.mp member
    exact Value.clean_ofChar c
  case h_3 =>
    cases ran
    intro element member
    obtain ⟨name, _, rfl⟩ := List.mem_map.mp member
    exact Value.clean_string name
  case h_4 =>
    -- Only a host has types of its own that have elements.
    simp only [clean.hostTypes, OrderedMap.get?, OrderedMap.empty, List.lookup_nil,
      Option.bind_none] at ran
    cases ran
  case h_5 | h_6 =>
    cases ran
    simp
  case h_7 => cases ran

variable {strict : Bool} {engine : Engine} {eval : Evaluator}

/-- A pass yields null, or the signal that leaves the loop with it. -/
theorem runPass_yields (lawful : eval.Lawful strict) (tidy : engine.Tidy strict) (site : Site)
    (body : List Char) : Yields strict engine (runPass eval site body) engine := by
  refine .bindYielded (runAll_yields lawful tidy _) fun value now settled => ?_
  refine .settled ?_
  rcases settled with ⟨reached, yielded⟩ | ⟨signal, code, before, carried, quits, ran, same⟩
  · refine .inl ⟨reached, fun other held => ?_⟩
    split at held <;> cases held
    · exact yielded value rfl
    · exact yielded value rfl
  · -- The signal of a `quit` leaves the loop.
    cases carried
    refine .inr ⟨value, code, before, ?_, quits, ran, same⟩
    rcases quits with rfl | rfl <;> rfl

/-- The condition of a loop is used up. -/
theorem holds_runs (lawful : eval.Lawful strict) (tidy : engine.Tidy strict) (site : Site)
    (condition : List Char) :
    Runs strict engine (fun _ _ => True) (holds eval site condition) engine := by
  unfold holds
  split
  · exact .done (.refl tidy) trivial
  · refine .bind (evaluateAs_runs lawful tidy .condition _ _) fun value now reached _ => ?_
    exact .done (.refl reached.tidy) trivial

/-- The admission of a pass leaves all as it should. -/
theorem admitPass_runs (tidy : engine.Tidy strict) (left : Nat) :
    Runs strict engine (fun _ _ => True) (admitPass left) engine := by
  -- An end may have been asked for before the pass, also while the loop has given way to others.
  have checks : ∀ {engine : Engine}, engine.Tidy strict → Runs strict engine (fun _ _ => True) (do
      Eval.checkCancelled
      if left = 0 then Eval.throwCause (.infiniteLoop (← get).config.maxLoopIterations)
      modify (·.startPass)) engine := by
    intro engine tidy
    refine .checkCancelled tidy fun now reached free => ?_
    split
    · refine .look ?_
      exact .failed (.refl reached.tidy)
    · exact .changed (.startPass reached.tidy free) trivial
  unfold admitPass Eval.giveWay
  rw [bind_assoc]
  refine .look ?_
  split
  · refine .pause (.refl tidy) fun now reached _ => ?_
    exact (checks reached.tidy).after reached
  · rw [pure_bind]
    exact checks tidy

/-- A part of a loop runs from wherever it starts. -/
abbrev RunsAnywhere {α : Type} (strict : Bool) (body : Eval α) : Prop :=
  ∀ {engine : Engine}, engine.Tidy strict → Runs strict engine (fun _ _ => True) body engine

/-- A pass of a loop yields its flow from wherever it starts. -/
abbrev PassesAnywhere (strict : Bool) (pass : Eval Flow) : Prop :=
  ∀ {engine : Engine}, engine.Tidy strict → Yields strict engine pass engine

/-- Behind a pass the loop goes on, or it ends with null or with the signal of the pass. -/
theorem pass_yields {pass : Eval Flow} {goesOn : Eval Value} (tidy : engine.Tidy strict)
    (passes : PassesAnywhere strict pass)
    (next : ∀ {now : Engine}, Reached strict engine now → Yields strict now goesOn now) :
    Yields strict engine (do (← pass).follow goesOn) engine := by
  refine .bindYielded (passes tidy) fun flow now settled => ?_
  cases flow with
  -- A loop that goes on or stops has no value that could be a `quit`.
  | next =>
    rcases settled with ⟨reached, _⟩ | ⟨_, _, _, carried, _⟩
    · exact (next reached).after reached
    · cases carried
  | stop =>
    rcases settled with ⟨reached, _⟩ | ⟨_, _, _, carried, _⟩
    · exact .done reached (.of_clean rfl (.inr Value.clean_null))
    · cases carried
  | exit signal =>
    exact .settled (settled.keep rfl rfl)

/-- Null is yielded. -/
theorem null_yields (tidy : engine.Tidy strict) : Yields strict engine (pure Value.null) engine :=
  .done (.refl tidy) (.of_clean rfl (.inr Value.clean_null))

/-- A loop with a condition before each pass yields null or the signal that leaves it. -/
theorem whileLoop_yields {condition : Eval Bool} {pass : Eval Flow} {step : Eval Unit}
    (holds : RunsAnywhere strict condition) (passes : PassesAnywhere strict pass)
    (steps : RunsAnywhere strict step) (left : Nat) :
    ∀ {engine : Engine}, engine.Tidy strict →
      Yields strict engine (whileLoop condition pass step left) engine := by
  -- The induction is on the number of passes that may still run.
  induction left with
  | zero =>
    intro engine tidy
    refine .bind (holds tidy) fun holds now reached _ => ?_
    dsimp only
    split
    · refine .bind (admitPass_runs reached.tidy 0) fun _ now reached _ => null_yields reached.tidy
    · exact null_yields reached.tidy
  | succ left ih =>
    intro engine tidy
    refine .bind (holds tidy) fun holds now reached _ => ?_
    split
    · refine .bind (admitPass_runs reached.tidy _) fun _ now reached _ => ?_
      refine pass_yields reached.tidy passes fun reached => ?_
      exact .bind (steps reached.tidy) fun _ now reached _ => ih reached.tidy
    · exact null_yields reached.tidy

/-- A loop with a condition behind each pass yields null or the signal that leaves it. -/
theorem doLoop_yields {condition : Eval Bool} {pass : Eval Flow}
    (holds : RunsAnywhere strict condition) (passes : PassesAnywhere strict pass) (left : Nat) :
    ∀ {engine : Engine}, engine.Tidy strict →
      Yields strict engine (doLoop condition pass left) engine := by
  -- The induction is on the number of passes that may still run.
  induction left with
  | zero =>
    intro engine tidy
    exact .bind (admitPass_runs tidy 0) fun _ now reached _ => null_yields reached.tidy
  | succ left ih =>
    intro engine tidy
    refine .bind (admitPass_runs tidy _) fun _ now reached _ => ?_
    refine pass_yields reached.tidy passes fun reached => ?_
    refine .bind (holds reached.tidy) fun holds now reached _ => ?_
    split
    · exact ih reached.tidy
    · exact null_yields reached.tidy

/-- A loop over clean elements yields null or the signal that leaves it. -/
theorem eachLoop_yields {visit : Value → Eval Unit} {pass : Eval Flow}
    (visits : ∀ {engine : Engine} {element : Value}, engine.Tidy strict →
      Stored strict element engine → Runs strict engine (fun _ _ => True) (visit element) engine)
    (passes : PassesAnywhere strict pass) (left : Nat) :
    ∀ {engine : Engine} {elements : List Value}, engine.Tidy strict →
      (engine.Exempt strict ∨ ∀ element ∈ elements, element.Clean) →
      Yields strict engine (eachLoop visit pass left elements) engine := by
  -- The induction is on the number of passes that may still run.
  induction left with
  | zero =>
    intro engine elements tidy clean
    cases elements with
    | nil => exact null_yields tidy
    | cons element rest =>
      exact .bind (admitPass_runs tidy 0) fun _ now reached _ => null_yields reached.tidy
  | succ left ih =>
    intro engine elements tidy clean
    cases elements with
    | nil => exact null_yields tidy
    | cons element rest =>
      refine .bind (admitPass_runs tidy _) fun _ now admitted _ => ?_
      have first := clean.imp admitted.exempt fun clean => clean element List.mem_cons_self
      refine .bind (visits admitted.tidy first) fun _ now visited _ => ?_
      refine pass_yields visited.tidy passes fun reached => ih reached.tidy ?_
      exact clean.imp (reached.exempt ∘ visited.exempt ∘ admitted.exempt) fun clean other member =>
        clean other (List.mem_cons_of_mem _ member)

/-- A `while` loop yields null or the signal that leaves it. -/
theorem runWhile_yields (lawful : eval.Lawful strict) (tidy : engine.Tidy strict)
    (cursor : Cursor) : Yields strict engine (runWhile eval cursor) engine := by
  refine .read (.refl tidy) fun ⟨condition, headed⟩ _ => ?_
  refine .read (.refl tidy) fun ⟨body, behind⟩ _ => ?_
  refine .look ?_
  refine yields_behind behind ?_
  exact whileLoop_yields (fun tidy => holds_runs lawful tidy _ _)
    (fun tidy => runPass_yields lawful tidy _ _) (fun tidy => .done (.refl tidy) trivial) _ tidy

/-- A `do` loop yields null or the signal that leaves it. -/
theorem runDo_yields (lawful : eval.Lawful strict) (tidy : engine.Tidy strict)
    (cursor : Cursor) : Yields strict engine (runDo eval cursor) engine := by
  refine .read (.refl tidy) fun ⟨body, next⟩ _ => ?_
  dsimp only
  split
  · exact .failed (.refl tidy)
  · refine .read (.refl tidy) fun ⟨condition, headed⟩ _ => ?_
    refine .read (.refl tidy) fun behind _ => ?_
    refine .look ?_
    refine yields_behind behind ?_
    exact doLoop_yields (fun tidy => holds_runs lawful tidy _ _)
      (fun tidy => runPass_yields lawful tidy _ _) _ tidy

/-- A part of the header of a counted loop is used up. -/
theorem runAside_runs (lawful : eval.Lawful strict) (tidy : engine.Tidy strict) (site : Site)
    (text : List Char) :
    Runs strict engine (fun _ _ => True) (runAside eval site text) engine := by
  unfold runAside
  split
  · refine .bindYielded (runAll_yields lawful tidy _) fun value now settled => ?_
    refine .use settled rfl fun now reached _ => ?_
    exact .done (.refl reached.tidy) trivial
  · exact .done (.refl tidy) trivial

/-- A counted loop yields null or the signal that leaves it. -/
theorem runCounted_yields (lawful : eval.Lawful strict) (tidy : engine.Tidy strict) (site : Site)
    (init condition step body : List Char) :
    Yields strict engine (runCounted eval site init condition step body) engine := by
  refine .bind (runAside_runs lawful tidy site init) fun _ now reached _ => ?_
  refine .look ?_
  exact whileLoop_yields (fun tidy => holds_runs lawful tidy _ _)
    (fun tidy => runPass_yields lawful tidy _ _) (fun tidy => runAside_runs lawful tidy _ _) _
    reached.tidy

/-- A loop over the elements of a value yields null or the signal that leaves it. -/
theorem runEach_yields (lawful : eval.Lawful strict) (tidy : engine.Tidy strict) (cursor : Cursor)
    (header body : List Char) :
    Yields strict engine (runEach eval cursor header body) engine := by
  unfold runEach
  split
  case h_1 => exact .failed (.refl tidy)
  case h_2 name source _ =>
    refine .bind (evaluateAs_runs lawful tidy .source _ _) fun value now reached used => ?_
    refine .look (.host (.refl reached.tidy) fun elements ran => ?_)
    -- The elements come from a value that is used up, and what it holds is clean.
    have clean := unless_both reached.tidy used.sound fun clean sound => clean.elements sound ran
    refine .look ?_
    refine eachLoop_yields (fun tidy clean => ?_) (fun tidy => runPass_yields lawful tidy _ _) _
      reached.tidy clean
    exact .changed (defineLocal_moved (String.ofList name) cursor.file clean tidy) trivial

/-- A `for` loop yields null or the signal that leaves it. -/
theorem runFor_yields (lawful : eval.Lawful strict) (tidy : engine.Tidy strict)
    (cursor : Cursor) : Yields strict engine (runFor eval cursor) engine := by
  refine .read (.refl tidy) fun ⟨header, headed⟩ _ => ?_
  refine .read (.refl tidy) fun ⟨body, behind⟩ _ => ?_
  dsimp only
  split
  · exact yields_behind behind (runCounted_yields lawful tidy _ _ _ _ _)
  · exact yields_behind behind (runEach_yields lawful tidy _ _ _)
  · exact .failed (.refl tidy)

end ScriptEngine
