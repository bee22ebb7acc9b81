import ScriptEngine.Proofs.Runs

/-! How running text proceeds, given that what is nested in it does. -/

namespace ScriptEngine

variable {strict : Bool} {engine : Engine} {eval : Evaluator}

/-- What an evaluation yields is yielded with the cursor behind it. -/
theorem yields_behind {body : Eval Value} (behind : Cursor)
    (yields : Yields strict engine body engine) :
    Yields strict engine (do return (← body, behind)) engine :=
  .bindYielded yields fun _ _ settled => .settled (settled.keep rfl rfl)

/-- Text that follows an expression is refused, and its value is used up. -/
theorem evaluateAll_yields (lawful : eval.Lawful strict) (tidy : engine.Tidy strict)
    (cursor : Cursor) : Yields strict engine (evaluateAll eval cursor) engine := by
  refine .bindYielded (lawful .expression cursor engine tidy) fun ⟨value, behind⟩ now settled => ?_
  dsimp only
  split
  · exact .settled (settled.keep rfl rfl)
  · refine .use settled rfl fun now reached _ => ?_
    exact .failed (.refl reached.tidy)

/-- The value of an expression is used up. -/
theorem evaluateAs_runs (lawful : eval.Lawful strict) (tidy : engine.Tidy strict) (use : Use)
    (site : Site) (text : List Char) :
    Runs strict engine (Used strict use) (evaluateAs eval use site text) engine := by
  refine .bindYielded (evaluateAll_yields lawful tidy _) fun value now settled => ?_
  refine (Proceeds.used settled rfl).mono ?_
  rintro _ final _ ⟨rfl, used⟩
  exact used

/-- The value of the expression at a cursor is used up. -/
theorem evaluateAt_runs (lawful : eval.Lawful strict) (tidy : engine.Tidy strict) (use : Use)
    (cursor : Cursor) :
    Runs strict engine (fun result => Used strict use result.1) (evaluateAt eval use cursor)
      engine := by
  refine .bindYielded (lawful .expression cursor engine tidy) fun ⟨value, behind⟩ now settled => ?_
  refine .use settled rfl fun final reached used => ?_
  exact .done (.refl reached.tidy) used

/-- Statements run one behind the other up to the first signal. -/
theorem runStatements_yields (lawful : eval.Lawful strict) (count : Nat) :
    ∀ {engine last cursor}, engine.Tidy strict → Trusted strict last engine →
      Yields strict engine (runStatements eval count last cursor) engine := by
  -- The induction is on the number of statements that may still run.
  induction count with
  | zero => exact fun tidy _ => .failed (.refl tidy)
  | succ count ih =>
    intro engine last cursor tidy trusted
    unfold runStatements
    dsimp only
    split
    · exact .done (.refl tidy) (.of_trusted rfl trusted)
    · exact .failed (.refl tidy)
    · refine .bindYielded (lawful .statement _ engine tidy) fun ⟨value, behind⟩ now settled => ?_
      dsimp only
      split
      · exact .settled (settled.keep rfl rfl)
      case isFalse plain =>
        -- The signal of a `quit` would have ended the statements.
        obtain ⟨reached, trusted⟩ := settled.unless_quits rfl fun _ quits => plain quits.isSignal
        exact (ih reached.tidy trusted).after reached

/-- A text runs as its statements do. -/
theorem runAll_yields (lawful : eval.Lawful strict) (tidy : engine.Tidy strict) (cursor : Cursor) :
    Yields strict engine (runAll eval cursor) engine :=
  runStatements_yields lawful _ tidy (.inr (.of_clean Value.clean_null))

/-- What quits as the last value of a call or script has the signal as its outcome. -/
theorem Value.QuitsWith.outcome {value : Value} {code : Int} (quits : value.QuitsWith code) :
    value.outcome = .quitSignal code := by
  rcases quits with rfl | rfl <;> rfl

/-- What quits as the value of a body quits as that of its statement. -/
theorem Value.QuitsWith.signalOrNull {value : Value} {code : Int} (quits : value.QuitsWith code) :
    value.signalOrNull.QuitsWith code := by
  rcases quits with rfl | rfl
  · exact .inl rfl
  · exact .inr rfl

/-- A result can be turned into one that holds the signal in its value, or nothing. -/
theorem Settled.signalOrNull {α β : Type} [Carrier α] [Carrier β] {first : α} {second : β}
    {value : Value} {now : Engine} (settled : HasYielded strict engine first now)
    (held : Carrier.carried? first = some value)
    (holds : Carrier.carried? second = some value.signalOrNull) :
    HasYielded strict engine second now :=
  settled.convert held holds (fun _ => Value.QuitsWith.signalOrNull) .signalOrNull

/-- A script that is no main script hands out the outcome of its statements. -/
theorem runScript_proceeds (lawful : eval.Lawful strict) (tidy : engine.Tidy strict)
    (source file : String) :
    Proceeds strict engine Value.quitting? (Yielded strict) (runScript eval source file false)
      engine := by
  refine .compute (.refl tidy) fun cursor _ => ?_
  refine .bindYielded (runAll_yields lawful tidy cursor) fun value now settled => ?_
  exact .settled (settled.handOut (fun _ => Value.QuitsWith.outcome) fun trusted =>
    .of_trusted rfl (trusted.imp_right .outcome))

/-- An included file runs as a script. -/
theorem includeFile_yields (lawful : eval.Lawful strict) (tidy : engine.Tidy strict) (site : Site)
    (path : String) : Yields strict engine (includeFile eval site path) engine := by
  refine .look ?_
  split
  · exact (runScript_proceeds lawful tidy _ _).carry fun _ _ => Value.quitting?_eq_some
  · exact .failed (.refl tidy)

end ScriptEngine
