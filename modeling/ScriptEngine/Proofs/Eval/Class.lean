import ScriptEngine.Proofs.Eval.Function

/-! How classes are declared and objects created. -/

namespace ScriptEngine

variable {strict : Bool} {engine : Engine} {eval : Evaluator}

/-- A class keeps clean when it takes over the members of other classes. -/
theorem inheritAll_runs (file : String) (bases : List String) :
    ∀ {engine : Engine} {definition : ClassDef}, engine.Tidy strict →
      engine.Exempt strict ∨ definition.Clean →
      Runs strict engine (fun finished now => now.Exempt strict ∨ finished.Clean)
        (inheritAll file definition bases) engine := by
  -- The induction is on the base classes that are left.
  induction bases with
  | nil => exact fun tidy clean => .done (.refl tidy) clean
  | cons base rest ih =>
    intro engine definition tidy clean
    refine .look ?_
    split
    case h_1 base found =>
      refine ih tidy (unless_both tidy clean fun engineClean clean => ?_)
      exact ClassDef.Clean.inherit clean (engineClean.class_clean found)
    case h_2 => exact .failed (.refl tidy)

/-- The value that a field starts with is clean. -/
theorem readFieldDefault_runs (lawful : eval.Lawful strict) (tidy : engine.Tidy strict)
    (cursor : Cursor) :
    Runs strict engine (fun result now => now.Exempt strict ∨ result.1.Clean)
      (readFieldDefault eval cursor) engine := by
  unfold readFieldDefault
  split
  · exact (evaluateAt_runs lawful tidy .fieldDefault _).mono fun _ _ _ used => used.clean rfl
  · exact .done (.refl tidy) (.inr Value.clean_null)

/-- A field keeps a class clean. -/
theorem readField_runs (lawful : eval.Lawful strict) (tidy : engine.Tidy strict)
    {definition : ClassDef} (token : String) (cursor : Cursor)
    (clean : engine.Exempt strict ∨ definition.Clean) :
    Runs strict engine (fun result now => now.Exempt strict ∨ result.1.Clean)
      (readField eval definition token cursor) engine := by
  unfold readField
  dsimp only
  -- A field is named behind `var` or by its first word.
  generalize (if token = "var" then cursor.readToken else (token, cursor)) = named
  split
  · exact .failed (.refl tidy)
  · refine .bind (readFieldDefault_runs lawful tidy _) fun result now reached valueClean => ?_
    refine .read (.refl reached.tidy) fun next _ => .done (.refl reached.tidy) ?_
    exact unless_both (clean.imp_left reached.exempt) valueClean fun clean new =>
      clean.addField named.1 new

/-- The members of a class keep it clean. -/
theorem readClassMembers_runs (lawful : eval.Lawful strict) (count : Nat) :
    ∀ {engine : Engine} {definition : ClassDef} {cursor : Cursor}, engine.Tidy strict →
      engine.Exempt strict ∨ definition.Clean →
      Runs strict engine (fun finished now => now.Exempt strict ∨ finished.Clean)
        (readClassMembers eval count definition cursor) engine := by
  -- The induction is on the number of members that may still follow.
  induction count with
  | zero => exact fun tidy _ => .failed (.refl tidy)
  | succ count ih =>
    intro engine definition cursor tidy clean
    unfold readClassMembers
    dsimp only
    split
    · exact .done (.refl tidy) clean
    · split
      · exact ih tidy clean
      · split
        · refine .look (.read (.refl tidy) fun ⟨method, next⟩ _ => ?_)
          exact ih tidy (clean.imp_right fun clean => clean.addMethod method)
        · refine .bind (readField_runs lawful tidy _ _ clean) fun result now reached clean => ?_
          exact ih reached.tidy clean

/-- The class is declared with its members. -/
theorem declareMembers_yields (lawful : eval.Lawful strict) (tidy : engine.Tidy strict)
    (name : String) {definition : ClassDef} (clean : engine.Exempt strict ∨ definition.Clean)
    (cursor : Cursor) : Yields strict engine (declareMembers eval name definition cursor) engine := by
  refine .read (.refl tidy) fun ⟨text, behind⟩ _ => ?_
  refine .bind (readClassMembers_runs lawful _ tidy clean) fun finished now reached clean => ?_
  have bound := defineDeclaration_moved name (.classDef finished) reached.tidy clean
  exact .change bound (.done (.refl bound.tidy) (.of_clean rfl (.inr Value.clean_null)))

/-- The declaration of a class yields null. -/
theorem declareClass_yields (lawful : eval.Lawful strict) (tidy : engine.Tidy strict)
    (cursor : Cursor) : Yields strict engine (declareClass eval cursor) engine := by
  unfold declareClass
  dsimp only
  split
  · exact .failed (.refl tidy)
  · split
    · -- A class starts with the members that it inherits, and without a list it starts with none.
      refine .bind (inheritAll_runs _ _ tidy (.inr (ClassDef.Clean.new _ _)))
        fun definition now reached clean => ?_
      exact declareMembers_yields lawful reached.tidy _ clean _
    · exact declareMembers_yields lawful tidy _ (.inr (ClassDef.Clean.new _ [])) _

/-- The creation of an object yields the object. -/
theorem instantiate_yields (lawful : eval.Lawful strict) (tidy : engine.Tidy strict)
    {definition : ClassDef} {args : List Arg}
    (definitionClean : engine.Exempt strict ∨ definition.Clean)
    (clean : engine.Exempt strict ∨ CleanArgs args) :
    Yields strict engine (instantiate eval definition args) engine := by
  refine .look ?_
  dsimp only
  -- The object is there before its constructor runs, whose result is used up.
  have adjusts : engine.Adjusts definition.Clean
      { engine with heap := (engine.heap.instantiate definition).1 } :=
    .heap fun given old => old.instantiate given
  have reached := Moved.adjust adjusts definitionClean tidy
  have object : (engine.heap.instantiate definition).2.Clean := Value.clean_object _
  refine .replace reached ?_
  split
  case h_1 constructor _ =>
    refine .bindYielded (callFunction_yields lawful reached.tidy constructor
      (clean.imp_left reached.exempt) fun value same => by cases same; exact .inr object)
      fun _ now settled => ?_
    refine .use settled rfl fun now reached _ => ?_
    exact .done (.refl reached.tidy) (.of_clean rfl (.inr object))
  case h_2 =>
    split
    · exact .done (.refl reached.tidy) (.of_clean rfl (.inr object))
    · exact .failed (.refl reached.tidy)

end ScriptEngine
