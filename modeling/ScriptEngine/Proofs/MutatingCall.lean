import ScriptEngine.Proofs.CallStatement
import ScriptEngine.Proofs.Ends
import ScriptEngine.Proofs.Engine.Binding
import ScriptEngine.Proofs.Value.Stored

/-! Statements that call a method which changes the collection in a variable. The method is applied to
what the variable held in front of the arguments, and what comes of that replaces whatever the arguments
have left in the variable. -/

namespace ScriptEngine

variable {allows : Engine → Engine → Prop} {eval : Evaluator} {engine middle final : Engine}
  {cursor closed finish : Cursor} {receiver : Value} {site : Site} {depth : Nat} {call : MethodCall}

namespace Value

variable {method : String} {arguments : List Value}

/-- The value behind a method that changes its receiver, if the method applies. -/
def changedBy? (value : Value) (method : String) (arguments : List Value) : Option Value :=
  match value.mutate? method arguments with
  | .ok (some (changed, _)) => some changed
  | _ => none

/-- A method that applies leaves a collection, which can be stored. -/
theorem isSignal_of_mutate? {changed result : Value}
    (applies : receiver.mutate? method arguments = .ok (some (changed, result))) :
    changed.isSignal = false := by
  unfold mutate? at applies
  dsimp only at applies
  split at applies
  case h_1 => cases applies
  case h_2 =>
    obtain ⟨_, _, same⟩ := ok_of_bind applies
    cases same
    rfl

/-- A collection has the methods that change one. -/
theorem mutate?_of_collection {collection : Collection Value}
    (holds : receiver.asCollection? = some collection) :
    receiver.mutate? method arguments ≠ .ok none := by
  have something : receiver.isNothing = false := by
    unfold isNothing
    rw [data_of_asCollection? holds]
  unfold mutate?
  simp only [something, Bool.false_and, Bool.false_eq_true, if_false, holds]
  intro applies
  obtain ⟨_, _, same⟩ := ok_of_bind applies
  cases same

end Value

/-- A method that changes a collection is applied to the receiver that the call was given, and what comes
of it is assigned to the variable. -/
theorem callMethod_collection {collection : Collection Value} (eval : Evaluator) (site : Site)
    (holds : receiver.asCollection? = some collection) (name : String)
    (mutates : Value.isMutatingMethod call.method = true) (args : List Arg) :
    callMethod eval site receiver (some { name }) call.method args =
      (match receiver.mutate? call.method (args.map (·.value)) with
        | .ok (some (changed, result)) => do
          modify (·.assign name (.variable changed) site.file)
          return result
        | .ok none => Eval.throwCause (.typeMismatch (.receiverSupporting call.method) receiver.typeName)
        | .error failure => Eval.throwFailure failure) := by
  funext engine
  unfold callMethod
  rw [Eval.get_bind, Value.data_of_asCollection? holds]
  dsimp only
  unfold callBuiltin
  -- The method is one that changes collections, and not one of those that only read them.
  rw [if_pos mutates]
  cases applies : receiver.mutate? call.method (args.map (·.value)) with
  | error failure => rfl
  | ok outcome =>
    cases outcome with
    | none => rfl
    | some outcome =>
      obtain ⟨changed, result⟩ := outcome
      simp only [Eval.ofResult, pure_bind]
      unfold store
      rw [Value.isSignal_of_mutate? applies]
      rfl

/-- How a call ends that changes a receiver: its arguments end without values, the method does not apply,
or the variable is assigned what the method makes of the receiver. -/
inductive MutatingEnd (eval : Evaluator) (allows : Engine → Engine → Prop) (begun : Engine)
    (call : MethodCall) (site : Site) (receiver : Value) : Except Stop Value → Engine → Prop
  | unread {stop : Stop} {final : Engine}
      (fails : (evaluateArgs eval site call.parts begun).MayEnd allows (.error stop) final) :
    MutatingEnd eval allows begun call site receiver (.error stop) final
  | refused {args : List Arg} {failure : Failure} {middle : Engine}
      (evaluated : (evaluateArgs eval site call.parts begun).MayEnd allows (.ok args) middle)
      (refuses : receiver.mutate? call.method (args.map (·.value)) = .error failure) :
    MutatingEnd eval allows begun call site receiver (.error (.failed failure)) middle
  | stored {args : List Arg} {changed result : Value} {middle : Engine}
      (evaluated : (evaluateArgs eval site call.parts begun).MayEnd allows (.ok args) middle)
      (applies : receiver.mutate? call.method (args.map (·.value)) = .ok (some (changed, result))) :
    MutatingEnd eval allows begun call site receiver (.ok result)
      (middle.assign call.name (.variable changed) site.file)

/-- A call that changes its receiver ends in one of these ways. -/
theorem MethodCall.mayEnd_run {collection : Collection Value} {result : Except Stop Value}
    (holds : receiver.asCollection? = some collection)
    (mutates : Value.isMutatingMethod call.method = true) :
    (call.run eval site receiver engine).MayEnd allows result final ↔
      MutatingEnd eval allows engine call site receiver result final := by
  unfold MethodCall.run
  rw [Eval.mayEnd_bind]
  simp only [callMethod_collection eval site holds call.name mutates]
  constructor
  · rintro (⟨stop, rfl, fails⟩ | ⟨args, middle, evaluated, ends⟩)
    · exact .unread fails
    · -- A collection has each of these methods, so that there is a result or a failure.
      cases applies : receiver.mutate? call.method (args.map (·.value)) with
      | error failure =>
        rw [applies] at ends
        cases ends
        exact .refused evaluated applies
      | ok outcome =>
        cases outcome with
        | none => exact absurd applies (Value.mutate?_of_collection holds)
        | some outcome =>
          rw [applies] at ends
          cases ends
          exact .stored evaluated applies
  · rintro (fails | ⟨evaluated, refuses⟩ | ⟨evaluated, applies⟩)
    · exact .inl ⟨_, rfl, fails⟩
    · refine .inr ⟨_, _, evaluated, ?_⟩
      rw [refuses]
      exact .finished
    · refine .inr ⟨_, _, evaluated, ?_⟩
      rw [applies]
      exact .finished

/-- A collection is no signal. -/
theorem Value.isSignal_of_collection {collection : Collection Value}
    (holds : receiver.asCollection? = some collection) : receiver.isSignal = false := by
  unfold isSignal
  rw [data_of_asCollection? holds]

/-- A statement that calls a method which changes the collection in a variable ends for a request to end,
or as the call of the method of that collection does. -/
theorem Engine.ReadsCall.mayEnd_statement {collection : Collection Value}
    {result : Except Stop (Value × Cursor)}
    (reads : engine.ReadsCall cursor.skipSpaces call closed finish)
    (bound : engine.resolve? call.name cursor.file = some (.variable receiver))
    (holds : receiver.asCollection? = some collection)
    (mutates : Value.isMutatingMethod call.method = true) :
    (evaluator (depth + 2) .statement cursor engine).MayEnd allows result final ↔
      (engine.look.cancelled = true ∧ result = .error (.failed Cause.interrupted) ∧
        final = engine.look.note .interrupted) ∨
      engine.look.cancelled = false ∧ ∃ ended,
        MutatingEnd (evaluator depth) allows (engine.look.startStatement cursor.skipSpaces.site) call
          closed.site receiver ended final ∧ result = ended.map (·, finish) := by
  -- A request to end is looked at before the call.
  cases asked : engine.look.cancelled with
  | true =>
    obtain ⟨c, here, starts⟩ := reads.starts
    have stops : evaluator (depth + 2) .statement cursor engine =
        .finished (.error (.failed Cause.interrupted)) (engine.look.note .interrupted) := by
      show runStatement (evaluator (depth + 1)) cursor engine = _
      rw [runStatement_word here starts, checkCancelled_stops asked]
    rw [stops, Step.mayEnd_finished]
    simp
  | false =>
    rw [reads.statement bound (Value.isSignal_of_collection holds) asked, Eval.mayEnd_map]
    simp only [MethodCall.mayEnd_run holds mutates, Bool.false_eq_true, false_and, false_or, true_and]

/-- A statement that calls a method which changes the collection in a variable ends for a request to end,
or as the call does: the method is applied to the value that the variable had in front of the arguments.
So the variable holds what the method makes of its value behind the arguments exactly if the method makes
the same of both, above all if the arguments leave the variable alone. -/
theorem mutating_call_changes_first_value (allows : Engine → Engine → Prop) (depth : Nat)
    {collection : Collection Value}
    (reads : engine.ReadsCall cursor.skipSpaces call closed finish)
    (bound : engine.resolve? call.name cursor.file = some (.variable receiver))
    (holds : receiver.asCollection? = some collection)
    (mutates : Value.isMutatingMethod call.method = true) :
    let begun := engine.look.startStatement cursor.skipSpaces.site
    (∀ result final, (evaluator (depth + 2) .statement cursor engine).MayEnd allows result final ↔
      (engine.look.cancelled = true ∧ result = .error (.failed Cause.interrupted) ∧
        final = engine.look.note .interrupted) ∨
      engine.look.cancelled = false ∧ ∃ ended,
        MutatingEnd (evaluator depth) allows begun call closed.site receiver ended final ∧
          result = ended.map (·, finish)) ∧
    ∀ value next final,
      (evaluator (depth + 2) .statement cursor engine).MayEnd allows (.ok (value, next)) final →
      ∃ args middle,
        (evaluateArgs (evaluator depth) closed.site call.parts begun).MayEnd allows (.ok args) middle ∧
        final.valueOf? call.name cursor.file =
          receiver.changedBy? call.method (args.map (·.value)) ∧
        ∀ now, middle.valueOf? call.name cursor.file = some now →
          (final.valueOf? call.name cursor.file = now.changedBy? call.method (args.map (·.value)) ↔
            now.changedBy? call.method (args.map (·.value)) =
              receiver.changedBy? call.method (args.map (·.value))) := by
  intro begun
  refine ⟨fun result final => reads.mayEnd_statement bound holds mutates,
    fun value next final ends => ?_⟩
  have file : closed.site.file = cursor.file := reads.sameFile.trans (by simp [Cursor.file])
  obtain ⟨_, same, _⟩ | ⟨_, ended, mutating, same⟩ :=
    (reads.mayEnd_statement bound holds mutates).mp ends
  · cases same
  · -- Only an end that stores something leaves a value.
    cases mutating with
    | unread => cases same
    | refused => cases same
    | @stored args changed result middle evaluated applies =>
      have behind : (middle.assign call.name (.variable changed) closed.site.file).valueOf? call.name
          cursor.file = receiver.changedBy? call.method (args.map (·.value)) := by
        rw [file, Engine.valueOf?_assign]
        unfold Value.changedBy?
        rw [applies]
      refine ⟨args, middle, evaluated, behind, fun now _ => ?_⟩
      rw [behind]
      exact eq_comm

/-- An action with an operand that reads its target is applied to the value that the variable has behind
the operand, unlike a method. -/
theorem applyAction_changes_current_value {name : String} {action : Action} {value : Value} {next : Cursor}
    (takes : action.takesOperand = true) (target : action.readsTarget = true)
    (ends : (applyAction eval cursor { name } action engine).MayEnd allows (.ok (value, next)) final) :
    ∃ operand middle now,
      (evaluateAt eval .assigned cursor engine).MayEnd allows (.ok (operand, next)) middle ∧
      middle.valueOf? name next.site.file = some now ∧ action.apply now operand = .ok value ∧
      final.valueOf? name next.site.file = some value := by
  unfold applyAction at ends
  simp only [takes, target, if_true] at ends
  obtain ⟨_, same, _⟩ | ⟨⟨operand, behind⟩, middle, evaluated, ends⟩ := Eval.mayEnd_bind.mp ends
  · cases same
  dsimp only at ends
  unfold load at ends
  rw [bind_assoc, Eval.get_bind] at ends
  -- The variable is loaded behind the operand.
  cases held : middle.valueOf? name behind.site.file with
  | none =>
    rw [held] at ends
    cases ends
  | some now =>
    rw [held] at ends
    dsimp only [loadSegments] at ends
    rw [pure_bind] at ends
    cases applied : action.apply now operand with
    | error failure =>
      rw [applied] at ends
      cases ends
    | ok changed =>
      rw [applied] at ends
      dsimp only [Eval.ofHost] at ends
      rw [pure_bind] at ends
      unfold store at ends
      cases signal : changed.isSignal with
      | true =>
        rw [signal] at ends
        cases ends
      | false =>
        rw [signal] at ends
        cases ends
        exact ⟨operand, middle, now, evaluated, held, applied, Engine.valueOf?_assign ..⟩

/-- An interpreter in which a variable holds an array of one element. -/
def holdingOne : Engine := (Engine.new {} {}).assign "a" (.variable (.array [.ofNat 1])) "main"

/-- A statement that adds to the array what adding to it yields. -/
def nestedAdd : Cursor := .ofText ⟨"main", 1⟩ "a.add(a.add(2));".toList

/-- The statement is read as a call. -/
theorem readsCall_nestedAdd :
    holdingOne.ReadsCall nestedAdd.skipSpaces ⟨"a", "add", ["a.add(2)".toList]⟩
      (nestedAdd.advanceBy 15) (nestedAdd.advanceBy 16) where
  starts := ⟨'a', rfl, by decide⟩
  unreserved := by decide
  expression := by decide
  reads := ⟨nestedAdd.advanceBy 1, nestedAdd.advanceBy 5, "a.add(2)".toList, rfl,
    by decide +kernel, rfl, by decide +kernel, rfl, by decide +kernel⟩
  ends := rfl

/-- The evaluation of the arguments of the statement. -/
def nestedArguments : Step (List Arg) :=
  evaluateArgs (evaluator 8) (nestedAdd.advanceBy 15).site ["a.add(2)".toList]
    (holdingOne.look.startStatement nestedAdd.skipSpaces.site)

/-- The number of elements of a value, if it is a collection. -/
def Value.sizeOf? (value : Value) : Option Nat := value.asCollection?.map (·.size)

/-- Behind the arguments the array has two elements, so that adding to it makes three; behind the statement
it has two. -/
theorem nestedAdd_sizes : ∃ args middle now result final,
    nestedArguments.ended? = some (args, middle) ∧ middle.valueOf? "a" "main" = some now ∧
      (evaluator 10 .statement nestedAdd holdingOne).ended? = some (result, final) ∧
      (now.changedBy? "add" (args.map (·.value))).bind (·.sizeOf?) = some 3 ∧
      (final.valueOf? "a" "main").bind (·.sizeOf?) = some 2 := by
  have first : (nestedArguments.ended?.bind fun ended => (ended.2.valueOf? "a" "main").bind fun now =>
      (now.changedBy? "add" (ended.1.map (·.value))).bind (·.sizeOf?)) = some 3 := by
    decide +kernel
  have second : ((evaluator 10 .statement nestedAdd holdingOne).ended?.bind fun ended =>
      (ended.2.valueOf? "a" "main").bind (·.sizeOf?)) = some 2 := by
    decide +kernel
  -- Both runs are carried out, and what they come to is read off.
  obtain ⟨⟨args, middle⟩, evaluated, first⟩ := Option.bind_eq_some_iff.mp first
  obtain ⟨now, held, first⟩ := Option.bind_eq_some_iff.mp first
  obtain ⟨⟨result, final⟩, ended, second⟩ := Option.bind_eq_some_iff.mp second
  exact ⟨args, middle, now, result, final, evaluated, held, ended, first, second⟩

/-- The statement leaves what adding makes of the array in front of the arguments. -/
theorem mutating_call_changes_first_value_nested : ∃ args middle now result final,
    nestedArguments.ended? = some (args, middle) ∧ middle.valueOf? "a" "main" = some now ∧
      (evaluator 10 .statement nestedAdd holdingOne).ended? = some (result, final) ∧
      final.valueOf? "a" "main" = (Value.array [.ofNat 1]).changedBy? "add" (args.map (·.value)) ∧
      (final.valueOf? "a" "main" = now.changedBy? "add" (args.map (·.value)) ↔
        now.changedBy? "add" (args.map (·.value)) =
          (Value.array [.ofNat 1]).changedBy? "add" (args.map (·.value))) := by
  obtain ⟨args, middle, now, ⟨value, next⟩, final, evaluated, held, ended, _⟩ := nestedAdd_sizes
  have bound : holdingOne.resolve? "a" nestedAdd.file =
      some (.variable (.array [.ofNat 1])) := rfl
  obtain ⟨_, ends⟩ := mutating_call_changes_first_value (fun _ _ => False) 8 readsCall_nestedAdd bound
    rfl (by decide +kernel)
  obtain ⟨_, _, evaluatedToo, changed, exact⟩ := ends value next final (.of_ended ended)
  -- The arguments end in one way only.
  obtain ⟨same, rfl⟩ := (Step.mayEnd_ended evaluated).mp evaluatedToo
  cases same
  exact ⟨_, _, now, _, final, evaluated, held, ended, changed, exact now held⟩

/-- The element is lost that the arguments have added. -/
theorem nested_change_is_lost : ∃ args middle now result final,
    holdingOne.ReadsCall nestedAdd.skipSpaces ⟨"a", "add", ["a.add(2)".toList]⟩
        (nestedAdd.advanceBy 15) (nestedAdd.advanceBy 16) ∧
      nestedArguments.ended? = some (args, middle) ∧ middle.valueOf? "a" "main" = some now ∧
      (evaluator 10 .statement nestedAdd holdingOne).ended? = some (result, final) ∧
      final.valueOf? "a" "main" ≠ now.changedBy? "add" (args.map (·.value)) := by
  obtain ⟨args, middle, now, result, final, evaluated, held, ended, three, two⟩ := nestedAdd_sizes
  refine ⟨args, middle, now, result, final, readsCall_nestedAdd, evaluated, held, ended, fun same => ?_⟩
  rw [same, three] at two
  cases two

end ScriptEngine
