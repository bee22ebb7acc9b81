import ScriptEngine.Eval.Expression
import ScriptEngine.Proofs.Source.Canonical
import ScriptEngine.Proofs.Value.Path

/-! The operations of the language make no calls: where they fail, the failure has not left one. -/

namespace ScriptEngine

variable {α β : Type}

/-- If an operation fails, its failure has not left a call. -/
def Bare (source : Result α) : Prop := ∀ failure, source = .error failure → failure.trace = []

namespace Bare

/-- What yields something does not fail. -/
theorem ok (value : α) : Bare (.ok value : Result α) := nofun

/-- A failure for a cause is new. -/
theorem fail (cause : Cause) : Bare (ScriptEngine.fail cause : Result α) := by
  rintro failure ⟨⟩
  rfl

/-- An operation in two parts fails as one of them does. -/
theorem bind {first : Result α} {next : α → Result β} (bare : Bare first)
    (goesOn : ∀ value, Bare (next value)) : Bare (first >>= next) := by
  cases first with
  | ok value => exact goesOn value
  | error failure =>
    rintro _ ⟨⟩
    exact bare failure rfl

/-- An operation that is repeated for each element of a list fails as one of them does. -/
theorem mapM {operation : α → Result β} (bare : ∀ value, Bare (operation value)) (list : List α) :
    Bare (list.mapM operation) := by
  induction list with
  | nil => exact .ok []
  | cons value rest ih =>
    rw [List.mapM_cons]
    exact .bind (bare value) fun _ => .bind ih fun _ => .ok _

/-- A fold over a list fails as one of its steps does. -/
theorem foldlM {step : β → α → Result β} (bare : ∀ made value, Bare (step made value))
    (list : List α) (made : β) : Bare (list.foldlM step made) := by
  induction list generalizing made with
  | nil => exact .ok made
  | cons value rest ih => exact .bind (bare made value) ih

end Bare

namespace Value

theorem bare_toIndex (value : Value) : Bare value.toIndex := by
  unfold toIndex
  split
  · split
    · exact .ok _
    · exact .fail _
  · exact .fail _

theorem bare_index (value index : Value) : Bare (value.index index) := by
  unfold Value.index
  -- Whatever is indexed, a failure is one of the index or of the value itself.
  split
  · split
    · exact .ok _
    · exact .bind index.bare_toIndex fun _ => .ok _
  · exact .bind index.bare_toIndex fun _ => .ok _
  · split
    · split
      · exact .ok _
      · exact .fail _
    · dsimp only
      split
      · exact .ok _
      · exact .fail _
  · exact .fail _

theorem bare_indexed (value index : Value) : Bare (value.indexed index) := by
  unfold indexed
  split
  · exact .ok _
  · exact .fail _

theorem bare_checkGrowth (position : Nat) : Bare (Collection.checkGrowth position) := by
  unfold Collection.checkGrowth
  split
  · exact .ok _
  · exact .fail _

theorem bare_writablePosition (collection : Collection Value) (index : Value) :
    Bare (writablePosition collection index) := by
  refine .bind index.bare_toIndex fun position => ?_
  dsimp only
  split
  · exact .bind (bare_checkGrowth position) fun _ => .ok _
  · exact .ok _

theorem bare_setAt (collection : Collection Value) (position : Nat) (value : Value) :
    Bare (collection.setAt .null position value) := by
  unfold Collection.setAt
  split
  · exact .ok _
  · exact .bind (bare_checkGrowth position) fun _ => .ok _

theorem bare_checkIndexed (value : Value) (indices : List Value) :
    Bare (value.checkIndexed indices) := by
  -- The induction is on the path, the value being the one that the step before leads to.
  induction indices generalizing value with
  | nil => exact .ok _
  | cons index rest ih =>
    refine .bind (value.bare_indexed index) fun collection => ?_
    split
    · exact ih _
    · exact .bind (bare_writablePosition collection index) fun _ => ih _

theorem bare_writeIndexed (value content : Value) (indices : List Value) :
    Bare (value.writeIndexed content indices).2 := by
  rcases value.writeIndexed_cases content indices with ⟨failure, checked, wrote⟩ | ⟨_, wrote⟩
  · rw [wrote, ← checked]
    exact value.bare_checkIndexed indices
  · rw [wrote]
    exact .ok _

theorem bare_builtinMethod (value : Value) (name : String) (arguments : List Value) :
    Bare (value.builtinMethod? name arguments) := by
  unfold builtinMethod?
  dsimp only
  split
  case h_9 =>
    split
    · exact .ok _
    · exact .bind (bare_toIndex _) fun _ => .ok _
  case h_10 => exact .bind (bare_toIndex _) fun _ => .ok _
  -- All other methods answer without an index, or there is no such method.
  all_goals exact .ok _

theorem bare_mutateCollection (collection : Collection Value) (name typeName : String)
    (arguments : List Value) : Bare (mutateCollection collection name typeName arguments) := by
  unfold mutateCollection
  dsimp only
  split
  · exact .ok _
  · exact .bind (bare_toIndex _) fun _ => .ok _
  · split
    · exact .ok _
    · exact .ok _
  · exact .bind (bare_toIndex _) fun _ => .ok _
  · exact .ok _
  · exact .fail _

theorem bare_mutate (value : Value) (name : String) (arguments : List Value) :
    Bare (value.mutate? name arguments) := by
  unfold mutate?
  dsimp only
  split
  · exact .ok _
  · exact .bind (bare_mutateCollection _ _ _ _) fun _ => .ok _

end Value

theorem BinaryOp.bare_arithmetic (symbol : String) (operation : Float → Float → Float)
    (left right : Value) : Bare (arithmetic symbol operation left right) := by
  unfold arithmetic
  split
  · exact .ok _
  · exact .fail _

theorem BinaryOp.bare_apply (op : BinaryOp) (left right : Value) : Bare (op.apply left right) := by
  cases op with
  | equal | notEqual | less | lessOrEqual | greater | greaterOrEqual => exact .ok _
  | add =>
    unfold apply
    dsimp only
    split
    · exact .ok _
    · exact bare_arithmetic _ _ _ _
  | subtract | multiply | divide | modulo => exact bare_arithmetic _ _ _ _

theorem Sign.bare_apply (sign : Sign) (value : Value) : Bare (sign.apply value) := by
  unfold Sign.apply
  split
  · exact .ok _
  · exact .ok _
  · exact .fail _

theorem bare_applySigns (value : Value) (signs : List Sign) : Bare (applySigns value signs) := by
  induction signs with
  | nil => exact .ok _
  | cons sign inner ih => exact .bind ih fun _ => sign.bare_apply _

theorem bare_bindArgs (function : String) (params : List Param) (args : List Arg) :
    Bare (bindArgs function params args) := by
  unfold bindArgs
  split
  · exact .ok _
  · exact .fail _

theorem bare_toValue (text : String) : Bare (Tagged.toValue text) := by
  unfold Tagged.toValue
  split
  · exact .ok _
  · exact .fail _

theorem TypedParam.bare_ofTexts (function : String) (texts : List (List Char)) :
    Bare (TypedParam.ofTexts function texts) := by
  refine .mapM (fun text => ?_) texts
  unfold ofText
  split
  · exact .fail _
  · split
    · exact .ok _
    · exact .fail _

namespace ArgBuckets

theorem bare_readNumber (param : TypedParam) (value : Value) : Bare (readNumber param value) := by
  unfold readNumber
  split
  · exact .ok _
  · exact .fail _

theorem bare_readElements (param : TypedParam) (value : Value) :
    Bare (readElements param value) := by
  unfold readElements
  split
  · exact .ok _
  · exact .fail _

theorem bare_add (buckets : ArgBuckets) (param : TypedParam) (value : Value) :
    Bare (buckets.add param value) := by
  unfold add
  split
  · exact .ok _
  · exact .bind (bare_readNumber param value) fun _ => .ok _
  · exact .bind (bare_readNumber param value) fun _ => .ok _
  · exact .bind (bare_readElements param value) fun _ => .ok _
  · exact .bind (bare_readElements param value) fun _ =>
      .bind (.mapM (bare_readNumber param) _) fun _ => .ok _

theorem bare_sort (function : String) (params : List TypedParam) (arguments : List Value) :
    Bare (sort function params arguments) := by
  unfold sort
  split
  · exact .foldlM (fun buckets entry => buckets.bare_add entry.1 entry.2) _ _
  · exact .fail _

end ArgBuckets

/-- A source that has no canonical form is unbalanced. -/
theorem Canonical.bare_continueFrom (file : String) (context : Context) (progress : Progress)
    (rest : List Char) : Bare (continueFrom file context progress rest) := by
  have finishes : ∀ progress : Progress, Bare (progress.finish file) := by
    intro progress
    unfold Progress.finish
    split
    · exact .ok _
    · exact .fail _
  -- The cases are those of the scan: it finishes at the end of the text, or it goes on or fails.
  fun_induction continueFrom file context progress rest with
  | case1 => exact .fail _
  | case2 progress => exact finishes progress
  | case3 progress => exact finishes progress
  | case4 progress => exact finishes progress
  | _ => first | assumption | exact .fail _

theorem Cursor.bare_ofSource (source file : String) : Bare (Cursor.ofSource source file) :=
  .bind (Canonical.bare_continueFrom file _ _ _) fun _ => .ok _

/-- A property that a value does not have is missing. -/
theorem Engine.bare_plainProperty (engine : Engine) (value : Value) (name : String) :
    Bare (engine.plainProperty value name) := by
  unfold plainProperty
  split
  · exact .ok _
  · exact .fail _

/-- A change of a variable fails as the change of its value does, or where there is no variable. -/
theorem Engine.bare_updateVariable (engine : Engine) (name file : String)
    {change : Value → Value × Result Unit} (bare : ∀ value, Bare (change value).2) :
    Bare (engine.updateVariable name file change).2 := by
  unfold updateVariable
  dsimp only
  split
  · exact bare _
  · exact .fail _
  · split
    · exact .ok _
    -- A variable that is not there yet is bound only if the change of null succeeds.
    case h_2 same =>
      have failed := bare .null
      rw [same] at failed
      exact failed

end ScriptEngine
