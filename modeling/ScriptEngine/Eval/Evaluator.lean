import ScriptEngine.Eval.Expression

/-! The evaluator: where the constructs of the language and what is nested in them meet. -/

namespace ScriptEngine

/-- Runs phrases that are nested at most so deep. Within one level all repetition is bounded by the
text or by the limits of the configuration. -/
def evaluator : Nat → Evaluator
  | 0, _, _ => throw .exhausted
  | depth + 1, .expression, cursor => evaluateExpression (evaluator depth) cursor
  | depth + 1, .statement, cursor => runStatement (evaluator depth) cursor

/-- The nesting up to which hosts run scripts. It lies beyond what the limit on calls leaves a
script, unless its files or its accessors refer to themselves without end. -/
def nestingLimit : Nat := 1_000_000_000

/-- The evaluator that hosts use. -/
def hostEvaluator : Evaluator := evaluator nestingLimit

end ScriptEngine
