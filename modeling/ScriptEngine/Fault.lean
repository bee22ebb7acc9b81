/-! Causes for which a script can fail, their wording and their classification. -/

namespace ScriptEngine

/-- The delimiter family that a source leaves unbalanced. -/
inductive Delimiter where
  | brackets
  | quotes
  deriving DecidableEq, Repr

/-- The word for a delimiter family in a message. -/
def Delimiter.describe : Delimiter → String
  | .brackets => "brackets"
  | .quotes => "quotes"

/-- Reasons for which tagged text cannot be read back. -/
inductive TaggedFault where
  | expected (wanted : Char)
  | danglingEscape
  | unterminatedElement
  | badNumber (text : String)
  | badDate (text : String)
  | badHex (text : String)
  | oddHex
  | unknownTag (tag : String)
  | trailingText
  deriving DecidableEq, Repr

/-- The wording of a tagged-text fault. -/
def TaggedFault.describe : TaggedFault → String
  | .expected wanted => s!"expected '{wanted}'"
  | .danglingEscape => "dangling escape"
  | .unterminatedElement => "unterminated element"
  | .badNumber text => s!"bad number '{text}'"
  | .badDate text => s!"bad date '{text}'"
  | .badHex text => s!"bad hex '{text}'"
  | .oddHex => "odd-length hex payload"
  | .unknownTag tag => s!"unknown tag '{tag}'"
  | .trailingText => "trailing text after element"

/-- Reasons for which a statement or an expression is malformed. -/
inductive SyntaxFault where
  | expected (wanted : Char) (found : Option Char)
  | unexpected (token : String)
  | trailing (found : Char)
  | missingExpression
  | unknownOperator (symbol : String)
  | unterminatedString
  | invalidNumber (text : String)
  | malformedEntry (text : String)
  | unknownStepOperator
  | missingTarget (token : String)
  | orphanKeyword (keyword : String)
  | invalidVariable (text : String)
  | missingEnumName
  | invalidEnumEntry (text : String)
  | missingNamespaceName
  | missingWorkerExpression
  | missingWhile
  | malformedForHeader
  | malformedForEachHeader (text : String)
  | missingCatch
  | invalidCatchVariable (text : String)
  | missingFunctionName
  | invalidParameter (text function : String)
  | duplicateParameter (name function : String)
  | missingClassName
  | unexpectedMember (className : String)
  | missingClassAfterNew
  | missingCompiledName
  | untypedParameter (text function : String)
  | unknownParameterType (kind function : String)
  | malformedTagged (position : Nat) (fault : TaggedFault)
  deriving DecidableEq, Repr

/-- The wording of a syntax fault, without its line. -/
def SyntaxFault.describe : SyntaxFault → String
  | .expected wanted (some found) => s!"expected '{wanted}', found '{found}'"
  | .expected wanted none => s!"expected '{wanted}', found end of script"
  | .unexpected token => s!"unexpected '{token}'"
  | .trailing found => s!"unexpected '{found}' in expression"
  | .missingExpression => "expected an expression"
  | .unknownOperator symbol => s!"unknown operator '{symbol}'"
  | .unterminatedString => "unterminated string"
  | .invalidNumber text => s!"invalid number '{text}'"
  | .malformedEntry text => s!"expected 'key: value', found '{text}'"
  | .unknownStepOperator => "unknown prefix operator"
  | .missingTarget token => s!"'{token}' needs a target"
  | .orphanKeyword keyword => s!"'{keyword}' without its statement"
  | .invalidVariable text => s!"invalid variable name '{text}'"
  | .missingEnumName => "expected an enum name"
  | .invalidEnumEntry text => s!"invalid enum entry '{text}'"
  | .missingNamespaceName => "expected a namespace name"
  | .missingWorkerExpression => "a worker needs an expression"
  | .missingWhile => "expected 'while' after 'do' body"
  | .malformedForHeader => "malformed for header"
  | .malformedForEachHeader text => s!"malformed for-each header '{text}'"
  | .missingCatch => "expected 'catch' after 'try' body"
  | .invalidCatchVariable text => s!"invalid catch variable '{text}'"
  | .missingFunctionName => "expected a function name"
  | .invalidParameter text function => s!"invalid parameter '{text}' in {function}"
  | .duplicateParameter name function => s!"duplicate parameter '{name}' in {function}"
  | .missingClassName => "expected a class name"
  | .unexpectedMember className => s!"unexpected member in class {className}"
  | .missingClassAfterNew => "expected a class name after 'new'"
  | .missingCompiledName => "cfunction needs a name"
  | .untypedParameter text function => s!"parameter '{text}' of {function} needs a type"
  | .unknownParameterType kind function => s!"unknown parameter type '{kind}' in {function}"
  | .malformedTagged position fault =>
    s!"malformed marshal text at {position}: " ++ fault.describe

/-- Reasons for which arguments cannot be bound to parameters. -/
inductive ArgumentFault where
  | wrongCount (expected : Int) (got : Nat)
  | boundTwice (parameter : String)
  | positionalAfterNamed (ordinal : Nat)
  | missing (parameter : String)
  | noConstructor (count : Nat)
  deriving DecidableEq, Repr

/-- The wording of an argument fault, without the callee. -/
def ArgumentFault.describe : ArgumentFault → String
  | .wrongCount expected got => s!"expected {expected} arguments, got {got}"
  | .boundTwice parameter => s!"parameter '{parameter}' is bound twice"
  | .positionalAfterNamed ordinal => s!"positional argument {ordinal} follows named arguments"
  | .missing parameter => s!"missing argument '{parameter}'"
  | .noConstructor count => s!"no constructor takes {count} arguments"

/-- What an operation would have accepted in place of the value it got. -/
inductive Expectation where
  | numbersFor (symbol : String)
  | numberToNegate
  | numberToStep
  | number
  | numericValue
  | indexable
  | arrayToIndex
  | index
  | indexBelow (limit : Nat)
  | storable
  | variable
  | iterable
  | enumerableObject
  | receiverSupporting (method : String)
  | writableProperty (type property : String)
  | typedParameter (kind parameter : String)
  deriving DecidableEq, Repr

/-- The wording of an expectation. -/
def Expectation.describe : Expectation → String
  | .numbersFor symbol => s!"numbers for '{symbol}'"
  | .numberToNegate => "a number to negate"
  | .numberToStep => "number"
  | .number => "a number"
  | .numericValue => "a numeric value"
  | .indexable => "an indexable value"
  | .arrayToIndex => "an array to index"
  | .index => "a non-negative integer index"
  | .indexBelow limit => s!"an index below {limit}"
  | .storable => "a storable value"
  | .variable => "a variable"
  | .iterable => "an iterable"
  | .enumerableObject => "an enumerable object"
  | .receiverSupporting method => s!"a receiver supporting {method}"
  | .writableProperty type property => s!"a writable property {type}.{property}"
  | .typedParameter kind parameter => s!"{kind} {parameter}"

/-- The cause of a failed evaluation. -/
inductive Cause where
  | imbalance (what : Delimiter) (file : String) (line : Nat)
  | syntaxError (fault : SyntaxFault) (line : Nat)
  | arguments (function : String) (fault : ArgumentFault)
  | unknownSymbol (name : String)
  | typeMismatch (expected : Expectation) (got : String)
  | infiniteLoop (limit : Nat)
  | compileFailure (function message : String)
  | thrown (message : String)
  | stackOverflow (depth limit : Nat)
  | interrupted
  | unreadable (path message : String)
  deriving DecidableEq, Repr

/-- The text of a cause as hosts and script handlers see it. -/
def Cause.message : Cause → String
  | .imbalance what file line => "Unbalanced " ++ what.describe ++ s!" in {file} at line {line}"
  | .syntaxError fault line => s!"Syntax error at line {line}: " ++ fault.describe
  | .arguments function fault => s!"Argument mismatch in {function}: " ++ fault.describe
  | .unknownSymbol name => s!"Unknown symbol: {name}"
  | .typeMismatch expected got => "Type error: expected " ++ expected.describe ++ s!", got {got}"
  | .infiniteLoop limit => s!"Infinite loop suspected: more than {limit} iterations"
  | .compileFailure function message => s!"Failed to compile {function}: {message}"
  | .thrown message => message
  | .stackOverflow depth limit => s!"Stack overflow: depth {depth} exceeds maximum {limit}"
  | .interrupted => "Evaluation interrupted"
  | .unreadable path message => s!"Cannot read {path}: {message}"

/-- A cause together with the calls it has left on its way out, innermost first. -/
structure Failure where
  cause : Cause
  trace : List String := []
  deriving DecidableEq, Repr

/-- The text a script handler sees; the trace is kept apart. -/
def Failure.message (failure : Failure) : String := failure.cause.message

/-- The texts of a failure and of what lies behind it. Behind a failure that has left calls lies its
bare cause, which reads the same. -/
def Failure.chain (failure : Failure) : List String :=
  if failure.trace.isEmpty then [failure.message] else [failure.message, failure.cause.message]

/-- Records that a failure has left a call of `function`. -/
def Failure.inFrame (failure : Failure) (function : String) : Failure :=
  { failure with trace := failure.trace ++ [function] }

/-- The trace with one line for each call, innermost first. -/
def Failure.traceText (failure : Failure) : String :=
  String.intercalate "\n" (failure.trace.map fun name => "at " ++ name ++ "()")

instance : Coe Cause Failure := ⟨fun cause => ⟨cause, []⟩⟩

/-- The result of an operation of the language that may fail. -/
abbrev Result (α : Type) := Except Failure α

/-- Ends an operation for `cause`, before any call has been left. -/
def fail {α : Type} (cause : Cause) : Result α := .error cause

/-- Behind a part that yields something, an operation goes on with it. -/
theorem ok_bind {ε α β : Type} (value : α) (next : α → Except ε β) :
    ((.ok value : Except ε α) >>= next) = next value := rfl

/-- What an operation in two parts yields comes from what its first part yields. -/
theorem ok_of_bind {ε α β : Type} {first : Except ε α} {next : α → Except ε β} {result : β}
    (ran : (first >>= next) = .ok result) : ∃ value, first = .ok value ∧ next value = .ok result := by
  cases first with
  | error failure => cases ran
  | ok value => exact ⟨value, rfl, ran⟩

/-- Only what the first part of an operation yields matters to its second part. -/
theorem bind_congr_ok {ε α β : Type} {first : Except ε α} {next other : α → Except ε β}
    (same : ∀ value, first = .ok value → next value = other value) :
    (first >>= next) = first >>= other := by
  cases first with
  | error failure => rfl
  | ok value => exact same value rfl

end ScriptEngine
