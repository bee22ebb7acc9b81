import ScriptEngine.Fault
import ScriptEngine.Text.Blank
import ScriptEngine.Text.Case
import ScriptEngine.Text.Identifier
import ScriptEngine.Text.Quoted
import ScriptEngine.Source.Literal
import ScriptEngine.Source.Statement
import ScriptEngine.DateTime
import ScriptEngine.Collection
import ScriptEngine.Value.Builtin
import ScriptEngine.Value.Operator
import ScriptEngine.Tagged.Reader
import ScriptEngine.Config
import ScriptEngine.Handler
import ScriptEngine.Scope.Stack
import ScriptEngine.Scope.Symbols
import ScriptEngine.Heap
import ScriptEngine.HostType
import ScriptEngine.Output
import ScriptEngine.FileTree
import ScriptEngine.Engine.State
import ScriptEngine.Eval.Native
import ScriptEngine.Eval.Function
import ScriptEngine.Eval.Place
import ScriptEngine.Eval.Member
import ScriptEngine.Eval.Class
import ScriptEngine.Eval.Loop
import ScriptEngine.Eval.Evaluator
import ScriptEngine.Interpreter
import ScriptEngine.Proofs.Frames
import ScriptEngine.Proofs.Quit
import ScriptEngine.Proofs.Signals
import ScriptEngine.Proofs.Agreement
import ScriptEngine.Proofs.IndexedWrite
import ScriptEngine.Proofs.Tagged.RoundTrip
import ScriptEngine.Proofs.Grammar.Meaning
import ScriptEngine.Proofs.Engine.Scoping
import ScriptEngine.Proofs.Source.Defect
import ScriptEngine.Proofs.Grammar.Data
import ScriptEngine.Proofs.Depth.Limit
import ScriptEngine.Proofs.Source.Extraction
import ScriptEngine.Proofs.Worker
import ScriptEngine.Proofs.Cancellation
import ScriptEngine.Proofs.Calls
import ScriptEngine.Proofs.Scope.Identifiers
import ScriptEngine.Proofs.IndexWriters
import ScriptEngine.Proofs.Traces
import ScriptEngine.Proofs.Fields.Activation
import ScriptEngine.Proofs.Fields.Assignment
import ScriptEngine.Proofs.Passes
import ScriptEngine.Proofs.EachHeader
import ScriptEngine.Proofs.CallStages
import ScriptEngine.Proofs.WriteBack
import ScriptEngine.Proofs.Surplus
import ScriptEngine.Proofs.Fields.Control
import ScriptEngine.Proofs.FieldAccess
import ScriptEngine.Proofs.Chains
import ScriptEngine.Proofs.ArgumentBinding
import ScriptEngine.Proofs.PropertyWrite
import ScriptEngine.Proofs.MutatingCall
import ScriptEngine.Proofs.Unmarshalling
import ScriptEngine.Proofs.Tagged.Cycles
import ScriptEngine.Proofs.Value.Order
import ScriptEngine.Proofs.Value.Equality
import ScriptEngine.Proofs.Source.FixedPoint
import ScriptEngine.Proofs.Enumeration
import ScriptEngine.Proofs.Constructors
import ScriptEngine.Proofs.ArgumentBuckets
import ScriptEngine.Proofs.Source.Splitting
import ScriptEngine.Proofs.StringPositions
