import ScriptEngine.Error
import ScriptEngine.Execution
import ScriptEngine.Parser.Rules
import ScriptEngine.Proofs.Ends
import ScriptEngine.Proofs.Error.Drawing
import ScriptEngine.Proofs.Error.Stages
import ScriptEngine.Proofs.Evaluation.Indexing
import ScriptEngine.Proofs.Evaluation.Integers
import ScriptEngine.Proofs.Evaluation.Order
import ScriptEngine.Proofs.Evaluation.Repetition
import ScriptEngine.Proofs.Execution.Accesses
import ScriptEngine.Proofs.Execution.Assignment
import ScriptEngine.Proofs.Execution.Change
import ScriptEngine.Proofs.Execution.Effect
import ScriptEngine.Proofs.Execution.Lockstep
import ScriptEngine.Proofs.Execution.Pieces
import ScriptEngine.Proofs.Execution.Points
import ScriptEngine.Proofs.Execution.Signals
import ScriptEngine.Proofs.Execution.Sites
import ScriptEngine.Proofs.Execution.Tandem
import ScriptEngine.Proofs.Grammar.Completion
import ScriptEngine.Proofs.Grammar.Expr
import ScriptEngine.Proofs.Grammar.Program
import ScriptEngine.Proofs.Grammar.Reads
import ScriptEngine.Proofs.Grammar.Refusal
import ScriptEngine.Proofs.Grammar.Rules
import ScriptEngine.Proofs.Grammar.Type
import ScriptEngine.Proofs.Grammar.TypeText
import ScriptEngine.Proofs.Grammar.Viable
import ScriptEngine.Proofs.Grammar.WholeExpr
import ScriptEngine.Proofs.Parser.Calls
import ScriptEngine.Proofs.Parser.Invariant
import ScriptEngine.Proofs.Parser.Lookahead
import ScriptEngine.Proofs.Parser.Operators
import ScriptEngine.Proofs.Parser.Placement
import ScriptEngine.Proofs.Parser.Progress
import ScriptEngine.Proofs.Parser.Recorded
import ScriptEngine.Proofs.Scope.Agreement
import ScriptEngine.Proofs.Scope.Alters
import ScriptEngine.Proofs.Scope.EmptyFrame
import ScriptEngine.Proofs.Scope.Keeps
import ScriptEngine.Proofs.Scope.Mirror
import ScriptEngine.Proofs.Scope.Nearest
import ScriptEngine.Proofs.Scope.Unmentioned
import ScriptEngine.Proofs.Source.Position
import ScriptEngine.Proofs.Syntax.Names
import ScriptEngine.Proofs.Syntax.Precedence
import ScriptEngine.Proofs.Tandem
import ScriptEngine.Proofs.Token.Cursor
import ScriptEngine.Proofs.Token.Escapes
import ScriptEngine.Proofs.Token.Layout
import ScriptEngine.Proofs.Token.Newline
import ScriptEngine.Proofs.Token.Seam
import ScriptEngine.Proofs.Token.Spelling
import ScriptEngine.Proofs.Token.Trivia
import ScriptEngine.Proofs.Typing.Conformance
import ScriptEngine.Proofs.Typing.Effect
import ScriptEngine.Proofs.Typing.Expr
import ScriptEngine.Proofs.Typing.Returns
import ScriptEngine.Proofs.Typing.Scoping
import ScriptEngine.Proofs.Typing.Soundness
import ScriptEngine.Proofs.Typing.Tandem
import ScriptEngine.Proofs.Value.Contents
import ScriptEngine.Text.Unicode
import ScriptEngine.Typing
import ScriptEngine.Value
