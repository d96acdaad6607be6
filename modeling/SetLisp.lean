import SetLisp.Env.Inspect
import SetLisp.Env.Run
import SetLisp.Main
import SetLisp.Source.Directory
import SetLisp.TokenStream
import SetLisp.Proofs.Number.Inspection
import SetLisp.Proofs.Number.Numeral
import SetLisp.Proofs.Number.Rounding
import SetLisp.Proofs.Reading.Balance
import SetLisp.Proofs.Reading.Delimiters
import SetLisp.Proofs.Reading.Derivations
import SetLisp.Proofs.Reading.Expression
import SetLisp.Proofs.Reading.Grammar
import SetLisp.Proofs.Reading.Layout
import SetLisp.Proofs.Reading.Marks
import SetLisp.Proofs.Reading.NormalForm
import SetLisp.Proofs.Reading.OpenForms
import SetLisp.Proofs.Reading.Outcome
import SetLisp.Proofs.Reading.Parsing
import SetLisp.Proofs.Reading.Printing
import SetLisp.Proofs.Reading.Regrouping
import SetLisp.Proofs.Reading.RoundTrip
import SetLisp.Proofs.Reading.Splitting
import SetLisp.Proofs.Reading.TermTokens
import SetLisp.Proofs.Reading.Terms
import SetLisp.Proofs.Value.Keys
import SetLisp.Proofs.Value.Members
import SetLisp.Proofs.Value.Renaming
import SetLisp.Proofs.Value.SetHistory
import SetLisp.Proofs.Value.Similarity
import SetLisp.Proofs.Value.WellFormed
import SetLisp.Proofs.Scope.Copying
import SetLisp.Proofs.Scope.Renaming
import SetLisp.Proofs.Scope.Table
import SetLisp.Proofs.Scope.Without
import SetLisp.Proofs.Eval.Alike
import SetLisp.Proofs.Eval.Keeps
import SetLisp.Proofs.Eval.Naming
import SetLisp.Proofs.Eval.Outcome
import SetLisp.Proofs.Eval.Renaming
import SetLisp.Proofs.Eval.Rules
import SetLisp.Proofs.Eval.Soundness
import SetLisp.Proofs.Source.Decoding
import SetLisp.Proofs.Session.FileRun
import SetLisp.Proofs.Session.Fresh
import SetLisp.Proofs.Session.Passages
import SetLisp.Proofs.Session.Relocation
import SetLisp.Proofs.Session.TermRun
import SetLisp.Proofs.Builtin.Comparison
import SetLisp.Proofs.CommandLine.ExitStatus
import SetLisp.Proofs.Builtin.SetAlgebra
import SetLisp.Proofs.Eval.Growth
import SetLisp.Proofs.Eval.Room
import SetLisp.Proofs.Eval.OwnFrame
import SetLisp.Proofs.Eval.Unmentioned
import SetLisp.Proofs.Reading.Faults
import SetLisp.Proofs.Session.Room
import SetLisp.Proofs.Session.Joining
import SetLisp.Proofs.Session.KeepGoing
import SetLisp.Proofs.Session.Levels
import SetLisp.Proofs.Session.Reached
import SetLisp.Proofs.Session.Redirection
import SetLisp.Proofs.Session.Refusal
import SetLisp.Proofs.Eval.CallOrder
import SetLisp.Proofs.Reading.LambdaText
import SetLisp.Proofs.Reading.SetText
import SetLisp.Proofs.Value.OneLine
import SetLisp.Proofs.Session.Printouts
import SetLisp.Proofs.Session.Lines
import SetLisp.Proofs.Reading.Tokenizing
import SetLisp.Proofs.Reading.Stream
import SetLisp.Proofs.Scope.Bindings
import SetLisp.Proofs.Scope.History
import SetLisp.Proofs.Scope.Layers
import SetLisp.Proofs.Eval.Sequencing
import SetLisp.Proofs.Builtin.Folding
import SetLisp.Proofs.CommandLine.Settings
import SetLisp.Proofs.Eval.Parameters
import SetLisp.Proofs.Session.NamedFunctions
import SetLisp.Proofs.Text.Respelling
