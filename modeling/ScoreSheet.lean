import ScoreSheet.Document.Encoding
import ScoreSheet.Document.Loading
import ScoreSheet.Session
import ScoreSheet.State.Indexed
import ScoreSheet.Proofs.Evaluation.Simulation
import ScoreSheet.Proofs.Evaluation.Writes
import ScoreSheet.Proofs.Evaluation.FixedPoint
import ScoreSheet.Proofs.Evaluation.Isolation
import ScoreSheet.Proofs.Evaluation.Likeness
import ScoreSheet.Proofs.Evaluation.Convergence
import ScoreSheet.Proofs.Evaluation.RuleOrder
import ScoreSheet.Proofs.Evaluation.Resumption
import ScoreSheet.Proofs.Evaluation.Admission
import ScoreSheet.Proofs.Evaluation.Fading
import ScoreSheet.Proofs.Evaluation.CallDepth
import ScoreSheet.Proofs.Evaluation.Condition
import ScoreSheet.Proofs.Evaluation.Exhaustion
import ScoreSheet.Proofs.Validation.Compilation
import ScoreSheet.Proofs.Rule.ChainBound
import ScoreSheet.Proofs.Rule.ChainLimit
import ScoreSheet.Proofs.Session.Compilation
import ScoreSheet.Proofs.Rule.Layout
import ScoreSheet.Proofs.Rule.Derivation
import ScoreSheet.Proofs.Rule.Recognition
import ScoreSheet.Proofs.Rule.Acceptance
import ScoreSheet.Proofs.Number.Whole
import ScoreSheet.Proofs.Json.Numbers
import ScoreSheet.Proofs.Json.Scalars
import ScoreSheet.Proofs.Json.Style
import ScoreSheet.Proofs.Json.RoundTrip
import ScoreSheet.Proofs.Number.Finite
import ScoreSheet.Proofs.Json.Bounds
import ScoreSheet.Proofs.Document.Fields
import ScoreSheet.Proofs.Document.RoundTrip
import ScoreSheet.Proofs.Document.SavedState
import ScoreSheet.Proofs.Document.Decoded
import ScoreSheet.Proofs.Document.SheetText
import ScoreSheet.Proofs.State.Indexed
import ScoreSheet.Proofs.Session.Frame
import ScoreSheet.Proofs.Session.Finite
import ScoreSheet.Proofs.Session.Restoration
import ScoreSheet.Proofs.Session.Contract
import ScoreSheet.Proofs.Rule.Callable
import ScoreSheet.Proofs.Document.Failure
import ScoreSheet.Proofs.Document.Classification
import ScoreSheet.Proofs.Rule.Reprinting
import ScoreSheet.Proofs.Session.Rerender
import ScoreSheet.Proofs.Session.Pruned
import ScoreSheet.Proofs.Rule.Aggregate
import ScoreSheet.Proofs.Rule.Coercion
import ScoreSheet.Proofs.Rule.Equality
import ScoreSheet.Proofs.Session.Confirmation
import ScoreSheet.Proofs.Rule.Forwarder
import ScoreSheet.Proofs.Evaluation.Forwarding
import ScoreSheet.Proofs.Validation.Exactness
import ScoreSheet.Proofs.Rule.Walk.Bookkeeping
import ScoreSheet.Proofs.Rule.ErrorPlace
import ScoreSheet.Proofs.Evaluation.ObjectLiteral
