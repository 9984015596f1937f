import PuzzleLang.Main
import PuzzleLang.Proofs.Grammar.Canonical
import PuzzleLang.Proofs.Grammar.Expression
import PuzzleLang.Proofs.Grammar.Soundness
import PuzzleLang.Proofs.Session.Literal
import PuzzleLang.Proofs.Run.Accord
import PuzzleLang.Proofs.Token.Segmentation
import PuzzleLang.Proofs.Run.Primitive
import PuzzleLang.Proofs.Run.Native
import PuzzleLang.Proofs.Run.Evaluation
import PuzzleLang.Proofs.Session.Accord
import PuzzleLang.Proofs.Store.Place
import PuzzleLang.Proofs.Run.Region
import PuzzleLang.Proofs.Session.WellFormed
import PuzzleLang.Proofs.Session.Confinement
import PuzzleLang.Proofs.Session.Scoping
import PuzzleLang.Proofs.Session.Layout
import PuzzleLang.Proofs.Run.Jump
import PuzzleLang.Proofs.Policy.Basic
import PuzzleLang.Proofs.Policy.Step
import PuzzleLang.Proofs.Policy.Evaluation
import PuzzleLang.Proofs.Policy.Session
import PuzzleLang.Proofs.Policy.Attribution
import PuzzleLang.Proofs.Session.Control
import PuzzleLang.Proofs.Run.Rounds
import PuzzleLang.Proofs.Session.Termination
import PuzzleLang.Proofs.Run.Sequence
import PuzzleLang.Proofs.Session.Containers
import PuzzleLang.Proofs.Run.Activity
import PuzzleLang.Proofs.Run.Propagation
import PuzzleLang.Proofs.Run.Origin
import PuzzleLang.Proofs.Grammar.Placement
import PuzzleLang.Proofs.Session.Faults
import PuzzleLang.Proofs.Session.Reentry
import PuzzleLang.Proofs.Grammar.Lookahead
import PuzzleLang.Proofs.Session.Order
import PuzzleLang.Proofs.Store.Circular
import PuzzleLang.Proofs.Run.Thinning
import PuzzleLang.Proofs.Run.Traceable
import PuzzleLang.Proofs.Session.Tracing
import PuzzleLang.Proofs.Bindings
import PuzzleLang.Proofs.Store.Shadowing
import PuzzleLang.Proofs.Store.Subscript
import PuzzleLang.Proofs.Run.Selection
import PuzzleLang.Proofs.Tree.Bare
import PuzzleLang.Proofs.Run.Bare
import PuzzleLang.Proofs.Session.Bare
import PuzzleLang.Proofs.Session.Printing
import PuzzleLang.Proofs.CommandLine.Parts
import PuzzleLang.Proofs.CommandLine.Verdict
import PuzzleLang.Proofs.Text.Split
import PuzzleLang.Proofs.Text.Blank
import PuzzleLang.Proofs.Text.Decimal
import PuzzleLang.Proofs.Text.Lines
import PuzzleLang.Proofs.Grammar.Dumped
import PuzzleLang.Proofs.Session.Purity
import PuzzleLang.Proofs.Session.Input
import PuzzleLang.Proofs.Run.Sorting
import PuzzleLang.Proofs.Value.Counting
import PuzzleLang.Proofs.Run.RangeLoop
import PuzzleLang.Proofs.Text.Coordinates
import PuzzleLang.Proofs.Token.Progress
import PuzzleLang.Proofs.Value.Division
import PuzzleLang.Proofs.Grammar.OnDemand
import PuzzleLang.Proofs.Token.Listing
import PuzzleLang.Proofs.Grammar.Agreement
import PuzzleLang.Proofs.Grammar.Progress
