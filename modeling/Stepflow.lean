import Stepflow.Session.Pacing
import Stepflow.Workflow.Issue
import Stepflow.Proofs.Json.Numerals
import Stepflow.Proofs.Numeric.Decimals
import Stepflow.Proofs.Json.Reading
import Stepflow.Proofs.Json.Documents
import Stepflow.Proofs.Json.Doubles
import Stepflow.Proofs.Workflow.Restoring
import Stepflow.Proofs.Workflow.Trail
import Stepflow.Proofs.Workflow.Downstream
import Stepflow.Proofs.Workflow.Insertion
import Stepflow.Proofs.Workflow.Issues
import Stepflow.Proofs.Workflow.Suggestions
import Stepflow.Proofs.Json.RoundTrip
import Stepflow.Proofs.Canvas.Acts
import Stepflow.Proofs.Canvas.Histories
import Stepflow.Proofs.Canvas.Consistency
import Stepflow.Proofs.Canvas.Undo
import Stepflow.Proofs.Canvas.Timeline
import Stepflow.Proofs.Canvas.DeadEnds
import Stepflow.Proofs.Canvas.Isolation
import Stepflow.Proofs.Canvas.Provenance
import Stepflow.Proofs.Canvas.Selection
import Stepflow.Proofs.Canvas.Edges
import Stepflow.Proofs.Run.Walk
import Stepflow.Proofs.Run.Highlight
import Stepflow.Proofs.Run.Endings
import Stepflow.Proofs.Run.Pauses
import Stepflow.Proofs.Run.Variables
import Stepflow.Proofs.Run.Outcomes
import Stepflow.Proofs.Run.Splicing
import Stepflow.Proofs.Run.Budgets
import Stepflow.Proofs.Run.Settling
import Stepflow.Proofs.Run.Faults
import Stepflow.Proofs.Run.Recall
import Stepflow.Proofs.Run.Literals
import Stepflow.Proofs.Run.Suggestions
import Stepflow.Proofs.Session.Stranding
import Stepflow.Proofs.Session.Refusals
import Stepflow.Proofs.Session.Breakpoints
import Stepflow.Proofs.Session.Schedule
import Stepflow.Proofs.Session.Chronicle
