import JobParameters.Folder
import JobParameters.Main
import JobParameters.Proofs.Keyed
import JobParameters.Proofs.Sameness
import JobParameters.Session.Step
import JobParameters.Proofs.Growth
import JobParameters.Proofs.Resolution
import JobParameters.Proofs.Agreement
import JobParameters.Proofs.Overlapping
import JobParameters.Proofs.SingleValue
import JobParameters.Proofs.Dealing
import JobParameters.Proofs.Evaluation
import JobParameters.Proofs.Stateless
import JobParameters.Proofs.Workers
import JobParameters.Proofs.Width
import JobParameters.Proofs.Preserved
import JobParameters.Proofs.Rejection
import JobParameters.Proofs.Outcome
import JobParameters.Proofs.Committing
import JobParameters.Proofs.Numerals
import JobParameters.Proofs.Rereading
import JobParameters.Proofs.Startup
import JobParameters.Proofs.ReadingBack
import JobParameters.Proofs.Isolation
import JobParameters.Proofs.Agendas
import JobParameters.Proofs.Schedules
import JobParameters.Proofs.Nearest
import JobParameters.Proofs.ShortestDecimal
import JobParameters.Proofs.Rescaling
import JobParameters.Proofs.WorkerFloats
import JobParameters.Proofs.Checking
import JobParameters.Proofs.Declaring
import JobParameters.Proofs.FirstAnswer
import JobParameters.Proofs.StageOrder
import JobParameters.Proofs.Bench
import JobParameters.Proofs.Lifecycle
import JobParameters.Proofs.Planning
import JobParameters.Proofs.Overrides
import JobParameters.Proofs.Coercing
import JobParameters.Proofs.Repeating
import JobParameters.Proofs.Nesting
import JobParameters.Proofs.Reinstating
import JobParameters.Proofs.IntegralFloats
import JobParameters.Proofs.PlainText
import JobParameters.Proofs.Assignments
import JobParameters.Proofs.Reports
import JobParameters.Proofs.Turns
import JobParameters.Proofs.Building
import JobParameters.Proofs.Layering
import JobParameters.Proofs.Manifests
import JobParameters.Proofs.Documents
