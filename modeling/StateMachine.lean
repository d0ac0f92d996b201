import StateMachine.Enumeration
import StateMachine.LogRecord
import StateMachine.Number.Json
import StateMachine.Session
import StateMachine.Settings.Json
import StateMachine.Violations
import StateMachine.Proofs.Growth
import StateMachine.Proofs.Scan
import StateMachine.Proofs.Extent
import StateMachine.Proofs.Repetitions
import StateMachine.Proofs.Reports
import StateMachine.Proofs.Cells
import StateMachine.Proofs.Filling
import StateMachine.Proofs.Acceptance
import StateMachine.Proofs.Build
import StateMachine.Proofs.Lookup
import StateMachine.Reading
import StateMachine.Proofs.Handlers
import StateMachine.Proofs.Interpretation
import StateMachine.Proofs.Congruence
import StateMachine.Proofs.Nesting
import StateMachine.Proofs.Listing
import StateMachine.Work
import StateMachine.Course
import StateMachine.Proofs.Faults
import StateMachine.Proofs.Runs
import StateMachine.Proofs.Paths
import StateMachine.Proofs.Observers
import StateMachine.Proofs.Agreement
import StateMachine.Proofs.Problems
import StateMachine.Proofs.Widths
import StateMachine.Proofs.Policies
import StateMachine.Chart
import StateMachine.Proofs.Bindings
import StateMachine.Proofs.Charts
import StateMachine.Proofs.NormalForm
import StateMachine.Estate
import StateMachine.Proofs.Hearing
import StateMachine.Proofs.Logs
import StateMachine.Proofs.Sessions
import StateMachine.Proofs.Plain
import StateMachine.Proofs.Stops
import StateMachine.Proofs.Confinement
import StateMachine.Proofs.Equivariance
import StateMachine.Proofs.Blocks
import StateMachine.Proofs.Prediction
import StateMachine.Proofs.Entries
import StateMachine.Proofs.Separation
import StateMachine.Proofs.Enumerations
import StateMachine.Proofs.Registers
import StateMachine.Proofs.Amendments
import StateMachine.Proofs.Precedents
import StateMachine.Json.Grammar
import StateMachine.Proofs.Tokens
import StateMachine.Proofs.Rendering
import StateMachine.Proofs.Snapshots
import StateMachine.Proofs.Choices
import StateMachine.Proofs.Grid
import StateMachine.Proofs.Capacity
