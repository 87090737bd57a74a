import Runbook.Api
import Runbook.Definition.Build
import Runbook.Opening
import Runbook.Script
import Runbook.Store.Memory
import Runbook.Proofs.Behaviour
import Runbook.Proofs.Waiting
import Runbook.Proofs.Cancellation
import Runbook.Proofs.History
import Runbook.Proofs.Outcome
import Runbook.Proofs.Recursion
import Runbook.Proofs.Owned
import Runbook.Proofs.Performance
import Runbook.Proofs.Marks
import Runbook.Proofs.Writes
import Runbook.Proofs.Protocol
import Runbook.Proofs.Stored
import Runbook.Proofs.Inspection
import Runbook.Proofs.Serving
import Runbook.Proofs.Durability
import Runbook.Proofs.Building
import Runbook.Proofs.WriteAhead
import Runbook.Proofs.Restart
import Runbook.Proofs.Veil
import Runbook.Proofs.BestEffort
import Runbook.Proofs.SuccessPath
import Runbook.Proofs.Calendar
import Runbook.Proofs.Timestamps
import Runbook.Proofs.Calls
import Runbook.Proofs.Tables
import Runbook.Proofs.Sweep
import Runbook.Proofs.Agreement
import Runbook.Proofs.Conduct
import Runbook.Proofs.Leniency
import Runbook.Proofs.Crowd
import Runbook.Proofs.Sharing
import Runbook.Proofs.Lodging
import Runbook.Proofs.Coupling
import Runbook.Proofs.Tasks
import Runbook.Proofs.Concurrency
import Runbook.Proofs.Paging
import Runbook.Proofs.Reading
import Runbook.Proofs.Snapshot
import Runbook.Proofs.TakingOver
import Runbook.Proofs.Atomicity
import Runbook.Proofs.Finality
import Runbook.Proofs.Records
import Runbook.Proofs.Reporting
import Runbook.Proofs.Polling
import Runbook.Proofs.InFlight
import Runbook.Proofs.Resumption
import Runbook.Proofs.Timing
import Runbook.Proofs.Playing
import Runbook.Proofs.Ticking
import Runbook.Proofs.Race
import Runbook.Proofs.Keeping
import Runbook.Proofs.Forms
import Runbook.Proofs.Access
import Runbook.Proofs.Spelling
import Runbook.Proofs.RoundTrip
import Runbook.Proofs.Reachability
import Runbook.Proofs.Enacting
import Runbook.Proofs.Filing
import Runbook.Proofs.Replay
import Runbook.Proofs.Watching
import Runbook.Proofs.Logbook
import Runbook.Proofs.Registrations
import Runbook.Proofs.Counting
