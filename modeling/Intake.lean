import Intake.Dispatch.Trial
import Intake.Message.Decode
import Intake.Message.Encode
import Intake.Pipeline.Script
import Intake.Proofs.Dispatch.Refusal
import Intake.Proofs.Dispatch.Rejection
import Intake.Proofs.Dispatch.Shutdown
import Intake.Proofs.Dispatch.Turns
import Intake.Proofs.Dispatch.Wake
import Intake.Proofs.Flow.Arrival
import Intake.Proofs.Flow.Hysteresis
import Intake.Proofs.Flow.Redelivery
import Intake.Proofs.Journal.Exact
import Intake.Proofs.Journal.Names
import Intake.Proofs.Pipeline.FirstChunk
import Intake.Proofs.Progress.Merge
import Intake.Proofs.Progress.Persistence
import Intake.Proofs.Progress.Writers
import Intake.StatusPage
import Intake.Proofs.Progress.Routes
import Intake.Proofs.Journal.Saving
import Intake.Proofs.Flow.Acts
import Intake.Proofs.Flow.Reentry
import Intake.Proofs.Flow.Races
import Intake.Proofs.Backoff
import Intake.Proofs.Flow.Balance
import Intake.Proofs.Dispatch.Chances
import Intake.Proofs.Dispatch.Reports
import Intake.Proofs.Dispatch.Metrics
import Intake.Proofs.Flow.Accounts
import Intake.Proofs.Startup
import Intake.Proofs.Message.RoundTrip
import Intake.Proofs.Message.Tolerance
import Intake.Proofs.Settings
import Intake.Proofs.Text.Numeral
