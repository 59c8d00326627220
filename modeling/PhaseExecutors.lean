import PhaseExecutors.Executor.Session
import PhaseExecutors.Main
import PhaseExecutors.Proofs.Executor.Permits
import PhaseExecutors.Proofs.Executor.Schedules
import PhaseExecutors.Settings.Interleaved
import PhaseExecutors.Tracker.Monitor
import PhaseExecutors.Proofs.Factory.Oversized
import PhaseExecutors.Proofs.Config.Buildable
import PhaseExecutors.Proofs.Executor.Bodies
import PhaseExecutors.Proofs.Executor.FirstFailure
import PhaseExecutors.Proofs.Executor.Rest
import PhaseExecutors.Proofs.Executor.FailFast
import PhaseExecutors.Proofs.Number.Positional
import PhaseExecutors.Proofs.Config.CountText
import PhaseExecutors.Proofs.Toml.Values
import PhaseExecutors.Proofs.Toml.Sections
import PhaseExecutors.Proofs.Config.Merge
import PhaseExecutors.Proofs.Config.Partial
import PhaseExecutors.Proofs.Config.Sources
import PhaseExecutors.Proofs.Config.Precedence
import PhaseExecutors.Proofs.Config.VariableText
import PhaseExecutors.Proofs.Config.SameText
import PhaseExecutors.Proofs.Config.Discovery
import PhaseExecutors.Proofs.Settings.Publication
import PhaseExecutors.Proofs.Factory.Built
import PhaseExecutors.Proofs.Workload.Predictable
import PhaseExecutors.Proofs.Value.Entries
import PhaseExecutors.Proofs.Value.JsonText
import PhaseExecutors.Proofs.Toml.Writing
import PhaseExecutors.Proofs.Config.RoundTrip
import PhaseExecutors.Proofs.Executor.Startup
import PhaseExecutors.Proofs.Settings.Refresh
import PhaseExecutors.Proofs.Factory.Selection
import PhaseExecutors.Proofs.Executor.Waits
import PhaseExecutors.Proofs.Tracker.History
import PhaseExecutors.Proofs.Tracker.Notices
import PhaseExecutors.Proofs.Config.Validated
import PhaseExecutors.Proofs.Config.OverrideText
import PhaseExecutors.Proofs.Config.CountGrammar
import PhaseExecutors.Proofs.Config.Resolved
import PhaseExecutors.Proofs.Settings.Providers
import PhaseExecutors.Proofs.Value.Documents
import PhaseExecutors.Proofs.Value.DomainForms
import PhaseExecutors.Proofs.Plan.AbsentPool
