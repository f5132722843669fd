import TrialControl.Form.Settings
import TrialControl.Form.Workload
import TrialControl.Json.Reader
import TrialControl.Json.Writer
import TrialControl.Rehearsal.RunLoop
import TrialControl.Trial.Draft
import TrialControl.Queue.Dispatch
import TrialControl.Queue.Watch
import TrialControl.Proofs.QueueStates
import TrialControl.Proofs.DispatchSound
import TrialControl.Proofs.RequestSound
import TrialControl.Proofs.Ledgers
import TrialControl.Proofs.Plans
import TrialControl.Proofs.StoredWorkloads
import TrialControl.Proofs.Questions
import TrialControl.Proofs.Transitions
import TrialControl.Proofs.Shapes
import TrialControl.Proofs.StoreSound
import TrialControl.Proofs.Crowds
import TrialControl.Proofs.Closings
import TrialControl.Proofs.ClosedTrials
import TrialControl.Proofs.Commits
import TrialControl.Proofs.QuietPasses
import TrialControl.Proofs.Performances
import TrialControl.Proofs.Chronicles
import TrialControl.Proofs.LostUpdates
import TrialControl.Proofs.RunWorkloads
import TrialControl.Proofs.Budgets
import TrialControl.Proofs.Completions
import TrialControl.Proofs.LonePasses
import TrialControl.Proofs.ConditionTimes
import TrialControl.Proofs.WorkLeft
import TrialControl.Proofs.FewTransitions
import TrialControl.Proofs.WatchSound
import TrialControl.Proofs.LoopShown
import TrialControl.Proofs.LoopSteps
import TrialControl.Proofs.Touches
import TrialControl.Proofs.Phases
import TrialControl.Proofs.Deferrals
import TrialControl.Proofs.SetupUnits
import TrialControl.Proofs.Versions
import TrialControl.Proofs.CommitPaths
import TrialControl.Proofs.OwnWorkloads
import TrialControl.Proofs.Isolation
import TrialControl.Proofs.Captures
import TrialControl.Proofs.Scans
import TrialControl.Proofs.RunEnds
import TrialControl.Proofs.Views
import TrialControl.Proofs.Absorptions
import TrialControl.Proofs.HeldTrials
import TrialControl.Proofs.BegunRuns
import TrialControl.Proofs.Slots
import TrialControl.Proofs.GraceWindow
import TrialControl.Proofs.RetryDelays
import TrialControl.Proofs.Renderings
import TrialControl.Proofs.WrittenSettings
import TrialControl.Proofs.RefusedRuns
import TrialControl.Proofs.SpelledKeys
import TrialControl.Proofs.LedgerHistories
import TrialControl.Proofs.Selections
import TrialControl.Proofs.Lookups
