import TaskWatch.Config.FileTree
import TaskWatch.Json.Untyped
import TaskWatch.Main
import TaskWatch.Monitor.CallId
import TaskWatch.Monitor.Scheduler
import TaskWatch.Proofs.Bus.Views
import TaskWatch.Proofs.Call.Outstanding
import TaskWatch.Proofs.Call.Visits
import TaskWatch.Proofs.Json.RoundTrip
import TaskWatch.Proofs.Json.TaskWording
import TaskWatch.Proofs.Latch.Release
import TaskWatch.Proofs.Latch.Strokes
import TaskWatch.Proofs.Online.Addresses
import TaskWatch.Proofs.Online.Answers
import TaskWatch.Proofs.Online.CutOff
import TaskWatch.Proofs.Online.Exchange
import TaskWatch.Proofs.Online.Identity
import TaskWatch.Proofs.Online.Runs
import TaskWatch.Proofs.Rounds.AtOnce
import TaskWatch.Proofs.Rounds.Law
import TaskWatch.Proofs.Scheduler.LifeCycle
import TaskWatch.Proofs.Scripts.Histories
import TaskWatch.Proofs.Scripts.Owners
import TaskWatch.Proofs.Scripts.Serving
import TaskWatch.Proofs.Text.Splitting
import TaskWatch.Proofs.Watch.Layers
import TaskWatch.Proofs.Watch.Lines
import TaskWatch.Proofs.Watch.Runs
import TaskWatch.Proofs.Watch.Shadows
import TaskWatch.Proofs.Watch.Stages
import TaskWatch.Proofs.Watch.UsualFile
import TaskWatch.Proofs.Watch.Verdict
import TaskWatch.Rehearsal.Session
import TaskWatch.Time.Span
