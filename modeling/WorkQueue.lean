import WorkQueue.Autorun.AgentEvent
import WorkQueue.Autorun.Message
import WorkQueue.Autorun.Outcome
import WorkQueue.Change.Basic
import WorkQueue.Change.Diff
import WorkQueue.Change.Notification
import WorkQueue.Cli.Command
import WorkQueue.Cli.Failure
import WorkQueue.Cli.Grammar
import WorkQueue.Cli.Output
import WorkQueue.Cli.Run
import WorkQueue.Cli.Show
import WorkQueue.Config.Basic
import WorkQueue.Config.File
import WorkQueue.Daemon.Basic
import WorkQueue.Daemon.Lifecycle
import WorkQueue.Daemon.Pass
import WorkQueue.Daemon.Tasks
import WorkQueue.Daemon.Watching
import WorkQueue.Digest
import WorkQueue.Disk.Basic
import WorkQueue.Disk.Fault
import WorkQueue.Disk.Location
import WorkQueue.Error
import WorkQueue.Host
import WorkQueue.Identity
import WorkQueue.Json.Basic
import WorkQueue.Json.Decode
import WorkQueue.Json.Printer
import WorkQueue.Json.Reader
import WorkQueue.Keyed
import WorkQueue.Main
import WorkQueue.Notify.Mailbox
import WorkQueue.Notify.Notifier
import WorkQueue.Number.Binary64
import WorkQueue.Proofs.Change.Notification
import WorkQueue.Proofs.Change.Replay
import WorkQueue.Proofs.Change.Script
import WorkQueue.Proofs.Cli.Failure
import WorkQueue.Proofs.Cli.Names
import WorkQueue.Proofs.Cli.References
import WorkQueue.Proofs.Cli.Reports
import WorkQueue.Proofs.Cli.Served
import WorkQueue.Proofs.Daemon.Calls
import WorkQueue.Proofs.Daemon.Charge
import WorkQueue.Proofs.Daemon.Correspondence
import WorkQueue.Proofs.Daemon.Draining
import WorkQueue.Proofs.Daemon.Enduring
import WorkQueue.Proofs.Daemon.Finished
import WorkQueue.Proofs.Daemon.Flight
import WorkQueue.Proofs.Daemon.Messages
import WorkQueue.Proofs.Daemon.Pass
import WorkQueue.Proofs.Daemon.Pending
import WorkQueue.Proofs.Daemon.Quiescence
import WorkQueue.Proofs.Daemon.Settling
import WorkQueue.Proofs.Daemon.Shared
import WorkQueue.Proofs.Daemon.Triggers
import WorkQueue.Proofs.Daemon.Turn
import WorkQueue.Proofs.Daemon.Watchers
import WorkQueue.Proofs.Daemon.Willing
import WorkQueue.Proofs.Disk.Permits
import WorkQueue.Proofs.Disk.Served
import WorkQueue.Proofs.Disk.Shape
import WorkQueue.Proofs.Json.Reading
import WorkQueue.Proofs.Json.RoundTrip
import WorkQueue.Proofs.Keyed
import WorkQueue.Proofs.Leads
import WorkQueue.Proofs.Notify.Dispatch
import WorkQueue.Proofs.Notify.Feed
import WorkQueue.Proofs.Notify.Ledger
import WorkQueue.Proofs.Notify.Listening
import WorkQueue.Proofs.Notify.Mirror
import WorkQueue.Proofs.Notify.Overload
import WorkQueue.Proofs.Notify.Payload
import WorkQueue.Proofs.Notify.Sinks
import WorkQueue.Proofs.Record.Laws
import WorkQueue.Proofs.Record.Patching
import WorkQueue.Proofs.Store.Added
import WorkQueue.Proofs.Store.Amending
import WorkQueue.Proofs.Store.Calls
import WorkQueue.Proofs.Store.Codec
import WorkQueue.Proofs.Store.Convergence
import WorkQueue.Proofs.Store.CutOff
import WorkQueue.Proofs.Store.Delivery
import WorkQueue.Proofs.Store.Durable
import WorkQueue.Proofs.Store.Follower
import WorkQueue.Proofs.Store.Identity
import WorkQueue.Proofs.Store.Index
import WorkQueue.Proofs.Store.Origin
import WorkQueue.Proofs.Store.Processes
import WorkQueue.Proofs.Store.Recounting
import WorkQueue.Proofs.Store.Refusal
import WorkQueue.Proofs.Store.Revisions
import WorkQueue.Proofs.Store.Rooted
import WorkQueue.Proofs.Store.RoundTrip
import WorkQueue.Proofs.Store.Served
import WorkQueue.Proofs.Store.Stale
import WorkQueue.Proofs.Store.Switching
import WorkQueue.Proofs.Store.Turns
import WorkQueue.Proofs.Store.Unseen
import WorkQueue.Proofs.Store.World
import WorkQueue.Proofs.Text.Decimal
import WorkQueue.Proofs.Time.RoundTrip
import WorkQueue.Proofs.Watch.Bursts
import WorkQueue.Proofs.Watch.Covering
import WorkQueue.Proofs.Work.Activity
import WorkQueue.Proofs.Work.Agenda
import WorkQueue.Proofs.Work.Ancestry
import WorkQueue.Proofs.Work.Answers
import WorkQueue.Proofs.Work.Calls
import WorkQueue.Proofs.Work.Cascade
import WorkQueue.Proofs.Work.Closing
import WorkQueue.Proofs.Work.Failure
import WorkQueue.Proofs.Work.Filled
import WorkQueue.Proofs.Work.Finishing
import WorkQueue.Proofs.Work.Forced
import WorkQueue.Proofs.Work.History
import WorkQueue.Proofs.Work.Lineage
import WorkQueue.Proofs.Work.Listing
import WorkQueue.Proofs.Work.Parents
import WorkQueue.Proofs.Work.Queueing
import WorkQueue.Proofs.Work.References
import WorkQueue.Proofs.Work.Starting
import WorkQueue.Proofs.Work.Waiting
import WorkQueue.Record.Basic
import WorkQueue.Record.Entity
import WorkQueue.Record.Role
import WorkQueue.Record.Session
import WorkQueue.Record.Settings
import WorkQueue.Record.Snippet
import WorkQueue.Store.Basic
import WorkQueue.Store.Index
import WorkQueue.Store.Reconcile
import WorkQueue.Store.Switches
import WorkQueue.Text.Blank
import WorkQueue.Text.Hidden
import WorkQueue.Text.Layout
import WorkQueue.Text.Quoted
import WorkQueue.Time.Calendar
import WorkQueue.Time.Reader
import WorkQueue.Time.Stamp
import WorkQueue.Toml.Reader
import WorkQueue.Toml.Value
import WorkQueue.Toml.Writer
import WorkQueue.Watch.Debounce
import WorkQueue.Watch.Loop
import WorkQueue.Work.Basic
import WorkQueue.Work.Priority
import WorkQueue.Work.Queue
import WorkQueue.Work.Status
