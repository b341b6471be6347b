import Homie.Lib.Bytes
import Homie.Lib.Calendar
import Homie.Lib.Cursor
import Homie.Lib.Effects
import Homie.Lib.Fallible
import Homie.Lib.Fields
import Homie.Lib.FileTree
import Homie.Lib.Forest
import Homie.Lib.Framing
import Homie.Lib.Inodes
import Homie.Lib.JsonText
import Homie.Lib.KeyedMap
import Homie.Lib.Lines
import Homie.Lib.Lossy
import Homie.Lib.Markers
import Homie.Lib.Numerals
import Homie.Lib.OrderedMap
import Homie.Lib.Outbox
import Homie.Lib.Registers
import Homie.Lib.Replay
import Homie.Lib.RowMajor
import Homie.Lib.Search
import Homie.Lib.Sorting
import Homie.Lib.Text
import Homie.Lib.Trace
import Homie.Lib.Window
import Homie.Proto.Control
import Homie.Proto.Frames
import Homie.Proto.Grid
import Homie.Proto.RemotePty
import Homie.TerminalState.Emulator
import Homie.TerminalState.Mirror
import Homie.TerminalState.Screen
import Homie.TerminalState.Wire
import Homie.Remote.Holder
import Homie.Remote.PendingInput
import Homie.Term.Buffer
import Homie.Term.Find
import Homie.Term.Scrollback
import Homie.Engine.AttachHub
import Homie.Engine.DeferredLaunch
import Homie.Engine.Events
import Homie.Engine.Flusher
import Homie.Engine.Governor
import Homie.Engine.HeldPump
import Homie.Engine.Hibernation
import Homie.Engine.HolderManager
import Homie.Engine.Lineage
import Homie.Engine.Log
import Homie.Engine.ProcessTree
import Homie.Engine.Registry
import Homie.Engine.RemotePump
import Homie.Engine.RemoteWriter
import Homie.Engine.Scrollback
import Homie.Engine.SessionScreen
import Homie.Engine.SessionStatus
import Homie.Engine.Status
import Homie.Engine.Termination
import Homie.Node.Checkpoint
import Homie.Node.Service
import Homie.Node.StagePaths
import Homie.Node.Usage
import Homie.Node.Workspace
import Homie.Gateway.Policy
import Homie.Client.EventStream
import Homie.Client.Handoff
import Homie.App.Diff
import Homie.App.GitStatus
import Homie.App.Navigation
import Homie.App.Notifications
import Homie.App.Projection
import Homie.App.Record
import Homie.App.RepoTargets
import Homie.App.ReviewPrompt
import Homie.App.Runtime
import Homie.App.Store
import Homie.App.Switcher
import Homie.App.Timestamp
import Homie.Proofs.Announcements
import Homie.Proofs.AntiFlicker
import Homie.Proofs.AttachHub
import Homie.Proofs.AttachModes
import Homie.Proofs.AttachSeam
import Homie.Proofs.Blobs
import Homie.Proofs.BlockerLaw
import Homie.Proofs.Checkpoints
import Homie.Proofs.Controller
import Homie.Proofs.Damage
import Homie.Proofs.DeferredLaunch
import Homie.Proofs.Desk
import Homie.Proofs.DeskSteps
import Homie.Proofs.DiffAccounting
import Homie.Proofs.DiffCollector
import Homie.Proofs.DiffCut
import Homie.Proofs.DiffNewFile
import Homie.Proofs.DiffParse
import Homie.Proofs.DiffPath
import Homie.Proofs.EventBus
import Homie.Proofs.EventHoles
import Homie.Proofs.EventResume
import Homie.Proofs.EventRing
import Homie.Proofs.EventSeam
import Homie.Proofs.Fidelity
import Homie.Proofs.GitStatus
import Homie.Proofs.Governor
import Homie.Proofs.GridCodec
import Homie.Proofs.GridDiff
import Homie.Proofs.GridMirror
import Homie.Proofs.Handoff
import Homie.Proofs.HeldPump
import Homie.Proofs.Hibernation
import Homie.Proofs.HolderManager
import Homie.Proofs.HolderRecords
import Homie.Proofs.HolderSlots
import Homie.Proofs.HolderSteps
import Homie.Proofs.HolderStreams
import Homie.Proofs.IdleTick
import Homie.Proofs.Lease
import Homie.Proofs.Lineage
import Homie.Proofs.Loading
import Homie.Proofs.LogReader
import Homie.Proofs.ManualOrder
import Homie.Proofs.Matches
import Homie.Proofs.MoveRecords
import Homie.Proofs.Notifications
import Homie.Proofs.OutputLog
import Homie.Proofs.PendingInput
import Homie.Proofs.ProcessTree
import Homie.Proofs.ProgressScan
import Homie.Proofs.RateLimit
import Homie.Proofs.Registry
import Homie.Proofs.RemoteCodec
import Homie.Proofs.RemoteMirror
import Homie.Proofs.RemoteOutput
import Homie.Proofs.RemoteScrollback
import Homie.Proofs.RemoteSinks
import Homie.Proofs.RemoteSteps
import Homie.Proofs.RemoteWriter
import Homie.Proofs.ReplySizes
import Homie.Proofs.RepoTargets
import Homie.Proofs.Residency
import Homie.Proofs.ResidencyBooks
import Homie.Proofs.Restore
import Homie.Proofs.ReviewPrompt
import Homie.Proofs.Rollback
import Homie.Proofs.ScreenSteps
import Homie.Proofs.ScrollbackFetch
import Homie.Proofs.Selection
import Homie.Proofs.Sidebar
import Homie.Proofs.SidebarCache
import Homie.Proofs.SidebarEnumeration
import Homie.Proofs.SidebarForest
import Homie.Proofs.StagePaths
import Homie.Proofs.StatusAgreement
import Homie.Proofs.StatusSound
import Homie.Proofs.StatusStep
import Homie.Proofs.StoreActions
import Homie.Proofs.StoreFeed
import Homie.Proofs.Survivors
import Homie.Proofs.SyncPoints
import Homie.Proofs.Termination
import Homie.Proofs.Timestamps
import Homie.Proofs.Transcripts
import Homie.Proofs.Unfolding
import Homie.Proofs.Uploads
import Homie.Proofs.UsageImport
import Homie.Proofs.ViewConsistency
import Homie.Proofs.Viewport
