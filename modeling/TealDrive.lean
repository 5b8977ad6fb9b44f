import TealDrive.Library.Segments
import TealDrive.Library.Outcome
import TealDrive.Text
import TealDrive.Policy.Path
import TealDrive.Config
import TealDrive.Policy.Authorize
import TealDrive.Policy.Restrict
import TealDrive.Policy.Spelling
import TealDrive.Library.Table
import TealDrive.Accounts.Schema
import TealDrive.Accounts.Store
import TealDrive.Accounts.Grants
import TealDrive.Accounts.Policies
import TealDrive.Accounts.Virtuals
import TealDrive.Accounts.Effects
import TealDrive.Accounts.Runs
import TealDrive.Accounts.Changes
import TealDrive.Accounts.Quota
import TealDrive.Library.Faults
import TealDrive.Accounts.Provision
import TealDrive.Accounts.NativeLimits
import TealDrive.Accounts.NativeRuns
import TealDrive.Accounts.NativeCalls
import TealDrive.Accounts.GrantChanges
import TealDrive.Accounts.Sessions
import TealDrive.Accounts.Lifecycle
import TealDrive.Accounts.Enrollment
import TealDrive.Accounts.Limits
import TealDrive.Accounts.Journal
import TealDrive.Accounts.Undo
import TealDrive.Accounts.JournalEffects
import TealDrive.Accounts.Isolation
import TealDrive.Accounts.JournalRuns
import TealDrive.Accounts.UndoOnce
import TealDrive.Accounts.Tokens
import TealDrive.Accounts.Retention
import TealDrive.Accounts.Cleanup
import TealDrive.Accounts.Processes
import TealDrive.Accounts.Ranges
import TealDrive.Accounts.Expiry
import TealDrive.Accounts.Uids
import TealDrive.Accounts.UidRuns
import TealDrive.Library.Sums
import TealDrive.Upload.Budget
import TealDrive.Upload.BudgetRuns
import TealDrive.Library.Splice
import TealDrive.Upload.Transfer
import TealDrive.Upload.Server
import TealDrive.Upload.Delivery
import TealDrive.Helper.Disk
import TealDrive.Policy.Decision
import TealDrive.Policy.Identity
import TealDrive.Policy.Home
import TealDrive.Library.Fragments
import TealDrive.Wire.Channel
import TealDrive.Wire.ChannelRuns
import TealDrive.Library.BigEndian
import TealDrive.Library.Utf8
import TealDrive.Wire.MsgPack
import TealDrive.Wire.Lossless
import TealDrive.Wire.RoundTrip
import TealDrive.Wire.BrowserFrame
import TealDrive.Wire.Agreement
import TealDrive.Wire.Exchange
import TealDrive.Audit.Log
import TealDrive.Audit.Pruning
import TealDrive.Audit.Rotation
import TealDrive.Audit.Emission
import TealDrive.Settings.Overlay
import TealDrive.Settings.Ceiling
import TealDrive.Settings.Rewritten
import TealDrive.Settings.Dynamic
import TealDrive.Settings.Durable
import TealDrive.Settings.Reached
import TealDrive.Helper.Trash
import TealDrive.Helper.Listing
import TealDrive.Policy.Canonical
import TealDrive.Helper.ListingPages
import TealDrive.Accounts.Gaps
import TealDrive.Accounts.History
import TealDrive.Accounts.HistoryPages
import TealDrive.Accounts.Hooks
import TealDrive.Library.JsonText
import TealDrive.Accounts.RecordJson
import TealDrive.Accounts.Completed
import TealDrive.Accounts.Listing
import TealDrive.Accounts.Subids
import TealDrive.Accounts.SubidsKept
import TealDrive.Accounts.UidSearch
import TealDrive.Client.Address
import TealDrive.Client.Resolve
import TealDrive.Download.Stream
import TealDrive.Download.Continuation
import TealDrive.Download.Delivery
import TealDrive.Helper.Extract
import TealDrive.Helper.ExtractConfined
import TealDrive.Session.Lockouts
import TealDrive.Session.Runs
import TealDrive.Wire.Handshake
import TealDrive.Helper.Inodes
import TealDrive.Helper.Observation
import TealDrive.Helper.Fingerprints
import TealDrive.Helper.Maintenance
import TealDrive.Helper.MaintenanceRuns
import TealDrive.Helper.FirstLook
import TealDrive.Helper.MaintenanceEnds
import TealDrive.Helper.Budget
import TealDrive.Helper.Publishing
import TealDrive.Helper.Quota
import TealDrive.Helper.Search
