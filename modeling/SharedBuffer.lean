import SharedBuffer.Accounting
import SharedBuffer.Amount
import SharedBuffer.Attribute.Id
import SharedBuffer.Attribute.Table
import SharedBuffer.Attribute.Value
import SharedBuffer.Audit
import SharedBuffer.Buffer.Mode
import SharedBuffer.Buffer.Record
import SharedBuffer.Command.LogFilter
import SharedBuffer.Command.Options
import SharedBuffer.Command.Run
import SharedBuffer.Config
import SharedBuffer.Fault
import SharedBuffer.Hardware.Profile
import SharedBuffer.Hardware.Reduction
import SharedBuffer.Main
import SharedBuffer.Manager.Basic
import SharedBuffer.Manager.Binding
import SharedBuffer.Manager.Pool
import SharedBuffer.Manager.Port
import SharedBuffer.Manager.Profile
import SharedBuffer.Manager.Reading
import SharedBuffer.Manager.Request
import SharedBuffer.Object.Key
import SharedBuffer.Object.Kind
import SharedBuffer.Pattern.Class
import SharedBuffer.Pattern.Expression
import SharedBuffer.Pattern.Flags
import SharedBuffer.Plan.Apply
import SharedBuffer.Plan.Basic
import SharedBuffer.Plan.ConsumerKey
import SharedBuffer.Proofs.Accounting.Accounted
import SharedBuffer.Proofs.Accounting.Batch
import SharedBuffer.Proofs.Accounting.Concerned
import SharedBuffer.Proofs.Accounting.Contents
import SharedBuffer.Proofs.Accounting.Exact
import SharedBuffer.Proofs.Accounting.Fewer
import SharedBuffer.Proofs.Accounting.Figures
import SharedBuffer.Proofs.Accounting.Foresight
import SharedBuffer.Proofs.Accounting.Moving
import SharedBuffer.Proofs.Accounting.Outcome
import SharedBuffer.Proofs.Accounting.Rebinding
import SharedBuffer.Proofs.Accounting.Reduction
import SharedBuffer.Proofs.Accounting.Sums
import SharedBuffer.Proofs.Accounting.Turnover
import SharedBuffer.Proofs.Accounting.Views
import SharedBuffer.Proofs.Accounting.WhatIf
import SharedBuffer.Proofs.Action
import SharedBuffer.Proofs.Attribute.Given
import SharedBuffer.Proofs.Attribute.Grammar
import SharedBuffer.Proofs.Lists.Attach
import SharedBuffer.Proofs.Lists.Coherent
import SharedBuffer.Proofs.Lists.Detach
import SharedBuffer.Proofs.Lists.Halfway
import SharedBuffer.Proofs.Lists.Linked
import SharedBuffer.Proofs.Lists.Observed
import SharedBuffer.Proofs.Lists.Paired
import SharedBuffer.Proofs.Lists.Relink
import SharedBuffer.Proofs.Lists.Sequences
import SharedBuffer.Proofs.Lists.Steady
import SharedBuffer.Proofs.Lists.Steps
import SharedBuffer.Proofs.Lists.Threaded
import SharedBuffer.Proofs.Lists.Tight
import SharedBuffer.Proofs.Lists.Wired
import SharedBuffer.Proofs.Manager.Absent
import SharedBuffer.Proofs.Manager.Actions
import SharedBuffer.Proofs.Manager.Admission
import SharedBuffer.Proofs.Manager.Again
import SharedBuffer.Proofs.Manager.Announcements
import SharedBuffer.Proofs.Manager.Atomicity
import SharedBuffer.Proofs.Manager.Batch
import SharedBuffer.Proofs.Manager.Bindings
import SharedBuffer.Proofs.Manager.Budget
import SharedBuffer.Proofs.Manager.Capacity
import SharedBuffer.Proofs.Manager.Census
import SharedBuffer.Proofs.Manager.Changes
import SharedBuffer.Proofs.Manager.Compatibility
import SharedBuffer.Proofs.Manager.Content
import SharedBuffer.Proofs.Manager.Counters
import SharedBuffer.Proofs.Manager.Counting
import SharedBuffer.Proofs.Manager.Creation
import SharedBuffer.Proofs.Manager.Dispatch
import SharedBuffer.Proofs.Manager.Display
import SharedBuffer.Proofs.Manager.Effects
import SharedBuffer.Proofs.Manager.Frame
import SharedBuffer.Proofs.Manager.Guarantees
import SharedBuffer.Proofs.Manager.History
import SharedBuffer.Proofs.Manager.Indexes
import SharedBuffer.Proofs.Manager.Keeping
import SharedBuffer.Proofs.Manager.Lifecycle
import SharedBuffer.Proofs.Manager.Measured
import SharedBuffer.Proofs.Manager.Mirror
import SharedBuffer.Proofs.Manager.Moves
import SharedBuffer.Proofs.Manager.Moving
import SharedBuffer.Proofs.Manager.Orders
import SharedBuffer.Proofs.Manager.Permuted
import SharedBuffer.Proofs.Manager.Ports
import SharedBuffer.Proofs.Manager.Readback
import SharedBuffer.Proofs.Manager.Rebinding
import SharedBuffer.Proofs.Manager.References
import SharedBuffer.Proofs.Manager.Refusals
import SharedBuffer.Proofs.Manager.Retry
import SharedBuffer.Proofs.Manager.Runs
import SharedBuffer.Proofs.Manager.Settings
import SharedBuffer.Proofs.Manager.Spared
import SharedBuffer.Proofs.Manager.Tables
import SharedBuffer.Proofs.Manager.Teardown
import SharedBuffer.Proofs.Manager.Terms
import SharedBuffer.Proofs.Manager.Tiles
import SharedBuffer.Proofs.Manager.Trail
import SharedBuffer.Proofs.Manager.Views
import SharedBuffer.Proofs.Object.Ids
import SharedBuffer.Proofs.Plan.Acceptance
import SharedBuffer.Proofs.Plan.Binding
import SharedBuffer.Proofs.Plan.Continuity
import SharedBuffer.Proofs.Plan.Entries
import SharedBuffer.Proofs.Plan.Failure
import SharedBuffer.Proofs.Plan.Keys
import SharedBuffer.Proofs.Plan.Order
import SharedBuffer.Proofs.Plan.Progress
import SharedBuffer.Proofs.Plan.Requests
import SharedBuffer.Proofs.Plan.Steps
import SharedBuffer.Proofs.Snapshot
import SharedBuffer.Proofs.Status
import SharedBuffer.Proofs.Store.Cursor
import SharedBuffer.Proofs.Store.Handles
import SharedBuffer.Proofs.Store.Ledger
import SharedBuffer.Proofs.Store.Scans
import SharedBuffer.Snapshot
import SharedBuffer.Status
import SharedBuffer.Store.Allocator
import SharedBuffer.Store.Basic
import SharedBuffer.Store.KeyMap
import SharedBuffer.Store.Roster
import SharedBuffer.Text.ByName
import SharedBuffer.Text.CharClass
import SharedBuffer.Text.Hex
import SharedBuffer.Text.Json
import SharedBuffer.Text.Number
import SharedBuffer.Text.Reader
import SharedBuffer.Toml.Decode
import SharedBuffer.Toml.Reader
import SharedBuffer.Toml.Scalar
import SharedBuffer.Toml.Value
