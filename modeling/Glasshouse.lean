import Glasshouse.Json.Writer
import Glasshouse.Main
import Glasshouse.Service
import Glasshouse.Station
import Glasshouse.Store.Column
import Glasshouse.Proofs.World.Plan
import Glasshouse.Proofs.World.Work
import Glasshouse.Proofs.World.Parts
import Glasshouse.Proofs.World.Apart
import Glasshouse.Proofs.Cooldown.Operations
import Glasshouse.Proofs.Engine.Operations
import Glasshouse.Proofs.Engine.History
import Glasshouse.Proofs.Engine.Spacing
import Glasshouse.Proofs.Engine.Balance
import Glasshouse.Proofs.Engine.TrackerChange
import Glasshouse.Proofs.Engine.Accounts
import Glasshouse.Proofs.Engine.ReusedNumbers
import Glasshouse.Proofs.Rule.Faults
import Glasshouse.Proofs.Engine.MalformedRows
import Glasshouse.Proofs.Engine.BookChange
import Glasshouse.Proofs.Engine.Losses
import Glasshouse.Proofs.Engine.Audit
import Glasshouse.Proofs.Condition.Semantics
import Glasshouse.Proofs.Rule.Actions
import Glasshouse.Proofs.Rule.Authoring
import Glasshouse.Proofs.Condition.Nodes
import Glasshouse.Proofs.Condition.Verdicts
import Glasshouse.Proofs.Service.Calls
import Glasshouse.Proofs.Store.Import
import Glasshouse.Proofs.Service.Listing
import Glasshouse.Proofs.Engine.Cascade
import Glasshouse.Proofs.Engine.RuleOutcomes
import Glasshouse.Proofs.Engine.Priorities
import Glasshouse.Proofs.Condition.Details
import Glasshouse.Proofs.Dispatch.Flights
import Glasshouse.Proofs.Engine.Counts
import Glasshouse.Proofs.Engine.Orphans
import Glasshouse.Proofs.Condition.Clock
import Glasshouse.Proofs.Condition.Entries
import Glasshouse.Proofs.Dispatch.Revert
import Glasshouse.Proofs.Dispatch.TimedCommand
import Glasshouse.Proofs.Dispatch.Timeline
import Glasshouse.Proofs.Engine.RuleOrder
import Glasshouse.Proofs.Dispatch.Attempts
import Glasshouse.Proofs.Dispatch.Overdue
import Glasshouse.Proofs.Message.Media
import Glasshouse.Proofs.Message.Template
import Glasshouse.Proofs.Rule.Refusals
import Glasshouse.Proofs.Message.Delivery
import Glasshouse.Proofs.Store.Windows
import Glasshouse.Proofs.Condition.Trends
import Glasshouse.Proofs.Cooldown.Tracker
