import ScanFleet.Calendar.Civil
import ScanFleet.Calendar.Date
import ScanFleet.Calendar.Instant
import ScanFleet.Calendar.Zone
import ScanFleet.Decimal.Binary64
import ScanFleet.Decimal.Fixed
import ScanFleet.Decimal.Positional
import ScanFleet.Decimal.Shortest
import ScanFleet.Error
import ScanFleet.Fleet.Basic
import ScanFleet.Fleet.Boot
import ScanFleet.Fleet.Build
import ScanFleet.Fleet.Clock
import ScanFleet.Fleet.Devices
import ScanFleet.Fleet.Firing
import ScanFleet.Fleet.Instances
import ScanFleet.Fleet.Metrics
import ScanFleet.Fleet.Work
import ScanFleet.Geo.Area
import ScanFleet.Geo.Coordinate
import ScanFleet.Geo.Geofence
import ScanFleet.Iv.Clock
import ScanFleet.Iv.Desk
import ScanFleet.Iv.Queue
import ScanFleet.Iv.Store
import ScanFleet.Job.Basic
import ScanFleet.Job.Build
import ScanFleet.Job.Clock
import ScanFleet.Job.Patrol
import ScanFleet.Json.Form
import ScanFleet.Json.Number
import ScanFleet.Json.Reader
import ScanFleet.Json.Value
import ScanFleet.Json.Writer
import ScanFleet.Main
import ScanFleet.Model.Assignment
import ScanFleet.Model.Device
import ScanFleet.Model.Instance
import ScanFleet.Model.Sighting
import ScanFleet.Model.Status
import ScanFleet.Model.Task
import ScanFleet.Proofs.Calendar.Civil
import ScanFleet.Proofs.Calendar.DateTexts
import ScanFleet.Proofs.Calendar.LocalTime
import ScanFleet.Proofs.Calendar.ZoneLiterals
import ScanFleet.Proofs.Calendar.ZoneTables
import ScanFleet.Proofs.Fleet.Attachment
import ScanFleet.Proofs.Fleet.Boot
import ScanFleet.Proofs.Fleet.Build
import ScanFleet.Proofs.Fleet.BuildSteps
import ScanFleet.Proofs.Fleet.CarryOut
import ScanFleet.Proofs.Fleet.Definitions
import ScanFleet.Proofs.Fleet.Equipment
import ScanFleet.Proofs.Fleet.Following
import ScanFleet.Proofs.Fleet.Freshness
import ScanFleet.Proofs.Fleet.Grounding
import ScanFleet.Proofs.Fleet.Instances
import ScanFleet.Proofs.Fleet.Lineage
import ScanFleet.Proofs.Fleet.LiveJobs
import ScanFleet.Proofs.Fleet.Manning
import ScanFleet.Proofs.Fleet.Mirror
import ScanFleet.Proofs.Fleet.Moves
import ScanFleet.Proofs.Fleet.Placement
import ScanFleet.Proofs.Fleet.Reassignment
import ScanFleet.Proofs.Fleet.Settle
import ScanFleet.Proofs.Fleet.Stable
import ScanFleet.Proofs.Fleet.Start
import ScanFleet.Proofs.Fleet.Triggers
import ScanFleet.Proofs.Fleet.Verdict
import ScanFleet.Proofs.Fleet.Whereabouts
import ScanFleet.Proofs.Fleet.Withdrawal
import ScanFleet.Proofs.Geo.Containment
import ScanFleet.Proofs.Geo.Decoding
import ScanFleet.Proofs.Geo.Payloads
import ScanFleet.Proofs.Iv.Faults
import ScanFleet.Proofs.Iv.Ledger
import ScanFleet.Proofs.Iv.Operations
import ScanFleet.Proofs.Iv.Order
import ScanFleet.Proofs.Iv.Queue
import ScanFleet.Proofs.Iv.Ranking
import ScanFleet.Proofs.Iv.Rate
import ScanFleet.Proofs.Job.Bootstrap
import ScanFleet.Proofs.Job.Encounters
import ScanFleet.Proofs.Job.Places
import ScanFleet.Proofs.Job.Quests
import ScanFleet.Proofs.Job.Quota
import ScanFleet.Proofs.Job.Rounds
import ScanFleet.Proofs.Job.Run
import ScanFleet.Proofs.Job.SpinLimit
import ScanFleet.Proofs.Job.Stopping
import ScanFleet.Proofs.Json.Records
import ScanFleet.Proofs.Schedule.Edits
import ScanFleet.Proofs.Schedule.Firing
import ScanFleet.Proofs.Schedule.Passing
import ScanFleet.Proofs.Schedule.Run
import ScanFleet.Proofs.Station.Chores
import ScanFleet.Proofs.Station.Completion
import ScanFleet.Proofs.Station.Definitions
import ScanFleet.Proofs.Station.Encounters
import ScanFleet.Proofs.Station.Errands
import ScanFleet.Proofs.Station.Footing
import ScanFleet.Proofs.Station.Granularity
import ScanFleet.Proofs.Station.Grounding
import ScanFleet.Proofs.Station.LateWrites
import ScanFleet.Proofs.Station.Lineage
import ScanFleet.Proofs.Station.Operations
import ScanFleet.Proofs.Station.Placement
import ScanFleet.Proofs.Station.Removal
import ScanFleet.Proofs.Station.Rules
import ScanFleet.Proofs.Station.SideBySide
import ScanFleet.Proofs.Store.Lookups
import ScanFleet.Proofs.Table
import ScanFleet.Proofs.Text.Numerals
import ScanFleet.Proofs.Text.Parts
import ScanFleet.Schedule
import ScanFleet.Settings
import ScanFleet.Station.Basic
import ScanFleet.Station.Chores
import ScanFleet.Station.Run
import ScanFleet.Store.Lookups
import ScanFleet.Store.Storage
import ScanFleet.Store.Tables
import ScanFleet.Table
import ScanFleet.Text.Blank
import ScanFleet.Text.Integer
import ScanFleet.Text.Split
