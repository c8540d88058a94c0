import Standby.CacheKey
import Standby.Codec.Binary
import Standby.Codec.Json.Codec
import Standby.Codec.Json.Number
import Standby.Codec.Json.Quoted
import Standby.Codec.Json.Scan
import Standby.Codec.Json.Skip
import Standby.Codec.Storable
import Standby.Condition
import Standby.Decimal.Digits
import Standby.Decimal.Rounding
import Standby.Decimal.Shortest
import Standby.Duration
import Standby.Entity
import Standby.Error
import Standby.FieldMap
import Standby.Format
import Standby.Label
import Standby.Offload.Background
import Standby.Offload.Drive
import Standby.Offload.Policy
import Standby.Offload.Progress
import Standby.Offload.Run
import Standby.Offload.Scheduler
import Standby.Offload.Shrink
import Standby.Offload.Task
import Standby.Page
import Standby.Proofs.Binary.Combinators
import Standby.Proofs.Binary.Contents
import Standby.Proofs.Binary.SelfDelimiting
import Standby.Proofs.Binary.Steadiness
import Standby.Proofs.Comparisons
import Standby.Proofs.DurationText
import Standby.Proofs.EntityTexts
import Standby.Proofs.Fallback.Account
import Standby.Proofs.Fallback.Conduct
import Standby.Proofs.Fallback.Conservation
import Standby.Proofs.Fallback.Convergence
import Standby.Proofs.Fallback.Entries
import Standby.Proofs.Fallback.Indifference
import Standby.Proofs.Fallback.Inline
import Standby.Proofs.Fallback.Mirror
import Standby.Proofs.Fallback.Recovery
import Standby.Proofs.Fallback.Refusal
import Standby.Proofs.Fallback.Rounds
import Standby.Proofs.Fallback.Site
import Standby.Proofs.Fallback.Tally
import Standby.Proofs.Fallback.Traffic
import Standby.Proofs.Json.Legible
import Standby.Proofs.Json.Numbers
import Standby.Proofs.Json.Quoted
import Standby.Proofs.Json.Reading
import Standby.Proofs.Json.ReadingNumbers
import Standby.Proofs.Json.Records
import Standby.Proofs.Json.RoundTrip
import Standby.Proofs.Json.Texts
import Standby.Proofs.Json.Tokens
import Standby.Proofs.JsonKeys
import Standby.Proofs.KeyIdentity
import Standby.Proofs.Keys
import Standby.Proofs.Maps
import Standby.Proofs.NumericOrder
import Standby.Proofs.Offload.Accounting
import Standby.Proofs.Offload.Deadlines
import Standby.Proofs.Offload.Discreet
import Standby.Proofs.Offload.Effects
import Standby.Proofs.Offload.Fairness
import Standby.Proofs.Offload.Finishes
import Standby.Proofs.Offload.Lapse
import Standby.Proofs.Offload.Liveness
import Standby.Proofs.Offload.Lone
import Standby.Proofs.Offload.Meters
import Standby.Proofs.Offload.Moves
import Standby.Proofs.Offload.Order
import Standby.Proofs.Offload.Outcomes
import Standby.Proofs.Offload.Queue
import Standby.Proofs.Offload.Rounds
import Standby.Proofs.Offload.Scripts
import Standby.Proofs.Offload.Starvation
import Standby.Proofs.Offload.Tame
import Standby.Proofs.Offload.Tended
import Standby.Proofs.Offload.Timetable
import Standby.Proofs.Offload.Timing
import Standby.Proofs.Offload.Turns
import Standby.Proofs.Offload.Waiting
import Standby.Proofs.Orders
import Standby.Proofs.SettingsText
import Standby.Proofs.ShortestDecimal
import Standby.Proofs.Slots
import Standby.Proofs.Sorting
import Standby.Proofs.Store.ConditionOrder
import Standby.Proofs.Store.DeclaredOrder
import Standby.Proofs.Store.History
import Standby.Proofs.Store.Interchange
import Standby.Proofs.Store.Isolation
import Standby.Proofs.Store.KeyOrder
import Standby.Proofs.Store.Ledger
import Standby.Proofs.Store.Paging
import Standby.Proofs.Store.Parts
import Standby.Proofs.Store.Provenance
import Standby.Proofs.Store.Serving
import Standby.Proofs.Store.Views
import Standby.Proofs.TimestampText
import Standby.Script.Basic
import Standby.Script.Chores
import Standby.Script.Plan
import Standby.Script.Session
import Standby.Script.Works
import Standby.Settings
import Standby.Store.Basic
import Standby.Store.Bounded
import Standby.Store.Fallback
import Standby.Store.Memory
import Standby.Store.Simple
import Standby.Table
import Standby.Telemetry
import Standby.Text.Blank
import Standby.Text.Utf8
import Standby.Value.Basic
import Standby.Value.Calendar
import Standby.Value.Double
import Standby.Value.Timestamp
import Standby.Value.TimestampText
import Standby.Writes
