import TaskPool.Config.Basic
import TaskPool.Config.Environment
import TaskPool.Dashboard.Board
import TaskPool.Dashboard.Panel
import TaskPool.Dashboard.Screen
import TaskPool.Handler.Script
import TaskPool.Handler.Table
import TaskPool.Http.Endpoint
import TaskPool.Http.MediaType
import TaskPool.Http.Message
import TaskPool.Http.Resource
import TaskPool.Json.Fault
import TaskPool.Json.Reader
import TaskPool.Json.Shape
import TaskPool.Json.Skip
import TaskPool.Json.Text
import TaskPool.Json.Token
import TaskPool.Json.Value
import TaskPool.Ledger
import TaskPool.Number.Fixed
import TaskPool.Number.Layout
import TaskPool.Number.Literal
import TaskPool.Number.Overflow
import TaskPool.Number.Shortest
import TaskPool.Pool.Basic
import TaskPool.Pool.Message
import TaskPool.Pool.Step
import TaskPool.Proofs.Keyed
import TaskPool.Proofs.Move
import TaskPool.Proofs.Waiting
import TaskPool.Queue
import TaskPool.Roster
import TaskPool.Scaling
import TaskPool.Simulation.Actors
import TaskPool.Simulation.Run
import TaskPool.Simulation.Session
import TaskPool.Simulation.StaffedRoster
import TaskPool.Simulation.State
import TaskPool.Simulation.TimedLedger
import TaskPool.Task.Basic
import TaskPool.Task.Failure
import TaskPool.Task.Kind
import TaskPool.Task.Priority
import TaskPool.Task.Status
import TaskPool.Text.Blank
import TaskPool.Text.Digits
import TaskPool.Text.Intervals
import TaskPool.Text.Printable
import TaskPool.Text.Quoted
import TaskPool.Text.Width
import TaskPool.Time.Calendar
import TaskPool.Time.Duration
import TaskPool.Time.Rfc3339
import TaskPool.Time.Timestamp
import TaskPool.Uuid
import TaskPool.Wire.Leaf
import TaskPool.Wire.Task
import TaskPool.Wire.Worker
import TaskPool.Worker.Basic
import TaskPool.Worker.Message
import TaskPool.Worker.Meter
import TaskPool.Worker.Status
import TaskPool.Proofs.Split
import TaskPool.Proofs.Outcome
import TaskPool.Proofs.Size
import TaskPool.Proofs.Bench
import TaskPool.Proofs.Harmony
import TaskPool.Proofs.Workshop
import TaskPool.Proofs.Staging
import TaskPool.Proofs.Hearing
import TaskPool.Proofs.Agreement
import TaskPool.Proofs.Clocks
import TaskPool.Proofs.Winding
import TaskPool.Proofs.Custody
import TaskPool.Proofs.Numbering
import TaskPool.Proofs.Picture
import TaskPool.Proofs.Seating
import TaskPool.Proofs.Mirror
import TaskPool.Proofs.Stir
import TaskPool.Proofs.Play
import TaskPool.Proofs.Staffing
import TaskPool.Proofs.Diligence
import TaskPool.Proofs.Plan
import TaskPool.Proofs.Strength
import TaskPool.Proofs.Restart
import TaskPool.Proofs.Course
import TaskPool.Proofs.Attempts
import TaskPool.Proofs.Chore
import TaskPool.Proofs.Lasting
import TaskPool.Proofs.Isolation
import TaskPool.Proofs.Diary
import TaskPool.Proofs.Workday
import TaskPool.Proofs.Wanting
import TaskPool.Proofs.Tending
import TaskPool.Proofs.Arming
import TaskPool.Proofs.Punctuality
import TaskPool.Proofs.Grace
import TaskPool.Proofs.Pledge
import TaskPool.Proofs.Quiescence
import TaskPool.Proofs.Leaving
import TaskPool.Proofs.Expiry
import TaskPool.Proofs.Coherence
import TaskPool.Proofs.Tick
import TaskPool.Proofs.Revival
import TaskPool.Proofs.Precedence
import TaskPool.Proofs.Turns
import TaskPool.Proofs.Census
import TaskPool.Proofs.Backpressure
import TaskPool.Proofs.Profile
import TaskPool.Proofs.Tallies
import TaskPool.Proofs.Veil
import TaskPool.Proofs.Shadow
import TaskPool.Proofs.Observation
import TaskPool.Proofs.Responses
import TaskPool.Proofs.Listing
import TaskPool.Proofs.Quoting
import TaskPool.Proofs.Decimals
import TaskPool.Proofs.Identifiers
import TaskPool.Proofs.Calendar
import TaskPool.Proofs.Instants
import TaskPool.Proofs.Rereading
import TaskPool.Proofs.RoundTrip
import TaskPool.Proofs.Transcript
import TaskPool.Proofs.Stint
import TaskPool.Proofs.Timesheet
import TaskPool.Proofs.Turnstile
import TaskPool.Proofs.Bounds
import TaskPool.Proofs.Eviction
import TaskPool.Proofs.Doubles
import TaskPool.Proofs.Settings
import TaskPool.Proofs.Convergence
import TaskPool.Proofs.Posting
import TaskPool.Proofs.Bookkeeping
import TaskPool.Proofs.Timekeeping
import TaskPool.Proofs.Overrun
import TaskPool.Proofs.Preferences
