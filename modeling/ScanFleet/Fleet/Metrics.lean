import ScanFleet.Decimal.Positional
import ScanFleet.Json.Value

set_option autoImplicit false

/-! # Metrics

The counters of a fleet, and their text for a collector: families in order of their names, each with
its help, its type and its samples. A family without samples is left out. -/

namespace ScanFleet

/-- What fires an assignment. -/
inductive Trigger where
  | clock
  | completion
  | startup
  | manual
  deriving DecidableEq, Repr, Inhabited

/-- The name of a trigger. -/
def Trigger.name : Trigger → String
  | clock => "clock"
  | completion => "completion"
  | startup => "startup"
  | manual => "manual"

/-- Counts of observed durations, and their sum. -/
structure Histogram where
  /-- How many observations are at most each of the bounds. -/
  atMost : List Nat
  count : Nat := 0
  sum : Float := 0
  deriving Inhabited

namespace Histogram

/-- The bounds, in seconds. -/
def bounds : List Float := [0.005, 0.01, 0.025, 0.05, 0.1, 0.25, 0.5, 1, 2.5, 5, 10]

/-- A histogram without observations. -/
def empty : Histogram := { atMost := bounds.map fun _ => 0 }

/-- Counts an observation under every bound that it does not exceed. -/
def observe (h : Histogram) (seconds : Float) : Histogram where
  atMost := List.zipWith (fun bound n => if seconds ≤ bound then n + 1 else n) bounds h.atMost
  count := h.count + 1
  sum := h.sum + seconds

end Histogram

/-- The metrics of a fleet. -/
structure Metrics where
  /-- Instances with a job. -/
  instances : Float := 0
  /-- Registered devices. -/
  devices : Float := 0
  buildFailures : Nat := 0
  reassignments : Nat := 0
  /-- How often each trigger fired an assignment. -/
  triggers : Table (String × Nat) := .empty
  ticks : Histogram := .empty

instance : Inhabited Metrics := ⟨{}⟩

namespace Metrics

/-- Sets the numbers of instances with a job and of registered devices. -/
def setFleetSize (m : Metrics) (instances devices : Nat) : Metrics :=
  { m with instances := .ofNat instances, devices := .ofNat devices }

/-- Counts a job that could not be built. -/
def countBuildFailure (m : Metrics) : Metrics := { m with buildFailures := m.buildFailures + 1 }

/-- Counts a device that changed its instance. -/
def countReassignment (m : Metrics) : Metrics := { m with reassignments := m.reassignments + 1 }

/-- Counts an assignment that was fired. -/
def countTrigger (m : Metrics) (trigger : Trigger) : Metrics :=
  let n := ((m.triggers.get? trigger.name).map Prod.snd).getD 0
  { m with triggers := m.triggers.insert (trigger.name, n + 1) }

/-- Counts a tick of the schedule. -/
def countTick (m : Metrics) (seconds : Float) : Metrics := { m with ticks := m.ticks.observe seconds }

/-! ## Text -/

/-- The lines of a family: help, type and samples. A sample is what follows the name. -/
def family (name help type : String) (samples : List String) : List String :=
  if samples.isEmpty then []
  else
    let name := "scanmatrix_" ++ name
    ("# HELP " ++ name ++ " " ++ help) :: ("# TYPE " ++ name ++ " " ++ type)
      :: samples.map fun sample => name ++ sample

/-- The samples of a histogram: a line for each bound, the sum and the count. -/
def histogramSamples (h : Histogram) : List String :=
  List.zipWith
      (fun bound n => "_bucket\x7ble=\"" ++ Decimal.floatText bound ++ "\"\x7d " ++ toString n)
      Histogram.bounds h.atMost
    ++ ["_bucket\x7ble=\"+Inf\"\x7d " ++ toString h.count, "_sum " ++ Decimal.floatText h.sum,
      "_count " ++ toString h.count]

/-- The text of all metrics, line by line. -/
def lines (m : Metrics) : List String :=
  family "active_instance_count" "Instances with a running job controller" "gauge"
      [" " ++ Decimal.floatText m.instances]
    ++ family "assignment_triggers_total" "Assignments fired, by trigger" "counter"
      (m.triggers.rows.map fun row =>
        "\x7btrigger=\"" ++ row.1 ++ "\"\x7d " ++ toString row.2)
    ++ family "controller_build_failures_total" "Job controllers that failed to build" "counter"
      [" " ++ toString m.buildFailures]
    ++ family "device_count" "Devices in the orchestrator registry" "gauge"
      [" " ++ Decimal.floatText m.devices]
    ++ family "device_reassignments_total" "Devices moved between instances" "counter"
      [" " ++ toString m.reassignments]
    ++ family "scheduler_tick_seconds" "Assignment scheduler tick duration (seconds)" "histogram"
      (histogramSamples m.ticks)

end Metrics

end ScanFleet
