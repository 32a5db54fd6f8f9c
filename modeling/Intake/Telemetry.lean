import Intake.Decimal.Layout
import Intake.KeyMap

/-!
# Telemetry

Every part of the program reports what it does as notices: a counter goes up by one, a gauge is
set, a duration is taken, a line is logged.  `Metrics` collects the first three.
-/

namespace Intake

/-- A metric with its labels. -/
structure Series where
  name : String
  labels : List (String × String)
  deriving DecidableEq, Repr

/-- How grave a logged line is. -/
inductive Severity where
  | warning
  | error
  deriving DecidableEq, Repr

/-- Something reported. -/
inductive Notice where
  /-- A counter goes up by one. -/
  | counted (series : Series)
  /-- A gauge is set. -/
  | gauged (series : Series) (value : UInt64)
  /-- A duration is taken. -/
  | timed (series : Series)
  | logged (severity : Severity) (line : String)
  deriving DecidableEq, Repr

/-- If a notice comes once of each event of some kind and of no other, it comes as often as there are
events of the kind. -/
theorem Notice.count_flatMap {Event : Type} {notices : Event → List Notice} {notice : Notice}
    {kind : Event → Bool}
    (each : ∀ event, (notices event).count notice = if kind event then 1 else 0)
    (events : List Event) : (events.flatMap notices).count notice = events.countP kind := by
  induction events with
  | nil => rfl
  | cons event rest ih =>
      rw [List.flatMap_cons, List.count_append, List.countP_cons, ih, each, Nat.add_comm]

/-- The metrics after some notices. -/
structure Metrics where
  counters : KeyMap Series Nat
  gauges : KeyMap Series UInt64
  /-- How many durations were taken. -/
  durations : KeyMap Series Nat

namespace Metrics

/-- The metrics before any notice. -/
def empty : Metrics := ⟨.empty, .empty, .empty⟩

instance : Inhabited Metrics := ⟨empty⟩

/-- Adds one to a count. -/
def increment (counts : KeyMap Series Nat) (series : Series) : KeyMap Series Nat :=
  counts.insert series ((counts.get? series).getD 0 + 1)

/-- The metrics after a notice. -/
def record (metrics : Metrics) : Notice → Metrics
  | .counted series => { metrics with counters := increment metrics.counters series }
  | .gauged series value => { metrics with gauges := metrics.gauges.insert series value }
  | .timed series => { metrics with durations := increment metrics.durations series }
  | .logged _ _ => metrics

/-- The metrics after notices. -/
def recordAll (metrics : Metrics) (notices : List Notice) : Metrics :=
  notices.foldl record metrics

/-- How often a counter went up. -/
def counter (metrics : Metrics) (series : Series) : Nat := (metrics.counters.get? series).getD 0

/-- How many durations were taken. -/
def durationCount (metrics : Metrics) (series : Series) : Nat :=
  (metrics.durations.get? series).getD 0

/-- What a gauge shows, once it was set. -/
def gauge (metrics : Metrics) (series : Series) : Option UInt64 := metrics.gauges.get? series

/-- Adding one to a count leaves the others alone. -/
theorem getD_increment (counts : KeyMap Series Nat) (other series : Series) :
    ((increment counts other).get? series).getD 0 =
      (counts.get? series).getD 0 + if other = series then 1 else 0 := by
  by_cases same : other = series
  · subst same
    simp [increment]
  · simp [increment, KeyMap.get?_insert, same]

theorem counter_record (metrics : Metrics) (notice : Notice) (series : Series) :
    (metrics.record notice).counter series =
      metrics.counter series + if notice = .counted series then 1 else 0 := by
  cases notice with
  | counted other => simp [record, counter, getD_increment]
  | gauged | timed | logged => simp [record, counter]

/-- A counter goes up once for each notice about it. -/
theorem counter_recordAll (metrics : Metrics) (notices : List Notice) (series : Series) :
    (metrics.recordAll notices).counter series =
      metrics.counter series + notices.count (.counted series) := by
  induction notices generalizing metrics with
  | nil => rfl
  | cons notice rest ih =>
      have later : ((metrics.record notice).recordAll rest).counter series = _ := ih _
      rw [counter_record] at later
      rw [List.count_cons, show metrics.recordAll (notice :: rest) =
        (metrics.record notice).recordAll rest from rfl, later]
      simp only [beq_iff_eq]
      omega

theorem durationCount_record (metrics : Metrics) (notice : Notice) (series : Series) :
    (metrics.record notice).durationCount series =
      metrics.durationCount series + if notice = .timed series then 1 else 0 := by
  cases notice with
  | timed other => simp [record, durationCount, getD_increment]
  | counted | gauged | logged => simp [record, durationCount]

/-- One duration is taken for each notice about it. -/
theorem durationCount_recordAll (metrics : Metrics) (notices : List Notice) (series : Series) :
    (metrics.recordAll notices).durationCount series =
      metrics.durationCount series + notices.count (.timed series) := by
  induction notices generalizing metrics with
  | nil => rfl
  | cons notice rest ih =>
      have later : ((metrics.record notice).recordAll rest).durationCount series = _ := ih _
      rw [durationCount_record] at later
      rw [List.count_cons, show metrics.recordAll (notice :: rest) =
        (metrics.record notice).recordAll rest from rfl, later]
      simp only [beq_iff_eq]
      omega

/-- The value to which a notice sets a gauge. -/
def level? (series : Series) : Notice → Option UInt64
  | .gauged other value => if other = series then some value else none
  | _ => none

theorem gauge_record (metrics : Metrics) (notice : Notice) (series : Series) :
    (metrics.record notice).gauge series = (level? series notice).or (metrics.gauge series) := by
  cases notice with
  | gauged other value =>
      by_cases same : other = series <;> simp [record, gauge, level?, KeyMap.get?_insert, same]
  | counted | timed | logged => simp [record, gauge, level?]

/-- A gauge shows the value to which it was set last. -/
theorem gauge_recordAll (metrics : Metrics) (notices : List Notice) (series : Series) :
    (metrics.recordAll notices).gauge series =
      (notices.filterMap (level? series)).getLast?.or (metrics.gauge series) := by
  induction notices generalizing metrics with
  | nil => rfl
  | cons notice rest ih =>
      have later : ((metrics.record notice).recordAll rest).gauge series = _ := ih _
      rw [gauge_record, ← Option.or_assoc] at later
      rw [show metrics.recordAll (notice :: rest) = (metrics.record notice).recordAll rest from rfl,
        later, List.filterMap_cons]
      cases level? series notice with
      | none => simp
      | some value => simp [List.getLast?_cons]

/-- A gauge shows the same as long as it is not set. -/
theorem gauge_recordAll_of_not_mem {metrics : Metrics} {notices : List Notice} {series : Series}
    (untouched : ∀ value, .gauged series value ∉ notices) :
    (metrics.recordAll notices).gauge series = metrics.gauge series := by
  have none : notices.filterMap (level? series) = [] := by
    refine List.filterMap_eq_nil_iff.mpr fun notice among => ?_
    cases notice with
    | gauged other value =>
        refine if_neg ?_
        rintro rfl
        exact untouched value among
    | counted | timed | logged => rfl
  rw [gauge_recordAll, none, List.getLast?_nil, Option.none_or]

end Metrics

namespace Telemetry

/-- A label as it is shown. -/
def labelText (label : String × String) : String := label.1 ++ "=\"" ++ label.2 ++ "\""

/-- The name of a metric with its labels, if it has any. -/
def seriesText (name : String) (labels : List (String × String)) : String :=
  if labels.isEmpty then name
  else name ++ "\x7b" ++ String.intercalate "," (labels.map labelText) ++ "\x7d"

/-- The value of a gauge: the nearest double, written in full. -/
def gaugeText (value : UInt64) : String :=
  (Binary64.ofBits value.toFloat.toBits).text .measurement

/-- Every metric with its value. -/
def shown (metrics : Metrics) : List (String × String) :=
  (metrics.counters.entries.map fun (series, count) =>
      (seriesText series.name series.labels, toString count)) ++
    (metrics.gauges.entries.map fun (series, value) =>
      (seriesText series.name series.labels, gaugeText value)) ++
    (metrics.durations.entries.map fun (series, count) =>
      (seriesText (series.name ++ "_count") series.labels, toString count))

/-- A gauge that was set is shown. -/
theorem mem_shown_of_gauge {metrics : Metrics} {series : Series} {value : UInt64}
    (set : metrics.gauge series = some value) :
    (seriesText series.name series.labels, gaugeText value) ∈ shown metrics := by
  have among := KeyMap.mem_of_find set
  refine List.mem_append_left _ (List.mem_append_right _ ?_)
  exact List.mem_map.mpr ⟨(series, value), among, rfl⟩

/-- A logged line with its severity. -/
def lineText (severity : Severity) (line : String) : String :=
  match severity with
  | .warning => "WARN " ++ line
  | .error => "ERROR " ++ line

/-- The logged lines among notices, in order. -/
def lines (notices : List Notice) : List String :=
  notices.filterMap fun notice =>
    match notice with
    | .logged severity line => some (lineText severity line)
    | _ => none

end Telemetry
end Intake
