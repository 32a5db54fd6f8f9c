import Intake.Proofs.Flow.Calm

/-!
# Admissions

An admission is decided and shown by a sum that stays at the greatest count, but the count itself
wraps around.  The two agree as long as the exact sum is a count.  Beyond that the count shrinks,
while the gauge shows the greatest count, and the consumers are paused only if what is left of the
count still reaches the high watermark.
-/

namespace Intake
namespace Governor

/-! ## Sums that wrap around -/

/-- Beyond the greatest count a sum is short by the number of counts. -/
theorem toNat_add_of_beyond {left right : UInt64}
    (beyond : ¬left.toNat + right.toNat < UInt64.size) :
    (left + right).toNat + UInt64.size = left.toNat + right.toNat := by
  have first := left.toNat_lt_size
  have second := right.toNat_lt_size
  rw [UInt64.toNat_add]
  simp only [UInt64.size] at beyond first second ⊢
  omega

/-- A sum does not shrink exactly if it does not wrap around. -/
theorem le_add_iff {left right : UInt64} :
    left ≤ left + right ↔ left.toNat + right.toNat < UInt64.size := by
  rw [UInt64.le_iff_toNat_le]
  constructor
  · intro grows
    by_contra beyond
    have short := toNat_add_of_beyond beyond
    have second := right.toNat_lt_size
    omega
  · intro fits
    rw [UInt64.toNat_add, Nat.mod_eq_of_lt fits]
    omega

/-! ## What comes of an admission -/

section Admission

variable {governor : Governor} (enabled : governor.settings.enabled = true) (count : UInt64)
include enabled

theorem inFlight_admitted :
    (governor.raise (.admitted count)).1.inFlight = governor.inFlight + count := by
  rw [raise_eq (governor.quiet_admitted count), countAfter_eq enabled]
  rfl

/-- A consumer of the topic that does not fail is paused once the count reaches the high
watermark. -/
theorem paused_admitted (reached : governor.settings.high ≤ governor.inFlight + count)
    {name : String} (listed : name ∈ governor.fleet.registry.handles governor.topic)
    (reliable : (governor.fleet.consumer name).failing = false) :
    ((governor.raise (.admitted count)).1.fleet.consumer name).paused = true := by
  rw [consumer_raise (governor.quiet_admitted count), given_admitted enabled, if_pos reached]
  dsimp only
  rw [Consumer.paused_iterate_heed _ reliable (List.count_pos_iff.mpr listed)]
  rfl

/-- Below the high watermark an admission leaves the consumers alone. -/
theorem fleet_admitted (below : governor.inFlight + count < governor.settings.high) :
    (governor.raise (.admitted count)).1.fleet = governor.fleet := by
  rw [raise_eq (governor.quiet_admitted count), given_admitted enabled,
    if_neg (UInt64.not_le.mpr below)]

/-- The gauge shows the sum that does not wrap around. -/
theorem gauge_admitted (metrics : Metrics) :
    (metrics.recordAll ((governor.raise (.admitted count)).2.flatMap Event.notices)).gauge
      Event.inFlightSeries = some (saturatingAdd governor.inFlight count) := by
  obtain ⟨replies, same, took⟩ := raise_events (governor.quiet_admitted count) enabled
  have first : metrics.recordAll ((governor.raise (.admitted count)).2.flatMap Event.notices) =
      (metrics.record (.gauged Event.inFlightSeries
        (saturatingAdd governor.inFlight count))).recordAll (replies.flatMap Event.notices) := by
    rw [same]
    rfl
  have untouched : ∀ series value, .gauged series value ∉ replies.flatMap Event.notices := by
    intro series value member
    obtain ⟨event, among, noticed⟩ := List.mem_flatMap.mp member
    have reply := took event among
    cases event with
    | counted | shortfall => exact reply
    | obeyed | refused => simp [Event.notices] at noticed
  rw [first, Metrics.gauge_recordAll_of_not_mem (untouched _)]
  simp [Metrics.record, Metrics.gauge]

end Admission

/-- What an admission promises: the count does not shrink, the gauge shows it, and the consumers of
the topic that do not fail are paused once the exact sum reaches the high watermark. -/
structure Admits (governor : Governor) (count : UInt64) : Prop where
  grows : governor.inFlight ≤ (governor.raise (.admitted count)).1.inFlight
  shown : ∀ metrics : Metrics,
    (metrics.recordAll ((governor.raise (.admitted count)).2.flatMap Event.notices)).gauge
      Event.inFlightSeries = some (governor.raise (.admitted count)).1.inFlight
  pauses : governor.settings.high.toNat ≤ governor.inFlight.toNat + count.toNat →
    ∀ name ∈ governor.fleet.registry.handles governor.topic,
      (governor.fleet.consumer name).failing = false →
        ((governor.raise (.admitted count)).1.fleet.consumer name).paused = true

/-- An admission keeps its promises exactly if the exact sum is a count.  If it is not, the count
shrinks, the gauge shows the greatest count, and below the high watermark no consumer is paused. -/
theorem admits_iff_room {governor : Governor} (enabled : governor.settings.enabled = true)
    (count : UInt64) :
    (governor.Admits count ↔ governor.Room (.admitted count)) ∧
    (¬governor.Room (.admitted count) →
      (governor.raise (.admitted count)).1.inFlight.toNat + UInt64.size =
          governor.inFlight.toNat + count.toNat ∧
      (∀ metrics : Metrics,
        (metrics.recordAll ((governor.raise (.admitted count)).2.flatMap Event.notices)).gauge
          Event.inFlightSeries = some (UInt64.ofNat (UInt64.size - 1))) ∧
      ((governor.raise (.admitted count)).1.inFlight < governor.settings.high →
        (governor.raise (.admitted count)).1.fleet = governor.fleet)) := by
  refine ⟨⟨fun admits => ?_, fun room => ⟨?_, fun metrics => ?_, ?_⟩⟩, fun beyond => ⟨?_, ?_, ?_⟩⟩
  · -- That the count grows is enough: a sum that wraps around is less than its parts.
    have grows := admits.grows
    rw [inFlight_admitted enabled] at grows
    exact le_add_iff.mp grows
  · rw [inFlight_admitted enabled]
    exact le_add_iff.mpr room
  · rw [gauge_admitted enabled, inFlight_admitted enabled]
    exact congrArg some (if_pos room)
  · intro high name listed reliable
    refine paused_admitted enabled count ?_ listed reliable
    rwa [UInt64.le_iff_toNat_le, room.toNat_add]
  · rw [inFlight_admitted enabled]
    exact toNat_add_of_beyond beyond
  · intro metrics
    rw [gauge_admitted enabled]
    exact congrArg some (if_neg beyond)
  · rw [inFlight_admitted enabled]
    exact fleet_admitted enabled count

/-- Five records in flight, and two consumers of which one fails. -/
def halfDeaf : Governor :=
  let fleet := ((Fleet.empty.register "chunks" "a").register "chunks" "b").setFailing "b" true
  ((create .standard "chunks" fleet).raise (.admitted 5)).1

/-- The largest chunk for which there is room. -/
theorem halfDeaf_admits :
    halfDeaf.settings.enabled = true ∧ halfDeaf.Admits 18446744073709551610 ∧
      halfDeaf.Room (.admitted 18446744073709551610) := by
  have enabled : halfDeaf.settings.enabled = true := by decide +kernel
  have room : halfDeaf.Room (.admitted 18446744073709551610) := by
    unfold Room
    decide +kernel
  exact ⟨enabled, (admits_iff_room enabled _).1.mpr room, room⟩

/-- One record more, and the count is zero with no consumer paused. -/
theorem halfDeaf_overflows :
    ¬halfDeaf.Admits 18446744073709551611 ∧
      (halfDeaf.raise (.admitted 18446744073709551611)).1.inFlight = 0 ∧
      ((halfDeaf.raise (.admitted 18446744073709551611)).1.fleet.consumer "a").paused = false := by
  have count : (halfDeaf.raise (.admitted 18446744073709551611)).1.inFlight = 0 := by
    decide +kernel
  refine ⟨fun admits => ?_, count, by decide +kernel⟩
  have grows := admits.grows
  rw [count] at grows
  revert grows
  decide +kernel

end Governor
end Intake
