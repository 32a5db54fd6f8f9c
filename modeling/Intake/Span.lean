/-!
# Spans of time

A span counts whole seconds and the nanoseconds after them.  `Span.toNanos` is its exact length;
scaling and comparison are stated through it (`Span.scale?_eq`, `Span.le_iff`).  `Span.text` writes a
span in the largest unit in which it is at least one, with the fraction cut after its last digit that
is not zero.
-/

namespace Intake

/-- Nanoseconds of one second. -/
def nanosPerSecond : Nat := 1000000000

/-- A length of time. -/
structure Span where
  /-- Whole seconds. -/
  seconds : UInt64
  /-- Nanoseconds after the last whole second. -/
  nanos : Nat
  /-- Less than a second is left over. -/
  nanos_lt : nanos < nanosPerSecond
  deriving DecidableEq, Repr

namespace Span

/-- The exact length in nanoseconds. -/
def toNanos (span : Span) : Nat := span.seconds.toNat * nanosPerSecond + span.nanos

/-- The empty span. -/
def zero : Span := ⟨0, 0, by decide⟩

instance : Inhabited Span := ⟨zero⟩

/-- The longest span. -/
def longest : Span := ⟨UInt64.ofNat (UInt64.size - 1), nanosPerSecond - 1, by decide⟩

/-- Whole seconds. -/
def ofSeconds (seconds : UInt64) : Span := ⟨seconds, 0, by decide⟩

/-- The span of so many nanoseconds, if its seconds fit sixty-four bits. -/
def ofNanos? (total : Nat) : Option Span :=
  if total / nanosPerSecond < UInt64.size then
    some ⟨UInt64.ofNat (total / nanosPerSecond), total % nanosPerSecond,
      Nat.mod_lt _ (by decide)⟩
  else
    none

/-- Milliseconds. -/
def ofMillis (millis : UInt64) : Span :=
  ⟨millis / 1000, (millis.toNat % 1000) * 1000000, by
    have small := Nat.mod_lt millis.toNat (show 1000 > 0 by decide)
    unfold nanosPerSecond
    omega⟩

/-- A span whose nanoseconds may exceed a second, if the carried seconds still fit. -/
def ofParts? (seconds : UInt64) (nanos : Nat) : Option Span :=
  ofNanos? (seconds.toNat * nanosPerSecond + nanos)

/-- Whether the span is empty. -/
def isZero (span : Span) : Bool := span.seconds == 0 && span.nanos == 0

/-- Whole milliseconds covered by the span. -/
def toMillis (span : Span) : Nat := span.seconds.toNat * 1000 + span.nanos / 1000000

/-- The first whole millisecond at which the span has passed. -/
def toMillisUp (span : Span) : Nat := span.seconds.toNat * 1000 + (span.nanos + 999999) / 1000000

/-- A multiple of a span, if its seconds fit: the nanoseconds carry into the seconds. -/
def scale? (span : Span) (factor : Nat) : Option Span :=
  let nanos := span.nanos * factor
  let seconds := span.seconds.toNat * factor + nanos / nanosPerSecond
  if seconds < UInt64.size then
    some ⟨UInt64.ofNat seconds, nanos % nanosPerSecond, Nat.mod_lt _ (by decide)⟩
  else
    none

/-- Whether one span is no longer than another: seconds decide first, then nanoseconds. -/
def le (left right : Span) : Bool :=
  left.seconds < right.seconds || (left.seconds == right.seconds && left.nanos ≤ right.nanos)

/-- The shorter of two spans. -/
def min (left right : Span) : Span := if left.le right then left else right

/-! ## Exact lengths -/

theorem toNanos_longest : longest.toNanos = UInt64.size * nanosPerSecond - 1 := rfl

theorem toNanos_pos_iff {span : Span} : 0 < span.toNanos ↔ span.isZero = false := by
  have seconds : span.seconds = 0 ↔ span.seconds.toNat = 0 := by
    rw [← UInt64.toNat_inj, UInt64.toNat_zero]
  rw [Bool.eq_false_iff, isZero, ne_eq, Bool.and_eq_true, beq_iff_eq, beq_iff_eq, seconds, toNanos,
    nanosPerSecond]
  omega

/-- Spans of the same length are the same. -/
theorem toNanos_inj {left right : Span} : left.toNanos = right.toNanos ↔ left = right := by
  refine ⟨fun same => ?_, congrArg toNanos⟩
  obtain ⟨seconds, nanos, less⟩ := left
  obtain ⟨others, rest, small⟩ := right
  simp only [toNanos, nanosPerSecond] at same less small
  have first : seconds = others := UInt64.toNat_inj.mp (by omega)
  subst first
  have second : nanos = rest := by omega
  subst second
  rfl

/-- Seconds first and nanoseconds then compare the lengths. -/
theorem le_iff (left right : Span) : left.le right = true ↔ left.toNanos ≤ right.toNanos := by
  have small := left.nanos_lt
  have less := right.nanos_lt
  simp only [le, Bool.or_eq_true, Bool.and_eq_true, decide_eq_true_eq, beq_iff_eq,
    UInt64.lt_iff_toNat_lt, ← UInt64.toNat_inj, toNanos, nanosPerSecond] at small less ⊢
  omega

theorem toNanos_min (left right : Span) :
    (left.min right).toNanos = Nat.min left.toNanos right.toNanos := by
  unfold min
  split
  · rename_i shorter
    exact (Nat.min_eq_left ((le_iff ..).mp shorter)).symm
  · rename_i longer
    have more := fun less => longer ((le_iff ..).mpr less)
    exact (Nat.min_eq_right (Nat.le_of_not_le more)).symm

/-- Carrying nanoseconds into seconds gives the exact multiple, as long as that is a span. -/
theorem scale?_eq (span : Span) (factor : Nat) :
    (span.scale? factor).map toNanos =
      if span.toNanos * factor ≤ longest.toNanos then some (span.toNanos * factor) else none := by
  have parts : span.toNanos * factor =
      (span.seconds.toNat * factor) * nanosPerSecond + span.nanos * factor := by
    rw [toNanos, Nat.add_mul, Nat.mul_right_comm]
  rw [parts, toNanos_longest, scale?]
  split
  · rename_i fits
    rw [if_pos, Option.map_some, toNanos, UInt64.toNat_ofNat_of_lt' fits]
    · refine congrArg some ?_
      simp only [nanosPerSecond]
      omega
    · simp only [nanosPerSecond, UInt64.size] at fits ⊢
      omega
  · rename_i beyond
    rw [if_neg]
    · rfl
    · simp only [nanosPerSecond, UInt64.size] at beyond ⊢
      omega

/-! ## Texts -/

/-- The digits of `fraction` written to `width` places, without the zeros at the end. -/
def fractionDigits (width fraction : Nat) : String :=
  let digits := (Nat.toDigits 10 fraction)
  let padded := List.replicate (width - digits.length) '0' ++ digits
  String.ofList (padded.reverse.dropWhile (· == '0')).reverse

/-- A whole number and a fraction of `width` places, followed by a unit. -/
def decimal (whole fraction width : Nat) (unit : String) : String :=
  if fraction = 0 then s!"{whole}{unit}" else s!"{whole}.{fractionDigits width fraction}{unit}"

/-- The span in its largest unit: seconds, milliseconds, microseconds or nanoseconds. -/
def text (span : Span) : String :=
  if 0 < span.seconds then decimal span.seconds.toNat span.nanos 9 "s"
  else if 1000000 ≤ span.nanos then decimal (span.nanos / 1000000) (span.nanos % 1000000) 6 "ms"
  else if 1000 ≤ span.nanos then decimal (span.nanos / 1000) (span.nanos % 1000) 3 "µs"
  else decimal span.nanos 0 0 "ns"

end Span
end Intake
