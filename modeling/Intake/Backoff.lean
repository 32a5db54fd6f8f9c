import Intake.Span

/-!
# Backoff between retries

A retry waits the initial interval, and every further failed attempt multiplies the wait by a
coefficient.  The wait never exceeds the maximum interval; when it can no longer be computed, the
maximum stands in for it, and without a maximum the longest span does.
-/

namespace Intake

/-- A power, if it stays below the bound; squares are formed only of powers that do. -/
def boundedPow? (bound base : Nat) : Nat → Option Nat
  | 0 => if 1 < bound then some 1 else none
  | exponent + 1 => do
      let half ← boundedPow? bound base ((exponent + 1) / 2)
      let power := if (exponent + 1) % 2 = 1 then half * half * base else half * half
      if power < bound then some power else none
termination_by exponent => exponent
decreasing_by omega

/-- How long to wait before a failed call is made again. -/
structure RetryPolicy where
  /-- Factor by which every failed attempt after the first lengthens the wait. -/
  coefficient : UInt32
  /-- The wait before the first retry. -/
  initial : Span
  /-- The longest wait, if there is one. -/
  maximum : Option Span
  deriving DecidableEq, Repr

namespace RetryPolicy

/-- Doubling from a tenth of a second up to ten seconds. -/
def standard : RetryPolicy :=
  { coefficient := 2
    initial := Span.ofMillis 100
    maximum := some (Span.ofSeconds 10) }

instance : Inhabited RetryPolicy := ⟨standard⟩

/-- The uncapped wait after so many failed attempts, if it can be computed. -/
def candidate? (policy : RetryPolicy) (failedAttempts : Nat) : Option Span := do
  let factor ← boundedPow? UInt32.size policy.coefficient.toNat (failedAttempts - 1)
  policy.initial.scale? factor

/-- The wait before the next call, after so many failed attempts. -/
def delay (policy : RetryPolicy) (failedAttempts : Nat) : Span :=
  match policy.candidate? failedAttempts, policy.maximum with
  | some interval, some maximum => interval.min maximum
  | some interval, none => interval
  | none, some maximum => maximum
  | none, none => Span.longest

end RetryPolicy
end Intake
