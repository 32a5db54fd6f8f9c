import Intake.Backoff
import Mathlib.Tactic

/-!
# Backoff in exact numbers

The wait before a retry is the initial interval times a power of the coefficient, as long as the
power fits thirty-two bits and the product is a span; beyond that the maximum stands in for it.  The
power is computed by squaring and the product in seconds and nanoseconds, and both are exact.  So
the wait never exceeds the maximum and, for a coefficient that is not zero, never gets shorter.
-/

namespace Intake

/-! ## Powers by squaring -/

private theorem pow_of_halves (base exponent : Nat) :
    (if exponent % 2 = 1 then base ^ (exponent / 2) * base ^ (exponent / 2) * base
      else base ^ (exponent / 2) * base ^ (exponent / 2)) = base ^ exponent := by
  split
  · rw [← Nat.pow_add, ← Nat.pow_succ]
    congr 1
    omega
  · rw [← Nat.pow_add]
    congr 1
    omega

/-- A power that is not below a bound above one stays so for larger exponents. -/
private theorem pow_le_pow_of_le {bound base less more : Nat} (room : 1 < bound)
    (beyond : bound ≤ base ^ less) (larger : less ≤ more) : base ^ less ≤ base ^ more := by
  refine Nat.pow_le_pow_right (Nat.pos_of_ne_zero ?_) larger
  rintro rfl
  have small : 0 ^ less ≤ 1 := by cases less <;> simp
  omega

/-- Squaring finds every power below the bound. -/
theorem boundedPow?_eq {bound : Nat} (room : 1 < bound) (base exponent : Nat) :
    boundedPow? bound base exponent =
      if base ^ exponent < bound then some (base ^ exponent) else none := by
  induction exponent using Nat.strongRecOn with
  | _ exponent ih =>
      cases exponent with
      | zero => simp [boundedPow?, room]
      | succ exponent =>
          have halved := ih ((exponent + 1) / 2) (by omega)
          rw [boundedPow?, halved]
          by_cases half : base ^ ((exponent + 1) / 2) < bound
          · rw [if_pos half]
            simp only [Option.bind_eq_bind, Option.bind_some, pow_of_halves]
          · -- The half is computed first: where it is too large, so is the whole.
            have larger := pow_le_pow_of_le room (Nat.not_lt.mp half)
              (show (exponent + 1) / 2 ≤ exponent + 1 by omega)
            rw [if_neg half, if_neg (by omega)]
            rfl

/-- From the exponent 32 on, a power that fits thirty-two bits has the base zero or one. -/
private theorem boundedPow?_of_large (base : Nat) {exponent : Nat} (large : 32 ≤ exponent) :
    boundedPow? UInt32.size base exponent = if base ≤ 1 then some base else none := by
  rw [boundedPow?_eq (show 1 < UInt32.size by decide)]
  match base with
  | 0 => simp [Nat.zero_pow (show 0 < exponent by omega)]
  | 1 => simp [UInt32.size]
  | base + 2 =>
      have beyond : UInt32.size ≤ (base + 2) ^ exponent :=
        calc UInt32.size = 2 ^ 32 := rfl
          _ ≤ 2 ^ exponent := Nat.pow_le_pow_right (by decide) large
          _ ≤ (base + 2) ^ exponent := Nat.pow_le_pow_left (by omega) exponent
      rw [if_neg (Nat.not_lt.mpr beyond), if_neg (by omega)]

namespace RetryPolicy

/-! ## Waits in exact numbers -/

/-- The wait in nanoseconds if there were no limits. -/
def exactNanos (policy : RetryPolicy) (failedAttempts : Nat) : Nat :=
  policy.initial.toNanos * policy.coefficient.toNat ^ (max failedAttempts 1 - 1)

/-- The power of the coefficient fits thirty-two bits, and the product is a span. -/
def InReach (policy : RetryPolicy) (failedAttempts : Nat) : Prop :=
  policy.coefficient.toNat ^ (max failedAttempts 1 - 1) < UInt32.size ∧
    policy.exactNanos failedAttempts ≤ Span.longest.toNanos

instance (policy : RetryPolicy) (failedAttempts : Nat) :
    Decidable (policy.InReach failedAttempts) :=
  inferInstanceAs (Decidable (_ ∧ _))

/-- The computed wait is the exact one, if that is in reach. -/
theorem candidate?_eq (policy : RetryPolicy) (failedAttempts : Nat) :
    (policy.candidate? failedAttempts).map Span.toNanos =
      if policy.InReach failedAttempts then some (policy.exactNanos failedAttempts) else none := by
  have exponent : failedAttempts - 1 = max failedAttempts 1 - 1 := by omega
  rw [candidate?, exponent, boundedPow?_eq (show 1 < UInt32.size by decide)]
  by_cases fits : policy.coefficient.toNat ^ (max failedAttempts 1 - 1) < UInt32.size
  · rw [if_pos fits]
    simp only [Option.bind_eq_bind, Option.bind_some, Span.scale?_eq, InReach, fits, true_and]
    rfl
  · rw [if_neg fits, if_neg fun reach => fits reach.1]
    rfl

variable {policy : RetryPolicy} {failedAttempts : Nat}

/-- A computed wait is capped at the maximum. -/
theorem delay_of_candidate? {interval : Span}
    (found : policy.candidate? failedAttempts = some interval) :
    policy.delay failedAttempts = policy.maximum.elim interval interval.min := by
  rw [delay, found]
  cases policy.maximum <;> rfl

/-- Within reach the wait is the exact one, capped at the maximum. -/
theorem toNanos_delay_of_inReach (reach : policy.InReach failedAttempts) :
    (policy.delay failedAttempts).toNanos =
      policy.maximum.elim (policy.exactNanos failedAttempts)
        fun maximum => Nat.min (policy.exactNanos failedAttempts) maximum.toNanos := by
  have computed := policy.candidate?_eq failedAttempts
  rw [if_pos reach, Option.map_eq_some_iff] at computed
  obtain ⟨interval, found, length⟩ := computed
  rw [delay_of_candidate? found, ← length]
  cases policy.maximum with
  | none => rw [Option.elim_none, Option.elim_none]
  | some maximum => rw [Option.elim_some, Option.elim_some, Span.toNanos_min]

/-- Beyond reach the wait is the maximum, or the longest span without one. -/
theorem delay_of_not_inReach (beyond : ¬policy.InReach failedAttempts) :
    policy.delay failedAttempts = policy.maximum.getD Span.longest := by
  have computed := policy.candidate?_eq failedAttempts
  rw [if_neg beyond, Option.map_eq_none_iff] at computed
  rw [delay, computed]
  cases policy.maximum <;> rfl

theorem delay_le_getD (policy : RetryPolicy) (failedAttempts : Nat) :
    (policy.delay failedAttempts).toNanos ≤ (policy.maximum.getD Span.longest).toNanos := by
  by_cases reach : policy.InReach failedAttempts
  · rw [toNanos_delay_of_inReach reach]
    cases policy.maximum with
    | none =>
        rw [Option.elim_none, Option.getD_none]
        exact reach.2
    | some maximum =>
        rw [Option.elim_some, Option.getD_some]
        exact Nat.min_le_right ..
  · exact Nat.le_of_eq (congrArg Span.toNanos (delay_of_not_inReach reach))

/-! ## More failed attempts -/

section Later

variable {later : Nat}

theorem exactNanos_mono (positive : 1 ≤ policy.coefficient) (more : failedAttempts ≤ later) :
    policy.exactNanos failedAttempts ≤ policy.exactNanos later :=
  Nat.mul_le_mul_left _ (Nat.pow_le_pow_right (UInt32.le_iff_toNat_le.mp positive) (by omega))

/-- What is in reach after more failed attempts is in reach after fewer. -/
theorem InReach.of_le (positive : 1 ≤ policy.coefficient) (more : failedAttempts ≤ later)
    (reach : policy.InReach later) : policy.InReach failedAttempts := by
  have grows : policy.coefficient.toNat ^ (max failedAttempts 1 - 1) ≤
      policy.coefficient.toNat ^ (max later 1 - 1) :=
    Nat.pow_le_pow_right (UInt32.le_iff_toNat_le.mp positive) (by omega)
  exact ⟨Nat.lt_of_le_of_lt grows reach.1,
    Nat.le_trans (exactNanos_mono positive more) reach.2⟩

/-- The wait does not get shorter, also where it goes over to the maximum. -/
theorem delay_mono (positive : 1 ≤ policy.coefficient) (more : failedAttempts ≤ later) :
    (policy.delay failedAttempts).toNanos ≤ (policy.delay later).toNanos := by
  by_cases reach : policy.InReach later
  · have grows := exactNanos_mono positive more
    rw [toNanos_delay_of_inReach reach, toNanos_delay_of_inReach (reach.of_le positive more)]
    cases policy.maximum with
    | none => rwa [Option.elim_none, Option.elim_none]
    | some maximum =>
        rw [Option.elim_some, Option.elim_some]
        exact Nat.le_min.mpr ⟨Nat.le_trans (Nat.min_le_left ..) grows, Nat.min_le_right ..⟩
  · rw [delay_of_not_inReach reach]
    exact policy.delay_le_getD failedAttempts

end Later

/-- An attempt counter of thirty-two bits that stays at its greatest value changes no wait. -/
theorem delay_min (policy : RetryPolicy) (failedAttempts : Nat) :
    policy.delay (min failedAttempts (UInt32.size - 1)) = policy.delay failedAttempts := by
  rcases Nat.le_total failedAttempts (UInt32.size - 1) with fits | beyond
  · rw [Nat.min_eq_left fits]
  · have same : policy.candidate? (UInt32.size - 1) = policy.candidate? failedAttempts := by
      rw [candidate?, candidate?, boundedPow?_of_large _ (by decide),
        boundedPow?_of_large _ (by simp only [UInt32.size] at beyond; omega)]
    rw [Nat.min_eq_right beyond, delay, delay, same]

/-- The wait is the exact one, capped at the maximum, as long as it can be computed, and the maximum
or the longest span beyond.  So it never exceeds the maximum, and does not get shorter unless the
coefficient is zero. -/
theorem delay_follows_policy (policy : RetryPolicy) (failedAttempts : Nat) :
    (policy.InReach failedAttempts → (policy.delay failedAttempts).toNanos =
      policy.maximum.elim (policy.exactNanos failedAttempts)
        fun maximum => Nat.min (policy.exactNanos failedAttempts) maximum.toNanos) ∧
    (¬policy.InReach failedAttempts →
      policy.delay failedAttempts = policy.maximum.getD Span.longest) ∧
    (∀ maximum ∈ policy.maximum, (policy.delay failedAttempts).toNanos ≤ maximum.toNanos) ∧
    (1 ≤ policy.coefficient → ∀ later, failedAttempts ≤ later →
      (policy.delay failedAttempts).toNanos ≤ (policy.delay later).toNanos) ∧
    policy.delay (min failedAttempts (UInt32.size - 1)) = policy.delay failedAttempts := by
  refine ⟨toNanos_delay_of_inReach, delay_of_not_inReach, ?_, fun positive _ => delay_mono positive,
    policy.delay_min failedAttempts⟩
  intro maximum limited
  have most := policy.delay_le_getD failedAttempts
  rwa [Option.mem_def.mp limited, Option.getD_some] at most

/-- Doubling from a tenth of a second: the fifth wait is computed, the two hundredth is not. -/
theorem standard_follows_policy :
    standard.InReach 5 ∧ ¬standard.InReach 200 ∧
      (standard.delay 5).toNanos = 1600000000 ∧ standard.delay 200 = Span.ofSeconds 10 ∧
      (standard.delay 5).toNanos ≤ (standard.delay 200).toNanos := by
  have reach : standard.InReach 5 := by decide +kernel
  have beyond : ¬standard.InReach 200 := by decide +kernel
  obtain ⟨computed, -, -, grows, -⟩ := standard.delay_follows_policy 5
  obtain ⟨-, capped, -⟩ := standard.delay_follows_policy 200
  have waits : (standard.delay 5).toNanos = 1600000000 :=
    (computed reach).trans (by decide +kernel)
  exact ⟨reach, beyond, waits, capped beyond, grows (by decide) 200 (by decide)⟩

end RetryPolicy
end Intake
