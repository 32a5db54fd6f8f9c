import Intake.Proofs.Progress.Gains

/-!
# Merging keeps what mutations mean

A mutation is put together from single steps by any number of merges.  Where no count overflows it
does what its parts do one after the other, however they were grouped: `Pushed` says what a merge
does with one step, and all the rest follows from it.  The steps of a mutation are in a canonical
form in which no two deltas meet, so a mutation is one delta exactly if only deltas were submitted.
-/

namespace Intake

/-- Sums that fit can be grouped the other way. -/
theorem Counter.add_regroup {first second third front back sum : Int64}
    (left : add first second = .ok front) (whole : add front third = .ok sum)
    (right : add second third = .ok back) : add first back = .ok sum := by
  have early := toInt_of_add left
  have late := toInt_of_add right
  obtain ⟨_, rfl⟩ := add_eq_ok_iff.mp left
  obtain ⟨fits, rfl⟩ := add_eq_ok_iff.mp whole
  obtain ⟨_, rfl⟩ := add_eq_ok_iff.mp right
  refine add_eq_ok_iff.mpr ⟨?_, (Int64.add_assoc ..).symm⟩
  rwa [late, ← add_assoc, ← early]

/-- Deltas that fit can be grouped the other way. -/
theorem ProgressDelta.plus?_regroup {first second third front back sum : ProgressDelta}
    (left : first.plus? second = .ok front) (whole : front.plus? third = .ok sum)
    (right : second.plus? third = .ok back) : first.plus? back = .ok sum := by
  rw [plus?_eq_ok_iff] at left whole right ⊢
  exact ⟨Counter.add_regroup left.1 whole.1 right.1,
    Counter.add_regroup left.2.1 whole.2.1 right.2.1, whole.2.2.trans left.2.2⟩

/-- Two deltas that were added one after the other can be added as one. -/
theorem JobProgress.add_plus? {before middle after : JobProgress}
    {first second joined : ProgressDelta} (early : before.add first = .ok middle)
    (late : middle.add second = .ok after) (fits : first.plus? second = .ok joined) :
    before.add joined = .ok after := by
  rw [ProgressDelta.plus?_eq_ok_iff] at fits
  rw [add_eq_ok_iff] at early late ⊢
  exact ⟨Counter.add_regroup early.1 late.1 fits.1,
    Counter.add_regroup early.2.1 late.2.1 fits.2.1, late.2.2.1.trans early.2.2.1,
    late.2.2.2.trans early.2.2.2⟩

namespace ProgressStep

/-- The step is a delta. -/
def IsDelta : ProgressStep → Prop
  | delta _ => True
  | mutate _ | create _ => False

/-- Two steps that are not both deltas. -/
def Parted (earlier later : ProgressStep) : Prop := ¬(earlier.IsDelta ∧ later.IsDelta)

theorem exists_of_isDelta {step : ProgressStep} (lone : step.IsDelta) :
    ∃ change, step = .delta change := by
  cases step with
  | delta change => exact ⟨change, rfl⟩
  | mutate | create => exact lone.elim

end ProgressStep

namespace ProgressMutation

/-! ## One step -/

/-- What comes of adding a step at the end. -/
inductive Pushed : List ProgressStep → ProgressStep → List ProgressStep → Prop where
  /-- A delta that meets a delta becomes one with it. -/
  | join (front : List ProgressStep) {last next joined : ProgressDelta}
      (fits : last.plus? next = .ok joined) :
      Pushed (front ++ [.delta last]) (.delta next) (front ++ [.delta joined])
  /-- Any other step stays on its own. -/
  | append {steps : List ProgressStep} {step : ProgressStep}
      (parted : ∀ last ∈ steps.getLast?, last.Parted step) : Pushed steps step (steps ++ [step])

section Push

variable {steps pushed : List ProgressStep} {step : ProgressStep}

theorem Pushed.cons {first : ProgressStep} (some : steps ≠ []) (tail : Pushed steps step pushed) :
    Pushed (first :: steps) step (first :: pushed) := by
  cases tail with
  | join front fits => exact .join (first :: front) fits
  | append parted =>
      rw [← List.getLast?_cons_of_ne_nil some] at parted
      exact .append parted

theorem Pushed.of_push? (added : push? steps step = .ok pushed) : Pushed steps step pushed := by
  fun_induction push? steps step generalizing pushed with
  | case1 step =>
      obtain rfl := Except.ok.inj added
      exact .append (by simp)
  | case2 last next =>
      obtain ⟨joined, fits, added⟩ := bind_eq_ok.mp added
      obtain rfl := Except.ok.inj added
      exact .join [] fits
  | case3 last step apart =>
      obtain rfl := Except.ok.inj added
      have parted : ∀ other ∈ [last].getLast?, other.Parted step := by
        rintro _ ⟨⟩ ⟨first, second⟩
        obtain ⟨_, rfl⟩ := ProgressStep.exists_of_isDelta second
        obtain ⟨_, same⟩ := ProgressStep.exists_of_isDelta first
        exact apart _ _ rfl same
      exact .append parted
  | case4 first rest step _ nonempty ih =>
      obtain ⟨joined, tail, added⟩ := bind_eq_ok.mp added
      obtain rfl := Except.ok.inj added
      exact (ih tail).cons nonempty

private theorem push?_join (front : List ProgressStep) {last next joined : ProgressDelta}
    (fits : last.plus? next = .ok joined) :
    push? (front ++ [.delta last]) (.delta next) = .ok (front ++ [.delta joined]) := by
  induction front with
  | nil => exact bind_eq_ok.mpr ⟨_, fits, rfl⟩
  | cons first front ih =>
      rw [List.cons_append, push?.eq_4 _ _ _ (by simp) (by simp)]
      exact bind_eq_ok.mpr ⟨_, ih, rfl⟩

private theorem push?_append (parted : ∀ last ∈ steps.getLast?, last.Parted step) :
    push? steps step = .ok (steps ++ [step]) := by
  fun_induction push? steps step with
  | case1 => rfl
  | case2 last next => exact absurd ⟨trivial, trivial⟩ (parted (.delta last) rfl)
  | case3 => rfl
  | case4 first rest step _ nonempty ih =>
      rw [List.getLast?_cons_of_ne_nil nonempty] at parted
      exact bind_eq_ok.mpr ⟨_, ih parted, rfl⟩

/-- Adding a step succeeds exactly where a joined delta fits. -/
theorem push?_eq_ok_iff : push? steps step = .ok pushed ↔ Pushed steps step pushed := by
  refine ⟨.of_push?, ?_⟩
  rintro (⟨front, fits⟩ | parted)
  · exact push?_join front fits
  · exact push?_append parted

/-- Checked sums that fit agree with those that wrap around. -/
theorem push_of_push? (added : push? steps step = .ok pushed) : push steps step = pushed := by
  fun_induction push? steps step generalizing pushed with
  | case1 => exact Except.ok.inj added
  | case2 last next =>
      obtain ⟨joined, fits, added⟩ := bind_eq_ok.mp added
      obtain rfl := Except.ok.inj added
      obtain ⟨first, second, same⟩ := ProgressDelta.plus?_eq_ok_iff.mp fits
      obtain ⟨_, succeeded⟩ := Counter.add_eq_ok_iff.mp first
      obtain ⟨_, failed⟩ := Counter.add_eq_ok_iff.mp second
      rw [push, ProgressDelta.plus, succeeded, failed, ← same]
  | case3 last step apart =>
      rw [push.eq_3 _ _ apart]
      exact Except.ok.inj added
  | case4 first rest step apart nonempty ih =>
      obtain ⟨joined, tail, added⟩ := bind_eq_ok.mp added
      rw [push.eq_4 _ _ _ nonempty apart, ih tail]
      exact Except.ok.inj added

/-- Adding a step keeps deltas apart. -/
theorem Pushed.isChain (made : Pushed steps step pushed)
    (chain : steps.IsChain ProgressStep.Parted) : pushed.IsChain ProgressStep.Parted := by
  cases made with
  | join front fits =>
      rw [List.isChain_append] at chain ⊢
      refine ⟨chain.1, List.isChain_singleton _, fun last member next same => ?_⟩
      obtain rfl : _ = next := Option.some.inj same
      have parted := chain.2.2 last member _ rfl
      exact parted
  | append parted =>
      refine chain.append (List.isChain_singleton _) fun last member next same => ?_
      obtain rfl : _ = next := Option.some.inj same
      exact parted last member

theorem Pushed.ne_nil (made : Pushed steps step pushed) : pushed ≠ [] := by
  cases made <;> simp

/-- Only deltas are joined. -/
theorem Pushed.isDelta_iff (made : Pushed steps step pushed) :
    (∀ other ∈ pushed, other.IsDelta) ↔ (∀ other ∈ steps, other.IsDelta) ∧ step.IsDelta := by
  cases made with
  | join front fits =>
      rw [List.forall_mem_append, List.forall_mem_append, List.forall_mem_singleton,
        List.forall_mem_singleton]
      exact ⟨fun all => ⟨⟨all.1, trivial⟩, trivial⟩, fun all => ⟨all.1.1, trivial⟩⟩
  | append parted => rw [List.forall_mem_append, List.forall_mem_singleton]

/-- A delta that meets a delta is joined with it. -/
theorem Pushed.of_met {front : List ProgressStep} {last next : ProgressDelta}
    (made : Pushed (front ++ [.delta last]) (.delta next) pushed) :
    ∃ joined, last.plus? next = .ok joined ∧ pushed = front ++ [.delta joined] := by
  generalize whole : front ++ [.delta last] = steps at made
  generalize met : ProgressStep.delta next = step at made
  cases made with
  | join front fits =>
      obtain ⟨rfl, same⟩ := List.append_inj' whole rfl
      obtain rfl := ProgressStep.delta.inj (List.singleton_inj.mp same)
      obtain rfl := ProgressStep.delta.inj met
      exact ⟨_, fits, rfl⟩
  | append parted =>
      subst whole met
      exact absurd ⟨trivial, trivial⟩ (parted (.delta last) (by simp))

end Push

/-! ## Whole mutations -/

/-- A fold over a list with one more entry succeeds if both parts do. -/
private theorem foldlM_concat {State Entry : Type} {act : State → Entry → Except Overflow State}
    {entries : List Entry} {entry : Entry} {before after : State} :
    (entries ++ [entry]).foldlM act before = .ok after ↔
      ∃ middle, entries.foldlM act before = .ok middle ∧ act middle entry = .ok after := by
  rw [List.foldlM_append, bind_eq_ok]
  simp only [List.foldlM_cons, List.foldlM_nil, bind_pure]

theorem merge?_eq_ok_iff {earlier later merged : ProgressMutation} :
    earlier.merge? later = .ok merged ↔
      later.steps.foldlM push? earlier.steps = .ok merged.steps := by
  constructor
  · intro fits
    obtain ⟨joined, counts, fits⟩ := bind_eq_ok.mp fits
    obtain rfl := Except.ok.inj fits
    exact counts
  · exact fun counts => bind_eq_ok.mpr ⟨_, counts, rfl⟩

/-- Two deltas that are taken one after the other can be taken as one. -/
def TakesJoined {State : Type} (act : State → ProgressStep → Except Overflow State) : Prop :=
  ∀ {before middle after : State} {last next joined : ProgressDelta},
    act before (.delta last) = .ok middle → act middle (.delta next) = .ok after →
      last.plus? next = .ok joined → act before (.delta joined) = .ok after

theorem takesJoined_apply : TakesJoined ProgressStep.apply := JobProgress.add_plus?

theorem takesJoined_push? : TakesJoined push? := by
  intro before middle after last next joined early late fits
  rw [push?_eq_ok_iff] at early late ⊢
  generalize own : ProgressStep.delta last = step at early
  cases early with
  | join front first =>
      obtain rfl := ProgressStep.delta.inj own
      obtain ⟨sum, whole, rfl⟩ := late.of_met
      exact .join front (ProgressDelta.plus?_regroup first whole fits)
  | append parted =>
      subst own
      obtain ⟨sum, whole, rfl⟩ := late.of_met
      obtain rfl := Except.ok.inj (fits.symm.trans whole)
      exact .append parted

namespace TakesJoined

variable {State : Type} {act : State → ProgressStep → Except Overflow State}
  {before middle after : State}

theorem foldlM_pushed (takes : TakesJoined act) {steps pushed : List ProgressStep}
    {step : ProgressStep} (made : Pushed steps step pushed)
    (early : steps.foldlM act before = .ok middle) (late : act middle step = .ok after) :
    pushed.foldlM act before = .ok after := by
  cases made with
  | join front fits =>
      obtain ⟨start, lead, last⟩ := foldlM_concat.mp early
      exact foldlM_concat.mpr ⟨start, lead, takes last late fits⟩
  | append => exact foldlM_concat.mpr ⟨middle, early, late⟩

/-- Merged steps are taken as the parts are, one after the other. -/
theorem foldlM_merged (takes : TakesJoined act) {front back merged : List ProgressStep}
    (counts : back.foldlM push? front = .ok merged)
    (early : front.foldlM act before = .ok middle) (late : back.foldlM act middle = .ok after) :
    merged.foldlM act before = .ok after := by
  induction back using List.reverseRecOn generalizing merged after with
  | nil =>
      obtain rfl := Except.ok.inj counts
      obtain rfl := Except.ok.inj late
      exact early
  | append_singleton back step ih =>
      obtain ⟨_, counts, pushed⟩ := foldlM_concat.mp counts
      obtain ⟨_, late, last⟩ := foldlM_concat.mp late
      exact takes.foldlM_pushed (.of_push? pushed) (ih counts late) last

end TakesJoined

/-- A merge that fits is the merge of the dispatchers. -/
theorem merge_of_merge? {earlier later merged : ProgressMutation}
    (fits : earlier.merge? later = .ok merged) : earlier.merge later = merged := by
  obtain ⟨steps⟩ := later
  obtain ⟨joined⟩ := merged
  rw [merge?_eq_ok_iff] at fits
  refine congrArg mk ?_
  dsimp only at fits ⊢
  induction steps using List.reverseRecOn generalizing joined with
  | nil => exact Except.ok.inj fits
  | append_singleton steps step ih =>
      obtain ⟨middle, counts, pushed⟩ := foldlM_concat.mp fits
      rw [List.foldl_append, ih middle counts]
      exact push_of_push? pushed

/-- A merged mutation does what its parts do one after the other. -/
theorem apply_of_merge? {earlier later merged : ProgressMutation}
    {before middle after : JobProgress} (fits : earlier.merge? later = .ok merged)
    (early : earlier.apply before = .ok middle) (late : later.apply middle = .ok after) :
    merged.apply before = .ok after :=
  takesJoined_apply.foldlM_merged (merge?_eq_ok_iff.mp fits) early late

/-- Merges can be grouped the other way. -/
theorem merge?_regroup {first second third front back whole : ProgressMutation}
    (left : first.merge? second = .ok front) (all : front.merge? third = .ok whole)
    (right : second.merge? third = .ok back) : first.merge? back = .ok whole := by
  rw [merge?_eq_ok_iff] at left all right ⊢
  exact takesJoined_push?.foldlM_merged right left all

/-! ## Everything that was submitted -/

/-- A mutation that was put together from submitted steps, in their order, by any number of merges
that all fit. -/
inductive Composed : List ProgressStep → ProgressMutation → Prop where
  | delta (change : ProgressDelta) : Composed [.delta change] (delta change)
  | mutator (update : JobProgress → Except Overflow JobProgress) :
      Composed [.mutate update] (mutator update)
  | create (total : Option Int64) : Composed [.create total] (create total)
  | merge {front back : List ProgressStep} {earlier later merged : ProgressMutation}
      (first : Composed front earlier) (second : Composed back later)
      (fits : earlier.merge? later = .ok merged) : Composed (front ++ back) merged

/-- A mutation has steps, and no two deltas of it meet. -/
structure Canonical (mutation : ProgressMutation) : Prop where
  some : mutation.steps ≠ []
  chain : mutation.steps.IsChain ProgressStep.Parted

section Merge

variable {earlier later merged : ProgressMutation}

/-- A merge keeps deltas apart. -/
theorem Canonical.merge? (canonical : earlier.Canonical)
    (fits : earlier.merge? later = .ok merged) : merged.Canonical := by
  obtain ⟨steps⟩ := later
  rw [merge?_eq_ok_iff] at fits
  dsimp only at fits
  induction steps using List.reverseRecOn generalizing merged with
  | nil =>
      obtain same := Except.ok.inj fits
      exact ⟨same ▸ canonical.some, same ▸ canonical.chain⟩
  | append_singleton steps step ih =>
      obtain ⟨joined, counts, pushed⟩ := foldlM_concat.mp fits
      have before : (⟨joined⟩ : ProgressMutation).Canonical := ih counts
      have made := Pushed.of_push? pushed
      exact ⟨made.ne_nil, made.isChain before.chain⟩

/-- A merged mutation holds only deltas if both of its parts do. -/
theorem isDelta_merge? (fits : earlier.merge? later = .ok merged) :
    (∀ step ∈ merged.steps, step.IsDelta) ↔
      (∀ step ∈ earlier.steps, step.IsDelta) ∧ ∀ step ∈ later.steps, step.IsDelta := by
  obtain ⟨steps⟩ := later
  rw [merge?_eq_ok_iff] at fits
  dsimp only at fits ⊢
  induction steps using List.reverseRecOn generalizing merged with
  | nil =>
      obtain same := Except.ok.inj fits
      simp [← same]
  | append_singleton steps step ih =>
      obtain ⟨joined, counts, pushed⟩ := foldlM_concat.mp fits
      have before : (∀ other ∈ joined, other.IsDelta) ↔ _ := @ih ⟨joined⟩ counts
      rw [(Pushed.of_push? pushed).isDelta_iff, before, List.forall_mem_append,
        List.forall_mem_singleton, and_assoc]

end Merge

namespace Composed

variable {submitted : List ProgressStep} {mutation : ProgressMutation}

theorem canonical (made : Composed submitted mutation) : mutation.Canonical := by
  induction made with
  | delta | mutator | create => exact ⟨List.cons_ne_nil _ _, List.isChain_singleton _⟩
  | merge _ _ fits first _ => exact first.merge? fits

theorem isDelta_iff (made : Composed submitted mutation) :
    (∀ step ∈ mutation.steps, step.IsDelta) ↔ ∀ step ∈ submitted, step.IsDelta := by
  induction made with
  | delta | mutator | create => exact .rfl
  | merge _ _ fits first second =>
      rw [isDelta_merge? fits, first, second, List.forall_mem_append]

/-- Merging neither loses counts nor adds any. -/
theorem sums (made : Composed submitted mutation) :
    mutation.successes = (submitted.map ProgressStep.successes).sum ∧
      mutation.failures = (submitted.map ProgressStep.failures).sum := by
  induction made with
  | delta | mutator | create => exact ⟨rfl, rfl⟩
  | merge _ _ fits first second =>
      have joins := Joins.of_merge? fits
      rw [joins.successes, joins.failures, first.1, first.2, second.1, second.2]
      simp

theorem own (made : Composed submitted mutation) {job : Uuid}
    (all : ∀ step ∈ submitted, step.IsFor job) : mutation.IsFor job := by
  induction made with
  | delta | mutator | create => exact all
  | merge _ _ fits first second =>
      obtain ⟨front, back⟩ := List.forall_mem_append.mp all
      exact (Joins.of_merge? fits).own job (first front) (second back)

end Composed

/-- A mutation in canonical form is one delta if it holds only deltas. -/
theorem Canonical.asDelta_isSome_iff {mutation : ProgressMutation}
    (canonical : mutation.Canonical) :
    mutation.asDelta.isSome = true ↔ ∀ step ∈ mutation.steps, step.IsDelta := by
  obtain ⟨steps⟩ := mutation
  match steps, canonical with
  | [], canonical => exact absurd rfl canonical.some
  | [.delta change], _ => simp [asDelta, ProgressStep.IsDelta]
  | [.mutate _], _ | [.create _], _ => simp [asDelta, ProgressStep.IsDelta]
  | first :: second :: rest, canonical =>
      have parted := (List.isChain_cons_cons.mp canonical.chain).1
      refine ⟨by simp [asDelta], fun all => absurd ⟨all first ?_, all second ?_⟩ parted⟩ <;> simp

/-- The delta that is a whole mutation is the sum of all that was submitted. -/
theorem Composed.of_asDelta {submitted : List ProgressStep} {mutation : ProgressMutation}
    {change : ProgressDelta} (made : Composed submitted mutation)
    (lone : mutation.asDelta = some change) :
    change.succeeded.toInt = (submitted.map ProgressStep.successes).sum ∧
      change.failed.toInt = (submitted.map ProgressStep.failures).sum ∧
      ∀ job, (∀ step ∈ submitted, step.IsFor job) → change.job = job := by
  obtain rfl := eq_of_asDelta lone
  obtain ⟨successes, failures⟩ := made.sums
  refine ⟨?_, ?_, fun job all => made.own all (.delta change) (List.mem_singleton_self _)⟩
  · rw [← successes]
    simp [ProgressMutation.successes, ProgressMutation.delta, ProgressStep.successes]
  · rw [← failures]
    simp [ProgressMutation.failures, ProgressMutation.delta, ProgressStep.failures]

/-- Where no count overflows, a merged mutation does what its parts do one after the other, and
merges can be grouped at will.  However a mutation was put together, it is not empty and no two
deltas of it meet, and it is one delta exactly if nothing but deltas was submitted, which is then
their sum. -/
theorem merge_keeps_meaning {first second third joined rest whole : ProgressMutation}
    (early : first.merge? second = .ok joined) (late : second.merge? third = .ok rest)
    (all : joined.merge? third = .ok whole) :
    first.merge second = joined ∧
    (∀ before between after, first.apply before = .ok between →
      second.apply between = .ok after → joined.apply before = .ok after) ∧
    first.merge? rest = .ok whole ∧
    ∀ submitted mutation, Composed submitted mutation →
      mutation.Canonical ∧
      (mutation.asDelta.isSome = true ↔ ∀ step ∈ submitted, step.IsDelta) ∧
      ∀ change, mutation.asDelta = some change →
        change.succeeded.toInt = (submitted.map ProgressStep.successes).sum ∧
          change.failed.toInt = (submitted.map ProgressStep.failures).sum ∧
          ∀ job, (∀ step ∈ submitted, step.IsFor job) → change.job = job := by
  refine ⟨merge_of_merge? early, fun _ _ _ => apply_of_merge? early,
    merge?_regroup early all late, ?_⟩
  intro submitted mutation made
  exact ⟨made.canonical, made.canonical.asDelta_isSome_iff.trans made.isDelta_iff,
    fun change lone => made.of_asDelta lone⟩

/-- A success, and an update that forgets all successes. -/
def wiped : ProgressMutation :=
  ⟨[.delta (.success .zero), .mutate (ProgressUpdate.resetSucceeded.apply ·)]⟩

theorem wiped_keeps_meaning :
    ∃ joined rest whole,
      wiped.merge? (.delta (.success .zero)) = .ok joined ∧
      (delta (.success .zero)).merge? (.delta (.failure .zero)) = .ok rest ∧
      joined.merge? (.delta (.failure .zero)) = .ok whole ∧
      wiped.merge? rest = .ok whole ∧
      joined.apply ⟨.zero, none, 5, 0⟩ = .ok ⟨.zero, none, 1, 0⟩ ∧
      (rest.asDelta.isSome = true ↔
        ∀ step ∈ [ProgressStep.delta (.success .zero), .delta (.failure .zero)], step.IsDelta) := by
  refine ⟨_, _, _, rfl, rfl, rfl, ?_⟩
  have early : wiped.merge? (.delta (.success .zero)) = .ok _ := rfl
  have late : (delta (.success .zero)).merge? (.delta (.failure .zero)) = .ok _ := rfl
  obtain ⟨_, meaning, grouped, made⟩ := merge_keeps_meaning early late rfl
  exact ⟨grouped, meaning ⟨.zero, none, 5, 0⟩ ⟨.zero, none, 0, 0⟩ _ rfl rfl,
    (made _ _ (.merge (.delta _) (.delta _) rfl)).2.1⟩

end ProgressMutation
end Intake
