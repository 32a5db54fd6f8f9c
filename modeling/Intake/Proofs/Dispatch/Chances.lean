import Intake.Proofs.Dispatch.Rejection
import Intake.Proofs.Dispatch.Shutdown

/-!
# Chances before the exit

A mutation that was accepted waits until a flush of its key begins, or until what waits is discarded
because the flush in front of it ended badly.  Whichever comes first decides: a flush that began is
called before the loop exits, and a mutation that was discarded is never called.  For a key that was
not rejected this leaves one way to miss every call: to wait behind a flush that is abandoned.
-/

namespace Intake
namespace Dispatch

/-! ## What ends a wait -/

section Ends

variable {Key Mutation : Type}

/-- Whether what waits does so no longer: its flush begins, or it is discarded. -/
def Event.ends : Event Key Mutation → Bool
  | started .. | rejected .. | abandoned .. => true
  | _ => false

/-- A mutation that is accepted, followed by what is told, is handed over by a call: the flush that
begins first hands over the merge of a block that it is in. -/
inductive Called [Mergeable Mutation] (key : Key) (past : List (Event Key Mutation))
    (mutation : Mutation) : List (Event Key Mutation) → Prop
  | intro {block : Block Mutation} {earlier : List Mutation}
      {before between after : List (Event Key Mutation)}
      (waits : ∀ event ∈ before, event.ends = false)
      (flies : ∀ event ∈ between, event.ends = false)
      (front : earlier <:+ past.filterMap Event.taken?)
      (mutations : block.mutations = earlier ++ mutation :: before.filterMap Event.taken?) :
      Called key past mutation
        (before ++ .started key block.merged :: (between ++ .called key block.merged :: after))

/-- What waits is discarded because the flush in front of it is abandoned. -/
inductive Forsaken (key : Key) : List (Event Key Mutation) → Prop
  | intro {before after : List (Event Key Mutation)} {failure : FlushFailure}
      (waits : ∀ event ∈ before, event.ends = false) :
      Forsaken key (before ++ .abandoned key failure :: after)

theorem Event.eq_accepted {event : Event Key Mutation} {mutation : Mutation}
    (taken : event.taken? = some mutation) : ∃ key joined, event = .accepted key mutation joined := by
  unfold Event.taken? at taken
  split at taken
  · obtain rfl := Option.some.inj taken
    exact ⟨_, _, rfl⟩
  · simp at taken

theorem Event.of_ends {key : Key} {event : Event Key Mutation} (about : event.key? = some key)
    (ends : event.ends = true) :
    (∃ mutation, event = .started key mutation) ∨ (∃ failure, event = .rejected key failure) ∨
      ∃ failure, event = .abandoned key failure := by
  unfold Event.ends at ends
  split at ends
  · obtain rfl := Option.some.inj about
    exact .inl ⟨_, rfl⟩
  · obtain rfl := Option.some.inj about
    exact .inr (.inl ⟨_, rfl⟩)
  · obtain rfl := Option.some.inj about
    exact .inr (.inr ⟨_, rfl⟩)
  · simp at ends

/-- An event of a history that goes on happened before, or it happens now. -/
theorem earlier_or_now {past now front rest : List (Event Key Mutation)}
    {event : Event Key Mutation} (split : past ++ now = front ++ event :: rest) :
    (∃ old, past = front ++ event :: old ∧ rest = old ++ now) ∨
      ∃ new, front = past ++ new ∧ now = new ++ event :: rest := by
  rcases List.append_eq_append_iff.mp split with new | ⟨old, rfl, same⟩
  · exact .inr new
  · cases old with
    | nil => exact .inr ⟨[], by simp, same.symm⟩
    | cons first old =>
        obtain ⟨rfl, rfl⟩ := List.cons.inj same
        exact .inl ⟨old, rfl, rfl⟩

theorem find?_ends {before after : List (Event Key Mutation)} {event : Event Key Mutation}
    (waits : ∀ event ∈ before, event.ends = false) (ends : event.ends = true) :
    (before ++ event :: after).find? Event.ends = some event :=
  List.find?_eq_some_iff_append.mpr ⟨ends, before, after, rfl, by simpa using waits⟩

/-- A wait goes on, or there is a first event that ends it. -/
theorem waits_or_ends (rest : List (Event Key Mutation)) :
    (∀ event ∈ rest, event.ends = false) ∨ ∃ before event after,
      rest = before ++ event :: after ∧ event.ends = true ∧
        ∀ event ∈ before, event.ends = false := by
  cases found : rest.find? Event.ends with
  | none => exact .inl (by simpa using found)
  | some event =>
      obtain ⟨ends, before, after, rfl, waits⟩ := List.find?_eq_some_iff_append.mp found
      exact .inr ⟨before, event, after, rfl, ends, by simpa using waits⟩

variable {key : Key} {past rest : List (Event Key Mutation)} {mutation : Mutation}

theorem Called.ends [Mergeable Mutation] (called : Called key past mutation rest) :
    ∃ merged, rest.find? Event.ends = some (.started key merged) := by
  obtain ⟨waits⟩ := called
  exact ⟨_, find?_ends waits rfl⟩

theorem Forsaken.ends (forsaken : Forsaken key rest) :
    ∃ failure, rest.find? Event.ends = some (.abandoned key failure) := by
  obtain ⟨waits⟩ := forsaken
  exact ⟨_, find?_ends waits rfl⟩

theorem not_called_of_forsaken [Mergeable Mutation] (forsaken : Forsaken key rest) :
    ¬Called key past mutation rest := by
  intro called
  obtain ⟨failure, abandoned⟩ := forsaken.ends
  obtain ⟨merged, started⟩ := called.ends
  simp [abandoned] at started

end Ends

/-! ## What waits -/

namespace Batches

variable {Key Mutation : Type}

/-- What waits after a history. -/
def waiting (past : List (Event Key Mutation)) : Option (Block Mutation) :=
  (of (past.filterMap Event.deed?)).queued

theorem waiting_concat (past : List (Event Key Mutation)) (event : Event Key Mutation) :
    waiting (past ++ [event]) =
      if event.ends then none
      else event.taken?.elim (waiting past) fun mutation =>
        some ((waiting past).elim ⟨mutation, []⟩ (·.push mutation)) := by
  rw [waiting, List.filterMap_append, of_append]
  match event with
  | .answered _ _ .ok | .answered _ _ .rejected | .answered _ _ .retry => rfl
  | .accepted .. | .refused .. | .ignored .. | .pending .. | .started .. | .requeued ..
  | .called .. | .retrying .. | .rejected .. | .abandoned .. | .stray .. | .returned .. => rfl

theorem waiting_of_ends {past : List (Event Key Mutation)} {event : Event Key Mutation}
    (ends : event.ends = true) : waiting (past ++ [event]) = none := by
  rw [waiting_concat, if_pos ends]

theorem waiting_of_silent {past : List (Event Key Mutation)} {event : Event Key Mutation}
    (waits : event.ends = false) (silent : event.taken? = none) :
    waiting (past ++ [event]) = waiting past := by
  rw [waiting_concat, waits, silent]
  rfl

theorem mutations_waiting_of_taken (past : List (Event Key Mutation))
    {event : Event Key Mutation} {mutation : Mutation} (taken : event.taken? = some mutation) :
    ∃ block, waiting (past ++ [event]) = some block ∧
      block.mutations = (waiting past).toList.flatMap Block.mutations ++ [mutation] := by
  have waits : event.ends = false := by
    obtain ⟨key, joined, rfl⟩ := Event.eq_accepted taken
    rfl
  rw [waiting_concat, waits, taken]
  cases waiting past with
  | none => exact ⟨⟨mutation, []⟩, rfl, rfl⟩
  | some block => exact ⟨block.push mutation, rfl, by simp⟩

/-- What waits are the mutations that were accepted last. -/
theorem waiting_suffix (past : List (Event Key Mutation)) :
    (waiting past).toList.flatMap Block.mutations <:+ past.filterMap Event.taken? := by
  induction past using List.reverseRecOn with
  | nil => exact List.nil_suffix
  | append_singleton past event ih =>
      rw [List.filterMap_append]
      cases taken : event.taken? with
      | some mutation =>
          obtain ⟨block, waits, mutations⟩ := mutations_waiting_of_taken past taken
          obtain ⟨front, same⟩ := ih
          refine ⟨front, ?_⟩
          rw [waits, Option.toList_some, List.flatMap_singleton, mutations, ← List.append_assoc,
            same, List.filterMap_cons_some taken, List.filterMap_nil]
      | none =>
          rw [List.filterMap_cons_none taken, List.filterMap_nil, List.append_nil]
          cases ends : event.ends with
          | true =>
              rw [waiting_of_ends ends]
              exact List.nil_suffix
          | false => rwa [waiting_of_silent ends taken]

/-- A mutation waits from when it was accepted, with those that were accepted before and after it. -/
theorem waiting_of_waits (past : List (Event Key Mutation)) (key : Key) (mutation : Mutation)
    (joined : Bool) {before : List (Event Key Mutation)} (waits : ∀ event ∈ before, event.ends = false) :
    ∃ block earlier, waiting (past ++ .accepted key mutation joined :: before) = some block ∧
      earlier <:+ past.filterMap Event.taken? ∧
        block.mutations = earlier ++ mutation :: before.filterMap Event.taken? := by
  induction before using List.reverseRecOn with
  | nil =>
      obtain ⟨block, held, mutations⟩ :=
        mutations_waiting_of_taken past
          (show Event.taken? (.accepted key mutation joined) = some mutation from rfl)
      exact ⟨block, _, held, waiting_suffix past, mutations⟩
  | append_singleton before event ih =>
      have among : ∀ event ∈ before, event.ends = false :=
        fun event member => waits event (List.mem_append_left _ member)
      have last : event.ends = false := waits event (by simp)
      obtain ⟨block, earlier, held, front, mutations⟩ := ih among
      rw [← List.cons_append, ← List.append_assoc]
      cases taken : event.taken? with
      | none =>
          refine ⟨block, earlier, ?_, front, ?_⟩
          · rw [waiting_of_silent last taken, held]
          · rw [List.filterMap_append, List.filterMap_cons_none taken, mutations]
            simp
      | some later =>
          obtain ⟨grown, longer, all⟩ :=
            mutations_waiting_of_taken (past ++ .accepted key mutation joined :: before) taken
          refine ⟨grown, earlier, longer, front, ?_⟩
          rw [all, held, List.filterMap_append, List.filterMap_cons_some taken]
          simp [mutations]

/-- What waits was accepted, and has waited since. -/
theorem accepted_of_waiting {past : List (Event Key Mutation)} {block : Block Mutation}
    (waits : waiting past = some block) :
    ∃ front key mutation joined before, past = front ++ .accepted key mutation joined :: before ∧
      ∀ event ∈ before, event.ends = false := by
  induction past using List.reverseRecOn with
  | nil => simp [waiting, of, empty] at waits
  | append_singleton past event ih =>
      cases ends : event.ends with
      | true => simp [waiting_of_ends ends] at waits
      | false =>
          cases taken : event.taken? with
          | none =>
              rw [waiting_of_silent ends taken] at waits
              obtain ⟨front, key, mutation, joined, before, rfl, since⟩ := ih waits
              refine ⟨front, key, mutation, joined, before ++ [event], by simp, ?_⟩
              intro other member
              rcases List.mem_append.mp member with among | last
              · exact since other among
              · rwa [List.mem_singleton.mp last]
          | some mutation =>
              obtain ⟨key, joined, rfl⟩ := Event.eq_accepted taken
              exact ⟨past, key, mutation, joined, [], rfl, by simp⟩

end Batches

/-! ## Flushes are called -/

/-- A flush that began, followed by what is told, is called. -/
def Calls {Key Mutation : Type} (key : Key) (mutation : Mutation)
    (rest : List (Event Key Mutation)) : Prop :=
  ∃ between after, rest = between ++ .called key mutation :: after ∧
    ∀ event ∈ between, event.ends = false

namespace Standing.Step

variable {Key Mutation : Type} [Mergeable Mutation] {key : Key} {standing later : Standing Mutation}
  {mutation : Mutation} {now : List (Event Key Mutation)}

theorem of_started (taken : Step key standing later now) (started : .started key mutation ∈ now) :
    standing = .waiting mutation ∧ later = .flushing mutation .due none ∧
      now = [.started key mutation] := by
  cases taken with
  | start =>
      obtain rfl : mutation = _ := by simpa using started
      exact ⟨rfl, rfl, rfl⟩
  | _ => simp at started

theorem of_abandoned {failure : FlushFailure} (taken : Step key standing later now)
    (abandoned : .abandoned key failure ∈ now) :
    (∃ mutation next, standing = .flushing mutation (.over (.abandoned failure)) next) ∧
      now = [.abandoned key failure] := by
  cases taken with
  | forsake =>
      obtain rfl : failure = _ := by simpa using abandoned
      exact ⟨⟨_, _, rfl⟩, rfl⟩
  | _ => simp at abandoned

/-- The next thing that happens to a flush that begins is its call. -/
theorem of_due {next : Option Mutation} (taken : Step key (.flushing mutation .due next) later now) :
    ((∃ next, later = .flushing mutation .due next) ∧ ∀ event ∈ now, event.ends = false) ∨
      now = [.called key mutation] := by
  cases taken with
  | call => exact .inr rfl
  | rest | refuse | follow | followJoin => exact .inl ⟨⟨_, rfl⟩, by simp [Event.ends]⟩

end Standing.Step

/-- Every flush that was started handed over what waited, and was called or is about to be. -/
structure Heard {Key Mutation : Type} [Mergeable Mutation] (key : Key) (standing : Standing Mutation)
    (past : List (Event Key Mutation)) : Prop where
  tells : (Batches.of (past.filterMap Event.deed?)).Tells standing past
  starts : ∀ front mutation rest, past = front ++ .started key mutation :: rest →
    (∃ block, Batches.waiting front = some block ∧ block.merged = mutation) ∧
      (Calls key mutation rest ∨
        (∃ next, standing = .flushing mutation .due next) ∧ ∀ event ∈ rest, event.ends = false)

theorem Heard.queued {Key Mutation : Type} [Mergeable Mutation] {key : Key}
    {standing : Standing Mutation} {past : List (Event Key Mutation)}
    (heard : Heard key standing past) :
    standing.queued? = (Batches.waiting past).map Block.merged :=
  heard.tells.queued

theorem Heard.step {Key Mutation : Type} [Mergeable Mutation] {key : Key}
    {standing later : Standing Mutation} {past now : List (Event Key Mutation)}
    (heard : Heard key standing past) (taken : Standing.Step key standing later now) :
    Heard key later (past ++ now) where
  tells := by
    rw [List.filterMap_append, Batches.of_append]
    exact heard.tells.step taken
  starts := by
    intro front mutation rest split
    rcases earlier_or_now split with ⟨old, rfl, rfl⟩ | ⟨new, rfl, begins⟩
    · obtain ⟨held, called | ⟨⟨next, rfl⟩, flies⟩⟩ := heard.starts front mutation old rfl
      · obtain ⟨between, after, rfl, flies⟩ := called
        exact ⟨held, .inl ⟨between, after ++ now, by simp, flies⟩⟩
      · refine ⟨held, ?_⟩
        rcases taken.of_due with ⟨due, quiet⟩ | rfl
        · refine .inr ⟨due, fun event member => ?_⟩
          exact (List.mem_append.mp member).elim (flies event) (quiet event)
        · exact .inl ⟨old, [], rfl, flies⟩
    · have told : .started key mutation ∈ now := by simp [begins]
      obtain ⟨rfl, rfl, rfl⟩ := taken.of_started told
      cases new with
      | cons first new => simp at begins
      | nil =>
          obtain rfl : rest = [] := by simpa using begins
          rw [List.append_nil]
          exact ⟨Option.map_eq_some_iff.mp heard.queued.symm, .inr ⟨⟨none, rfl⟩, by simp⟩⟩

namespace Drain

variable {Key Mutation : Type} [DecidableEq Key] [Mergeable Mutation]
  {actions : List (Action Key Mutation)} {drain : Drain Key Mutation}
  {events : List (Event Key Mutation)}

theorem heard_of_run {limit : Nat} (run : Drain.initial.run? limit actions = some (drain, events))
    (key : Key) : Heard key (drain.standing key) (history key events) :=
  standing_induction (motive := Heard key) ⟨.initial, by simp⟩ (fun _ _ _ _ => Heard.step) run

omit [Mergeable Mutation] in
theorem abandoned_mem_collect {drain : Drain Key Mutation} {key other : Key} {verdict : Verdict}
    {failure : FlushFailure} (member : .abandoned other failure ∈ (drain.collect key verdict).2) :
    other = key := by
  have given := mem_collect member
  simp only [reduceCtorEq, exists_false, false_or, and_false, Event.abandoned.injEq] at given
  obtain ⟨_, _, rfl, _⟩ := given
  rfl

theorem Step.of_abandoned {limit : Nat} {next : Drain Key Mutation} {action : Action Key Mutation}
    {now : List (Event Key Mutation)} (taken : Step limit drain action next now) {key : Key}
    {failure : FlushFailure} (abandoned : .abandoned key failure ∈ now) :
    action = .collect key := by
  cases taken with
  | collect parked held released =>
      obtain ⟨rfl, rfl⟩ := Prod.ext_iff.mp released
      rw [abandoned_mem_collect abandoned]
  | _ => simp at abandoned

omit [Mergeable Mutation] in
theorem phase_of_standing {key : Key} {flush : Flush Key Mutation} {mutation : Mutation}
    {phase : Phase} {next : Option Mutation}
    (standing : drain.standing key = .flushing mutation phase next)
    (held : drain.flush? key = some flush) : flush.phase = phase := by
  unfold Drain.standing at standing
  split at standing
  · simp at standing
  · rename_i flying
    obtain rfl := Option.some.inj (held.symm.trans flying)
    exact (Standing.flushing.inj standing).2.1
  · simp at standing

/-- The loop takes note of an abandoned flush of a key while a mutation waits behind it. -/
def Discards (limit : Nat) (key : Key) (actions : List (Action Key Mutation)) : Prop :=
  ∃ front back, actions = front ++ .collect key :: back ∧ ∃ middle past,
    Drain.initial.run? limit front = some (middle, past) ∧ ∃ mutation failure next,
      middle.standing key = .flushing mutation (.over (.abandoned failure)) (some next)

/-- Every event of a key is reported by one action, between what was told before and what is told
later. -/
theorem exists_action {limit : Nat}
    (run : Drain.initial.run? limit actions = some (drain, events)) {key : Key}
    {past rest : List (Event Key Mutation)} {event : Event Key Mutation}
    (reported : history key events = past ++ event :: rest) :
    ∃ front action back, actions = front ++ action :: back ∧ ∃ middle told,
      Drain.initial.run? limit front = some (middle, told) ∧ ∃ next now,
        Step limit middle action next now ∧ ∃ later,
          next.run? limit back = some (drain, later) ∧ ∃ new more,
            history key now = new ++ event :: more ∧ past = history key told ++ new ∧
              rest = more ++ history key later := by
  refine run_induction (motive := fun actions drain events => ∀ rest,
    history key events = past ++ event :: rest →
      ∃ front action back, actions = front ++ action :: back ∧ ∃ middle told,
        Drain.initial.run? limit front = some (middle, told) ∧ ∃ next now,
          Step limit middle action next now ∧ ∃ later,
            next.run? limit back = some (drain, later) ∧ ∃ new more,
              history key now = new ++ event :: more ∧ past = history key told ++ new ∧
                rest = more ++ history key later) ?_ ?_ run rest reported
  · intro rest none
    simp [history] at none
  · intro actions drain events action next now run earlier taken rest reported
    rw [history_append] at reported
    rcases earlier_or_now reported with ⟨old, before, rfl⟩ | ⟨new, rfl, here⟩
    · obtain ⟨front, other, back, rfl, middle, told, first, after, here, step, later, onward, new,
        more, split, same, rfl⟩ := earlier old before
      have last := runOf_singleton.mpr taken.step?_eq
      exact ⟨front, other, back ++ [action], by simp, middle, told, first, after, here, step,
        later ++ now, runOf_append.mpr ⟨_, _, _, onward, last, rfl⟩, new, more, split, same,
        by rw [history_append, List.append_assoc]⟩
    · exact ⟨actions, action, [], rfl, drain, events, run, next, now, taken, [], rfl, new, rest,
        here, rfl, (List.append_nil _).symm⟩

/-- Every abandonment that is reported is that of a flush that the loop took note of. -/
theorem exists_collect {limit : Nat}
    (run : Drain.initial.run? limit actions = some (drain, events)) {key : Key}
    {past rest : List (Event Key Mutation)} {failure : FlushFailure}
    (reported : history key events = past ++ .abandoned key failure :: rest) :
    ∃ front back, actions = front ++ .collect key :: back ∧ ∃ middle told,
      Drain.initial.run? limit front = some (middle, told) ∧ history key told = past ∧
        ∃ mutation next,
          middle.standing key = .flushing mutation (.over (.abandoned failure)) next := by
  obtain ⟨front, action, back, rfl, middle, told, before, next, now, taken, -, -, new, more, here,
    rfl, -⟩ := exists_action run reported
  have among : .abandoned key failure ∈ history key now := by simp [here]
  obtain rfl := taken.of_abandoned (mem_history.mp among).1
  obtain ⟨standing, alone⟩ :=
    ((consistent_of_run before).standing_step taken key).of_abandoned among
  obtain rfl : new = [] := by
    rw [alone] at here
    cases new with
    | nil => rfl
    | cons first new => simp at here
  exact ⟨front, back, rfl, middle, told, before, (List.append_nil _).symm, standing⟩

/-- When the loop takes note of an abandoned flush, that is all that happens to its key. -/
theorem history_of_collect {limit : Nat} {next : Drain Key Mutation}
    {now : List (Event Key Mutation)} (consistent : drain.Consistent) {key : Key}
    (taken : Step limit drain (.collect key) next now) {mutation : Mutation}
    {failure : FlushFailure} {behind : Option Mutation}
    (standing : drain.standing key = .flushing mutation (.over (.abandoned failure)) behind) :
    history key now = [.abandoned key failure] := by
  obtain ⟨_, _, verdict, held, released⟩ := taken.of_collecting
  obtain rfl : verdict = .abandoned failure := Phase.over.inj (phase_of_standing standing held)
  obtain ⟨rfl, rfl⟩ := Prod.ext_iff.mp released
  have told : .abandoned key failure ∈ history key (drain.collect key (.abandoned failure)).2 :=
    mem_history.mpr ⟨by simp [Drain.collect, verdictEvents], rfl⟩
  exact ((consistent.standing_step taken key).of_abandoned told).2

/-- What waits behind a flush that the loop discards was accepted, and is forsaken. -/
theorem exists_forsaken {limit : Nat}
    (run : Drain.initial.run? limit actions = some (drain, events)) {key : Key}
    (discards : Discards limit key actions) :
    ∃ past mutation joined rest,
      history key events = past ++ .accepted key mutation joined :: rest ∧ Forsaken key rest := by
  obtain ⟨front, back, rfl, middle, told, before, mutation, failure, next, standing⟩ := discards
  obtain ⟨reached, _, _, first, onward, rfl⟩ := runOf_append.mp run
  obtain ⟨rfl, rfl⟩ := Prod.mk.inj (Option.some.inj (before.symm.trans first))
  obtain ⟨after, now, later, taken, rest, rfl⟩ := runOf_cons.mp onward
  have discarded := history_of_collect (consistent_of_run before) (.of_step? taken) standing
  have queued := (heard_of_run before key).queued
  rw [standing, eq_comm, Standing.queued?, Option.map_eq_some_iff] at queued
  obtain ⟨block, waiting, rfl⟩ := queued
  obtain ⟨past, owner, other, joined, since, split, waits⟩ := Batches.accepted_of_waiting waiting
  have own : .accepted owner other joined ∈ history key told := by simp [split]
  obtain rfl : owner = key := Option.some.inj (mem_history.mp own).2
  refine ⟨past, other, joined, since ++ .abandoned owner failure :: history owner later, ?_,
    ⟨waits⟩⟩
  rw [history_append, history_append, discarded, split]
  simp

/-- An abandonment that ends a wait is one that the loop took note of while the mutation waited. -/
theorem discards_of_forsaken {limit : Nat}
    (run : Drain.initial.run? limit actions = some (drain, events)) {key : Key}
    {past rest : List (Event Key Mutation)} {mutation : Mutation} {joined : Bool}
    (split : history key events = past ++ .accepted key mutation joined :: rest)
    (forsaken : Forsaken key rest) : Discards limit key actions := by
  obtain @⟨before, after, failure, waits⟩ := forsaken
  have whole : history key events =
      (past ++ .accepted key mutation joined :: before) ++ .abandoned key failure :: after := by
    rw [split, List.append_assoc, List.cons_append]
  obtain ⟨front, back, rfl, middle, told, first, same, flying, next, standing⟩ :=
    exists_collect run whole
  obtain ⟨block, -, held, -⟩ := Batches.waiting_of_waits past key mutation joined waits
  have queued := (heard_of_run first key).queued
  rw [standing, same, held] at queued
  obtain rfl : next = some block.merged := queued
  exact ⟨front, back, rfl, middle, told, first, flying, failure, _, standing⟩

/-- Once nothing of a key is left, what was accepted of it was called or forsaken, as long as the key
was not rejected. -/
theorem called_or_forsaken {limit : Nat}
    (run : Drain.initial.run? limit actions = some (drain, events)) {key : Key}
    (idle : drain.standing key = .idle) (kept : ∀ failure, .rejected key failure ∉ events)
    {past rest : List (Event Key Mutation)} {mutation : Mutation} {joined : Bool}
    (split : history key events = past ++ .accepted key mutation joined :: rest) :
    Called key past mutation rest ∨ Forsaken key rest := by
  have heard := heard_of_run run key
  rcases waits_or_ends rest with waits | ⟨before, event, after, rfl, ends, waits⟩
  · -- What still waits would be in the table.
    obtain ⟨block, -, held, -⟩ := Batches.waiting_of_waits past key mutation joined waits
    have queued := heard.queued
    rw [idle, split, held] at queued
    simp [Standing.queued?] at queued
  · have member : event ∈ history key events := by simp [split]
    obtain ⟨reported, about⟩ := mem_history.mp member
    rcases Event.of_ends about ends with ⟨merged, rfl⟩ | ⟨failure, rfl⟩ | ⟨failure, rfl⟩
    · obtain ⟨block, earlier, held, front, mutations⟩ :=
        Batches.waiting_of_waits past key mutation joined waits
      have whole : history key events =
          (past ++ .accepted key mutation joined :: before) ++ .started key merged :: after := by
        rw [split, List.append_assoc, List.cons_append]
      obtain ⟨⟨flying, same, rfl⟩, called | ⟨⟨next, due⟩, -⟩⟩ := heard.starts _ _ _ whole
      · obtain rfl := Option.some.inj (held.symm.trans same)
        obtain ⟨between, later, rfl, flies⟩ := called
        exact .inl ⟨waits, flies, front, mutations⟩
      · simp [idle] at due
    · exact absurd reported (kept failure)
    · exact .inr ⟨waits⟩

/-- Of a key that was not rejected each mutation that was accepted is handed over by a call before
the loop has exited, unless the flush in front of it was abandoned.  So all of them are exactly if
the loop discards none with an abandoned flush. -/
theorem called_iff_not_forsaken (configured : Nat)
    (run : Drain.initial.run? (places configured) actions = some (drain, events))
    (exited : drain.stage = .exited) {key : Key} (kept : ∀ failure, .rejected key failure ∉ events) :
    (∀ past mutation joined rest,
      history key events = past ++ .accepted key mutation joined :: rest →
        (Called key past mutation rest ↔ ¬Forsaken key rest)) ∧
    ((∀ past mutation joined rest,
      history key events = past ++ .accepted key mutation joined :: rest →
        Called key past mutation rest) ↔ ¬Discards (places configured) key actions) := by
  have idle : drain.standing key = .idle :=
    standing_of_isIdle (drained_of_exited (places_pos configured) run exited).idle key
  refine ⟨?_, ?_, ?_⟩
  · intro past mutation joined rest split
    exact ⟨fun called forsaken => not_called_of_forsaken forsaken called,
      (called_or_forsaken run idle kept split).resolve_right⟩
  · intro all discards
    obtain ⟨past, mutation, joined, rest, split, forsaken⟩ := exists_forsaken run discards
    exact not_called_of_forsaken forsaken (all past mutation joined rest split)
  · intro spared past mutation joined rest split
    exact (called_or_forsaken run idle kept split).resolve_right
      fun forsaken => spared (discards_of_forsaken run split forsaken)

/-- Shutdown finds a call under way with a mutation behind it, and the call succeeds. -/
def callUnderWay : List (Action Nat (List Nat)) :=
  [.submit 1 [10], .start, .park, .call 1, .submit 1 [11], .cancel, .notice, .park,
    .answer 1 (.ok ()), .collect 1, .start, .park, .call 1, .answer 1 (.ok ()), .collect 1, .exit]

theorem callUnderWay_calls_all :
    ∃ drain events, Drain.initial.run? (places 0) callUnderWay = some (drain, events) ∧
      drain.stage = .exited ∧
      (∀ past mutation joined rest,
        history 1 events = past ++ .accepted 1 mutation joined :: rest →
          Called 1 past mutation rest) ∧
      ¬Discards (places 0) 1 callUnderWay := by
  have outcome : ((Drain.initial.run? (places 0) callUnderWay).map fun outcome =>
      (outcome.1.stage, (history 1 outcome.2).filterMap Event.loss?)) = some (.exited, []) := by
    decide +kernel
  obtain ⟨⟨drain, events⟩, run, found⟩ := Option.map_eq_some_iff.mp outcome
  obtain ⟨exited, lossless⟩ := Prod.mk.inj found
  have safe : ∀ verdict, ∀ event ∈ verdictEvents 1 verdict, event ∉ events := by
    intro verdict event told reported
    have lost := mem_losses.mpr ⟨event, told, reported⟩
    simp [lossless] at lost
  have kept : ∀ failure, .rejected 1 failure ∉ events :=
    fun failure => safe (.rejected failure) _ (List.mem_singleton_self _)
  obtain ⟨each, all⟩ := called_iff_not_forsaken 0 run exited kept
  have called : ∀ past mutation joined rest,
      history 1 events = past ++ .accepted 1 mutation joined :: rest →
        Called 1 past mutation rest := by
    intro past mutation joined rest split
    refine (each past mutation joined rest split).mpr ?_
    rintro ⟨-⟩
    rename_i failure
    have told : .abandoned 1 failure ∈ history 1 events := by simp [split]
    exact safe (.abandoned failure) _ (List.mem_singleton_self _) (mem_history.mp told).1
  exact ⟨drain, events, run, exited, called, all.mp called⟩

/-- Shutdown finds a flush waiting for its next call with a mutation behind it. -/
def callBackingOff : List (Action Nat (List Nat)) :=
  [.submit 1 [10], .start, .park, .call 1, .submit 1 [11],
    .answer 1 (.error (.transient "down")), .cancel, .giveUp 1, .collect 1, .park, .notice, .exit]

/-- The mutation behind it was accepted for a key that is never rejected, and no call has it. -/
theorem callBackingOff_forsakes :
    ∃ drain events, Drain.initial.run? (places 0) callBackingOff = some (drain, events) ∧
      drain.stage = .exited ∧ (∀ failure, .rejected 1 failure ∉ events) ∧
      .accepted 1 [11] true ∈ events ∧
      ∀ mutation, .called 1 mutation ∈ events → 11 ∉ mutation := by
  have outcome : ((Drain.initial.run? (places 0) callBackingOff).map fun outcome =>
      (outcome.1.stage, history 1 outcome.2)) =
      some (.exited, [.accepted 1 [10] false, .started 1 [10], .called 1 [10],
        .accepted 1 [11] true, .answered 1 [10] .retry, .retrying 1 (.transient "down"),
        .abandoned 1 (.transient "down")]) := by decide +kernel
  obtain ⟨⟨drain, events⟩, run, found⟩ := Option.map_eq_some_iff.mp outcome
  obtain ⟨exited, told⟩ := Prod.mk.inj found
  have known : ∀ event : Event Nat (List Nat), event.key? = some 1 →
      (event ∈ events ↔ event ∈ history 1 events) :=
    fun event about => by simp [mem_history, about]
  refine ⟨drain, events, run, exited, fun failure => ?_, ?_, fun mutation => ?_⟩
  · rw [known _ rfl, told]
    simp
  · rw [known _ rfl, told]
    simp
  · rw [known _ rfl, told]
    simp +contextual

end Drain

end Dispatch
end Intake
