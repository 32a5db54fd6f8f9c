import Intake.Dispatch.Trial
import Intake.Proofs.Dispatch.Standing

/-!
# The ledger of a key

Batching neither loses, repeats nor reorders mutations.  The mutations that were accepted for a key
form consecutive blocks.  The first ones are settled: each was persisted by one successful call, or
was lost because its flush, or the flush it waited behind, was rejected or abandoned.  One block may
be in flight and one may wait.  Every call of the key, repeated or not, hands over the merge of one
block.  A `Ledger` is such a division, and every run has one.
-/

namespace Intake
namespace Dispatch

/-! ## What a history tells -/

/-- The mutation that was accepted. -/
def Event.taken? {Key Mutation : Type} : Event Key Mutation → Option Mutation
  | accepted _ mutation _ => some mutation
  | _ => none

theorem Event.offered_of_taken {Key Mutation : Type} {past : List (Event Key Mutation)}
    {mutation : Mutation} (taken : mutation ∈ past.filterMap Event.taken?) :
    mutation ∈ past.filterMap Event.offered? := by
  obtain ⟨event, member, accepted⟩ := List.mem_filterMap.mp taken
  refine List.mem_filterMap.mpr ⟨event, member, ?_⟩
  unfold Event.taken? at accepted
  split at accepted
  · exact accepted
  · simp at accepted

theorem Event.taken_eq_offered {Key Mutation : Type} {past : List (Event Key Mutation)}
    (refused : ∀ key mutation, .refused key mutation ∉ past)
    (ignored : ∀ key mutation, .ignored key mutation ∉ past) :
    past.filterMap Event.taken? = past.filterMap Event.offered? := by
  apply List.filterMap_congr
  intro event member
  unfold Event.taken? Event.offered?
  split <;> split <;> simp_all

/-- The mutation that was handed over by a call. -/
def Event.handed? {Key Mutation : Type} : Event Key Mutation → Option Mutation
  | called _ mutation => some mutation
  | _ => none

/-- The mutation of a call that ended, and how it ended. -/
def Event.answer? {Key Mutation : Type} : Event Key Mutation → Option (Mutation × Tally)
  | answered _ mutation tally => some (mutation, tally)
  | _ => none

/-- The mutation of a successful call. -/
def Event.persisted? {Key Mutation : Type} : Event Key Mutation → Option Mutation
  | answered _ mutation .ok => some mutation
  | _ => none

/-- The mutation of an answer that tells of success. -/
def success? {Mutation : Type} : Mutation × Tally → Option Mutation
  | (mutation, .ok) => some mutation
  | _ => none

theorem Event.persisted?_eq {Key Mutation : Type} (event : Event Key Mutation) :
    event.persisted? = event.answer?.bind success? := by
  match event with
  | .answered _ _ .ok | .answered _ _ .rejected | .answered _ _ .retry => rfl
  | .accepted .. | .refused .. | .ignored .. | .pending .. | .started .. | .requeued ..
  | .called .. | .retrying .. | .rejected .. | .abandoned .. | .stray .. | .returned .. => rfl

theorem mem_persisted {Key Mutation : Type} [DecidableEq Key] {key : Key} {mutation : Mutation}
    {events : List (Event Key Mutation)} :
    mutation ∈ (history key events).filterMap Event.persisted? ↔
      .answered key mutation .ok ∈ events := by
  constructor
  · intro member
    obtain ⟨event, among, success⟩ := List.mem_filterMap.mp member
    obtain ⟨reported, about⟩ := mem_history.mp among
    unfold Event.persisted? at success
    split at success
    · obtain rfl := Option.some.inj success
      obtain rfl := Option.some.inj about
      exact reported
    · simp at success
  · intro reported
    exact List.mem_filterMap.mpr ⟨_, mem_history.mpr ⟨reported, rfl⟩, rfl⟩

theorem persisted_eq_nil {Key Mutation : Type} [DecidableEq Key] {key : Key}
    {events : List (Event Key Mutation)}
    (failed : ∀ mutation, .answered key mutation .ok ∉ events) :
    (history key events).filterMap Event.persisted? = [] := by
  refine List.eq_nil_iff_forall_not_mem.mpr fun mutation member => ?_
  exact failed mutation (mem_persisted.mp member)

/-- The flush that was lost. -/
def Event.loss? {Key Mutation : Type} : Event Key Mutation → Option Verdict
  | rejected _ failure => some (.rejected failure)
  | abandoned _ failure => some (.abandoned failure)
  | _ => none

theorem Event.eq_answered {Key Mutation : Type} {event : Event Key Mutation}
    {mutation : Mutation} {tally : Tally} (answer : event.answer? = some (mutation, tally)) :
    ∃ key, event = .answered key mutation tally := by
  unfold answer? at answer
  split at answer
  · obtain ⟨rfl, rfl⟩ := Prod.mk.inj (Option.some.inj answer)
    exact ⟨_, rfl⟩
  · simp at answer

theorem Event.eq_abandoned {Key Mutation : Type} {event : Event Key Mutation}
    {failure : FlushFailure} (lost : event.loss? = some (.abandoned failure)) :
    ∃ key, event = .abandoned key failure := by
  unfold loss? at lost
  split at lost
  · simp at lost
  · obtain rfl := Verdict.abandoned.inj (Option.some.inj lost)
    exact ⟨_, rfl⟩
  · simp at lost

/-- A loss is one that was reported of the key. -/
theorem mem_losses {Key Mutation : Type} [DecidableEq Key] {key : Key} {verdict : Verdict}
    {events : List (Event Key Mutation)} :
    verdict ∈ (history key events).filterMap Event.loss? ↔
      ∃ event ∈ Drain.verdictEvents key verdict, event ∈ events := by
  constructor
  · intro member
    obtain ⟨event, among, lost⟩ := List.mem_filterMap.mp member
    obtain ⟨reported, about⟩ := mem_history.mp among
    unfold Event.loss? at lost
    split at lost
    · obtain rfl := Option.some.inj lost
      obtain rfl := Option.some.inj about
      exact ⟨_, List.mem_singleton_self _, reported⟩
    · obtain rfl := Option.some.inj lost
      obtain rfl := Option.some.inj about
      exact ⟨_, List.mem_singleton_self _, reported⟩
    · simp at lost
  · rintro ⟨event, told, reported⟩
    cases verdict with
    | persisted => simp [Drain.verdictEvents] at told
    | rejected | abandoned =>
        obtain rfl := List.mem_singleton.mp told
        exact List.mem_filterMap.mpr ⟨_, mem_history.mpr ⟨reported, rfl⟩, rfl⟩

/-! ## Blocks -/

/-- Mutations that were merged into one, in the order of their submission. -/
structure Block (Mutation : Type) where
  first : Mutation
  later : List Mutation

namespace Block

variable {Mutation : Type}

/-- The mutations of a block. -/
def mutations (block : Block Mutation) : List Mutation := block.first :: block.later

/-- A block with one more mutation. -/
def push (block : Block Mutation) (mutation : Mutation) : Block Mutation :=
  ⟨block.first, block.later ++ [mutation]⟩

@[simp]
theorem mutations_push (block : Block Mutation) (mutation : Mutation) :
    (block.push mutation).mutations = block.mutations ++ [mutation] := rfl

variable [Mergeable Mutation]

/-- All mutations of a block in one. -/
def merged (block : Block Mutation) : Mutation := block.later.foldl Mergeable.merge block.first

@[simp]
theorem merged_push (block : Block Mutation) (mutation : Mutation) :
    (block.push mutation).merged = Mergeable.merge block.merged mutation := by
  simp [merged, push]

/-- What merging into a mutation keeps and the first mutation of a block has, the block has. -/
theorem merged_of_first (Holds : Mutation → Prop)
    (kept : ∀ earlier later, Holds earlier → Holds (Mergeable.merge earlier later))
    {block : Block Mutation} (first : Holds block.first) : Holds block.merged := by
  obtain ⟨start, later⟩ := block
  unfold merged
  induction later generalizing start with
  | nil => exact first
  | cons mutation later ih => exact ih _ (kept _ _ first)

/-- What merging keeps and all mutations of a block have, the block has. -/
theorem merged_of_all {Holds : Mutation → Prop}
    (closed : ∀ earlier later, Holds earlier → Holds later → Holds (Mergeable.merge earlier later))
    {block : Block Mutation} (all : ∀ mutation ∈ block.mutations, Holds mutation) :
    Holds block.merged := by
  obtain ⟨first, later⟩ := block
  induction later using List.reverseRecOn with
  | nil => exact all first List.mem_cons_self
  | append_singleton later mutation ih =>
      change Holds (Block.push ⟨first, later⟩ mutation).merged
      rw [merged_push]
      apply closed
      · exact ih fun other member => all other (List.mem_append_left [mutation] member)
      · exact all mutation (List.mem_append_right (first :: later) (List.mem_singleton_self _))

/-- Where merging means to do one after the other, a block does what its mutations do. -/
theorem apply_merged {State : Type} (apply : State → Mutation → State)
    (law : ∀ state earlier later,
      apply state (Mergeable.merge earlier later) = apply (apply state earlier) later)
    (state : State) (block : Block Mutation) :
    apply state block.merged = block.mutations.foldl apply state := by
  obtain ⟨first, later⟩ := block
  induction later using List.reverseRecOn with
  | nil => rfl
  | append_singleton later mutation ih =>
      change apply state (Block.push ⟨first, later⟩ mutation).merged =
        (Block.push ⟨first, later⟩ mutation).mutations.foldl apply state
      rw [merged_push, law, ih, mutations_push, List.foldl_append]
      rfl

/-- Merged blocks replay their mutations. -/
theorem replay {State : Type} (apply : State → Mutation → State)
    (law : ∀ state earlier later,
      apply state (Mergeable.merge earlier later) = apply (apply state earlier) later)
    (state : State) (blocks : List (Block Mutation)) :
    (blocks.map merged).foldl apply state = (blocks.flatMap mutations).foldl apply state := by
  induction blocks generalizing state with
  | nil => rfl
  | cons block blocks ih =>
      rw [List.map_cons, List.foldl_cons, List.flatMap_cons, List.foldl_append, ih,
        apply_merged apply law]

end Block

/-- What became of a block that was flushed, with the block that was lost behind it. -/
inductive Fate (Mutation : Type) where
  | persisted
  | rejected (failure : FlushFailure) (behind : Option (Block Mutation))
  | abandoned (failure : FlushFailure) (behind : Option (Block Mutation))

namespace Fate

variable {Mutation : Type}

/-- How the last call ended. -/
def tally : Fate Mutation → Tally
  | persisted => .ok
  | rejected .. => .rejected
  | abandoned .. => .retry

/-- The loss that is reported. -/
def loss? : Fate Mutation → Option Verdict
  | persisted => none
  | rejected failure _ => some (.rejected failure)
  | abandoned failure _ => some (.abandoned failure)

/-- The block that was lost behind the flush. -/
def behind? : Fate Mutation → Option (Block Mutation)
  | persisted => none
  | rejected _ behind | abandoned _ behind => behind

end Fate

/-- How the last call of a flush ended, unless the next one is due or under way. -/
def Phase.tally? : Phase → Option Tally
  | .due | .calling => none
  | .backingOff _ => some .retry
  | .over .persisted => some .ok
  | .over (.rejected _) => some .rejected
  | .over (.abandoned _) => some .retry

/-- A block whose flush is over. -/
structure Settled (Mutation : Type) where
  block : Block Mutation
  /-- How many calls failed before the last one. -/
  failures : Nat
  fate : Fate Mutation

/-- A block that is being flushed. -/
structure Flight (Mutation : Type) where
  block : Block Mutation
  /-- How many calls failed before the last one. -/
  failures : Nat
  phase : Phase

/-- The blocks of a key. -/
structure Ledger (Mutation : Type) where
  settled : List (Settled Mutation)
  flight : Option (Flight Mutation)
  queued : Option (Block Mutation)

section Answers

variable {Mutation : Type} [Mergeable Mutation]

/-- The calls of a settled block, each with its end. -/
def Settled.answers (settled : Settled Mutation) : List (Mutation × Tally) :=
  List.replicate settled.failures (settled.block.merged, .retry) ++
    [(settled.block.merged, settled.fate.tally)]

/-- The calls of a block in flight that have ended. -/
def Flight.answers (flight : Flight Mutation) : List (Mutation × Tally) :=
  List.replicate flight.failures (flight.block.merged, .retry) ++
    flight.phase.tally?.toList.map fun tally => (flight.block.merged, tally)

/-- The mutation of the call by which a settled block was persisted. -/
def Settled.kept? (settled : Settled Mutation) : Option Mutation :=
  match settled.fate with
  | .persisted => some settled.block.merged
  | _ => none

theorem Settled.filterMap_answers (settled : Settled Mutation) :
    settled.answers.filterMap success? = settled.kept?.toList := by
  obtain ⟨block, failures, fate⟩ := settled
  cases fate <;> simp [answers, Fate.tally, Settled.kept?, success?]

theorem Flight.filterMap_answers {flight : Flight Mutation}
    (aloft : flight.phase ≠ .over .persisted) : flight.answers.filterMap success? = [] := by
  obtain ⟨block, failures, phase⟩ := flight
  match phase with
  | .over .persisted => exact absurd rfl aloft
  | .due | .calling | .backingOff _ | .over (.rejected _) | .over (.abandoned _) =>
      simp [answers, Phase.tally?, success?]

end Answers

/-- The mutations that were settled together. -/
def Settled.mutations {Mutation : Type} (settled : Settled Mutation) : List Mutation :=
  settled.block.mutations ++ settled.fate.behind?.toList.flatMap Block.mutations

namespace Ledger

variable {Key Mutation : Type} [Mergeable Mutation]

/-- The mutations of all blocks, in order. -/
def mutations (ledger : Ledger Mutation) : List Mutation :=
  ledger.settled.flatMap Settled.mutations ++
    ledger.flight.toList.flatMap (·.block.mutations) ++
      ledger.queued.toList.flatMap Block.mutations

/-- The calls that have ended, in order. -/
def answers (ledger : Ledger Mutation) : List (Mutation × Tally) :=
  ledger.settled.flatMap Settled.answers ++ ledger.flight.toList.flatMap Flight.answers

/-- A ledger accounts for all that happened to a key. -/
structure Accounts (ledger : Ledger Mutation) (standing : Standing Mutation)
    (past : List (Event Key Mutation)) : Prop where
  /-- The block in flight is being flushed.  A block that was persisted is settled already. -/
  flight :
    standing.flight? = ledger.flight.map fun flight => (flight.block.merged, flight.phase)
  /-- The block that waits is what the table holds. -/
  queued : standing.queued? = ledger.queued.map Block.merged
  /-- The accepted mutations are those of the blocks. -/
  taken : past.filterMap Event.taken? = ledger.mutations
  /-- The calls that ended are those of the blocks. -/
  answers : past.filterMap Event.answer? = ledger.answers
  /-- The calls that were made have ended, but one that may be under way. -/
  handed :
    past.filterMap Event.handed? = ledger.answers.map Prod.fst ++ standing.underWay?.toList
  /-- The reported losses are those of the blocks. -/
  losses : past.filterMap Event.loss? = ledger.settled.filterMap (·.fate.loss?)

namespace Accounts

variable {ledger : Ledger Mutation} {standing later : Standing Mutation} {key : Key}
  {past now : List (Event Key Mutation)}

theorem initial : Accounts ⟨[], none, none⟩ (.idle : Standing Mutation)
    ([] : List (Event Key Mutation)) :=
  ⟨rfl, rfl, rfl, rfl, rfl, rfl⟩

/-- A ledger that is carried on by what happened now. -/
private theorem extend (accounts : ledger.Accounts standing past) {grown : Ledger Mutation}
    (flight : later.flight? = grown.flight.map fun flight => (flight.block.merged, flight.phase))
    (queued : later.queued? = grown.queued.map Block.merged)
    (taken : grown.mutations = ledger.mutations ++ now.filterMap Event.taken?)
    (answers : grown.answers = ledger.answers ++ now.filterMap Event.answer?)
    (handed : (now.filterMap Event.answer?).map Prod.fst ++ later.underWay?.toList =
      standing.underWay?.toList ++ now.filterMap Event.handed?)
    (losses : grown.settled.filterMap (·.fate.loss?) =
      ledger.settled.filterMap (·.fate.loss?) ++ now.filterMap Event.loss?) :
    grown.Accounts later (past ++ now) where
  flight := flight
  queued := queued
  taken := by rw [List.filterMap_append, accounts.taken, taken]
  answers := by rw [List.filterMap_append, accounts.answers, answers]
  handed := by
    rw [List.filterMap_append, accounts.handed, answers, List.map_append, List.append_assoc,
      List.append_assoc, handed]
  losses := by rw [List.filterMap_append, accounts.losses, losses]

/-- Nothing that is entered happened. -/
private theorem idle (accounts : ledger.Accounts standing past)
    (flight : later.flight? = standing.flight?) (queued : later.queued? = standing.queued?)
    (calls : later.underWay? = standing.underWay?)
    (silent : ∀ event ∈ now, event.taken? = none ∧ event.answer? = none ∧
      event.handed? = none ∧ event.loss? = none) :
    ledger.Accounts later (past ++ now) := by
  have taken := List.filterMap_eq_nil_iff.mpr fun event member => (silent event member).1
  have answers := List.filterMap_eq_nil_iff.mpr fun event member => (silent event member).2.1
  have handed := List.filterMap_eq_nil_iff.mpr fun event member => (silent event member).2.2.1
  have losses := List.filterMap_eq_nil_iff.mpr fun event member => (silent event member).2.2.2
  apply accounts.extend
  · rw [flight, accounts.flight]
  · rw [queued, accounts.queued]
  · simp [taken]
  · simp [answers]
  · simp [answers, handed, calls]
  · simp [losses]

/-- A mutation was accepted; the block that waits is one longer, or a new one. -/
private theorem take (accounts : ledger.Accounts standing past) {mutation : Mutation}
    {joined : Bool} (flight : later.flight? = standing.flight?)
    (queued : later.queued? =
      some (match standing.queued? with
        | some earlier => Mergeable.merge earlier mutation
        | none => mutation))
    (calls : later.underWay? = standing.underWay?) :
    ∃ grown : Ledger Mutation, grown.Accounts later (past ++ [.accepted key mutation joined]) := by
  obtain ⟨block, merged, mutations⟩ : ∃ block : Block Mutation,
      later.queued? = some block.merged ∧
        block.mutations = ledger.queued.toList.flatMap Block.mutations ++ [mutation] := by
    have held := accounts.queued
    cases waiting : ledger.queued with
    | none =>
        simp only [held, waiting, Option.map_none] at queued
        exact ⟨⟨mutation, []⟩, queued, rfl⟩
    | some block =>
        simp only [held, waiting, Option.map_some] at queued
        exact ⟨block.push mutation, by rw [queued, Block.merged_push], by simp⟩
  refine ⟨⟨ledger.settled, ledger.flight, some block⟩, accounts.extend ?_ merged ?_ ?_ ?_ ?_⟩
  · rw [flight, accounts.flight]
  · simp [Ledger.mutations, mutations, Event.taken?]
  · simp [Ledger.answers, Event.answer?]
  · simp [calls, List.filterMap_cons, Event.answer?, Event.handed?]
  · simp [Event.loss?]

/-- The block that a ledger has in flight while its key is being flushed. -/
theorem flight_of_flushing {mutation : Mutation} {phase : Phase} {next : Option Mutation}
    (accounts : ledger.Accounts (.flushing mutation phase next) past)
    (aloft : phase ≠ .over .persisted) :
    ∃ block failures, ledger.flight = some ⟨block, failures, phase⟩ ∧ block.merged = mutation := by
  have flying := accounts.flight
  rw [Standing.flight?_flushing aloft, eq_comm, Option.map_eq_some_iff] at flying
  obtain ⟨⟨block, failures, phase⟩, held, same⟩ := flying
  obtain ⟨rfl, rfl⟩ := Prod.mk.inj same
  exact ⟨block, failures, held, rfl⟩

/-- The flush of the block in flight went on. -/
private theorem move {mutation : Mutation} {phase after : Phase} {next : Option Mutation}
    (accounts : ledger.Accounts (.flushing mutation phase next) past)
    (aloft : phase ≠ .over .persisted ∧ after ≠ .over .persisted)
    (answers : ∀ block : Block Mutation, ∀ failures, block.merged = mutation → ∃ more,
      Flight.answers ⟨block, more, after⟩ =
        Flight.answers ⟨block, failures, phase⟩ ++ now.filterMap Event.answer?)
    (handed : (now.filterMap Event.answer?).map Prod.fst ++
        (Standing.flushing mutation after next).underWay?.toList =
      (Standing.flushing mutation phase next).underWay?.toList ++ now.filterMap Event.handed?)
    (silent : now.filterMap Event.taken? = [] ∧ now.filterMap Event.loss? = []) :
    ∃ grown : Ledger Mutation,
      grown.Accounts (.flushing mutation after next) (past ++ now) := by
  obtain ⟨block, failures, flying, merged⟩ := accounts.flight_of_flushing aloft.1
  obtain ⟨more, calls⟩ := answers block failures merged
  refine ⟨⟨ledger.settled, some ⟨block, more, after⟩, ledger.queued⟩,
    accounts.extend ?_ accounts.queued ?_ ?_ handed ?_⟩
  · rw [Standing.flight?_flushing aloft.2, Option.map_some, merged]
  · simp [Ledger.mutations, flying, silent.1]
  · simp [Ledger.answers, flying, calls]
  · simp [silent.2]

/-- The block in flight was lost, with the block behind it. -/
private theorem lose {mutation : Mutation} {verdict : Verdict} {next : Option Mutation}
    {event : Event Key Mutation}
    (accounts : ledger.Accounts (.flushing mutation (.over verdict) next) past)
    (fate : Option (Block Mutation) → Fate Mutation)
    (aloft : verdict ≠ .persisted) (behind : ∀ block, (fate block).behind? = block)
    (tally : ∀ block, (Phase.over verdict).tally? = some (fate block).tally)
    (loss : ∀ block, event.loss? = (fate block).loss?)
    (silent : event.taken? = none ∧ event.answer? = none ∧ event.handed? = none) :
    ∃ grown : Ledger Mutation, grown.Accounts .idle (past ++ [event]) := by
  obtain ⟨taken, answer, handed⟩ := silent
  obtain ⟨block, failures, flying, merged⟩ := accounts.flight_of_flushing (by simpa using aloft)
  refine ⟨⟨ledger.settled ++ [⟨block, failures, fate ledger.queued⟩], none, none⟩,
    accounts.extend rfl rfl ?_ ?_ ?_ ?_⟩
  · simp [Ledger.mutations, Settled.mutations, flying, behind, taken]
  · simp [Ledger.answers, Settled.answers, Flight.answers, flying, tally ledger.queued, answer]
  · simp [answer, handed, Standing.underWay?]
  · simp [loss ledger.queued, List.filterMap_cons]

/-- Every step of a key can be entered. -/
theorem step (accounts : ledger.Accounts standing past)
    (taken : Standing.Step key standing later now) :
    ∃ grown : Ledger Mutation, grown.Accounts later (past ++ now) := by
  cases taken with
  | rest => exact ⟨ledger, accounts.idle rfl rfl rfl (by simp)⟩
  | refuse | ignore | release | requeue =>
      exact ⟨ledger, accounts.idle rfl rfl rfl
        (by simp [Event.taken?, Event.answer?, Event.handed?, Event.loss?])⟩
  | enqueue | join => exact accounts.take rfl rfl rfl
  | follow | followJoin =>
      obtain ⟨flight, calls⟩ := Standing.flight_behind _ _ _ _
      exact accounts.take flight rfl calls
  | start =>
      have held := accounts.queued
      rw [eq_comm, Standing.queued?, Option.map_eq_some_iff] at held
      obtain ⟨block, waiting, rfl⟩ := held
      have empty : ledger.flight = none := Option.map_eq_none_iff.mp accounts.flight.symm
      refine ⟨⟨ledger.settled, some ⟨block, 0, .due⟩, none⟩,
        accounts.extend rfl rfl ?_ ?_ rfl ?_⟩
      · simp [Ledger.mutations, empty, waiting, Event.taken?]
      · simp [Ledger.answers, Flight.answers, Phase.tally?, empty, Event.answer?]
      · simp [Event.loss?]
  | call =>
      apply accounts.move (by simp) _ rfl ⟨rfl, rfl⟩
      intro block failures merged
      exact ⟨failures, by simp [Flight.answers, Phase.tally?, Event.answer?]⟩
  | succeed =>
      obtain ⟨block, failures, flying, merged⟩ := accounts.flight_of_flushing (by simp)
      refine ⟨⟨ledger.settled ++ [⟨block, failures, .persisted⟩], none, ledger.queued⟩,
        accounts.extend rfl accounts.queued ?_ ?_ rfl ?_⟩
      · simp [Ledger.mutations, Settled.mutations, Fate.behind?, flying, Event.taken?]
      · simp [Ledger.answers, Settled.answers, Flight.answers, Phase.tally?, Fate.tally, flying,
          merged, Event.answer?]
      · simp [Fate.loss?, List.filterMap_cons, Event.loss?]
  | reject | backOff | abandon =>
      apply accounts.move (by simp) _ rfl ⟨rfl, rfl⟩
      intro block failures merged
      refine ⟨failures, ?_⟩
      simp [Flight.answers, Phase.tally?, merged, List.filterMap_cons, Event.answer?]
  | retry =>
      apply accounts.move (by simp) _ rfl ⟨rfl, rfl⟩
      intro block failures merged
      refine ⟨failures + 1, ?_⟩
      simp [Flight.answers, Phase.tally?, List.replicate_succ']
  | giveUp =>
      apply accounts.move (by simp) _ rfl ⟨rfl, rfl⟩
      intro block failures merged
      exact ⟨failures, by simp [Flight.answers, Phase.tally?]⟩
  | discard =>
      exact accounts.lose (.rejected _) (by simp) (fun _ => rfl) (fun _ => rfl)
        (fun _ => rfl) ⟨rfl, rfl, rfl⟩
  | forsake =>
      exact accounts.lose (.abandoned _) (by simp) (fun _ => rfl) (fun _ => rfl)
        (fun _ => rfl) ⟨rfl, rfl, rfl⟩

/-- The mutations that were persisted, in the order of the calls, are those of the kept blocks. -/
theorem persisted (accounts : ledger.Accounts standing past) :
    past.filterMap Event.persisted? = ledger.settled.filterMap Settled.kept? := by
  have flying : (ledger.flight.toList.flatMap Flight.answers).filterMap success? = [] := by
    cases held : ledger.flight with
    | none => rfl
    | some flight =>
        have aloft : flight.phase ≠ .over .persisted := by
          intro landed
          have standing := accounts.flight
          rw [held, Option.map_some, landed] at standing
          exact Standing.flight?_ne_persisted standing
        simpa using Flight.filterMap_answers aloft
  calc past.filterMap Event.persisted?
      = (past.filterMap Event.answer?).filterMap success? := by
        rw [List.filterMap_filterMap]
        exact List.filterMap_congr fun event _ => event.persisted?_eq
    _ = (ledger.settled.flatMap Settled.answers).filterMap success? := by
        rw [accounts.answers, Ledger.answers, List.filterMap_append, flying, List.append_nil]
    _ = ledger.settled.flatMap fun settled => settled.kept?.toList := by
        rw [List.filterMap_flatMap]
        exact List.flatMap_congr fun settled _ => settled.filterMap_answers
    _ = ledger.settled.filterMap Settled.kept? := (List.filterMap_eq_flatMap_toList ..).symm

/-- A block is lost after a final answer, or at shutdown. -/
theorem lossless (accounts : ledger.Accounts standing past)
    (accepted : ∀ mutation, (mutation, Tally.rejected) ∉ past.filterMap Event.answer?)
    (going : ∀ failure, .abandoned failure ∉ past.filterMap Event.loss?) :
    past.filterMap Event.loss? = [] := by
  rw [accounts.answers] at accepted
  rw [accounts.losses] at going ⊢
  apply List.filterMap_eq_nil_iff.mpr
  intro settled member
  cases fate : settled.fate with
  | persisted => rfl
  | rejected failure behind =>
      have answered : (settled.block.merged, Tally.rejected) ∈ settled.answers := by
        simp [Settled.answers, fate, Fate.tally]
      have among : (settled.block.merged, Tally.rejected) ∈ ledger.answers :=
        List.mem_append_left _ (List.mem_flatMap.mpr ⟨settled, member, answered⟩)
      exact absurd among (accepted _)
  | abandoned failure behind =>
      have lost : .abandoned failure ∈ ledger.settled.filterMap (·.fate.loss?) :=
        List.mem_filterMap.mpr ⟨settled, member, by rw [fate]; rfl⟩
      exact absurd lost (going failure)

private theorem fate_of_lossless (accounts : ledger.Accounts standing past)
    (safe : past.filterMap Event.loss? = []) :
    ∀ settled ∈ ledger.settled, settled.fate = .persisted := by
  rw [accounts.losses, List.filterMap_eq_nil_iff] at safe
  intro settled member
  have lossless := safe settled member
  unfold Fate.loss? at lossless
  split at lossless <;> simp_all

/-- Where nothing was lost and nothing persisted, nothing is settled. -/
theorem settled_eq_nil (accounts : ledger.Accounts standing past)
    (safe : past.filterMap Event.loss? = []) (none : past.filterMap Event.persisted? = []) :
    ledger.settled = [] := by
  rw [accounts.persisted, List.filterMap_eq_nil_iff] at none
  apply List.eq_nil_iff_forall_not_mem.mpr
  intro settled member
  have kept := none settled member
  simp [Settled.kept?, accounts.fate_of_lossless safe settled member] at kept

/-- Where no block was lost, the blocks are those that were persisted, the one in flight and the
one that waits. -/
theorem replays (accounts : ledger.Accounts standing past)
    (safe : past.filterMap Event.loss? = []) :
    ∃ blocks : List (Block Mutation),
      past.filterMap Event.persisted? ++ (standing.flight?.map Prod.fst).toList ++
          standing.queued?.toList = blocks.map Block.merged ∧
        past.filterMap Event.taken? = blocks.flatMap Block.mutations := by
  have kept := accounts.fate_of_lossless safe
  refine ⟨ledger.settled.map Settled.block ++ ledger.flight.toList.map Flight.block ++
    ledger.queued.toList, ?_, ?_⟩
  · have calls : ledger.settled.filterMap Settled.kept? =
        ledger.settled.map fun settled => settled.block.merged := by
      rw [← List.filterMap_eq_map]
      apply List.filterMap_congr
      intro settled member
      simp [Settled.kept?, kept settled member]
    rw [accounts.persisted, accounts.flight, accounts.queued, calls]
    cases ledger.flight <;> cases ledger.queued <;> simp
  · have mutations : ledger.settled.flatMap Settled.mutations =
        ledger.settled.flatMap fun settled => settled.block.mutations := by
      apply List.flatMap_congr
      intro settled member
      simp [Settled.mutations, kept settled member, Fate.behind?]
    rw [accounts.taken, Ledger.mutations, mutations]
    simp [List.flatMap_map]

end Accounts
end Ledger

namespace Drain

variable {Key Mutation : Type} [DecidableEq Key] [Mergeable Mutation]
  {actions : List (Action Key Mutation)} {drain : Drain Key Mutation}
  {events : List (Event Key Mutation)} {limit : Nat}

theorem ledger_of_run (run : Drain.initial.run? limit actions = some (drain, events)) (key : Key) :
    ∃ ledger : Ledger Mutation, ledger.Accounts (drain.standing key) (history key events) := by
  refine standing_induction (motive := fun standing past =>
    ∃ ledger : Ledger Mutation, ledger.Accounts standing past) ⟨_, .initial⟩ ?_ run
  rintro standing past later now ⟨ledger, accounts⟩ taken
  exact accounts.step taken

/-- After every run each key has a ledger of its submissions.  As long as no flush of the key was
lost, the mutations that were persisted, the one in flight and the one that waits replay all
mutations that were accepted, whatever a mutation does. -/
theorem run_keeps_ledger (run : Drain.initial.run? limit actions = some (drain, events))
    (key : Key) :
    (∃ ledger : Ledger Mutation, ledger.Accounts (drain.standing key) (history key events)) ∧
      (history key events).filterMap Event.offered? = actions.filterMap (Action.offer? key) ∧
      ((history key events).filterMap Event.loss? = [] →
        ∃ blocks : List (Block Mutation),
          (history key events).filterMap Event.persisted? ++
              ((drain.standing key).flight?.map Prod.fst).toList ++
                (drain.standing key).queued?.toList = blocks.map Block.merged ∧
            (history key events).filterMap Event.taken? = blocks.flatMap Block.mutations ∧
            ∀ (State : Type) (apply : State → Mutation → State) (state : State),
              (∀ state earlier later,
                apply state (Mergeable.merge earlier later) = apply (apply state earlier) later) →
              (blocks.map Block.merged).foldl apply state =
                ((history key events).filterMap Event.taken?).foldl apply state) := by
  obtain ⟨ledger, accounts⟩ := ledger_of_run run key
  refine ⟨⟨ledger, accounts⟩, offers_of_run run key, ?_⟩
  intro safe
  obtain ⟨blocks, calls, mutations⟩ := accounts.replays safe
  refine ⟨blocks, calls, mutations, ?_⟩
  intro State apply state law
  rw [mutations, Block.replay apply law]

/-- A key whose first call fails once while mutations arrive; its second flush is under way. -/
def busyKey : List (Action Nat (List Nat)) :=
  [.submit 1 [10], .start, .park, .call 1, .submit 1 [11],
    .answer 1 (.error (.transient "down")), .submit 1 [12], .retry 1, .call 1, .answer 1 (.ok ()),
    .collect 1, .submit 1 [13], .start, .park, .call 1, .submit 1 [14]]

theorem busyKey_keeps_ledger :
    ∃ drain events, Drain.initial.run? 1 busyKey = some (drain, events) ∧
      (∃ ledger : Ledger (List Nat), ledger.Accounts (drain.standing 1) (history 1 events)) ∧
      ∃ blocks : List (Block (List Nat)),
        (history 1 events).filterMap Event.persisted? ++
            ((drain.standing 1).flight?.map Prod.fst).toList ++
              (drain.standing 1).queued?.toList = blocks.map Block.merged ∧
          (blocks.map Block.merged).foldl (· ++ ·) [] =
            ((history 1 events).filterMap Event.taken?).foldl (· ++ ·) [] := by
  have safe : ((Drain.initial.run? 1 busyKey).map fun outcome =>
      (history 1 outcome.2).filterMap Event.loss?) = some [] := by decide +kernel
  obtain ⟨⟨drain, events⟩, run, safe⟩ := Option.map_eq_some_iff.mp safe
  obtain ⟨ledger, _, replays⟩ := run_keeps_ledger run 1
  obtain ⟨blocks, calls, _, replay⟩ := replays safe
  refine ⟨drain, events, run, ledger, blocks, calls, ?_⟩
  exact replay (List Nat) (· ++ ·) [] fun state earlier later => (List.append_assoc ..).symm

end Drain
end Dispatch
end Intake
