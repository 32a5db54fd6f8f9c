import Intake.Proofs.Dispatch.Ledger

/-!
# Batches

Which mutations of a key are flushed together, and what becomes of them, follows from the deeds of
that key alone: when mutations were accepted, when a flush of the key was started, and how it ended.
`Batches.of` reads the batches off the deeds, and `Drain.batches_of_run` says that the dispatcher
holds and persists just these.
-/

namespace Intake
namespace Dispatch

/-- What decides on the batches of a key. -/
inductive Deed (Mutation : Type) where
  | accepted (mutation : Mutation)
  /-- What waits is flushed. -/
  | started
  /-- What is being flushed was persisted. -/
  | persisted
  /-- What is being flushed was discarded, with what waits behind it. -/
  | lost

/-- The deed that an event tells of. -/
def Event.deed? {Key Mutation : Type} : Event Key Mutation → Option (Deed Mutation)
  | accepted _ mutation _ => some (.accepted mutation)
  | started .. => some .started
  | answered _ _ .ok => some .persisted
  | rejected .. | abandoned .. => some .lost
  | _ => none

/-- The deeds of a key. -/
def deeds {Key Mutation : Type} [DecidableEq Key] (key : Key) (events : List (Event Key Mutation)) :
    List (Deed Mutation) :=
  (history key events).filterMap Event.deed?

/-- A block of which it is settled what became of it. -/
structure Batch (Mutation : Type) where
  block : Block Mutation
  /-- It was persisted; otherwise it was lost. -/
  kept : Bool

/-- The batches of a key. -/
structure Batches (Mutation : Type) where
  settled : List (Batch Mutation)
  flying : Option (Block Mutation)
  queued : Option (Block Mutation)

namespace Batches

variable {Key Mutation : Type}

def empty : Batches Mutation := ⟨[], none, none⟩

/-- The batches after one more deed. -/
def enter (batches : Batches Mutation) : Deed Mutation → Batches Mutation
  | .accepted mutation =>
      { batches with
        queued := some (batches.queued.elim ⟨mutation, []⟩ (·.push mutation)) }
  | .started => { batches with flying := batches.queued, queued := none }
  | .persisted =>
      { batches with
        settled := batches.settled ++ batches.flying.toList.map (⟨·, true⟩)
        flying := none }
  | .lost =>
      { settled := batches.settled ++
          (batches.flying.toList ++ batches.queued.toList).map (⟨·, false⟩)
        flying := none
        queued := none }

/-- The batches that deeds lead to. -/
def of (deeds : List (Deed Mutation)) : Batches Mutation := deeds.foldl enter empty

theorem of_append (earlier later : List (Deed Mutation)) :
    of (earlier ++ later) = later.foldl enter (of earlier) :=
  List.foldl_append ..

/-- The mutations of all batches, in order. -/
def mutations (batches : Batches Mutation) : List Mutation :=
  batches.settled.flatMap (·.block.mutations) ++
    batches.flying.toList.flatMap Block.mutations ++ batches.queued.toList.flatMap Block.mutations

variable [Mergeable Mutation]

/-- The mutations that were persisted, in order. -/
def persisted (batches : Batches Mutation) : List Mutation :=
  (batches.settled.filter (·.kept)).map (·.block.merged)

/-- Batches tell what a key holds and what was persisted of it. -/
structure Tells (batches : Batches Mutation) (standing : Standing Mutation)
    (past : List (Event Key Mutation)) : Prop where
  flying : standing.flight?.map Prod.fst = batches.flying.map Block.merged
  queued : standing.queued? = batches.queued.map Block.merged
  /-- Every accepted mutation is in one batch, in order. -/
  taken : past.filterMap Event.taken? = batches.mutations
  /-- Every persisted mutation is a batch. -/
  persisted : past.filterMap Event.persisted? = batches.persisted

namespace Tells

variable {batches : Batches Mutation} {standing later : Standing Mutation} {key : Key}
  {past now : List (Event Key Mutation)}

theorem initial : (empty : Batches Mutation).Tells .idle ([] : List (Event Key Mutation)) :=
  ⟨rfl, rfl, rfl, rfl⟩

/-- Nothing that is a deed happened. -/
private theorem idle (tells : batches.Tells standing past)
    (flight : later.flight?.map Prod.fst = standing.flight?.map Prod.fst)
    (queued : later.queued? = standing.queued?)
    (silent : ∀ event ∈ now, event.taken? = none ∧ event.persisted? = none) :
    batches.Tells later (past ++ now) where
  flying := flight.trans tells.flying
  queued := queued.trans tells.queued
  taken := by
    have none := List.filterMap_eq_nil_iff.mpr fun event member => (silent event member).1
    rw [List.filterMap_append, none, List.append_nil, tells.taken]
  persisted := by
    have none := List.filterMap_eq_nil_iff.mpr fun event member => (silent event member).2
    rw [List.filterMap_append, none, List.append_nil, tells.persisted]

/-- A mutation was accepted. -/
private theorem accept (tells : batches.Tells standing past) {mutation : Mutation} {joined : Bool}
    (flight : later.flight? = standing.flight?)
    (queued : later.queued? =
      some (standing.queued?.elim mutation (Mergeable.merge · mutation))) :
    (batches.enter (.accepted mutation)).Tells later (past ++ [.accepted key mutation joined]) := by
  have held := tells.queued
  refine ⟨?_, ?_, ?_, ?_⟩
  · rw [flight]
    exact tells.flying
  · rw [queued, held]
    cases waiting : batches.queued with
    | none => simp [enter, waiting, Block.merged]
    | some block => simp [enter, waiting]
  · rw [List.filterMap_append, tells.taken]
    cases waiting : batches.queued with
    | none => simp [enter, mutations, waiting, Event.taken?, Block.mutations]
    | some block => simp [enter, mutations, waiting, Event.taken?]
  · rw [List.filterMap_append, tells.persisted]
    exact List.append_nil _

/-- What is being flushed was lost, with what waits behind it. -/
private theorem lose (tells : batches.Tells standing past) {event : Event Key Mutation}
    (silent : event.taken? = none ∧ event.persisted? = none) :
    (batches.enter .lost).Tells .idle (past ++ [event]) := by
  obtain ⟨taken, persisted⟩ := silent
  refine ⟨rfl, rfl, ?_, ?_⟩
  · rw [List.filterMap_append, tells.taken]
    simp [enter, mutations, taken, List.flatMap_map]
  · rw [List.filterMap_append, tells.persisted]
    simp [enter, Batches.persisted, persisted]

/-- Every step of a key enters its deeds. -/
theorem step (tells : batches.Tells standing past)
    (taken : Standing.Step key standing later now) :
    ((now.filterMap Event.deed?).foldl enter batches).Tells later (past ++ now) := by
  cases taken with
  | rest => simpa using tells
  | refuse | ignore | release | requeue | call | reject | backOff | abandon | retry | giveUp =>
      exact tells.idle rfl rfl (by simp [Event.taken?, Event.persisted?])
  | enqueue | join => exact tells.accept rfl rfl
  | follow | followJoin => exact tells.accept (Standing.flight_behind ..).1 rfl
  | start =>
      have none : batches.flying = none := Option.map_eq_none_iff.mp tells.flying.symm
      refine ⟨tells.queued, rfl, ?_, ?_⟩
      · rw [List.filterMap_append, tells.taken]
        simp [mutations, none, Event.deed?, enter, Event.taken?]
      · rw [List.filterMap_append, tells.persisted]
        exact List.append_nil _
  | succeed =>
      have flying := tells.flying
      rw [Standing.flight?_flushing (by simp), eq_comm, Option.map_some,
        Option.map_eq_some_iff] at flying
      obtain ⟨block, flying, merged⟩ := flying
      refine ⟨rfl, tells.queued, ?_, ?_⟩
      · rw [List.filterMap_append, tells.taken]
        simp [mutations, flying, Event.deed?, enter, Event.taken?]
      · rw [List.filterMap_append, tells.persisted]
        simp [Batches.persisted, flying, merged, Event.deed?, enter, Event.persisted?]
  | discard | forsake => exact tells.lose ⟨rfl, rfl⟩

end Tells

end Batches

namespace Drain

variable {Key Mutation : Type} [DecidableEq Key] [Mergeable Mutation] {limit : Nat}
  {actions : List (Action Key Mutation)} {drain : Drain Key Mutation}
  {events : List (Event Key Mutation)}

/-- What a dispatcher holds and has persisted of a key follows from the deeds of that key. -/
theorem batches_of_run (run : Drain.initial.run? limit actions = some (drain, events)) (key : Key) :
    (Batches.of (deeds key events)).Tells (drain.standing key) (history key events) := by
  refine standing_induction (motive := fun standing past =>
    (Batches.of (past.filterMap Event.deed?)).Tells standing past) .initial ?_ run
  intro standing past later now tells taken
  rw [List.filterMap_append, Batches.of_append]
  exact tells.step taken

end Drain
end Dispatch
end Intake
