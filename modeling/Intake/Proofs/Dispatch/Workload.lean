import Intake.Proofs.Dispatch.Consistency
import Mathlib.Tactic

/-!
# The workload of a dispatcher

What is left to do is measured by a sum: each entry of the table counts for something, and so does
each flush in progress.  `Drain.weight` takes what they count for as parameters and says how the sum
changes with the table and the flushes.
-/

namespace Intake

namespace KeyMap

variable {Key Value : Type}

/-- What all values count for. -/
def total (measure : Value → Nat) (map : KeyMap Key Value) : Nat :=
  (map.entries.map fun entry => measure entry.2).sum

variable [DecidableEq Key]

private theorem sum_put (measure : Value → Nat) (key : Key) (value : Value)
    (entries : List (Key × Value)) :
    ((put key value entries).map fun entry => measure entry.2).sum +
        ((find key entries).map measure).getD 0 =
      (entries.map fun entry => measure entry.2).sum + measure value := by
  induction entries with
  | nil => simp [put, find]
  | cons entry rest ih =>
      obtain ⟨name, old⟩ := entry
      by_cases same : name = key
      · simp only [put, find, same, if_true, List.map_cons, List.sum_cons, Option.map_some,
          Option.getD_some]
        omega
      · simp only [put, find, same, if_false, List.map_cons, List.sum_cons]
        omega

private theorem sum_drop (measure : Value → Nat) (key : Key) {entries : List (Key × Value)}
    (distinct : (entries.map Prod.fst).Nodup) :
    ((drop key entries).map fun entry => measure entry.2).sum +
        ((find key entries).map measure).getD 0 =
      (entries.map fun entry => measure entry.2).sum := by
  induction entries with
  | nil => simp [drop, find]
  | cons entry rest ih =>
      obtain ⟨name, old⟩ := entry
      rw [List.map_cons, List.nodup_cons] at distinct
      have others := ih distinct.2
      by_cases same : name = key
      · subst same
        rw [find_eq_none_iff.mpr distinct.1] at others
        simp only [drop, find, List.filter_cons, ne_eq, not_true_eq_false, decide_false,
          Bool.false_eq_true, if_false, if_true, List.map_cons, List.sum_cons, Option.map_some,
          Option.map_none, Option.getD_some, Option.getD_none] at others ⊢
        omega
      · simp only [drop, find, List.filter_cons, ne_eq, same, not_false_eq_true, decide_true,
          if_true, if_false, List.map_cons, List.sum_cons] at others ⊢
        omega

theorem total_insert (measure : Value → Nat) (map : KeyMap Key Value) (key : Key)
    (value : Value) :
    (map.insert key value).total measure + ((map.get? key).map measure).getD 0 =
      map.total measure + measure value :=
  sum_put measure key value map.entries

theorem total_erase (measure : Value → Nat) (map : KeyMap Key Value) (key : Key) :
    (map.erase key).total measure + ((map.get? key).map measure).getD 0 = map.total measure :=
  sum_drop measure key map.nodup

private theorem length_le_sum (measure : Value → Nat) {entries : List (Key × Value)}
    {keys : List Key}
    (bounded : ∀ key, keys.count key ≤ ((find key entries).map measure).getD 0) :
    keys.length ≤ (entries.map fun entry => measure entry.2).sum := by
  induction entries generalizing keys with
  | nil =>
      cases keys with
      | nil => simp
      | cons key keys => simpa [find] using bounded key
  | cons entry rest ih =>
      obtain ⟨name, value⟩ := entry
      have own : keys.count name ≤ measure value := by simpa [find] using bounded name
      have others : (keys.filter (· ≠ name)).length ≤
          (rest.map fun entry => measure entry.2).sum := by
        apply ih
        intro key
        by_cases same : name = key
        · subst same
          have none : (keys.filter (· ≠ name)).count name = 0 :=
            List.count_eq_zero.mpr fun member => by simpa using List.of_mem_filter member
          omega
        · have left := bounded key
          simp only [find, same, if_false] at left
          exact Nat.le_trans (List.filter_sublist.count_le key) left
      have parts := List.length_eq_length_filter_add (l := keys) (· ≠ name)
      have among : (keys.filter fun key => !decide (key ≠ name)).length = keys.count name := by
        rw [List.count_eq_length_filter]
        congr 2
        funext key
        simp [beq_eq_decide]
      simp only [List.map_cons, List.sum_cons]
      omega

/-- Keys that occur no more often than their values allow are no more than all values allow. -/
theorem length_le_total (measure : Value → Nat) {map : KeyMap Key Value} {keys : List Key}
    (bounded : ∀ key, keys.count key ≤ ((map.get? key).map measure).getD 0) :
    keys.length ≤ map.total measure :=
  length_le_sum measure bounded

end KeyMap

namespace Dispatch

/-- What waits for its key again when its flush is over. -/
def Verdict.returned {Mutation : Type} : Verdict → Option Mutation → Option Mutation
  | persisted, next => next
  | rejected _, _ | abandoned _, _ => none

namespace Drain

variable {Key Mutation : Type} [DecidableEq Key]

/-- What the entries of the table and the flushes in progress count for. -/
def weight (slot : Slot Mutation → Nat) (phase : Phase → Nat) (drain : Drain Key Mutation) : Nat :=
  drain.table.states.total slot + (drain.flushes.map fun flush => phase flush.phase).sum

variable {drain : Drain Key Mutation} (slot : Slot Mutation → Nat) (phase : Phase → Nat)

/-- What the flushes in progress count for. -/
private theorem sum_setFlush {flushes : List (Flush Key Mutation)}
    (distinct : (flushes.map Flush.key).Nodup) {flush old : Flush Key Mutation}
    (held : flushes.find? (·.key = flush.key) = some old) :
    ((flushes.map fun other => if other.key = flush.key then flush else other).map
        fun flush => phase flush.phase).sum + phase old.phase =
      (flushes.map fun flush => phase flush.phase).sum + phase flush.phase := by
  induction flushes with
  | nil => simp at held
  | cons first rest ih =>
      rw [List.map_cons, List.nodup_cons] at distinct
      by_cases same : first.key = flush.key
      · -- No flush behind the first one has its key, so the others stay as they are.
        obtain rfl : first = old := by simpa [same] using held
        have others : (rest.map fun other => if other.key = flush.key then flush else other) =
            rest := by
          refine (List.map_congr_left fun other member => ?_).trans (List.map_id rest)
          rw [if_neg, id]
          intro equal
          exact distinct.1 (List.mem_map.mpr ⟨other, member, equal.trans same.symm⟩)
        rw [List.map_cons, if_pos same, others]
        simp only [List.map_cons, List.sum_cons]
        omega
      · have later : rest.find? (·.key = flush.key) = some old := by simpa [same] using held
        have rest := ih distinct.2 later
        rw [List.map_cons, if_neg same]
        simp only [List.map_cons, List.sum_cons]
        omega

private theorem sum_filter {flushes : List (Flush Key Mutation)}
    (distinct : (flushes.map Flush.key).Nodup) {key : Key} {flush : Flush Key Mutation}
    (held : flushes.find? (·.key = key) = some flush) :
    ((flushes.filter (·.key ≠ key)).map fun flush => phase flush.phase).sum + phase flush.phase =
      (flushes.map fun flush => phase flush.phase).sum := by
  induction flushes with
  | nil => simp at held
  | cons first rest ih =>
      rw [List.map_cons, List.nodup_cons] at distinct
      by_cases same : first.key = key
      · obtain rfl : first = flush := by simpa [same] using held
        have others : rest.filter (·.key ≠ key) = rest := by
          refine List.filter_eq_self.mpr fun other member => ?_
          have different : other.key ≠ key := fun equal =>
            distinct.1 (List.mem_map.mpr ⟨other, member, equal.trans same.symm⟩)
          simpa using different
        rw [List.filter_cons_of_neg (by simpa using same), others, List.map_cons, List.sum_cons]
        omega
      · have later : rest.find? (·.key = key) = some flush := by simpa [same] using held
        have rest := ih distinct.2 later
        rw [List.filter_cons_of_pos (by simpa using same)]
        simp only [List.map_cons, List.sum_cons]
        omega

/-- A flush that goes on counts for its phase. -/
theorem weight_setFlush (consistent : drain.Consistent) (flush : Flush Key Mutation)
    {old : Flush Key Mutation} (held : drain.flush? flush.key = some old) :
    (drain.setFlush flush).weight slot phase + phase old.phase =
      drain.weight slot phase + phase flush.phase := by
  have flushes := sum_setFlush phase consistent.flushes_nodup held
  simp only [weight, setFlush] at flushes ⊢
  omega

/-- A flush that begins counts for its phase and its key no longer counts as one that waits. -/
theorem weight_start {key : Key} {mutation : Mutation} (ready : List Key)
    (held : drain.table.states.get? key = some (.waiting mutation)) :
    ({ drain with
        table :=
          { drain.table with states := drain.table.states.insert key (.flushing none), ready }
        flushes := drain.flushes ++ [⟨key, mutation, 0, .due⟩] } :
      Drain Key Mutation).weight slot phase + slot (.waiting mutation) =
        drain.weight slot phase + slot (.flushing none) + phase .due := by
  have entries := KeyMap.total_insert slot drain.table.states key (.flushing none)
  rw [held, Option.map_some, Option.getD_some] at entries
  simp only [weight, List.map_append, List.sum_append, List.map_cons, List.map_nil,
    List.sum_singleton]
  omega

/-- A flush that is over counts no more, and what waited behind it counts as a key that waits if the
flush was persisted. -/
theorem weight_collect (consistent : drain.Consistent) {key : Key} {mutation : Mutation}
    {failures : Nat} {verdict : Verdict} {next : Option Mutation}
    (held : drain.flush? key = some ⟨key, mutation, failures, .over verdict⟩)
    (flushing : drain.table.states.get? key = some (.flushing next)) :
    (drain.collect key verdict).1.weight slot phase + slot (.flushing next) +
        phase (.over verdict) =
      drain.weight slot phase +
        (verdict.returned next).elim 0 fun mutation => slot (.waiting mutation) := by
  have flushes := sum_filter phase consistent.flushes_nodup held
  have left := KeyMap.total_erase slot drain.table.states key
  rw [flushing, Option.map_some, Option.getD_some] at left
  unfold Drain.collect
  rw [Table.finish_of_flushing flushing verdict]
  cases verdict with
  | persisted =>
      cases next with
      | none =>
          simp only [weight, Verdict.returned, Option.elim_none] at flushes ⊢
          omega
      | some waiting =>
          have back := KeyMap.total_insert slot (drain.table.states.erase key) key
            (.waiting waiting)
          rw [KeyMap.get?_erase_self, Option.map_none, Option.getD_none] at back
          simp only [weight, Verdict.returned, Option.elim_some] at flushes ⊢
          omega
  | rejected | abandoned =>
      simp only [weight, Verdict.returned, Option.elim_none] at flushes ⊢
      omega

end Drain
end Dispatch
end Intake
