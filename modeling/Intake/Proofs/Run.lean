import Mathlib.Data.List.Induction

/-!
# Runs of a system of steps

A system takes one step for each action, where the action is possible, and reports what happened.
A run is a list of actions that are possible one after the other.  What holds at the start and is
kept by every step that follows a run holds after every run.
-/

namespace Intake

variable {State Action Report : Type}

/-- The state and the reports after actions that are possible one after the other. -/
def runOf (step : State → Action → Option (State × List Report)) (state : State) :
    List Action → Option (State × List Report)
  | [] => some (state, [])
  | action :: rest => do
      let (state, now) ← step state action
      let (state, later) ← runOf step state rest
      return (state, now ++ later)

variable {step : State → Action → Option (State × List Report)} {initial final : State}

theorem runOf_cons {action : Action} {actions : List Action} {reports : List Report} :
    runOf step initial (action :: actions) = some (final, reports) ↔
      ∃ middle now later, step initial action = some (middle, now) ∧
        runOf step middle actions = some (final, later) ∧ reports = now ++ later := by
  simp only [runOf, Option.bind_eq_bind, Option.bind_eq_some_iff, Option.pure_def,
    Option.some.injEq, Prod.mk.injEq, Prod.exists]
  constructor
  · rintro ⟨middle, now, taken, final, later, rest, rfl, rfl⟩
    exact ⟨middle, now, later, taken, rest, rfl⟩
  · rintro ⟨middle, now, later, taken, rest, rfl⟩
    exact ⟨middle, now, taken, final, later, rest, rfl, rfl⟩

/-- Runs compose, and their reports follow one another. -/
theorem runOf_append {front back : List Action} {reports : List Report} :
    runOf step initial (front ++ back) = some (final, reports) ↔
      ∃ middle earlier later, runOf step initial front = some (middle, earlier) ∧
        runOf step middle back = some (final, later) ∧ reports = earlier ++ later := by
  induction front generalizing initial reports with
  | nil => simp [runOf]
  | cons action front ih =>
      simp only [List.cons_append, runOf_cons, ih]
      constructor
      · rintro ⟨next, now, _, taken, ⟨middle, earlier, later, run, rest, rfl⟩, rfl⟩
        exact ⟨middle, now ++ earlier, later, ⟨next, now, earlier, taken, run, rfl⟩, rest,
          (List.append_assoc ..).symm⟩
      · rintro ⟨middle, _, later, ⟨next, now, earlier, taken, run, rfl⟩, rest, rfl⟩
        exact ⟨next, now, earlier ++ later, taken, ⟨middle, earlier, later, run, rest, rfl⟩,
          List.append_assoc ..⟩

theorem runOf_singleton {action : Action} {reports : List Report} :
    runOf step initial [action] = some (final, reports) ↔
      step initial action = some (final, reports) := by
  rw [runOf_cons]
  simp only [runOf, Option.some.injEq, Prod.mk.injEq]
  constructor
  · rintro ⟨_, now, _, taken, ⟨rfl, rfl⟩, rfl⟩
    rwa [List.append_nil]
  · intro taken
    exact ⟨final, reports, [], taken, ⟨rfl, rfl⟩, (List.append_nil _).symm⟩

/-- What holds at the start and is kept by every step that follows a run holds after every run. -/
theorem runOf_induction {motive : List Action → State → List Report → Prop}
    (start : motive [] initial [])
    (keep : ∀ actions state reports action next now,
      runOf step initial actions = some (state, reports) → motive actions state reports →
      step state action = some (next, now) → motive (actions ++ [action]) next (reports ++ now))
    {actions : List Action} {reports : List Report}
    (run : runOf step initial actions = some (final, reports)) : motive actions final reports := by
  induction actions using List.reverseRecOn generalizing final reports with
  | nil =>
      obtain ⟨rfl, rfl⟩ : initial = final ∧ [] = reports := by simpa [runOf] using run
      exact start
  | append_singleton actions action ih =>
      obtain ⟨middle, earlier, now, front, last, rfl⟩ := runOf_append.mp run
      exact keep actions middle earlier action final now front (ih front) (runOf_singleton.mp last)

/-- A run with one of its actions singled out. -/
structure Split (step : State → Action → Option (State × List Report)) (initial : State)
    (actions : List Action) (final : State) (reports : List Report) where
  front : List Action
  action : Action
  back : List Action
  middle : State
  earlier : List Report
  next : State
  now : List Report
  later : List Report
  actions_eq : actions = front ++ action :: back
  reports_eq : reports = earlier ++ (now ++ later)
  before : runOf step initial front = some (middle, earlier)
  taken : step middle action = some (next, now)
  after : runOf step next back = some (final, later)

/-- Each action of a run can be singled out, at the state that those before it lead to. -/
theorem exists_split {actions front back : List Action} {action : Action} {middle : State}
    {earlier reports : List Report} (run : runOf step initial actions = some (final, reports))
    (parts : actions = front ++ action :: back)
    (before : runOf step initial front = some (middle, earlier)) :
    ∃ split : Split step initial actions final reports,
      split.action = action ∧ split.middle = middle ∧ split.earlier = earlier := by
  rw [parts] at run
  obtain ⟨reached, told, _, first, rest, rfl⟩ := runOf_append.mp run
  obtain ⟨next, now, later, taken, after, rfl⟩ := runOf_cons.mp rest
  obtain ⟨rfl, rfl⟩ := Prod.mk.inj (Option.some.inj (before.symm.trans first))
  exact ⟨⟨front, action, back, middle, earlier, next, now, later, parts, rfl, before, taken, after⟩,
    rfl, rfl, rfl⟩

/-- The first report of some kind comes of a single action. -/
theorem exists_first {p : Report → Prop} {actions : List Action} {reports : List Report}
    (run : runOf step initial actions = some (final, reports))
    (found : ∃ report ∈ reports, p report) :
    ∃ split : Split step initial actions final reports,
      (∀ report ∈ split.earlier, ¬p report) ∧ ∃ report ∈ split.now, p report := by
  induction actions generalizing initial reports with
  | nil =>
      obtain ⟨rfl, rfl⟩ : initial = final ∧ [] = reports := by simpa [runOf] using run
      simp at found
  | cons action actions ih =>
      obtain ⟨next, now, later, taken, rest, rfl⟩ := runOf_cons.mp run
      -- If this action tells nothing of the kind, what comes first in the rest comes first here.
      by_cases here : ∃ report ∈ now, p report
      · exact ⟨⟨[], action, actions, initial, [], next, now, later, rfl, rfl, rfl, taken, rest⟩,
          by simp, here⟩
      · have silent : ∀ report ∈ now, ¬p report :=
          fun report member kind => here ⟨report, member, kind⟩
        obtain ⟨report, member, kind⟩ := found
        have among : report ∈ later :=
          (List.mem_append.mp member).resolve_left fun early => silent report early kind
        obtain ⟨⟨front, last, back, middle, earlier, after, made, more, rfl, rfl, before, done,
          onward⟩, clean, found⟩ := ih rest ⟨report, among, kind⟩
        refine ⟨⟨action :: front, last, back, middle, now ++ earlier, after, made, more, rfl,
          (List.append_assoc ..).symm, runOf_cons.mpr ⟨next, now, earlier, taken, before, rfl⟩,
          done, onward⟩, ?_, found⟩
        intro other member
        rcases List.mem_append.mp member with early | late
        · exact silent other early
        · exact clean other late

end Intake
