import Intake.Proofs.Flow.Calm

/-!
# One act at a time

Only two kinds of acts change a governor: the count moves, and a consumer is given a command.  A
signal is a sequence of such acts, those of the signals that resumed consumers raise among them, and
`Governor.acts` lists them.  Performing them one after the other comes to the whole signal.  Every
command among them is given to a consumer that needs it, at a count that calls for it.
-/

namespace Intake
namespace Governor

/-- What changes a governor. -/
inductive Act where
  /-- The count moves on a signal. -/
  | count (signal : Signal)
  /-- A consumer is given a command. -/
  | tell (command : Command) (name : String)
  deriving DecidableEq

/-- The governor after an act. -/
def perform (governor : Governor) : Act → Governor
  | .count signal => (governor.count signal).1
  | .tell command name => (governor.tell command name).1

/-- The governor after acts. -/
def performAll (governor : Governor) (acts : List Act) : Governor := acts.foldl perform governor

theorem performAll_append (governor : Governor) (front back : List Act) :
    governor.performAll (front ++ back) = (governor.performAll front).performAll back :=
  List.foldl_append

theorem performAll_cons (governor : Governor) (act : Act) (acts : List Act) :
    governor.performAll (act :: acts) = (governor.perform act).performAll acts := rfl

theorem performAll_concat (governor : Governor) (acts : List Act) (act : Act) :
    governor.performAll (acts ++ [act]) = (governor.performAll acts).perform act :=
  governor.performAll_append acts [act]

/-! ## What an act leaves alone -/

theorem fleet_count (governor : Governor) (signal : Signal) :
    (governor.count signal).1.fleet = governor.fleet := by
  rw [count_eq]

theorem consumer_tell (governor : Governor) (command : Command) (name other : String) :
    (governor.tell command name).1.fleet.consumer other =
      if name = other then (governor.fleet.consumer name).obey command
      else governor.fleet.consumer other :=
  governor.fleet.consumer_tell command name other

@[simp]
theorem applies_tell (governor : Governor) (told command : Command) (name : String) :
    (governor.tell told name).1.applies command = governor.applies command := by
  cases command <;> rfl

theorem kept_perform (governor : Governor) (act : Act) : Kept governor (governor.perform act) := by
  cases act with
  | count signal =>
      rw [perform, count_eq]
      exact ⟨rfl, rfl, rfl, fun _ => rfl⟩
  | tell command name =>
      refine ⟨rfl, rfl, rfl, fun other => ?_⟩
      rw [perform, consumer_tell]
      split
      · rename_i same
        rw [Consumer.afterResume_obey, same]
      · rfl

theorem kept_performAll (governor : Governor) (acts : List Act) :
    Kept governor (governor.performAll acts) := by
  induction acts generalizing governor with
  | nil => exact .refl governor
  | cons act acts ih => exact (governor.kept_perform act).trans (ih _)

/-- No act makes a consumer fail, or work again. -/
theorem failing_performAll (governor : Governor) (acts : List Act) (name : String) :
    ((governor.performAll acts).fleet.consumer name).failing =
      (governor.fleet.consumer name).failing := by
  induction acts generalizing governor with
  | nil => rfl
  | cons act acts ih =>
      rw [performAll_cons, ih]
      cases act with
      | count signal => rw [perform, fleet_count]
      | tell command other =>
          rw [perform, consumer_tell]
          split
          · rename_i same
            rw [Consumer.failing_obey, same]
          · rfl

/-- A consumer is as it was if none of the acts is a command to it. -/
theorem consumer_performAll {governor : Governor} {acts : List Act} {name : String}
    (untold : ∀ command, .tell command name ∉ acts) :
    (governor.performAll acts).fleet.consumer name = governor.fleet.consumer name := by
  induction acts generalizing governor with
  | nil => rfl
  | cons act acts ih =>
      rw [performAll_cons, ih fun command late => untold command (List.mem_cons_of_mem _ late)]
      cases act with
      | count signal => rw [perform, fleet_count]
      | tell command other =>
          have different : other ≠ name := by
            rintro rfl
            exact untold command List.mem_cons_self
          rw [perform, consumer_tell, if_neg different]

/-- A consumer that does not fail does what it was told last. -/
theorem paused_of_last {governor : Governor} {name : String}
    (reliable : (governor.fleet.consumer name).failing = false) (front : List Act)
    (command : Command) {back : List Act} (last : ∀ other, .tell other name ∉ back) :
    ((governor.performAll (front ++ .tell command name :: back)).fleet.consumer name).paused =
      (command == .pause) := by
  rw [performAll_append, performAll_cons, consumer_performAll last, perform, consumer_tell,
    if_pos rfl]
  exact Consumer.paused_obey (by rw [failing_performAll, reliable]) command

/-! ## Properties along acts -/

/-- Each act has a property at the governor as it is then. -/
def Along (property : Governor → Act → Prop) : Governor → List Act → Prop
  | _, [] => True
  | governor, act :: acts => property governor act ∧ Along property (governor.perform act) acts

instance (property : Governor → Act → Prop) [∀ governor act, Decidable (property governor act)] :
    ∀ governor acts, Decidable (Along property governor acts)
  | _, [] => .isTrue trivial
  | governor, act :: acts =>
      let _ := instDecidableAlong property (governor.perform act) acts
      inferInstanceAs (Decidable (property governor act ∧ Along property _ acts))

theorem along_append {property : Governor → Act → Prop} {governor : Governor}
    {front back : List Act} :
    Along property governor (front ++ back) ↔
      Along property governor front ∧ Along property (governor.performAll front) back := by
  induction front generalizing governor with
  | nil => simp [Along, performAll]
  | cons act front ih =>
      rw [List.cons_append, Along, Along, ih, performAll_cons, and_assoc]

/-- The count does not move beyond its greatest value. -/
def Fitting (governor : Governor) : Act → Prop
  | .count signal => governor.Room signal
  | .tell _ _ => True

instance (governor : Governor) : ∀ act, Decidable (governor.Fitting act)
  | .count (.admitted count) => Nat.decLt (governor.inFlight.toNat + count.toNat) UInt64.size
  | .count (.duplicate _) | .count .completed | .tell _ _ => .isTrue trivial

/-- A command is given to a consumer that needs it, at a count that calls for it. -/
def Called (governor : Governor) : Act → Prop
  | .count _ => True
  | .tell .pause name =>
      (governor.fleet.consumer name).paused = false ∧ governor.settings.high ≤ governor.inFlight
  | .tell .resume name =>
      (governor.fleet.consumer name).paused = true ∧ governor.inFlight ≤ governor.settings.low

theorem called_tell {governor : Governor} {command : Command} {name : String}
    (applies : governor.applies command = true)
    (needs : (governor.fleet.consumer name).needs command = true) :
    governor.Called (.tell command name) := by
  cases command with
  | pause => exact ⟨by simpa using needs, of_decide_eq_true applies⟩
  | resume => exact ⟨by simpa using needs, of_decide_eq_true applies⟩

/-! ## The acts of a signal -/

/-- What signals do one after the other. -/
def actsAll (acts : Signal → Governor → List Act) : List Signal → Governor → List Act
  | [], _ => []
  | signal :: rest, governor =>
      let now := acts signal governor
      now ++ actsAll acts rest (governor.performAll now)

/-- What is done when a command is given to those consumers that need it, as long as the count calls
for it. -/
def passActs (acts : Signal → Governor → List Act) (command : Command) :
    List String → Governor → List Act
  | [], _ => []
  | name :: rest, governor =>
      if governor.applies command then
        let consumer := governor.fleet.consumer name
        if consumer.needs command then
          let now := .tell command name ::
            actsAll acts (consumer.raised command) (governor.tell command name).1
          now ++ passActs acts command rest (governor.performAll now)
        else
          passActs acts command rest governor
      else
        []

theorem passActs_of_idle {acts : Signal → Governor → List Act} {command : Command}
    {names : List String} {governor : Governor} (idle : governor.applies command = false) :
    passActs acts command names governor = [] := by
  cases names with
  | nil => rfl
  | cons name rest => simp [passActs, idle]

/-- What a signal does, given what the signals do that resumed consumers raise in turn. -/
def signalActs (acts : Signal → Governor → List Act) (signal : Signal) (governor : Governor) :
    List Act :=
  if governor.settings.enabled then
    match governor.count signal with
    | (_, _, none) => [.count signal]
    | (moved, _, some command) =>
        .count signal ::
          passActs acts command (moved.fleet.registry.handles moved.topic) moved
  else
    []

/-- The first act of a signal moves the count, and those of a pass follow if the count calls for
one. -/
theorem signalActs_eq (acts : Signal → Governor → List Act) (signal : Signal)
    (governor : Governor) :
    signalActs acts signal governor =
      if governor.settings.enabled then
        .count signal ::
          match governor.given signal with
          | none => []
          | some command =>
              passActs acts command (governor.fleet.registry.handles governor.topic)
                { governor with inFlight := governor.countAfter signal }
      else [] := by
  cases enabled : governor.settings.enabled with
  | false => simp [signalActs, enabled]
  | true =>
      have frame := count_of_enabled enabled signal
      rw [signalActs, given, enabled, if_pos rfl, if_pos rfl, if_pos rfl]
      generalize governor.count signal = outcome at frame
      obtain ⟨moved, events, command⟩ := outcome
      dsimp only at frame
      subst frame
      cases command with
      | none => rfl
      | some command =>
          rw [Option.filter_some]
          by_cases applies : ({ governor with
            inFlight := governor.countAfter signal } : Governor).applies command = true
          · rw [if_pos applies]
          · rw [if_neg applies]
            exact congrArg (_ :: ·) (passActs_of_idle (Bool.eq_false_iff.mpr applies))

/-- What a signal does whose consequences nest at most so deep. -/
def actsNested : Nat → Signal → Governor → List Act
  | 0 => signalActs fun _ _ => []
  | depth + 1 => signalActs (actsNested depth)

/-- What a signal does. -/
def acts (signal : Signal) (governor : Governor) : List Act :=
  actsNested governor.fleet.consumers.size signal governor

section Replay

variable {raise : Signal → Governor → Governor × List Event}
  {acts : Signal → Governor → List Act}

/-- Performing the acts of a signal comes to raising it. -/
def Replays (raise : Signal → Governor → Governor × List Event)
    (acts : Signal → Governor → List Act) : Prop :=
  ∀ signal governor, governor.performAll (acts signal governor) = (raise signal governor).1

theorem performAll_actsAll (replays : Replays raise acts) (signals : List Signal)
    (governor : Governor) :
    governor.performAll (actsAll acts signals governor) =
      (raiseAll raise signals governor).1 := by
  induction signals generalizing governor with
  | nil => rfl
  | cons signal rest ih =>
      rw [actsAll, performAll_append, ih, replays, raiseAll]

/-- The command to a consumer and what it raises come to its turn in a pass. -/
theorem performAll_turn (replays : Replays raise acts) (command : Command) (name : String)
    (governor : Governor) :
    governor.performAll (.tell command name ::
        actsAll acts ((governor.fleet.consumer name).raised command)
          (governor.tell command name).1) =
      (raiseAll raise ((governor.fleet.consumer name).raised command)
        (governor.tell command name).1).1 := by
  rw [performAll_cons]
  exact performAll_actsAll replays _ _

theorem performAll_passActs (replays : Replays raise acts) (command : Command)
    (names : List String) (governor : Governor) :
    governor.performAll (passActs acts command names governor) =
      (pass raise command names governor).1 := by
  induction names generalizing governor with
  | nil => rfl
  | cons name rest ih =>
      unfold passActs pass
      split
      · dsimp only
        split
        · rw [performAll_append, ih, performAll_turn replays]
        · exact ih governor
      · rfl

theorem performAll_signalActs (replays : Replays raise acts) :
    Replays (raiseWith raise) (signalActs acts) := by
  intro signal governor
  unfold signalActs raiseWith
  split
  · have moved : governor.perform (.count signal) = (governor.count signal).1 := rfl
    generalize governor.count signal = outcome at moved
    obtain ⟨next, events, command⟩ := outcome
    cases command with
    | none => exact moved
    | some command =>
        dsimp only
        rw [performAll_cons, moved]
        exact performAll_passActs replays command _ next
  · rfl

end Replay

theorem performAll_actsNested (depth : Nat) : Replays (raiseNested depth) (actsNested depth) := by
  induction depth with
  | zero => exact performAll_signalActs fun _ _ => rfl
  | succ depth ih => exact performAll_signalActs ih

/-- Performing the acts of a signal comes to the whole signal. -/
theorem performAll_acts (signal : Signal) (governor : Governor) :
    governor.performAll (governor.acts signal) = (governor.raise signal).1 :=
  performAll_actsNested _ signal governor

/-! ## Every command is called for -/

/-- A property of all that a signal can do: of every move of the count, and of every command that is
given to a consumer of the topic that needs it, at a count that calls for it. -/
structure Applies (property : Governor → Act → Prop) : Prop where
  count : ∀ governor signal, property governor (.count signal)
  tell : ∀ governor command name, governor.applies command = true →
    (governor.fleet.consumer name).needs command = true →
    name ∈ governor.fleet.registry.handles governor.topic →
      property governor (.tell command name)

section Applies

variable {property : Governor → Act → Prop} {acts : Signal → Governor → List Act}

theorem along_actsAll
    (each : ∀ signal governor, Along property governor (acts signal governor))
    (signals : List Signal) (governor : Governor) :
    Along property governor (actsAll acts signals governor) := by
  induction signals generalizing governor with
  | nil => trivial
  | cons signal rest ih => exact along_append.mpr ⟨each signal governor, ih _⟩

theorem Applies.along_passActs (holds : Applies property)
    (each : ∀ signal governor, Along property governor (acts signal governor))
    (command : Command) (names : List String) (governor : Governor)
    (listed : ∀ name ∈ names, name ∈ governor.fleet.registry.handles governor.topic) :
    Along property governor (passActs acts command names governor) := by
  induction names generalizing governor with
  | nil => trivial
  | cons name rest ih =>
      obtain ⟨first, others⟩ := List.forall_mem_cons.mp listed
      unfold passActs
      split
      · rename_i applies
        dsimp only
        split
        · rename_i needs
          refine along_append.mpr
            ⟨⟨holds.tell governor command name applies needs first, along_actsAll each _ _⟩, ?_⟩
          refine ih _ fun other member => ?_
          have kept := governor.kept_performAll (.tell command name ::
            actsAll acts ((governor.fleet.consumer name).raised command)
              (governor.tell command name).1)
          rw [kept.registry, kept.topic]
          exact others other member
        · exact ih governor others
      · trivial

theorem Applies.along_signalActs (holds : Applies property)
    (each : ∀ signal governor, Along property governor (acts signal governor))
    (signal : Signal) (governor : Governor) :
    Along property governor (signalActs acts signal governor) := by
  unfold signalActs
  split
  · have moved : governor.perform (.count signal) = (governor.count signal).1 := rfl
    generalize governor.count signal = outcome at moved
    obtain ⟨next, events, command⟩ := outcome
    cases command with
    | none => exact ⟨holds.count governor signal, trivial⟩
    | some command =>
        refine ⟨holds.count governor signal, ?_⟩
        rw [moved]
        exact holds.along_passActs each command _ next fun _ => id
  · trivial

theorem Applies.along_actsNested (holds : Applies property) (depth : Nat) (signal : Signal)
    (governor : Governor) : Along property governor (actsNested depth signal governor) := by
  induction depth generalizing signal governor with
  | zero =>
      have nothing (governor : Governor) : Along property governor [] := trivial
      exact holds.along_signalActs (fun _ => nothing) signal governor
  | succ depth ih => exact holds.along_signalActs ih signal governor

/-- What holds of all that a signal can do holds along its acts, whatever the consumers raise in
between. -/
theorem Applies.along_acts (holds : Applies property) (signal : Signal) (governor : Governor) :
    Along property governor (governor.acts signal) :=
  holds.along_actsNested _ signal governor

end Applies

/-- Whatever the consumers raise in between, every command of a signal is given to a consumer that
needs it, at a count that calls for it. -/
theorem called_acts (signal : Signal) (governor : Governor) :
    Along Called governor (governor.acts signal) :=
  Applies.along_acts
    ⟨fun _ _ => trivial, fun _ _ _ applies needs _ => called_tell applies needs⟩ signal governor

end Governor
end Intake
