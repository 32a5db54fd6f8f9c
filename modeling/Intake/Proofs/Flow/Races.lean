import Intake.Proofs.Flow.Reentry
import Intake.Proofs.Run

/-!
# Races between signals

Signals that are raised at the same time interleave their steps.  One step moves the count.  Then,
for one consumer after the other, a pass reads the count, reads what the consumer asks for, and only
then gives the command.  The count may move between these steps, so a command can come late, when
the count calls for the opposite already.  Nothing else goes wrong.  Once no pass is under way, a
consumer does what the count calls for unless the last command to it came late.

What a resumed consumer raises is one more signal here, which may come at any time.
-/

namespace Intake

open Governor (Act Along Fitting)

/-- What a pass does next about the consumer at which it is. -/
inductive Stage where
  /-- It reads the count. -/
  | look
  /-- It reads what the consumer asks for. -/
  | ask
  /-- It gives the command. -/
  | tell

/-- A pass that is under way. -/
structure Pass where
  command : Command
  /-- The consumers that it still has to deal with. -/
  names : List String
  stage : Stage

/-- A governor and the passes that are under way. -/
structure Race where
  governor : Governor
  passes : List Pass

/-- What happens next in a race. -/
inductive Race.Move where
  /-- A signal is raised, and moves the count. -/
  | raise (signal : Signal)
  /-- A pass takes its next step. -/
  | go (index : Nat)

/-- A step of a pass: the governor after it, what is left of the pass, and what was done. -/
def Pass.advance (pass : Pass) (governor : Governor) : Governor × Option Pass × List Act :=
  match pass.names, pass.stage with
  | [], _ => (governor, none, [])
  | _ :: _, .look =>
      if governor.applies pass.command then (governor, some { pass with stage := .ask }, [])
      else (governor, none, [])
  | name :: rest, .ask =>
      if (governor.fleet.consumer name).needs pass.command then
        (governor, some { pass with stage := .tell }, [])
      else
        (governor, some ⟨pass.command, rest, .look⟩, [])
  | name :: rest, .tell =>
      ((governor.tell pass.command name).1, some ⟨pass.command, rest, .look⟩,
        [.tell pass.command name])

namespace Race

/-- The pass that a signal calls for. -/
def called (governor : Governor) (signal : Signal) : List Pass :=
  ((governor.count signal).2.2.map fun command =>
    ⟨command, governor.fleet.registry.handles governor.topic, .look⟩).toList

/-- A step of a race. -/
def step (race : Race) : Move → Option (Race × List Act)
  | .raise signal =>
      if race.governor.settings.enabled then
        some (⟨(race.governor.count signal).1, race.passes ++ called race.governor signal⟩,
          [.count signal])
      else
        some (race, [])
  | .go index =>
      race.passes[index]?.map fun pass =>
        let (governor, next, acts) := pass.advance race.governor
        (⟨governor, race.passes.take index ++ next.toList ++ race.passes.drop (index + 1)⟩, acts)

/-- A step raises a signal, takes a pass further, or does nothing. -/
theorem step_cases {race next : Race} {move : Move} {acts : List Act}
    (taken : race.step move = some (next, acts)) :
    (∃ signal, race.governor.settings.enabled = true ∧ acts = [.count signal] ∧
      next = ⟨(race.governor.count signal).1, race.passes ++ called race.governor signal⟩) ∨
    (∃ front pass back, race.passes = front ++ pass :: back ∧
      acts = (pass.advance race.governor).2.2 ∧
      next = ⟨(pass.advance race.governor).1,
        front ++ (pass.advance race.governor).2.1.toList ++ back⟩) ∨
    (acts = [] ∧ next = race) := by
  cases move with
  | raise signal =>
      simp only [step] at taken
      split at taken
      · rename_i enabled
        obtain ⟨rfl, rfl⟩ := Prod.mk.inj (Option.some.inj taken)
        exact .inl ⟨signal, enabled, rfl, rfl⟩
      · obtain ⟨rfl, rfl⟩ := Prod.mk.inj (Option.some.inj taken)
        exact .inr (.inr ⟨rfl, rfl⟩)
  | go index =>
      obtain ⟨pass, found, rest⟩ := Option.map_eq_some_iff.mp taken
      obtain ⟨rfl, rfl⟩ := Prod.mk.inj rest
      obtain ⟨within, rfl⟩ := List.getElem?_eq_some_iff.mp found
      refine .inr (.inl ⟨race.passes.take index, race.passes[index], race.passes.drop (index + 1),
        ?_, rfl, rfl⟩)
      rw [← List.drop_eq_getElem_cons within, List.take_append_drop]

/-! ## A signal that nobody interrupts -/

/-- A pass on its own gives the command to those consumers that need it. -/
theorem run_pass (raise : Signal → Governor → Governor × List Governor.Event)
    (acts : Signal → Governor → List Act) (command : Command) (names : List String)
    (governor : Governor)
    (silent : ∀ name ∈ names, (governor.fleet.consumer name).raised command = []) :
    ∃ steps, runOf step ⟨governor, [⟨command, names, .look⟩]⟩ (List.replicate steps (.go 0)) =
      some (⟨(Governor.pass raise command names governor).1, []⟩,
        Governor.passActs acts command names governor) := by
  induction names generalizing governor with
  | nil => exact ⟨1, rfl⟩
  | cons name rest ih =>
      obtain ⟨nothing, others⟩ := List.forall_mem_cons.mp silent
      unfold Governor.pass Governor.passActs
      cases applies : governor.applies command with
      | false =>
          refine ⟨1, ?_⟩
          simp [runOf, step, Pass.advance, applies]
      | true =>
          cases needs : (governor.fleet.consumer name).needs command with
          | false =>
              obtain ⟨steps, run⟩ := ih governor others
              refine ⟨steps + 2, ?_⟩
              simp [List.replicate_succ, runOf, step, Pass.advance, applies, needs, run]
          | true =>
              obtain ⟨steps, run⟩ :=
                ih (governor.tell command name).1 (Governor.silent_tell name others)
              refine ⟨steps + 3, ?_⟩
              simp [List.replicate_succ, runOf, step, Pass.advance, applies, needs, run, nothing,
                Governor.raiseAll, Governor.actsAll, Governor.performAll, Governor.perform]

/-- A signal whose steps nobody interrupts is the signal as a whole. -/
theorem run_alone {governor : Governor} {signal : Signal} (quiet : governor.Quiet signal) :
    ∃ steps, runOf step ⟨governor, []⟩ (.raise signal :: List.replicate steps (.go 0)) =
      some (⟨(governor.raise signal).1, []⟩, governor.acts signal) := by
  obtain ⟨raise, acts, _, _, raised, acted⟩ := governor.exists_inner signal
  rw [raised, acted]
  unfold Governor.raiseWith Governor.signalActs
  cases enabled : governor.settings.enabled with
  | false => exact ⟨0, by simp [runOf, step, enabled]⟩
  | true =>
      have frame := governor.count_eq signal
      unfold Governor.Quiet at quiet
      cases counted : governor.count signal with
      | mk moved outcome =>
          obtain ⟨events, command⟩ := outcome
          rw [counted] at frame quiet
          cases command with
          | none =>
              have begun : called governor signal = [] := by rw [called, counted]; rfl
              exact ⟨0, by simp [runOf, step, enabled, counted, begun]⟩
          | some command =>
              have names : moved.fleet.registry.handles moved.topic =
                  governor.fleet.registry.handles governor.topic := by
                dsimp only at frame
                rw [frame]
              have silent : ∀ name ∈ moved.fleet.registry.handles moved.topic,
                  (moved.fleet.consumer name).raised command = [] := by
                dsimp only at frame
                rw [frame]
                exact quiet command rfl
              have begun : called governor signal =
                  [⟨command, moved.fleet.registry.handles moved.topic, .look⟩] := by
                rw [called, counted, names]
                rfl
              obtain ⟨steps, run⟩ := run_pass raise acts command _ moved silent
              exact ⟨steps, by simp [runOf, step, enabled, counted, begun, run]⟩

/-! ## Commands that come late -/

/-- The last command to a consumer came late: the count already called for the other one. -/
def Late (start : Governor) (acts : List Act) (command : Command) (name : String) : Prop :=
  ∃ front told back, acts = front ++ .tell told name :: back ∧ told ≠ command ∧
    (∀ later, .tell later name ∉ back) ∧ (start.performAll front).applies command = true

/-- A consumer does what a command says, or was last given another one that came late. -/
def Settled (start : Governor) (acts : List Act) (command : Command) (name : String) : Prop :=
  ((start.performAll acts).fleet.consumer name).paused = (command == .pause) ∨
    Late start acts command name

section Settled

variable {start : Governor} {acts : List Act} {command : Command} {name : String}
  (reliable : (start.fleet.consumer name).failing = false)
include reliable

theorem Late.paused (late : Late start acts command name) :
    ((start.performAll acts).fleet.consumer name).paused ≠ (command == .pause) := by
  obtain ⟨front, told, back, rfl, other, last, _⟩ := late
  rw [Governor.paused_of_last reliable front told last]
  cases told <;> cases command <;> simp at other ⊢

/-- No act unsettles a consumer while the count calls for the command. -/
theorem Settled.concat (settled : Settled start acts command name) {act : Act}
    (applies : (start.performAll (acts ++ [act])).applies command = true) :
    Settled start (acts ++ [act]) command name := by
  have later (untold : ∀ told, act ≠ .tell told name)
      (same : ((start.performAll acts).perform act).fleet.consumer name =
        (start.performAll acts).fleet.consumer name) :
      Settled start (acts ++ [act]) command name := by
    rcases settled with obeys | ⟨front, told, back, rfl, other, last, called⟩
    · left
      rw [Governor.performAll_concat, same, obeys]
    · refine .inr ⟨front, told, back ++ [act], by simp, other, fun late member => ?_, called⟩
      rcases List.mem_append.mp member with early | now
      · exact last late early
      · exact untold late (List.mem_singleton.mp now).symm
  cases act with
  | count signal =>
      exact later (by simp) (by rw [Governor.perform, Governor.fleet_count])
  | tell told other =>
      by_cases own : other = name
      · subst own
        rw [Governor.performAll_concat, Governor.perform, Governor.applies_tell] at applies
        by_cases same : told = command
        · subst same
          left
          exact Governor.paused_of_last reliable acts told (by simp)
        · exact .inr ⟨acts, told, [], rfl, same, by simp, applies⟩
      · refine later (by simp [own]) ?_
        rw [Governor.perform, Governor.consumer_tell, if_neg own]

end Settled

/-! ## Every consumer is dealt with -/

/-- A step of a pass gives its command once, or leaves the governor alone. -/
theorem advance_cases (pass : Pass) (governor : Governor) :
    ((pass.advance governor).2.2 = [] ∧ (pass.advance governor).1 = governor) ∨
      ∃ name, (pass.advance governor).2.2 = [.tell pass.command name] ∧
        (pass.advance governor).1 = (governor.tell pass.command name).1 := by
  unfold Pass.advance
  split
  · exact .inl ⟨rfl, rfl⟩
  · split <;> exact .inl ⟨rfl, rfl⟩
  · split <;> exact .inl ⟨rfl, rfl⟩
  · exact .inr ⟨_, rfl, rfl⟩

theorem performAll_advance (pass : Pass) (governor : Governor) :
    governor.performAll (pass.advance governor).2.2 = (pass.advance governor).1 := by
  obtain ⟨nothing, same⟩ | ⟨name, now, told⟩ := advance_cases pass governor
  · rw [nothing, same]
    rfl
  · rw [now, told]
    rfl

theorem applies_advance (pass : Pass) (governor : Governor) (command : Command) :
    (pass.advance governor).1.applies command = governor.applies command := by
  obtain ⟨_, same⟩ | ⟨name, _, told⟩ := advance_cases pass governor
  · rw [same]
  · rw [told, Governor.applies_tell]

/-- A pass keeps a consumer until it does what it is told. -/
theorem advance_keeps {pass : Pass} {governor : Governor} {name : String}
    (reliable : (governor.fleet.consumer name).failing = false)
    (applies : governor.applies pass.command = true) (ahead : name ∈ pass.names) :
    ((pass.advance governor).1.fleet.consumer name).paused = (pass.command == .pause) ∨
      ∃ next, (pass.advance governor).2.1 = some next ∧ next.command = pass.command ∧
        name ∈ next.names := by
  obtain ⟨command, names, stage⟩ := pass
  cases names with
  | nil => simp at ahead
  | cons first rest =>
      cases stage with
      | look =>
          refine .inr ⟨⟨command, first :: rest, .ask⟩, ?_, rfl, ahead⟩
          simp [Pass.advance, applies]
      | ask =>
          cases needs : (governor.fleet.consumer first).needs command with
          | true =>
              refine .inr ⟨⟨command, first :: rest, .tell⟩, ?_, rfl, ahead⟩
              simp [Pass.advance, needs]
          | false =>
              rcases List.mem_cons.mp ahead with rfl | behind
              · left
                simp only [Pass.advance, needs, Bool.false_eq_true, if_false]
                exact Consumer.paused_of_not_needs needs
              · refine .inr ⟨⟨command, rest, .look⟩, ?_, rfl, behind⟩
                simp [Pass.advance, needs]
      | tell =>
          rcases List.mem_cons.mp ahead with rfl | behind
          · left
            rw [Pass.advance, Governor.consumer_tell, if_pos rfl]
            exact Consumer.paused_obey reliable command
          · exact .inr ⟨⟨command, rest, .look⟩, rfl, rfl, behind⟩

/-- A consumer that needs a command still has it ahead, unless an earlier one came late. -/
def Covered (start : Governor) (race : Race) (acts : List Act) (command : Command)
    (name : String) : Prop :=
  race.governor.applies command = true →
    Settled start acts command name ∨
      ∃ pass ∈ race.passes, pass.command = command ∧ name ∈ pass.names

theorem performAll_step {race next : Race} {move : Move} {acts : List Act}
    (taken : race.step move = some (next, acts)) :
    race.governor.performAll acts = next.governor := by
  obtain ⟨signal, _, rfl, rfl⟩ | ⟨_, pass, _, _, rfl, rfl⟩ | ⟨rfl, rfl⟩ := step_cases taken
  · rfl
  · exact performAll_advance pass race.governor
  · rfl

/-- No count calls for both commands. -/
theorem applies_inj {governor : Governor} {first second : Command}
    (apart : governor.settings.low < governor.settings.high)
    (one : governor.applies first = true) (other : governor.applies second = true) :
    first = second := by
  have exclude (high : governor.settings.high ≤ governor.inFlight)
      (low : governor.inFlight ≤ governor.settings.low) : False :=
    UInt64.not_lt.mpr (UInt64.le_trans high low) apart
  cases first <;> cases second <;> try rfl
  · exact (exclude (of_decide_eq_true one) (of_decide_eq_true other)).elim
  · exact (exclude (of_decide_eq_true other) (of_decide_eq_true one)).elim

/-- A count that calls for a command after a signal did so before, unless the signal itself does. -/
theorem called_of_applies {governor : Governor} {signal : Signal} {command : Command}
    (apart : governor.settings.low < governor.settings.high)
    (enabled : governor.settings.enabled = true) (room : governor.Room signal)
    (applies : (governor.count signal).1.applies command = true) :
    (governor.count signal).2.2 = some command ∨ governor.applies command = true := by
  rw [Governor.count_of_enabled enabled] at applies
  cases told : governor.given signal with
  | none =>
      right
      obtain ⟨low, high⟩ := Governor.given_none room told
      cases command with
      | pause => exact decide_eq_true (high (of_decide_eq_true applies))
      | resume => exact decide_eq_true (low (of_decide_eq_true applies))
  | some other =>
      left
      obtain ⟨calls, also⟩ := Governor.given_eq_some told
      have apart : ({ governor with
        inFlight := governor.countAfter signal } : Governor).settings.low < _ := apart
      rw [calls, applies_inj apart also applies]

section Runs

variable {start : Governor} {name : String}
  (apart : start.settings.low < start.settings.high) (commands : start.Commands name)
include apart commands

/-- A signal has every consumer ahead if it calls for a command that was not called for before. -/
theorem Covered.raise {race : Race} {acts : List Act} {command : Command} {signal : Signal}
    (replays : start.performAll acts = race.governor)
    (enabled : race.governor.settings.enabled = true) (room : race.governor.Room signal)
    (covered : Covered start race acts command name) :
    Covered start
      ⟨(race.governor.count signal).1, race.passes ++ called race.governor signal⟩
      (acts ++ [.count signal]) command name := by
  have kept := start.kept_performAll acts
  have present := commands.performAll acts
  rw [replays] at kept present
  intro applies
  rcases called_of_applies (by rwa [kept.settings]) enabled room applies with calls | before
  · refine .inr ⟨⟨command, race.governor.fleet.registry.handles race.governor.topic, .look⟩,
      List.mem_append_right _ ?_, rfl, present.listed⟩
    simp [called, calls]
  · rcases covered before with settled | ⟨pass, member, mine⟩
    · refine .inl (settled.concat commands.reliable ?_)
      rw [Governor.performAll_concat, replays]
      exact applies
    · exact .inr ⟨pass, List.mem_append_left _ member, mine⟩

omit apart in
/-- A pass that goes on deals with a consumer, or still has it ahead. -/
theorem Covered.go {race : Race} {acts : List Act} {command : Command} {pass : Pass}
    {front back : List Pass} (replays : start.performAll acts = race.governor)
    (passes : race.passes = front ++ pass :: back)
    (covered : Covered start race acts command name) :
    Covered start
      ⟨(pass.advance race.governor).1, front ++ (pass.advance race.governor).2.1.toList ++ back⟩
      (acts ++ (pass.advance race.governor).2.2) command name := by
  have present := commands.performAll acts
  have onward : start.performAll (acts ++ (pass.advance race.governor).2.2) =
      (pass.advance race.governor).1 := by
    rw [Governor.performAll_append, replays, performAll_advance]
  rw [replays] at present
  intro applies
  rw [applies_advance] at applies
  rcases covered applies with settled | ⟨other, member, rfl, ahead⟩
  · left
    obtain ⟨nothing, _⟩ | ⟨told, now, _⟩ := advance_cases pass race.governor
    · rwa [nothing, List.append_nil]
    · rw [now] at onward ⊢
      refine settled.concat commands.reliable ?_
      rw [onward, applies_advance]
      exact applies
  · rw [passes] at member
    rcases List.mem_append.mp member with before | here
    · exact .inr ⟨other, by simp [before], rfl, ahead⟩
    · rcases List.mem_cons.mp here with rfl | behind
      · rcases advance_keeps present.reliable applies ahead with obeys | ⟨next, left, mine⟩
        · exact .inl (.inl (by rwa [onward]))
        · exact .inr ⟨next, by simp [left], mine⟩
      · exact .inr ⟨other, by simp [behind], rfl, ahead⟩

/-- A step of a race leaves no consumer out. -/
theorem Covered.step {race next : Race} {move : Move} {earlier now : List Act} {command : Command}
    (replays : start.performAll earlier = race.governor)
    (fits : Along Fitting race.governor now) (taken : race.step move = some (next, now))
    (covered : Covered start race earlier command name) :
    Covered start next (earlier ++ now) command name := by
  obtain ⟨signal, enabled, rfl, rfl⟩ | ⟨front, pass, back, passes, rfl, rfl⟩ | ⟨rfl, rfl⟩ :=
    step_cases taken
  · exact covered.raise apart commands replays enabled fits.1
  · exact covered.go commands replays passes
  · rwa [List.append_nil]

/-- After every run a consumer that needs a command still has it ahead, unless one came late. -/
theorem covered_of_run {race : Race} {moves : List Move} {acts : List Act}
    (heeded : start.Heeded name) (run : runOf step ⟨start, []⟩ moves = some (race, acts))
    (fits : Along Fitting start acts) :
    start.performAll acts = race.governor ∧
      ∀ command, Covered start race acts command name := by
  revert fits
  refine runOf_induction (motive := fun _ race acts => Along Fitting start acts →
    start.performAll acts = race.governor ∧ ∀ command, Covered start race acts command name)
    ?_ ?_ run
  · intro _
    exact ⟨rfl, fun command applies => .inl (.inl (Governor.heeded_iff.mp heeded command applies))⟩
  · intro _ race earlier move next now _ ih taken fits
    obtain ⟨before, last⟩ := Governor.along_append.mp fits
    obtain ⟨replays, covered⟩ := ih before
    rw [replays] at last
    refine ⟨?_, fun command => (covered command).step apart commands replays last taken⟩
    rw [Governor.performAll_append, replays, performAll_step taken]

end Runs

/-- A command is given while the count calls for it. -/
def InTime (governor : Governor) : Act → Prop
  | .count _ => True
  | .tell command _ => governor.applies command = true

instance (governor : Governor) : ∀ act, Decidable (InTime governor act)
  | .count _ => .isTrue trivial
  | .tell command _ => inferInstanceAs (Decidable (governor.applies command = true))

/-- No command is late if all are given while the count calls for them. -/
theorem not_late_of_inTime {start : Governor} {acts : List Act} {command : Command} {name : String}
    (apart : start.settings.low < start.settings.high) (inTime : Along InTime start acts) :
    ¬Late start acts command name := by
  rintro ⟨front, told, back, rfl, other, _, applies⟩
  have kept := start.kept_performAll front
  have now : (start.performAll front).applies told = true := (Governor.along_append.mp inTime).2.1
  exact other (applies_inj (by rwa [kept.settings]) now applies)

/-- However signals interleave, once no pass is under way a consumer does what the count calls for
exactly if the last command to it did not come late.  None comes late if every command is given
while the count calls for it.  A signal whose steps nobody interrupts is the signal as a whole. -/
theorem heeded_iff_not_late {start : Governor} {race : Race} {moves : List Move} {acts : List Act}
    (valid : start.settings.validate = .ok ())
    (run : runOf step ⟨start, []⟩ moves = some (race, acts)) (fits : Along Fitting start acts)
    (idle : race.passes = []) :
    (∀ name ∈ start.fleet.registry.handles start.topic, start.Heeded name →
      (start.fleet.consumer name).failing = false →
        (race.governor.Heeded name ↔ ∀ command, race.governor.applies command = true →
          ¬Late start acts command name) ∧
        (Along InTime start acts → race.governor.Heeded name)) ∧
    ∀ governor signal, governor.Quiet signal →
      ∃ steps, runOf step ⟨governor, []⟩ (.raise signal :: List.replicate steps (.go 0)) =
        some (⟨(governor.raise signal).1, []⟩, governor.acts signal) := by
  have apart := FlowSettings.low_lt_high valid
  refine ⟨fun name listed heeded reliable => ?_, fun governor signal quiet => run_alone quiet⟩
  obtain ⟨replays, covered⟩ := covered_of_run apart ⟨listed, reliable⟩ heeded run fits
  have exactly : race.governor.Heeded name ↔
      ∀ command, race.governor.applies command = true → ¬Late start acts command name := by
    rw [Governor.heeded_iff]
    refine forall₂_congr fun command applies => ?_
    constructor
    · intro obeys late
      exact late.paused reliable (by rwa [replays])
    · intro punctual
      rcases covered command applies with (obeys | late) | ⟨pass, member, _⟩
      · rwa [replays] at obeys
      · exact absurd late punctual
      · simp [idle] at member
  exact ⟨exactly, fun inTime => exactly.mpr fun _ _ => not_late_of_inTime apart inTime⟩

/-- Two consumers of the governed topic. -/
def pair : Governor :=
  .create .standard "chunks" ((Fleet.empty.register "chunks" "a").register "chunks" "b")

/-- An admission crosses a resume that has not come to the second consumer. -/
def crossing : List Move :=
  .raise (.admitted 20) :: List.replicate 7 (.go 0) ++
    .raise (.duplicate 10) :: List.replicate 3 (.go 0) ++
    .raise (.admitted 15) :: List.replicate 6 (.go 1) ++ [.go 0]

theorem crossing_is_heeded :
    ∃ race acts, runOf step ⟨pair, []⟩ crossing = some (race, acts) ∧ race.passes = [] ∧
      race.governor.inFlight = 25 ∧ race.governor.Heeded "a" ∧ race.governor.Heeded "b" := by
  have outcome : (runOf step ⟨pair, []⟩ crossing).map
      (fun (race, acts) => (race.passes.length, race.governor.inFlight, acts)) =
        some (0, 25, [.count (.admitted 20), .tell .pause "a", .tell .pause "b",
          .count (.duplicate 10), .tell .resume "a", .count (.admitted 15), .tell .pause "a"]) := by
    decide +kernel
  obtain ⟨⟨race, acts⟩, run, summary⟩ := Option.map_eq_some_iff.mp outcome
  simp only [Prod.mk.injEq, List.length_eq_zero_iff] at summary
  obtain ⟨idle, counted, rfl⟩ := summary
  have fresh : ∀ name ∈ ["a", "b"], name ∈ pair.fleet.registry.handles pair.topic ∧
      (pair.fleet.consumer name).paused = false ∧
        (pair.fleet.consumer name).failing = false := by decide +kernel
  have heeded (name : String) (member : name ∈ ["a", "b"]) : race.governor.Heeded name := by
    obtain ⟨listed, pulling, reliable⟩ := fresh name member
    exact ((heeded_iff_not_late rfl run (by decide +kernel) idle).1 name listed
      (.of_empty (by decide) rfl pulling) reliable).2 (by decide +kernel)
  exact ⟨race, _, run, idle, counted, heeded "a" (by simp), heeded "b" (by simp)⟩

/-- One consumer of the governed topic. -/
def single : Governor := .create .standard "chunks" (Fleet.empty.register "chunks" "a")

/-- A resume finds the consumer paused and is held up.  Before it goes on, another signal resumes
the consumer, and an admission that crosses the high watermark pauses it. -/
def lateResume : List Move :=
  .raise (.admitted 20) :: List.replicate 4 (.go 0) ++
    .raise (.duplicate 10) :: List.replicate 2 (.go 0) ++
    .raise .completed :: List.replicate 4 (.go 1) ++
    .raise (.admitted 15) :: List.replicate 4 (.go 1) ++ List.replicate 2 (.go 0)

/-- A pause finds the consumer running and is held up until the count is drained. -/
def latePause : List Move :=
  .raise (.admitted 20) :: List.replicate 2 (.go 0) ++
    .raise (.duplicate 20) :: List.replicate 3 (.go 1) ++ List.replicate 2 (.go 0)

/-- Signals that race can leave a consumer running above the high watermark, and paused with nothing
in flight. -/
theorem late_commands_are_not_undone :
    single.settings.validate = .ok () ∧
    single.fleet.registry.handles single.topic = ["a"] ∧
    (∃ race acts, runOf step ⟨single, []⟩ lateResume = some (race, acts) ∧
      Along Fitting single acts ∧ race.passes = [] ∧
      single.settings.high ≤ race.governor.inFlight ∧
      race.governor.fleet.consumer "a" = ⟨false, false, 2, 2, []⟩) ∧
    ∃ race acts, runOf step ⟨single, []⟩ latePause = some (race, acts) ∧
      Along Fitting single acts ∧ race.passes = [] ∧ race.governor.inFlight = 0 ∧
      race.governor.fleet.consumer "a" = ⟨true, false, 1, 0, []⟩ := by
  have resumed : (runOf step ⟨single, []⟩ lateResume).map
      (fun (race, acts) => (race.passes.length, race.governor.inFlight,
        race.governor.fleet.consumer "a", acts)) =
        some (0, 24, ⟨false, false, 2, 2, []⟩, [.count (.admitted 20), .tell .pause "a",
          .count (.duplicate 10), .count .completed, .tell .resume "a", .count (.admitted 15),
          .tell .pause "a", .tell .resume "a"]) := by
    decide +kernel
  have paused : (runOf step ⟨single, []⟩ latePause).map
      (fun (race, acts) => (race.passes.length, race.governor.inFlight,
        race.governor.fleet.consumer "a", acts)) =
        some (0, 0, ⟨true, false, 1, 0, []⟩,
          [.count (.admitted 20), .count (.duplicate 20), .tell .pause "a"]) := by
    decide +kernel
  obtain ⟨⟨first, _⟩, ran, summary⟩ := Option.map_eq_some_iff.mp resumed
  obtain ⟨⟨second, _⟩, went, account⟩ := Option.map_eq_some_iff.mp paused
  simp only [Prod.mk.injEq, List.length_eq_zero_iff] at summary account
  obtain ⟨idle, counted, running, rfl⟩ := summary
  obtain ⟨done, drained, stopped, rfl⟩ := account
  refine ⟨rfl, by decide +kernel, ⟨first, _, ran, by decide +kernel, idle, ?_, running⟩,
    second, _, went, by decide +kernel, done, drained, stopped⟩
  rw [counted]
  decide

end Race
end Intake
