import Intake.Proofs.Flow.Balance
import Intake.Proofs.Flow.Hysteresis

/-!
# Accounts of commands

Every command that a governor gives is answered: the consumer obeys it, or it fails.  The answers
are kept in three places, in the consumers' own counts, in whether they are paused, and in the
metrics.  `Governor.answers` reads them off the acts of a signal, and this file proves that the
three places agree with them, and so with each other, whatever is signalled and however the
consumers fail.
-/

namespace Intake

namespace Consumer

/-- How often a consumer was given a command. -/
def calls (consumer : Consumer) : Command → Nat
  | .pause => consumer.pauseCalls
  | .resume => consumer.resumeCalls

/-- A command is counted even if it fails. -/
theorem calls_obey (consumer : Consumer) (told command : Command) :
    (consumer.obey told).calls command =
      consumer.calls command + if told = command then 1 else 0 := by
  cases failing : consumer.failing <;> cases told <;> cases command <;>
    simp [obey, count, calls, failing]

end Consumer

namespace Governor

/-! ## Answers -/

/-- How a consumer took a command. -/
structure Answer where
  command : Command
  name : String
  /-- The failure if there is one. -/
  failure : Option ConsumerFailure

namespace Answer

/-- What is reported of it. -/
def event (answer : Answer) : Event :=
  match answer.failure with
  | none => .obeyed answer.command
  | some failure => .refused answer.command failure

/-- Whether it is about a command. -/
def isOf (command : Command) (answer : Answer) : Bool := answer.command == command

/-- Whether it is about a command that was obeyed. -/
def isSuccess (command : Command) (answer : Answer) : Bool :=
  answer.isOf command && answer.failure.isNone

end Answer

/-- The answer of a consumer to a command. -/
def answer (governor : Governor) (command : Command) (name : String) : Answer :=
  ⟨command, name, (governor.fleet.tell command name).1⟩

theorem event_answer (governor : Governor) (command : Command) (name : String) :
    (governor.answer command name).event = (governor.tell command name).2 := by
  rcases told : governor.fleet.tell command name with ⟨_ | failure, fleet⟩ <;>
    simp [answer, tell, Answer.event, told]

/-- The answers of the consumers to the commands among acts. -/
def answers : Governor → List Act → List Answer
  | _, [] => []
  | governor, .count signal :: rest => answers (governor.perform (.count signal)) rest
  | governor, .tell command name :: rest =>
      governor.answer command name :: answers (governor.perform (.tell command name)) rest

theorem answers_append (governor : Governor) (front back : List Act) :
    governor.answers (front ++ back) =
      governor.answers front ++ (governor.performAll front).answers back := by
  induction front generalizing governor with
  | nil => rfl
  | cons act front ih =>
      cases act with
      | count signal => exact ih _
      | tell command name => exact congrArg (_ :: ·) (ih _)

/-- How many answers of some kind a consumer gave. -/
def tally (kind : Answer → Bool) (answers : List Answer) (name : String) : Nat :=
  answers.countP fun answer => kind answer && answer.name == name

/-- How often a consumer obeyed a command. -/
def successes (command : Command) (answers : List Answer) (name : String) : Nat :=
  tally (Answer.isSuccess command) answers name

/-! ## What consumers keep -/

/-- Answers tell how the consumers came from one state to another. -/
structure Accounted (before : Governor) (answers : List Answer) (after : Governor) : Prop where
  /-- Each command that is obeyed turns a consumer, so it is paused as often as it is resumed, and
  once more if it is paused in the end. -/
  paused : ∀ name,
    successes .pause answers name + (before.fleet.consumer name).paused.toNat =
      successes .resume answers name + (after.fleet.consumer name).paused.toNat
  /-- Each command is counted by the consumer, whether it is obeyed or not. -/
  calls : ∀ name command, (after.fleet.consumer name).calls command =
    (before.fleet.consumer name).calls command + tally (Answer.isOf command) answers name
  /-- Only the consumers of the topic are told. -/
  listed : ∀ answer ∈ answers, answer.name ∈ before.fleet.registry.handles before.topic

namespace Accounted

/-- Nothing is answered where the consumers only begin or cease to fail. -/
theorem of_same {before after : Governor}
    (same : ∀ name, (after.fleet.consumer name).paused = (before.fleet.consumer name).paused ∧
      ∀ command, (after.fleet.consumer name).calls command =
        (before.fleet.consumer name).calls command) :
    Accounted before [] after where
  paused name := by rw [(same name).1]; rfl
  calls name command := (same name).2 command
  listed := by simp

theorem trans {before middle after : Governor} {first second : List Answer}
    (earlier : Accounted before first middle) (later : Accounted middle second after)
    (kept : Kept before middle) : Accounted before (first ++ second) after where
  paused name := by
    have front := earlier.paused name
    have back := later.paused name
    simp only [successes, tally, List.countP_append] at front back ⊢
    omega
  calls name command := by
    rw [later.calls, earlier.calls, tally, tally, tally, List.countP_append, Nat.add_assoc]
  listed := by
    intro answer member
    rcases List.mem_append.mp member with early | late
    · exact earlier.listed answer early
    · have among := later.listed answer late
      rwa [kept.registry, kept.topic] at among

/-- A command that is needed turns the consumer if it is obeyed, and is counted in any case. -/
theorem tell {governor : Governor} {command : Command} {name : String}
    (needs : (governor.fleet.consumer name).needs command = true)
    (listed : name ∈ governor.fleet.registry.handles governor.topic) :
    Accounted governor [governor.answer command name] (governor.tell command name).1 where
  paused other := by
    rw [consumer_tell]
    by_cases same : name = other
    · subst same
      rw [if_pos rfl]
      cases command <;> cases failing : (governor.fleet.consumer name).failing <;>
        simp_all [successes, tally, answer, Fleet.tell, Answer.isSuccess, Answer.isOf,
          Consumer.obey, Consumer.count]
    · simp [same, successes, tally, answer]
  calls other told := by
    rw [consumer_tell]
    by_cases same : name = other
    · subst same
      rw [if_pos rfl, Consumer.calls_obey]
      simp [tally, answer, Answer.isOf, List.countP_cons]
    · simp [same, tally, answer]
  listed := by simpa [answer] using listed

/-- A move of the count tells nobody anything. -/
private theorem count (governor : Governor) (signal : Signal) :
    Accounted governor [] (governor.perform (.count signal)) := by
  refine of_same fun name => ?_
  rw [perform, fleet_count]
  exact ⟨rfl, fun _ => rfl⟩

end Accounted

/-- A command is given to a consumer of the topic that needs it. -/
def Due (governor : Governor) : Act → Prop
  | .count _ => True
  | .tell command name => (governor.fleet.consumer name).needs command = true ∧
      name ∈ governor.fleet.registry.handles governor.topic

theorem due_acts (signal : Signal) (governor : Governor) :
    Along Due governor (governor.acts signal) :=
  Applies.along_acts ⟨fun _ _ => trivial, fun _ _ _ _ needs listed => ⟨needs, listed⟩⟩
    signal governor

/-- Acts are accounted for by their answers. -/
theorem accounted_performAll {governor : Governor} {acts : List Act}
    (due : Along Due governor acts) :
    Accounted governor (governor.answers acts) (governor.performAll acts) := by
  induction acts generalizing governor with
  | nil => exact .of_same fun name => ⟨rfl, fun _ => rfl⟩
  | cons act acts ih =>
      have kept := governor.kept_perform act
      rw [performAll_cons]
      cases act with
      | count signal => exact (Accounted.count governor signal).trans (ih due.2) kept
      | tell command name =>
          exact (Accounted.tell due.1.1 due.1.2).trans (ih due.2) kept

/-- A signal is accounted for by the answers to its commands. -/
theorem accounted_raise (signal : Signal) (governor : Governor) :
    Accounted governor (governor.answers (governor.acts signal)) (governor.raise signal).1 := by
  rw [← performAll_acts]
  exact accounted_performAll (due_acts signal governor)

/-! ## What is reported -/

section Replies

variable {raise : Signal → Governor → Governor × List Event}
  {acts : Signal → Governor → List Act}

/-- Performing the acts of a signal comes to raising it, and the replies that it reports are the
answers to their commands, in another order. -/
structure Replies (raise : Signal → Governor → Governor × List Event)
    (acts : Signal → Governor → List Act) : Prop where
  replays : Replays raise acts
  events : ∀ signal governor, ((raise signal governor).2.filter fun event => event.IsReply).Perm
    ((governor.answers (acts signal governor)).map Answer.event)

theorem Replies.all (replies : Replies raise acts) (signals : List Signal) (governor : Governor) :
    ((raiseAll raise signals governor).2.filter fun event => event.IsReply).Perm
      ((governor.answers (actsAll acts signals governor)).map Answer.event) := by
  induction signals generalizing governor with
  | nil => exact .refl _
  | cons signal rest ih =>
      rw [raiseAll, actsAll, answers_append, List.map_append, List.filter_append, replies.replays]
      exact (replies.events signal governor).append (ih _)

/-- What a consumer raises is answered after its own command and reported before it. -/
theorem Replies.pass (replies : Replies raise acts) (command : Command) (names : List String)
    (governor : Governor) :
    ((pass raise command names governor).2.filter fun event => event.IsReply).Perm
      ((governor.answers (passActs acts command names governor)).map Answer.event) := by
  induction names generalizing governor with
  | nil => exact .refl _
  | cons name rest ih =>
      unfold Governor.pass passActs
      split
      · dsimp only
        split
        · have turn := performAll_turn replies.replays command name governor
          have own : (governor.tell command name).2.IsReply := by
            simpa [Event.ofCount] using governor.ofCount_tell command name
          rw [answers_append, turn, answers, List.cons_append, List.map_cons, List.map_append,
            event_answer, List.filter_append, List.filter_cons_of_pos (by simpa using own)]
          refine List.perm_middle.trans (List.Perm.cons _ ?_)
          exact (replies.all _ _).append (ih _)
        · exact ih governor
      · exact .refl _

theorem Replies.signal (replies : Replies raise acts) :
    Replies (raiseWith raise) (signalActs acts) := by
  refine ⟨performAll_signalActs replies.replays, fun signal governor => ?_⟩
  have moved : governor.perform (.count signal) = (governor.count signal).1 := rfl
  have silent : ((governor.count signal).2.1.filter fun event => event.IsReply) = [] := by
    refine List.filter_eq_nil_iff.mpr fun event member => ?_
    have own := List.filter_eq_self.mp (filter_report ⟨governor, signal⟩) event member
    simpa [Event.ofCount] using own
  unfold raiseWith signalActs
  split
  · generalize governor.count signal = outcome at moved silent
    obtain ⟨next, events, command⟩ := outcome
    dsimp only at moved silent
    cases command with
    | none =>
        dsimp only
        rw [silent]
        exact .refl _
    | some command =>
        dsimp only
        rw [List.filter_append, silent, answers, moved]
        exact replies.pass command _ next
  · exact .refl _

end Replies

theorem replies_actsNested (depth : Nat) : Replies (raiseNested depth) (actsNested depth) := by
  induction depth with
  | zero => exact .signal ⟨fun _ _ => rfl, fun _ _ => .refl _⟩
  | succ depth ih => exact .signal ih

/-- What is reported of the consumers are the answers to the commands of a signal. -/
theorem replies_acts : Replies Governor.raise Governor.acts :=
  ⟨performAll_acts, fun signal governor => (replies_actsNested _).events signal governor⟩

/-! ## Runs -/

/-- What is reported along steps. -/
def reported (governor : Governor) : List Step → List Event
  | [] => []
  | .signal signal :: rest =>
      (governor.raise signal).2 ++ reported (governor.after (.signal signal)) rest
  | .setFailing name failing :: rest => reported (governor.after (.setFailing name failing)) rest

/-- The answers of the consumers along steps. -/
def answered (governor : Governor) : List Step → List Answer
  | [] => []
  | .signal signal :: rest =>
      governor.answers (governor.acts signal) ++ answered (governor.after (.signal signal)) rest
  | .setFailing name failing :: rest => answered (governor.after (.setFailing name failing)) rest

variable {governor : Governor} {steps : List Step}

private theorem kept_raise_any (signal : Signal) (governor : Governor) :
    Kept governor (governor.raise signal).1 := by
  rw [← performAll_acts]
  exact governor.kept_performAll _

/-- The answers along steps are what is reported of the consumers. -/
theorem replies_answered (governor : Governor) (steps : List Step) :
    ((governor.reported steps).filter fun event => event.IsReply).Perm
      ((governor.answered steps).map Answer.event) := by
  induction steps generalizing governor with
  | nil => exact .refl _
  | cons step rest ih =>
      cases step with
      | signal signal =>
          rw [reported, answered, List.filter_append, List.map_append]
          exact (replies_acts.events signal governor).append (ih _)
      | setFailing name failing => exact ih _

/-- The answers along steps account for all that became of the consumers. -/
theorem accounted_play (governor : Governor) (steps : List Step) :
    Accounted governor (governor.answered steps) (governor.play steps) := by
  induction steps generalizing governor with
  | nil => exact .of_same fun name => ⟨rfl, fun _ => rfl⟩
  | cons step rest ih =>
      cases step with
      | signal signal =>
          exact (accounted_raise signal governor).trans (ih _) (kept_raise_any signal governor)
      | setFailing name failing =>
          have idle : Accounted governor [] (governor.after (.setFailing name failing)) := by
            refine .of_same fun other => ?_
            simp only [after, consumer_setFailing]
            split
            · rename_i same
              subst same
              exact ⟨rfl, fun command => by cases command <;> rfl⟩
            · exact ⟨rfl, fun _ => rfl⟩
          exact idle.trans (ih _) (governor.kept_setFailing name failing)

/-! ## Sums -/

/-- What is counted of each consumer comes to what is counted of all of them. -/
private theorem sum_tally {answers : List Answer} {names : List String} (once : names.Nodup)
    (listed : ∀ answer ∈ answers, answer.name ∈ names) (kind : Answer → Bool) :
    (names.map (tally kind answers)).sum = answers.countP kind := by
  rw [← List.sum_toFinset _ once]
  induction answers with
  | nil => exact Finset.sum_const_zero
  | cons answer rest ih =>
      obtain ⟨first, others⟩ := List.forall_mem_cons.mp listed
      have split : ∀ name, tally kind (answer :: rest) name =
          tally kind rest name + if kind answer && answer.name == name then 1 else 0 :=
        fun _ => List.countP_cons
      simp only [split, Finset.sum_add_distrib]
      rw [ih others, List.countP_cons]
      cases kind answer <;> simp [first]

/-- Whether a command failed. -/
def Event.isRefusal (command : Command) : Event → Bool
  | .refused other _ => other == command
  | _ => false

/-- The metrics after steps, from none. -/
def metricsOf (governor : Governor) (steps : List Step) : Metrics :=
  Metrics.empty.recordAll ((governor.reported steps).flatMap Event.notices)

/-- A counter of replies counts the answers that they report. -/
private theorem counter_metricsOf {series : Series} {kind : Event → Bool}
    (each : ∀ event : Event, event.notices.count (.counted series) = if kind event then 1 else 0)
    (reply : ∀ event, kind event = true → event.IsReply) (governor : Governor)
    (steps : List Step) :
    (governor.metricsOf steps).counter series =
      (governor.answered steps).countP fun answer => kind answer.event := by
  have among : (governor.reported steps).countP kind =
      ((governor.reported steps).filter fun event => event.IsReply).countP kind := by
    rw [List.countP_filter]
    refine List.countP_congr fun event _ => ?_
    have own := reply event
    simp only [Bool.and_eq_true, decide_eq_true_eq]
    exact ⟨fun held => ⟨held, own held⟩, And.left⟩
  rw [metricsOf, Metrics.counter_recordAll, Notice.count_flatMap each, among,
    (governor.replies_answered steps).countP_eq, List.countP_map]
  exact Nat.zero_add _

theorem counter_obeyed (governor : Governor) (steps : List Step) (command : Command) :
    (governor.metricsOf steps).counter (Event.obeyedSeries command) =
      (governor.answered steps).countP (Answer.isSuccess command) := by
  have each : ∀ event : Event, event.notices.count (.counted (Event.obeyedSeries command)) =
      if event == .obeyed command then 1 else 0 := by
    intro event
    cases event with
    | counted => rfl
    | shortfall cause => cases cause <;> cases command <;> decide
    | obeyed other => cases other <;> cases command <;> decide
    | refused other =>
        cases other <;> cases command <;>
          simp [Event.notices, Event.refusedSeries, Event.obeyedSeries]
  rw [counter_metricsOf each]
  · refine List.countP_congr fun answer _ => ?_
    obtain ⟨told, name, failure⟩ := answer
    cases failure <;> simp [Answer.event, Answer.isSuccess, Answer.isOf]
  · intro event same
    rw [beq_iff_eq.mp same]
    trivial

theorem counter_refused (governor : Governor) (steps : List Step) (command : Command) :
    (governor.metricsOf steps).counter (Event.refusedSeries command) =
      (governor.answered steps).countP fun answer =>
        answer.isOf command && answer.failure.isSome := by
  have each : ∀ event : Event, event.notices.count (.counted (Event.refusedSeries command)) =
      if event.isRefusal command then 1 else 0 := by
    intro event
    cases event with
    | counted => rfl
    | shortfall cause => cases cause <;> cases command <;> decide
    | obeyed other => cases other <;> cases command <;> decide
    | refused other failure =>
        cases other <;> cases command <;>
          simp [Event.notices, Event.refusedSeries, Event.isRefusal, Command.name]
  rw [counter_metricsOf each]
  · refine List.countP_congr fun answer _ => ?_
    obtain ⟨told, name, failure⟩ := answer
    cases failure <;> simp [Answer.event, Answer.isOf, Event.isRefusal]
  · intro event refusal
    cases event with
    | refused => trivial
    | counted | shortfall | obeyed => simp [Event.isRefusal] at refusal

/-- A consumer that runs and was never told anything. -/
def Untold (governor : Governor) (name : String) : Prop :=
  (governor.fleet.consumer name).paused = false ∧
    ∀ command, (governor.fleet.consumer name).calls command = 0

/-- Whatever is signalled and however the consumers fail, raise and are set up: each consumer obeyed
one pause more than resumes if it is paused and as many if it runs, the metrics count the commands
that were obeyed, and the consumers were told as many commands as were obeyed or failed. -/
theorem commands_are_accounted {governor : Governor} (steps : List Step)
    (once : (governor.fleet.registry.handles governor.topic).Nodup)
    (untold : ∀ name ∈ governor.fleet.registry.handles governor.topic, governor.Untold name) :
    (∀ name ∈ governor.fleet.registry.handles governor.topic,
      successes .pause (governor.answered steps) name =
        successes .resume (governor.answered steps) name +
          if ((governor.play steps).fleet.consumer name).paused then 1 else 0) ∧
    (∀ command, (governor.metricsOf steps).counter (Event.obeyedSeries command) =
      ((governor.fleet.registry.handles governor.topic).map
        (successes command (governor.answered steps))).sum) ∧
    (∀ command, ((governor.fleet.registry.handles governor.topic).map fun name =>
        ((governor.play steps).fleet.consumer name).calls command).sum =
      (governor.metricsOf steps).counter (Event.obeyedSeries command) +
        (governor.metricsOf steps).counter (Event.refusedSeries command)) ∧
    ((governor.reported steps).filter fun event => event.IsReply).Perm
      ((governor.answered steps).map Answer.event) := by
  have accounted := accounted_play governor steps
  refine ⟨fun name listed => ?_, fun command => ?_, fun command => ?_,
    governor.replies_answered steps⟩
  · have turned := accounted.paused name
    rw [(untold name listed).1] at turned
    cases paused : ((governor.play steps).fleet.consumer name).paused <;>
      simpa [paused] using turned
  · rw [counter_obeyed]
    exact (sum_tally once accounted.listed _).symm
  · have each : (governor.fleet.registry.handles governor.topic).map (fun name =>
        ((governor.play steps).fleet.consumer name).calls command) =
          (governor.fleet.registry.handles governor.topic).map
            (tally (Answer.isOf command) (governor.answered steps)) := by
      refine List.map_congr_left fun name listed => ?_
      rw [accounted.calls, (untold name listed).2, Nat.zero_add]
    rw [each, sum_tally once accounted.listed, counter_obeyed, counter_refused,
      List.countP_eq_countP_filter_add _ _ fun answer => answer.failure.isNone,
      List.countP_filter, List.countP_filter]
    simp only [Option.not_isNone]
    rfl

/-- Two consumers under inverted watermarks, so that a pass may undo the one before.  The first one
admits a chunk each time that it was resumed. -/
def inverted : Governor :=
  .create ⟨true, 10, 30⟩ "chunks"
    (((Fleet.empty.register "chunks" "a").register "chunks" "b").setAfterResume "a"
      [.admitted 15])

/-- Commands to the second consumer fail for a while. -/
def failingForAWhile : List Step :=
  [.signal (.admitted 12), .setFailing "b" true, .signal .completed, .signal (.duplicate 20),
    .setFailing "b" false, .signal .completed, .signal (.admitted 40)]

theorem inverted_is_accounted :
    (∀ name ∈ inverted.fleet.registry.handles inverted.topic,
      successes .pause (inverted.answered failingForAWhile) name =
        successes .resume (inverted.answered failingForAWhile) name +
          if ((inverted.play failingForAWhile).fleet.consumer name).paused then 1 else 0) ∧
    (inverted.metricsOf failingForAWhile).counter (Event.obeyedSeries .pause) = 5 ∧
    (inverted.metricsOf failingForAWhile).counter (Event.refusedSeries .resume) = 2 := by
  have once : (inverted.fleet.registry.handles inverted.topic).Nodup := by decide +kernel
  have untold : ∀ name ∈ inverted.fleet.registry.handles inverted.topic, inverted.Untold name := by
    have names : inverted.fleet.registry.handles inverted.topic = ["a", "b"] := by decide +kernel
    rw [names]
    intro name listed
    refine ⟨?_, fun command => ?_⟩ <;> revert name
    · decide +kernel
    · cases command <;> decide +kernel
  obtain ⟨turned, -, -, -⟩ := commands_are_accounted failingForAWhile once untold
  exact ⟨turned, by decide +kernel, by decide +kernel⟩

end Governor
end Intake
