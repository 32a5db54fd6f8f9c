import Intake.Proofs.Flow.Calm
import Intake.Signals

/-!
# Repeated deliveries

A chunk that comes again is counted, found to be a duplicate and taken back.  This file compares two
runs of the signals of a worker: one with repeated deliveries, and one with only the original
arrivals.  They go side by side.  An arrival of both moves both counts alike, and a repeated delivery
leaves the count where it was, although it may command the consumers meanwhile.
-/

namespace Intake

/-- What arrives at a worker. -/
inductive Arrival where
  | chunk (event : ChunkEvent)
  | record (event : RecordProcessed)

/-- What an arrival came to. -/
structure Receipt where
  /-- How a chunk was admitted. -/
  admission : Option Admission
  /-- The count afterwards. -/
  inFlight : UInt64
  effects : Effects

/-- How often an arrival reported a shortfall. -/
def Receipt.shortfalls (receipt : Receipt) (cause : Shortfall) : Nat :=
  receipt.effects.notices.count (.counted (Governor.Event.shortfallSeries cause))

/-- A mutation without the time at which its records were made. -/
def Handover.undated : Handover → Handover
  | .progress job mutation => .progress job mutation
  | .journal job batch =>
      .journal job ⟨batch.records.map fun record => { record with createdAt := .epoch }⟩

/-- A delivery in a run with repeated ones. -/
inductive Delivery where
  | original (arrival : Arrival)
  /-- A chunk comes once more. -/
  | again (event : ChunkEvent)

/-- What is delivered. -/
def Delivery.arrival : Delivery → Arrival
  | original arrival => arrival
  | again event => .chunk event

/-- What is delivered, unless it is repeated. -/
def Delivery.original? : Delivery → Option Arrival
  | original arrival => some arrival
  | again _ => none

/-- Whether an event is about the same chunk as another. -/
def ChunkEvent.Repeats (event first : ChunkEvent) : Prop :=
  event.job = first.job ∧ event.chunk = first.chunk

/-- Two receipts tell the same, except about the consumers and the time. -/
structure Receipt.Agrees (single repeated : Receipt) : Prop where
  admission : repeated.admission = single.admission
  inFlight : repeated.inFlight = single.inFlight
  shortfalls : ∀ cause, repeated.shortfalls cause = single.shortfalls cause
  handovers : repeated.effects.handovers.map Handover.undated =
    single.effects.handovers.map Handover.undated

/-- A receipt tells of a duplicate that had no effect. -/
structure Receipt.Silent (receipt : Receipt) : Prop where
  admission : receipt.admission = some .duplicate
  shortfalls : ∀ cause, receipt.shortfalls cause = 0
  handovers : receipt.effects.handovers = []

/-- The receipts of a run without repeated deliveries next to those of a run with them. -/
inductive Alongside : List Delivery → List Receipt → List Receipt → Prop where
  | nil : Alongside [] [] []
  | original {arrival : Arrival} {deliveries : List Delivery} {first again : Receipt}
      {single repeated : List Receipt} (agrees : first.Agrees again)
      (rest : Alongside deliveries single repeated) :
      Alongside (.original arrival :: deliveries) (first :: single) (again :: repeated)
  | again {event : ChunkEvent} {deliveries : List Delivery} {again : Receipt}
      {single repeated : List Receipt} (silent : again.Silent)
      (rest : Alongside deliveries single repeated) :
      Alongside (.again event :: deliveries) single (again :: repeated)

namespace Signals

/-- The signals after an arrival at some time, and what it came to. -/
def receive (now : Instant) (signals : Signals) : Arrival → Signals × Receipt
  | .chunk event =>
      let (admission, signals, effects) := signals.chunkReceived event
      (signals, ⟨some admission, signals.governor.inFlight, effects⟩)
  | .record event =>
      let (signals, effects) := signals.recordProcessed event now
      (signals, ⟨none, signals.governor.inFlight, effects⟩)

/-- What arrivals came to, given when each of them comes. -/
def receiveAll (clock : Nat → Instant) (signals : Signals) : List Arrival → List Receipt
  | [] => []
  | arrival :: rest =>
      (signals.receive (clock 0) arrival).2 ::
        receiveAll (fun place => clock (place + 1)) (signals.receive (clock 0) arrival).1 rest

/-- Counting an arrival does not take the count beyond its greatest value. -/
def Room (signals : Signals) : Arrival → Prop
  | .chunk event => signals.governor.Room (.admitted event.recordCount)
  | .record _ => True

/-- No arrival takes the count beyond its greatest value. -/
def Fits (clock : Nat → Instant) (signals : Signals) : List Arrival → Prop
  | [] => True
  | arrival :: rest =>
      signals.Room arrival ∧
        Fits (fun place => clock (place + 1)) (signals.receive (clock 0) arrival).1 rest

/-- Whether a chunk was observed. -/
def Saw (signals : Signals) (event : ChunkEvent) : Prop :=
  (event.job, event.chunk) ∈ signals.tracker.seen

/-- The signals after a chunk is noted as observed. -/
def noting (signals : Signals) (event : ChunkEvent) : Signals :=
  { signals with
    tracker := { signals.tracker with seen := (event.job, event.chunk) :: signals.tracker.seen } }

/-! ## Single arrivals -/

section Receive

variable {signals : Signals} {event : ChunkEvent} (now : Instant)

/-- A chunk that was observed before is counted and taken back. -/
theorem receive_seen (saw : signals.Saw event) :
    signals.receive now (.chunk event) =
      let counted := signals.raise (.admitted event.recordCount)
      let corrected := counted.1.raise (.duplicate event.recordCount)
      (corrected.1, ⟨some .duplicate, corrected.1.governor.inFlight,
        ⟨counted.2 ++ .counted (admissionSeries .duplicate) :: corrected.2, []⟩⟩) := by
  have known : signals.tracker.seen.contains (event.job, event.chunk) = true := by
    simpa [Saw] using saw
  simp only [receive, chunkReceived, raise, ChunkTracker.observe, known, if_true]

/-- A chunk that was not observed before is counted, and its job is created. -/
theorem receive_unseen (remembers : signals.tracker.remembers = true)
    (unseen : ¬signals.Saw event) :
    signals.receive now (.chunk event) =
      let counted := signals.raise (.admitted event.recordCount)
      (counted.1.noting event, ⟨some .fresh, counted.1.governor.inFlight,
        ⟨counted.2 ++ [.counted (admissionSeries .fresh)],
          [.progress event.job (.create event.totalRecords)]⟩⟩) := by
  have unknown : signals.tracker.seen.contains (event.job, event.chunk) = false := by
    simpa [Saw] using unseen
  simp only [receive, chunkReceived, raise, ChunkTracker.observe, unknown, remembers, if_true,
    Bool.false_eq_true, if_false]
  rfl

theorem receive_record (event : RecordProcessed) :
    signals.receive now (.record event) =
      let counted := signals.raise .completed
      (counted.1, ⟨none, counted.1.governor.inFlight, ⟨counted.2,
        [.progress event.job (.delta (.completion event.job (event.status == .completed))),
          .journal event.job ⟨[event.journalRecord now]⟩]⟩⟩) := rfl

variable (remembers : signals.tracker.remembers = true) (arrival : Arrival)
include remembers

theorem remembers_receive : (signals.receive now arrival).1.tracker.remembers = true := by
  cases arrival with
  | chunk event =>
      by_cases saw : signals.Saw event
      · rwa [receive_seen now saw]
      · rwa [receive_unseen now remembers saw]
  | record => exact remembers

/-- Exactly the chunks that arrive are observed. -/
theorem saw_receive (event : ChunkEvent) :
    (signals.receive now arrival).1.Saw event ↔
      signals.Saw event ∨ ∃ first, arrival = .chunk first ∧ event.Repeats first := by
  cases arrival with
  | chunk first =>
      simp only [Arrival.chunk.injEq, exists_eq_left']
      by_cases saw : signals.Saw first
      · rw [receive_seen now saw]
        constructor
        · exact .inl
        · rintro (before | ⟨job, chunk⟩)
          · exact before
          · unfold Saw
            rwa [job, chunk]
      · rw [receive_unseen now remembers saw]
        simp [Saw, noting, ChunkEvent.Repeats, raise, or_comm]
  | record =>
      simp only [reduceCtorEq, false_and, exists_false, or_false]
      rfl

end Receive

/-! ## Two runs side by side -/

/-- How often a signal reports a shortfall. -/
theorem count_raise (signals : Signals) (signal : Signal) (cause : Shortfall) :
    (signals.raise signal).2.count (.counted (Governor.Event.shortfallSeries cause)) =
      (signals.governor.raise signal).2.count (.shortfall cause) :=
  Governor.count_notices ..

/-- Signals that differ in what their consumers were told, at most. -/
structure Alike (single repeated : Signals) : Prop where
  settings : repeated.governor.settings = single.governor.settings
  inFlight : repeated.governor.inFlight = single.governor.inFlight
  tracker : repeated.tracker = single.tracker
  calm : single.governor.Calm ∧ repeated.governor.Calm

theorem Alike.refl {signals : Signals} (calm : signals.governor.Calm) : Alike signals signals :=
  ⟨rfl, rfl, rfl, calm, calm⟩

section Alike

variable {single repeated : Signals} (alike : Alike single repeated)
include alike

theorem Alike.raise (signal : Signal) :
    Alike (single.raise signal).1 (repeated.raise signal).1 ∧
      ∀ cause,
        (repeated.raise signal).2.count (.counted (Governor.Event.shortfallSeries cause)) =
          (single.raise signal).2.count (.counted (Governor.Event.shortfallSeries cause)) := by
  obtain ⟨settings, inFlight, tracker, calm, calmToo⟩ := alike
  have kept := Governor.kept_raise calm signal
  have keptToo := Governor.kept_raise calmToo signal
  have moved := Governor.countAfter_congr settings inFlight signal
  refine ⟨⟨?_, ?_, tracker, kept.calm calm, keptToo.calm calmToo⟩, fun cause => ?_⟩
  · exact keptToo.settings.trans (settings.trans kept.settings.symm)
  · change (repeated.governor.raise signal).1.inFlight = (single.governor.raise signal).1.inFlight
    rw [Governor.raise_eq (calm.quiet _), Governor.raise_eq (calmToo.quiet _), moved]
  · rw [count_raise, count_raise, Governor.count_shortfall_raise (calm.quiet _),
      Governor.count_shortfall_raise (calmToo.quiet _), settings,
      (Governor.count_congr settings inFlight signal).2]

theorem Alike.noting (event : ChunkEvent) :
    Alike (single.noting event) (repeated.noting event) where
  settings := alike.settings
  inFlight := alike.inFlight
  tracker := by rw [Signals.noting, Signals.noting, alike.tracker]
  calm := alike.calm

theorem Alike.saw (event : ChunkEvent) : repeated.Saw event ↔ single.Saw event := by
  rw [Saw, Saw, alike.tracker]

/-- What arrives in both runs moves both alike. -/
theorem Alike.receive (remembers : single.tracker.remembers = true) (now later : Instant)
    (arrival : Arrival) :
    Alike (single.receive now arrival).1 (repeated.receive later arrival).1 ∧
      (single.receive now arrival).2.Agrees (repeated.receive later arrival).2 := by
  have remembersToo : repeated.tracker.remembers = true := by rw [alike.tracker, remembers]
  cases arrival with
  | chunk event =>
      obtain ⟨counted, shortfalls⟩ := alike.raise (.admitted event.recordCount)
      by_cases saw : single.Saw event
      · obtain ⟨corrected, more⟩ := counted.raise (.duplicate event.recordCount)
        rw [receive_seen now saw, receive_seen later ((alike.saw event).mpr saw)]
        refine ⟨corrected, rfl, corrected.inFlight, fun cause => ?_, rfl⟩
        simp only [Receipt.shortfalls, List.count_append, List.count_cons, shortfalls, more]
      · have unseen : ¬repeated.Saw event := fun seen => saw ((alike.saw event).mp seen)
        rw [receive_unseen now remembers saw, receive_unseen later remembersToo unseen]
        refine ⟨counted.noting event, rfl, counted.inFlight, fun cause => ?_, rfl⟩
        simp only [Receipt.shortfalls, List.count_append, shortfalls]
  | record event =>
      obtain ⟨counted, shortfalls⟩ := alike.raise .completed
      rw [receive_record, receive_record]
      exact ⟨counted, rfl, counted.inFlight, shortfalls, rfl⟩

/-- A chunk that comes again changes nothing but what consumers were told. -/
theorem Alike.again {event : ChunkEvent} (now : Instant) (saw : repeated.Saw event)
    (room : repeated.Room (.chunk event)) :
    Alike single (repeated.receive now (.chunk event)).1 ∧
      (repeated.receive now (.chunk event)).2.Silent := by
  obtain ⟨settings, inFlight, tracker, calm, calmToo⟩ := alike
  have counted := Governor.kept_raise calmToo (.admitted event.recordCount)
  have corrected := Governor.kept_raise (counted.calm calmToo) (.duplicate event.recordCount)
  obtain ⟨restored, quiet⟩ := Governor.raise_taken_back calmToo room
  rw [receive_seen now saw]
  refine ⟨⟨?_, restored.trans inFlight, tracker, calm, ?_⟩, rfl, fun cause => ?_, rfl⟩
  · exact (corrected.settings.trans counted.settings).trans settings
  · exact corrected.calm (counted.calm calmToo)
  · have first := (quiet cause).1
    have second := (quiet cause).2
    rw [← Governor.count_notices] at first second
    simp only [Receipt.shortfalls, List.count_append, List.count_cons, Signals.raise, first, second]
    cases cause <;> decide

end Alike

/-! ## Whole runs -/

/-- Every chunk that comes again was observed at the start or delivered before. -/
def Redelivered (signals : Signals) (deliveries : List Delivery) : Prop :=
  ∀ front event back, deliveries = front ++ .again event :: back →
    signals.Saw event ∨ ∃ first, .original (.chunk first) ∈ front ∧ event.Repeats first

theorem Redelivered.rest {signals : Signals} {delivery : Delivery} {deliveries : List Delivery}
    (redelivered : signals.Redelivered (delivery :: deliveries))
    (remembers : signals.tracker.remembers = true) (now : Instant) :
    (signals.receive now delivery.arrival).1.Redelivered deliveries := by
  intro front event back split
  rw [saw_receive now remembers]
  rcases redelivered (delivery :: front) event back (by rw [split]; rfl) with
    saw | ⟨first, member, repeats⟩
  · exact .inl (.inl saw)
  · rcases List.mem_cons.mp member with same | among
    · subst same
      exact .inl (.inr ⟨first, rfl, repeats⟩)
    · exact .inr ⟨first, among, repeats⟩

/-- A run with repeated deliveries goes alongside the run without them. -/
theorem Alike.alongside {deliveries : List Delivery} {single repeated : Signals}
    (alike : Alike single repeated) (remembers : repeated.tracker.remembers = true)
    (redelivered : repeated.Redelivered deliveries) {now later : Nat → Instant}
    (fits : repeated.Fits later (deliveries.map Delivery.arrival)) :
    Alongside deliveries (single.receiveAll now (deliveries.filterMap Delivery.original?))
      (repeated.receiveAll later (deliveries.map Delivery.arrival)) := by
  induction deliveries generalizing single repeated now later with
  | nil => exact .nil
  | cons delivery deliveries ih =>
      obtain ⟨room, fits⟩ := fits
      have known := remembers_receive (later 0) remembers delivery.arrival
      have rest := redelivered.rest remembers (later 0)
      -- Both runs take an original arrival, and only the right one takes what comes again.
      cases delivery with
      | original arrival =>
          have knew : single.tracker.remembers = true := by rwa [← alike.tracker]
          obtain ⟨moved, agrees⟩ := alike.receive knew (now 0) (later 0) arrival
          exact .original agrees (ih moved known rest fits)
      | again event =>
          have saw : repeated.Saw event := by
            rcases redelivered [] event deliveries rfl with saw | ⟨_, impossible, _⟩
            · exact saw
            · simp at impossible
          obtain ⟨restored, silent⟩ := alike.again (later 0) saw room
          exact .again silent (ih restored known rest fits)

/-- A chunk that was not observed and not delivered before is fresh. -/
theorem admission_of_first {signals : Signals} (remembers : signals.tracker.remembers = true)
    (clock : Nat → Instant) {earlier later : List Arrival} {event : ChunkEvent}
    (unseen : ¬signals.Saw event)
    (first : ∀ other, .chunk other ∈ earlier → ¬event.Repeats other) :
    ((signals.receiveAll clock (earlier ++ .chunk event :: later))[earlier.length]?).bind
      Receipt.admission = some .fresh := by
  induction earlier generalizing signals clock with
  | nil =>
      change (signals.receive (clock 0) (.chunk event)).2.admission = some .fresh
      rw [receive_unseen _ remembers unseen]
  | cons arrival earlier ih =>
      refine ih (remembers_receive _ remembers arrival) _ ?_ ?_
      · rw [saw_receive _ remembers]
        rintro (saw | ⟨other, rfl, repeats⟩)
        · exact unseen saw
        · exact first other (List.mem_cons_self ..) repeats
      · exact fun other member => first other (List.mem_cons_of_mem _ member)

end Signals

namespace Alongside

variable {deliveries : List Delivery} {single repeated : List Receipt}
  (alongside : Alongside deliveries single repeated)
include alongside

theorem shortfalls (cause : Shortfall) :
    (repeated.flatMap (·.effects.notices)).count (.counted (Governor.Event.shortfallSeries cause)) =
      (single.flatMap (·.effects.notices)).count
        (.counted (Governor.Event.shortfallSeries cause)) := by
  induction alongside with
  | nil => rfl
  | original agrees _ ih =>
      have same := agrees.shortfalls cause
      unfold Receipt.shortfalls at same
      rw [List.flatMap_cons, List.flatMap_cons, List.count_append, List.count_append, ih, same]
  | again silent _ ih =>
      have none := silent.shortfalls cause
      unfold Receipt.shortfalls at none
      rw [List.flatMap_cons, List.count_append, ih, none, Nat.zero_add]

theorem handovers :
    (repeated.flatMap (·.effects.handovers)).map Handover.undated =
      (single.flatMap (·.effects.handovers)).map Handover.undated := by
  induction alongside with
  | nil => rfl
  | original agrees _ ih => rw [List.flatMap_cons, List.flatMap_cons, List.map_append,
      List.map_append, ih, agrees.handovers]
  | again silent _ ih => rw [List.flatMap_cons, silent.handovers, List.nil_append, ih]

end Alongside

namespace Signals

/-- Repeated deliveries have no net effect.  Each of them is a duplicate, and each original arrival
is admitted as without them and leaves the same count; chunks are fresh when they are delivered for
the first time.  The counters of shortfalls and what is handed to the dispatchers are the same. -/
theorem redelivery_has_no_effect {signals : Signals} {deliveries : List Delivery}
    (remembers : signals.tracker.remembers = true) (calm : signals.governor.Calm)
    (redelivered : signals.Redelivered deliveries) (clock later : Nat → Instant)
    (fits : signals.Fits later (deliveries.map Delivery.arrival)) :
    let originals := deliveries.filterMap Delivery.original?
    let single := signals.receiveAll clock originals
    let repeated := signals.receiveAll later (deliveries.map Delivery.arrival)
    Alongside deliveries single repeated ∧
      (∀ earlier event rest, originals = earlier ++ .chunk event :: rest → ¬signals.Saw event →
        (∀ other, .chunk other ∈ earlier → ¬event.Repeats other) →
          single[earlier.length]?.bind Receipt.admission = some .fresh) ∧
      (∀ (metrics : Metrics) (cause : Shortfall),
        (metrics.recordAll (repeated.flatMap (·.effects.notices))).counter
            (Governor.Event.shortfallSeries cause) =
          (metrics.recordAll (single.flatMap (·.effects.notices))).counter
            (Governor.Event.shortfallSeries cause)) ∧
      (repeated.flatMap (·.effects.handovers)).map Handover.undated =
        (single.flatMap (·.effects.handovers)).map Handover.undated := by
  intro originals single repeated
  have alongside : Alongside deliveries single repeated :=
    (Alike.refl calm).alongside remembers redelivered fits
  refine ⟨alongside, ?_, fun metrics cause => ?_, alongside.handovers⟩
  · intro earlier event rest split unseen first
    change ((signals.receiveAll clock originals)[earlier.length]?).bind _ = _
    rw [split]
    exact admission_of_first remembers clock unseen first
  · rw [Metrics.counter_recordAll, Metrics.counter_recordAll, alongside.shortfalls]

/-- Signals that tell one consumer. -/
def oneConsumer : Signals :=
  ⟨.create .standard "chunks" (Fleet.empty.register "chunks" "a"), ⟨10, .ofSeconds 60, []⟩⟩

/-- A chunk of some records. -/
def someChunk (recordCount : UInt64) (totalRecords : Option Int64) : ChunkEvent :=
  ⟨.zero, "0", recordCount, totalRecords, .null⟩

/-- A chunk comes again, larger than before, and then its first record is completed. -/
def largerAgain : List Delivery :=
  [.original (.chunk (someChunk 10 none)), .again (someChunk 15 (some 7)),
    .original (.record ⟨.zero, "0", "instance", none, "create", .completed, none⟩)]

theorem largerAgain_has_no_effect :
    (oneConsumer.receiveAll (fun _ => .epoch) (largerAgain.map Delivery.arrival)).map
        (fun receipt => (receipt.admission, receipt.inFlight)) =
      [(some .fresh, 10), (some .duplicate, 10), (none, 9)] ∧
    Alongside largerAgain
      (oneConsumer.receiveAll (fun _ => .epoch) (largerAgain.filterMap Delivery.original?))
      (oneConsumer.receiveAll (fun _ => .epoch) (largerAgain.map Delivery.arrival)) := by
  have calm : oneConsumer.governor.Calm := by
    unfold Governor.Calm
    decide +kernel
  have redelivered : oneConsumer.Redelivered largerAgain := by
    intro front event back split
    rcases front with _ | ⟨first, _ | ⟨second, _ | ⟨third, front⟩⟩⟩
    · simp [largerAgain] at split
    · simp only [largerAgain, List.cons_append, List.nil_append, List.cons.injEq,
        Delivery.again.injEq] at split
      obtain ⟨rfl, rfl, _⟩ := split
      exact .inr ⟨_, List.mem_singleton_self _, rfl, rfl⟩
    · simp [largerAgain] at split
    · simp [largerAgain] at split
  have fits : oneConsumer.Fits (fun _ => .epoch) (largerAgain.map Delivery.arrival) := by
    refine ⟨?_, ?_, trivial, trivial⟩
    · change oneConsumer.governor.inFlight.toNat + (10 : UInt64).toNat < UInt64.size
      decide +kernel
    · change (oneConsumer.receive .epoch (.chunk (someChunk 10 none))).1.governor.inFlight.toNat +
        (15 : UInt64).toNat < UInt64.size
      decide +kernel
  exact ⟨by decide +kernel, (redelivery_has_no_effect rfl calm redelivered _ _ fits).1⟩

end Signals
end Intake
