import Intake.Proofs.Backoff
import Intake.Proofs.Flow.Calm
import Intake.Startup
import Mathlib.Data.List.Range

/-!
# What an accepted environment starts

Validation rules out what would keep the parts of a worker from working: inverted watermarks, no
place or no time for a flush, no consumer, a tracker without capacity.  It does not look at how long
chunks are remembered, nor at how many consumers there are beyond none, so a worker with accepted
settings starts exactly if its tracker takes the lifetime and there can be room for its tasks.
-/

namespace Intake

/-! ## Registering consumers -/

namespace Fleet

theorem handles_register (fleet : Fleet) (topic name : String) :
    (fleet.register topic name).registry.handles topic =
      fleet.registry.handles topic ++ [name] := by
  have registry : (fleet.register topic name).registry = fleet.registry.register topic name := by
    unfold register add
    dsimp only
    split <;> rfl
  rw [registry, Registry.handles, Registry.register, KeyMap.get?_insert_self]
  rfl

/-- Consumers that are registered one after the other stand behind one another. -/
theorem handles_foldl_register (fleet : Fleet) (topic : String) (nameOf : Nat → String)
    (indices : List Nat) :
    (indices.foldl (fun fleet index => fleet.register topic (nameOf index))
        fleet).registry.handles topic =
      fleet.registry.handles topic ++ indices.map nameOf := by
  induction indices generalizing fleet with
  | nil => exact (List.append_nil _).symm
  | cons index rest ih =>
      rw [List.foldl_cons, ih, handles_register, List.append_assoc]
      rfl

end Fleet

/-! ## Building the parts -/

/-- A tracker takes every lifetime up to a thousand years. -/
theorem ChunkTracker.create_eq (capacity seconds : UInt64) :
    create capacity (.ofSeconds seconds) =
      if seconds ≤ longestSeconds then .ok ⟨capacity, .ofSeconds seconds, []⟩
      else .error lifetimeRefusal := by
  have within : (Span.ofSeconds seconds).le (.ofSeconds longestSeconds) = true ↔
      seconds ≤ longestSeconds := by
    rw [Span.le_iff, UInt64.le_iff_toNat_le]
    simp only [Span.toNanos, Span.ofSeconds, nanosPerSecond]
    omega
  rw [create]
  exact if_congr within rfl rfl

namespace Settings

/-- There can be room for so many consumers and the task that takes completions. -/
def HasRoom (consumers : UInt64) : Prop := (consumers.toNat + 1) * handleBytes < roomBound

instance (consumers : UInt64) : Decidable (HasRoom consumers) :=
  inferInstanceAs (Decidable (_ < _))

theorem reserve_eq_ok_iff (consumers : UInt64) :
    reserve consumers = .ok () ↔ HasRoom consumers := by
  unfold reserve HasRoom handleBytes roomBound UInt64.size
  dsimp only
  split
  · simp only [reduceCtorEq, false_iff]
    omega
  · split
    · simp only [reduceCtorEq, false_iff]
      omega
    · simp only [true_iff]
      omega

/-- What validation makes sure of. -/
structure Sound (settings : Settings) : Prop where
  /-- The governor resumes below the count at which it pauses. -/
  watermarks : settings.flow.low < settings.flow.high
  /-- A dispatcher makes as many flushes at a time as is configured, which is at least one. -/
  places : settings.flush.policy.places = settings.flush.maxConcurrent.toNat ∧
    1 ≤ settings.flush.policy.places
  /-- A flush has some time. -/
  timeout : 0 < settings.flush.policy.timeout.toNanos
  /-- No wait between attempts exceeds the configured maximum. -/
  waits : ∀ failedAttempts, (settings.flush.policy.retry.delay failedAttempts).toNanos ≤
    settings.flush.maximum.toNanos
  /-- There is a consumer. -/
  consumers : settings.consumerNames ≠ []
  /-- The tracker can remember something. -/
  capacity : settings.chunkCapacity ≠ 0

/-- A started worker is built from its settings. -/
structure Built (settings : Settings) (worker : Worker) : Prop where
  governor : worker.signals.governor.settings = settings.flow ∧
    worker.signals.governor.topic = settings.chunkTopic
  consumers : worker.signals.governor.fleet.registry.handles settings.chunkTopic =
    settings.consumerNames
  tracker : worker.signals.tracker = ⟨settings.chunkCapacity, settings.chunkLifetime, []⟩
  progress : worker.progress.policy = settings.flush.policy
  journal : worker.journal.policy = settings.flush.policy

variable {settings : Settings}

theorem validate_eq_ok_iff : settings.validate = .ok () ↔
    settings.flow.validate = .ok () ∧ settings.flush.validate = .ok () ∧
      settings.ingestionConsumers ≠ 0 ∧ settings.chunkCapacity ≠ 0 := by
  unfold validate
  cases settings.flow.validate with
  | error => simp [Bind.bind, Except.bind]
  | ok =>
      cases settings.flush.validate with
      | error => simp [Bind.bind, Except.bind]
      | ok =>
          by_cases consumers : settings.ingestionConsumers = 0
          · simp [Bind.bind, Except.bind, consumers, throw, throwThe, MonadExceptOf.throw]
          · by_cases capacity : settings.chunkCapacity = 0 <;>
              simp [Bind.bind, Except.bind, pure, Except.pure, consumers, capacity, throw, throwThe,
                MonadExceptOf.throw]

theorem sound_of_validate (valid : settings.validate = .ok ()) : settings.Sound := by
  obtain ⟨flow, flush, consumers, capacity⟩ := validate_eq_ok_iff.mp valid
  have limits : settings.flush.maxConcurrent ≠ 0 ∧ settings.flush.timeout.isZero = false := by
    simpa [FlushSettings.validate, ite_eq_iff] using flush
  have positive {count : UInt64} (some : count ≠ 0) : 1 ≤ count.toNat := by
    have other := UInt64.toNat_inj.not.mpr some
    rw [UInt64.toNat_zero] at other
    omega
  refine ⟨FlowSettings.low_lt_high flow, ?_, ?_, fun failedAttempts => ?_, ?_, capacity⟩
  · have places : settings.flush.policy.places = settings.flush.maxConcurrent.toNat :=
      Nat.max_eq_right (positive limits.1)
    rw [places]
    exact ⟨rfl, positive limits.1⟩
  · exact Span.toNanos_pos_iff.mpr limits.2
  · exact settings.flush.retryPolicy.delay_le_getD failedAttempts
  · intro none
    have count := congrArg List.length none
    rw [consumerNames, List.length_map, List.length_range, List.length_nil] at count
    have some := positive consumers
    omega

/-- A worker starts exactly if its tracker takes the lifetime and there can be room for its tasks,
and it is then built from its settings. -/
theorem start_eq_ok_iff {worker : Worker} : settings.start = .ok worker ↔
    settings.chunkSeconds ≤ ChunkTracker.longestSeconds ∧
      HasRoom settings.ingestionConsumers ∧
      worker = Pipeline.createWorker settings.flow settings.chunkTopic
        settings.ingestionConsumers.toNat
        ⟨settings.chunkCapacity, settings.chunkLifetime, []⟩
        settings.flush.policy settings.flush.policy := by
  have created : ChunkTracker.create settings.chunkCapacity settings.chunkLifetime =
      if settings.chunkSeconds ≤ ChunkTracker.longestSeconds then
        .ok ⟨settings.chunkCapacity, settings.chunkLifetime, []⟩
      else .error ChunkTracker.lifetimeRefusal := ChunkTracker.create_eq _ _
  constructor
  · intro started
    obtain ⟨tracker, tracked, started⟩ := bind_eq_ok.mp started
    obtain ⟨_, reserved, started⟩ := bind_eq_ok.mp started
    rw [created] at tracked
    split at tracked
    case isTrue short =>
      obtain rfl := Except.ok.inj tracked
      exact ⟨short, (reserve_eq_ok_iff _).mp reserved, (Except.ok.inj started).symm⟩
    case isFalse => cases tracked
  · rintro ⟨short, room, rfl⟩
    rw [if_pos short] at created
    exact bind_eq_ok.mpr ⟨_, created, bind_eq_ok.mpr ⟨(), (reserve_eq_ok_iff _).mpr room, rfl⟩⟩

theorem built_createWorker (settings : Settings) :
    settings.Built (Pipeline.createWorker settings.flow settings.chunkTopic
      settings.ingestionConsumers.toNat ⟨settings.chunkCapacity, settings.chunkLifetime, []⟩
      settings.flush.policy settings.flush.policy) where
  governor := ⟨rfl, rfl⟩
  consumers := Fleet.handles_foldl_register _ _ _ _
  tracker := rfl
  progress := rfl
  journal := rfl

theorem accept_eq_ok_iff {env : Environment} : accept env = .ok settings ↔
    load env = .ok settings ∧ settings.validate = .ok () := by
  unfold accept
  cases load env with
  | error => simp
  | ok read =>
      dsimp only
      cases valid : read.validate with
      | error =>
          simp only [reduceCtorEq, false_iff, not_and, Except.ok.injEq]
          rintro rfl
          simp [valid]
      | ok =>
          simp only [Except.ok.injEq]
          constructor
          · rintro rfl
            exact ⟨rfl, valid⟩
          · exact And.left

/-- Accepted settings are sound, and a worker that starts with them is built from them.  It starts
exactly if chunks are to be remembered for a thousand years at most, which is what the tracker
takes, and if there can be room for its tasks. -/
theorem accepted_settings_start {env : Environment} (accepted : accept env = .ok settings) :
    settings.Sound ∧
    (∀ worker, settings.start = .ok worker → settings.Built worker) ∧
    ((∃ tracker, ChunkTracker.create settings.chunkCapacity settings.chunkLifetime = .ok tracker) ↔
      settings.chunkSeconds ≤ ChunkTracker.longestSeconds) ∧
    ((∃ worker, settings.start = .ok worker) ↔
      settings.chunkSeconds ≤ ChunkTracker.longestSeconds ∧
        HasRoom settings.ingestionConsumers) := by
  obtain ⟨-, valid⟩ := accept_eq_ok_iff.mp accepted
  refine ⟨sound_of_validate valid, fun worker started => ?_, ?_, ?_⟩
  · obtain ⟨-, -, rfl⟩ := start_eq_ok_iff.mp started
    exact settings.built_createWorker
  · rw [chunkLifetime, ChunkTracker.create_eq]
    split <;> simp [*]
  · simp only [start_eq_ok_iff]
    exact ⟨fun ⟨_, short, room, _⟩ => ⟨short, room⟩, fun ⟨short, room⟩ => ⟨_, short, room, rfl⟩⟩

private theorem ok_of_toOption {result : Except Rejection Settings}
    (found : result.toOption = some settings) : result = .ok settings := by
  cases result with
  | error => simp [Except.toOption] at found
  | ok => exact congrArg Except.ok (Option.some.inj found)

/-- With no variable set two consumers are started. -/
theorem empty_environment_starts :
    ∃ settings worker, accept (.ofList []) = .ok settings ∧ settings.start = .ok worker ∧
      worker.signals.governor.fleet.registry.handles "import_chunks" =
        ["import_chunks-0", "import_chunks-1"] := by
  have read : (accept (.ofList [])).toOption.map (fun settings =>
      (settings.chunkSeconds, settings.ingestionConsumers, settings.chunkTopic)) =
        some (3600, 2, "import_chunks") := by decide +kernel
  obtain ⟨settings, accepted, values⟩ := Option.map_eq_some_iff.mp read
  obtain ⟨seconds, consumers, topic⟩ : settings.chunkSeconds = 3600 ∧
    settings.ingestionConsumers = 2 ∧ settings.chunkTopic = "import_chunks" := by simpa using values
  have accepted := ok_of_toOption accepted
  obtain ⟨-, built, -, starts⟩ := accepted_settings_start accepted
  have start : settings.chunkSeconds ≤ ChunkTracker.longestSeconds ∧
      HasRoom settings.ingestionConsumers := by
    rw [seconds, consumers]
    decide +kernel
  obtain ⟨worker, started⟩ := starts.mpr start
  have handles := (built worker started).consumers
  rw [topic, consumerNames, topic, consumers] at handles
  exact ⟨settings, worker, accepted, started, handles⟩

/-- An environment in which chunks are to be remembered for a second more than a thousand years. -/
def patient : Environment := .ofList [("CHUNK_DEDUP_TTL", "31536000001")]

/-- The environment is accepted, but no tracker can be built. -/
theorem patient_is_accepted_and_crashes :
    ∃ settings, accept patient = .ok settings ∧
      ChunkTracker.create settings.chunkCapacity settings.chunkLifetime =
        .error "time_to_live is longer than 1000 years" ∧
      ¬∃ worker, settings.start = .ok worker := by
  have read : (accept patient).toOption.map (·.chunkSeconds) = some 31536000001 := by
    decide +kernel
  obtain ⟨settings, accepted, seconds⟩ := Option.map_eq_some_iff.mp read
  refine ⟨settings, ok_of_toOption accepted, ?_, ?_⟩
  · rw [chunkLifetime, ChunkTracker.create_eq, seconds]
    rfl
  · rintro ⟨worker, started⟩
    obtain ⟨short, -⟩ := start_eq_ok_iff.mp started
    rw [seconds] at short
    exact absurd short (by decide)

end Settings
end Intake
