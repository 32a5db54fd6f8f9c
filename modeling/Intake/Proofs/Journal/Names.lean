import Intake.Message.Event
import Intake.Proofs.Writes

/-!
# Names of journal entries

The identifier of a record is derived from a name: the parts of its subject, with a zero character
between them.  Parts that hold no zero character can be read back from the name.  A part that holds
one can be cut there, and then the same name stands for another subject as well.
-/

namespace Intake

theorem ActionStatus.name_inj {status other : ActionStatus} :
    status.name = other.name ↔ status = other := by
  cases status <;> cases other <;> decide

namespace JournalRecord

/-- What a record is about: the parts from which its identifier is derived. -/
structure Subject where
  source : String
  entityType : String
  action : String
  status : ActionStatus
  deriving DecidableEq

namespace Subject

/-- The parts in the order in which they are named. -/
def parts (subject : Subject) : List String :=
  [subject.source, subject.entityType, subject.action, subject.status.name]

/-- The name before it is encoded. -/
def text (subject : Subject) : String := "\x00".intercalate subject.parts

/-- The name. -/
def name (subject : Subject) : List UInt8 :=
  idName subject.source subject.entityType subject.action subject.status

/-- The identifier of the records of a job about a subject. -/
def id (subject : Subject) (job : Uuid) : Uuid := job.derive subject.name

/-- No part holds a zero character. -/
def Plain (subject : Subject) : Prop := ∀ part ∈ subject.parts, '\x00' ∉ part.toList

instance (subject : Subject) : Decidable subject.Plain := by
  unfold Plain
  infer_instance

variable {subject other : Subject}

/-! ## Reading a name -/

theorem text_eq (subject : Subject) :
    subject.text = subject.source ++ "\x00" ++ subject.entityType ++ "\x00" ++ subject.action ++
      "\x00" ++ subject.status.name := rfl

theorem name_eq (subject : Subject) : subject.name = subject.text.toUTF8.data.toList := by
  have zero : "\x00".toByteArray.data.toList = [0] := rfl
  simp [name, idName, text_eq, zero]

theorem name_inj : subject.name = other.name ↔ subject.text = other.text := by
  rw [name_eq, name_eq, Array.toList_inj, String.toUTF8_eq_toByteArray,
    String.toUTF8_eq_toByteArray, ← ByteArray.ext_iff, String.toByteArray_inj]

/-- Three zero characters stand between the parts, so a subject is plain if there are no more. -/
theorem plain_iff_count : subject.Plain ↔ subject.text.toList.count '\x00' = 3 := by
  have between : "\x00".toList.count '\x00' = 1 := rfl
  have status : subject.status.name.toList.count '\x00' = 0 := by cases subject.status <;> decide
  simp only [Plain, parts, List.forall_mem_cons, List.not_mem_nil, IsEmpty.forall_iff,
    implies_true, and_true, ← List.count_eq_zero, text_eq, String.toList_append,
    List.count_append, between, status]
  omega

theorem eq_of_parts (same : subject.parts = other.parts) : subject = other := by
  obtain ⟨source, entityType, action, status⟩ := subject
  obtain ⟨_, _, _, otherStatus⟩ := other
  simp only [parts, List.cons.injEq, ActionStatus.name_inj, and_true] at same
  obtain ⟨rfl, rfl, rfl, rfl⟩ := same
  rfl

/-- The parts of a plain subject are read back by cutting its name at the zero characters. -/
theorem splitOn_text (plain : subject.Plain) :
    subject.text.toList.splitOn '\x00' = subject.parts.map String.toList := by
  rw [text, String.toList_intercalate]
  refine List.splitOn_intercalate '\x00' ?_ (by simp [parts])
  simpa [Plain] using plain

/-- Only the subject itself has the name of a plain one. -/
theorem eq_of_plain (plain : subject.Plain) (same : other.name = subject.name) :
    other = subject := by
  rw [name_inj] at same
  -- The other parts hold no zero character either, as the name holds no more of them.
  have alsoPlain : other.Plain := by rwa [plain_iff_count, same, ← plain_iff_count]
  have read := (splitOn_text alsoPlain).symm.trans (same ▸ splitOn_text plain)
  exact eq_of_parts (List.map_injective_iff.mpr (fun _ _ => String.toList_inj.mp) read)

/-! ## Subjects of one name -/

private theorem exists_cut {part : String} (holds : '\x00' ∈ part.toList) :
    ∃ front back, part = front ++ "\x00" ++ back := by
  obtain ⟨front, back, cut⟩ := List.append_of_mem holds
  refine ⟨.ofList front, .ofList back, String.toList_inj.mp ?_⟩
  simp [cut]

private theorem append_ne_self (front back : String) : front ++ "\x00" ++ back ≠ front := by
  intro same
  have longer := congrArg (·.toList.length) same
  simp only [String.toList_append, List.length_append] at longer
  have zero : "\x00".toList.length = 1 := rfl
  omega

/-- The name of a subject that is not plain stands for another one. -/
theorem exists_namesake (mixed : ¬subject.Plain) :
    ∃ other : Subject, other.name = subject.name ∧ other ≠ subject := by
  obtain ⟨source, entityType, action, status⟩ := subject
  have places : '\x00' ∈ source.toList ∨ '\x00' ∈ entityType.toList ∨ '\x00' ∈ action.toList := by
    have named : '\x00' ∉ status.name.toList := by cases status <;> decide
    by_contra none
    simp only [not_or] at none
    refine mixed ?_
    simp [Plain, parts, none, named]
  rcases places with among | among | among
  · obtain ⟨front, back, rfl⟩ := exists_cut among
    refine ⟨⟨front, back ++ "\x00" ++ entityType, action, status⟩, name_inj.mpr ?_, ?_⟩
    · simp [text_eq, String.append_assoc]
    · intro same
      exact append_ne_self front back (congrArg Subject.source same).symm
  · obtain ⟨front, back, rfl⟩ := exists_cut among
    refine ⟨⟨source ++ "\x00" ++ front, back, action, status⟩, name_inj.mpr ?_, ?_⟩
    · simp [text_eq, String.append_assoc]
    · intro same
      exact append_ne_self source front (congrArg Subject.source same)
  · obtain ⟨front, back, rfl⟩ := exists_cut among
    refine ⟨⟨source, entityType ++ "\x00" ++ front, back, status⟩, name_inj.mpr ?_, ?_⟩
    · simp [text_eq, String.append_assoc]
    · intro same
      exact append_ne_self entityType front (congrArg Subject.entityType same)

end Subject

/-! ## Identifiers -/

/-- What the record is about. -/
def subject (record : JournalRecord) : Subject :=
  ⟨record.source, record.entityType, record.action, record.status⟩

/-- The identifier of the record is derived from what it is about. -/
def Derived (record : JournalRecord) : Prop := record.id = record.subject.id record.job

end JournalRecord

open JournalRecord

/-- What the outcome is about. -/
def RecordProcessed.subject (event : RecordProcessed) : Subject :=
  ⟨event.source, event.entityType, event.action, event.status⟩

theorem RecordProcessed.subject_journalRecord (event : RecordProcessed) (createdAt : Instant) :
    (event.journalRecord createdAt).subject = event.subject := rfl

/-- Every record that the pipeline makes has a derived identifier. -/
theorem RecordProcessed.derived_journalRecord (event : RecordProcessed) (createdAt : Instant) :
    (event.journalRecord createdAt).Derived := rfl

/-- Two messages that are not the same have digests that give one identifier. -/
def Uuid.Collide (space other : Uuid) (name otherName : List UInt8) : Prop :=
  space.octets ++ name ≠ other.octets ++ otherName ∧ space.derive name = other.derive otherName

/-- Derived identifiers are the same only for one job and one name, or by a collision. -/
theorem Uuid.derive_inj {space other : Uuid} {name otherName : List UInt8}
    (same : space.derive name = other.derive otherName) :
    (space = other ∧ name = otherName) ∨ Collide space other name otherName := by
  obtain ⟨octets, long⟩ := space
  obtain ⟨others, alsoLong⟩ := other
  by_cases message : octets ++ name = others ++ otherName
  · obtain ⟨rfl, rfl⟩ := List.append_inj message (long.trans alsoLong.symm)
    exact .inl ⟨rfl, rfl⟩
  · exact .inr ⟨message, same⟩

namespace Store

theorem journal_of_saveJournal {store : Store} {records : List JournalRecord}
    (saved : (store.saveJournal records).1 = .ok ()) :
    (store.saveJournal records).2.journal = records.foldl addRecord store.journal := by
  unfold saveJournal at saved ⊢
  cases absent : store.unavailable with
  | true => simp [absent] at saved
  | false =>
      simp only [absent, Bool.false_eq_true, if_false] at saved ⊢
      split at saved
      · simp at saved
      · rfl

/-- A saved record about a plain subject has an entry of its own job and subject, unless the digests
of two messages collide. -/
theorem entry_of_saveJournal {store : Store} {records : List JournalRecord}
    (derived : ∀ stored ∈ store.journal ++ records, stored.Derived)
    (saved : (store.saveJournal records).1 = .ok ()) {record : JournalRecord}
    (member : record ∈ records) (plain : record.subject.Plain) :
    ∃ stored ∈ (store.saveJournal records).2.journal,
      (stored.job = record.job ∧ stored.subject = record.subject) ∨
        Uuid.Collide stored.job record.job stored.subject.name record.subject.name := by
  rw [journal_of_saveJournal saved]
  obtain ⟨stored, entered, same⟩ : ∃ stored ∈ records.foldl addRecord store.journal,
      stored.id = record.id := exists_foldl_addRecord member
  refine ⟨stored, entered, ?_⟩
  have known : stored.Derived :=
    derived stored (List.mem_append.mpr (mem_of_mem_foldl_addRecord entered))
  have own : record.Derived := derived record (List.mem_append_right _ member)
  rcases Uuid.derive_inj (known.symm.trans (same.trans own)) with ⟨job, name⟩ | collision
  · exact .inl ⟨job, Subject.eq_of_plain plain name⟩
  · exact .inr collision

end Store

/-- A name stands for one subject exactly if no part of the subject holds a zero character.  If one
does, the name stands for another subject too, and records of a job about either get one identifier.
Records about a plain subject are never passed over for other records, unless digests collide.  All
deliveries of an outcome get the same identifier. -/
theorem name_is_unique_iff (subject : Subject) :
    ((∀ other : Subject, other.name = subject.name → other = subject) ↔ subject.Plain) ∧
    (¬subject.Plain → ∃ other : Subject, other ≠ subject ∧ ∀ job, other.id job = subject.id job) ∧
    (subject.Plain → ∀ (store : Store) (records : List JournalRecord),
      (∀ stored ∈ store.journal ++ records, stored.Derived) →
      (store.saveJournal records).1 = .ok () → ∀ record ∈ records, record.subject = subject →
        ∃ stored ∈ (store.saveJournal records).2.journal,
          (stored.job = record.job ∧ stored.subject = subject) ∨
            Uuid.Collide stored.job record.job stored.subject.name subject.name) ∧
    (∀ (first second : RecordProcessed) (early late : Instant), first.job = second.job →
      first.subject = subject → second.subject = subject →
        (first.journalRecord early).id = (second.journalRecord late).id) := by
  refine ⟨⟨fun unique => ?_, fun plain other => Subject.eq_of_plain plain⟩, fun mixed => ?_, ?_, ?_⟩
  · by_contra mixed
    obtain ⟨other, same, different⟩ := Subject.exists_namesake mixed
    exact different (unique other same)
  · obtain ⟨other, same, different⟩ := Subject.exists_namesake mixed
    exact ⟨other, different, fun job => by rw [Subject.id, Subject.id, same]⟩
  · rintro plain store records derived saved record member rfl
    exact Store.entry_of_saveJournal derived saved member plain
  · intro first second early late job about also
    have own := first.derived_journalRecord early
    have other := second.derived_journalRecord late
    rw [JournalRecord.Derived, RecordProcessed.subject_journalRecord] at own other
    rw [own, other, about, also]
    exact congrArg subject.id job

/-- An outcome of a job. -/
def outcomeOf (source entityType : String) : RecordProcessed :=
  ⟨.zero, source, entityType, none, "create", .completed, none⟩

/-- A store that knows the job. -/
def awaiting : Store := (Store.empty.createProgress .zero none).2

/-- Where the parts meet does not matter as long as they hold no zero character. -/
theorem plainNames_are_unique :
    (outcomeOf "ab" "c").subject.Plain ∧
      ∃ stored ∈ (awaiting.saveJournal [(outcomeOf "a" "bc").journalRecord .epoch,
          (outcomeOf "ab" "c").journalRecord .epoch]).2.journal,
        (stored.job = .zero ∧ stored.subject = (outcomeOf "ab" "c").subject) ∨
          Uuid.Collide stored.job .zero stored.subject.name (outcomeOf "ab" "c").subject.name := by
  have plain : (outcomeOf "ab" "c").subject.Plain := by decide
  obtain ⟨_, _, entered, _⟩ := name_is_unique_iff (outcomeOf "ab" "c").subject
  refine ⟨plain, entered plain awaiting _ ?_ rfl ((outcomeOf "ab" "c").journalRecord .epoch)
    (by simp) rfl⟩
  intro stored member
  have made : stored = (outcomeOf "a" "bc").journalRecord .epoch ∨
      stored = (outcomeOf "ab" "c").journalRecord .epoch := by
    simpa [awaiting, Store.empty, Store.createProgress] using member
  rcases made with rfl | rfl <;> exact RecordProcessed.derived_journalRecord ..

/-- Two outcomes of one name, and the second one is not entered. -/
theorem zeroCharacter_loses_record :
    let first := outcomeOf "a\x00b" "c"
    let second := outcomeOf "a" "b\x00c"
    first.subject ≠ second.subject ∧ first.subject.name = second.subject.name ∧
      (awaiting.saveJournal [first.journalRecord .epoch, second.journalRecord .epoch]).1 = .ok () ∧
      (awaiting.saveJournal [first.journalRecord .epoch, second.journalRecord .epoch]).2.journal =
        [first.journalRecord .epoch] := by
  intro first second
  have name : first.subject.name = second.subject.name := by decide
  refine ⟨by decide, name, rfl, ?_⟩
  rw [Store.journal_of_saveJournal rfl]
  have same : (first.journalRecord .epoch).id = (second.journalRecord .epoch).id :=
    congrArg (Uuid.derive .zero) name
  simp [awaiting, Store.empty, Store.createProgress, Store.addRecord, same]

end Intake
