import Intake.Proofs.Json.Documents
import Mathlib.Data.String.Basic

/-!
# Values that are read back

An object in memory holds its members in ascending order of their keys, each key once, and a reader
enters only so many containers.  `Held` says both of a value, and nothing of a reader.  Every value
that is read is held, and a held value whose numbers are whole is read back from its own tree.
-/

namespace Intake
namespace Json

/-- Members in ascending order of their keys, each key once. -/
def Ordered (members : List (String × Json)) : Prop :=
  members.Pairwise fun member other => member.1 < other.1

/-- A value as it is held in memory, with containers that nest no deeper than the limit. -/
inductive Held : Nat → Json → Prop where
  | null {limit : Nat} : Held limit .null
  | boolean {limit : Nat} (value : Bool) : Held limit (.boolean value)
  | whole {limit : Nat} (value : Whole) : Held limit (.whole value)
  | double {limit : Nat} (bits : UInt64) : Held limit (.double bits)
  | text {limit : Nat} (value : String) : Held limit (.text value)
  | array {limit : Nat} {items : List Json} (each : ∀ item ∈ items, Held limit item) :
      Held (limit + 1) (.array items)
  | object {limit : Nat} {members : List (String × Json)} (ordered : Ordered members)
      (each : ∀ member ∈ members, Held limit member.2) : Held (limit + 1) (.object members)

theorem Held.succ {limit : Nat} {value : Json} (held : Held limit value) :
    Held (limit + 1) value := by
  induction held with
  | null => exact .null
  | boolean value => exact .boolean value
  | whole value => exact .whole value
  | double bits => exact .double bits
  | text value => exact .text value
  | array _ induction => exact .array induction
  | object ordered _ induction => exact .object ordered induction

/-! ## Members -/

variable {key : String} {value : Json} {members : List (String × Json)}

theorem mem_insertMember {member : String × Json}
    (member_mem : member ∈ insertMember key value members) :
    member = (key, value) ∨ member ∈ members := by
  induction members with
  | nil => exact .inl (List.mem_singleton.mp member_mem)
  | cons first rest induction =>
      obtain ⟨other, old⟩ := first
      unfold insertMember at member_mem
      split at member_mem
      case isTrue =>
        rcases List.mem_cons.mp member_mem with same | later
        · exact .inl same
        · exact .inr (List.mem_cons_of_mem _ later)
      case isFalse =>
        split at member_mem
        case isTrue => exact List.mem_cons.mp member_mem
        case isFalse =>
          rcases List.mem_cons.mp member_mem with same | later
          · exact .inr (same ▸ List.mem_cons_self)
          · exact (induction later).imp_right (List.mem_cons_of_mem _)

theorem Ordered.insertMember (ordered : Ordered members) :
    Ordered (Json.insertMember key value members) := by
  induction members with
  | nil => exact List.pairwise_singleton _ _
  | cons first rest induction =>
      obtain ⟨other, old⟩ := first
      obtain ⟨above, rest_ordered⟩ := List.pairwise_cons.mp ordered
      unfold Json.insertMember
      split
      case isTrue same =>
        subst same
        exact List.pairwise_cons.mpr ⟨above, rest_ordered⟩
      case isFalse different =>
        split
        case isTrue below =>
          refine List.pairwise_cons.mpr ⟨?_, ordered⟩
          rintro member (_ | ⟨_, later⟩)
          · exact below
          · exact below.trans (above member later)
        case isFalse not_below =>
          have other_below : other < key :=
            lt_of_le_of_ne (not_lt.mp not_below) (Ne.symm different)
          refine List.pairwise_cons.mpr ⟨?_, induction rest_ordered⟩
          intro member member_mem
          rcases mem_insertMember member_mem with rfl | later
          · exact other_below
          · exact above member later

/-- A member whose key comes after all others goes to the end. -/
theorem insertMember_of_lt (above : ∀ member ∈ members, member.1 < key) :
    insertMember key value members = members ++ [(key, value)] := by
  induction members with
  | nil => rfl
  | cons first rest induction =>
      obtain ⟨other, old⟩ := first
      have other_below : other < key := above (other, old) List.mem_cons_self
      rw [insertMember, if_neg other_below.ne', if_neg other_below.asymm,
        induction fun member later => above member (List.mem_cons_of_mem _ later)]
      rfl

/-! ## Held values are read back -/

theorem jsonItems_itemNodes {limit : Nat} {items : List Json}
    (each : ∀ item ∈ items, item.node.json limit = .ok item) :
    Node.jsonItems limit (itemNodes items) = .ok items := by
  induction items with
  | nil => rfl
  | cons item rest induction =>
      rw [itemNodes, Node.jsonItems, each item List.mem_cons_self,
        induction fun other later => each other (List.mem_cons_of_mem item later)]
      rfl

theorem jsonMembers_memberNodes {limit : Nat}
    (each : ∀ member ∈ members, member.2.node.json limit = .ok member.2)
    (done : List (String × Json))
    (ordered : Ordered (done ++ members)) :
    Node.jsonMembers limit (memberNodes members) done = .ok (done ++ members) := by
  induction members generalizing done with
  | nil => rw [List.append_nil]; rfl
  | cons member rest induction =>
      obtain ⟨key, value⟩ := member
      -- All keys read before are below this one, so its member goes to the end.
      have above : ∀ earlier ∈ done, earlier.1 < key := fun earlier earlier_mem =>
        (List.pairwise_append.mp ordered).2.2 earlier earlier_mem (key, value) List.mem_cons_self
      have appended : done ++ (key, value) :: rest = done ++ [(key, value)] ++ rest := by
        rw [List.append_assoc, List.singleton_append]
      rw [appended] at ordered ⊢
      rw [← induction (fun other later => each other (List.mem_cons_of_mem _ later)) _ ordered,
        memberNodes, Node.jsonMembers, each (key, value) List.mem_cons_self,
        ← insertMember_of_lt above]
      rfl

/-- A held value whose numbers are whole is read back from its tree. -/
theorem Held.json_node {limit : Nat} {value : Json} (held : Held limit value)
    (exact_value : Exact value) : value.node.json limit = .ok value := by
  induction held with
  | null => rfl
  | boolean value => rfl
  | whole value =>
      rw [node, Node.json, value_wholeText]
  | double bits => cases exact_value
  | text value => rfl
  | array _ induction =>
      cases exact_value with
      | array each_exact =>
          have items_read := jsonItems_itemNodes fun item item_mem =>
            induction item item_mem (each_exact item item_mem)
          exact bind_eq_ok.mpr ⟨_, rfl, bind_eq_ok.mpr ⟨_, items_read, rfl⟩⟩
  | object ordered _ induction =>
      cases exact_value with
      | object each_exact =>
          have members_read := jsonMembers_memberNodes (fun member member_mem =>
            induction member member_mem (each_exact member member_mem)) [] ordered
          exact bind_eq_ok.mpr ⟨_, rfl, bind_eq_ok.mpr ⟨_, members_read, rfl⟩⟩

/-- The bytes of a held value whose numbers are whole are read as the value. -/
theorem Held.decode_bytes {value : Json} (held : Held deepest value) (exact_value : Exact value) :
    decode (fun limit node => node.json limit) value.bytes = .ok value := by
  rw [exact_value.decode_bytes, held.json_node exact_value]

/-! ## Values that are read are held -/

theorem eq_succ_of_enter {limit inner : Nat} (entered : enter limit = .ok inner) :
    limit = inner + 1 := by
  cases limit with
  | zero => cases entered
  | succ limit => exact congrArg (· + 1) (Except.ok.inj entered)

mutual

theorem held_of_json {limit : Nat} {value : Json} :
    ∀ {node : Node}, node.json limit = .ok value → Held limit value
  | .null, read => by
      obtain rfl := Except.ok.inj read
      exact .null
  | .boolean value, read => by
      obtain rfl := Except.ok.inj read
      exact .boolean value
  | .number number, read => by
      unfold Node.json at read
      split at read
      case h_1 whole _ =>
        obtain rfl := Except.ok.inj read
        exact .whole whole
      case h_2 bits _ =>
        obtain rfl := Except.ok.inj read
        exact .double bits
      case h_3 => cases read
  | .quoted content, read => by
      cases content with
      | error defect => cases read
      | ok content =>
          obtain rfl := Except.ok.inj read
          exact .text content
  | .array items cut, read => by
      obtain ⟨inner, entered, read⟩ := bind_eq_ok.mp read
      obtain ⟨values, values_read, read⟩ := bind_eq_ok.mp read
      obtain ⟨_, _, read⟩ := bind_eq_ok.mp read
      obtain rfl := Except.ok.inj read
      obtain rfl := eq_succ_of_enter entered
      exact .array (held_of_jsonItems values_read)
  | .object members cut, read => by
      obtain ⟨inner, entered, read⟩ := bind_eq_ok.mp read
      obtain ⟨values, values_read, read⟩ := bind_eq_ok.mp read
      obtain ⟨_, _, read⟩ := bind_eq_ok.mp read
      obtain rfl := Except.ok.inj read
      obtain rfl := eq_succ_of_enter entered
      obtain ⟨ordered, each⟩ := held_of_jsonMembers values_read .nil (by simp)
      exact .object ordered each
  | .flawed flaw, read => by cases read

theorem held_of_jsonItems {limit : Nat} {values : List Json} :
    ∀ {items : List Node}, Node.jsonItems limit items = .ok values →
      ∀ value ∈ values, Held limit value
  | [], read => by
      obtain rfl := Except.ok.inj read
      simp
  | item :: rest, read => by
      obtain ⟨first, first_read, read⟩ := bind_eq_ok.mp read
      obtain ⟨others, others_read, read⟩ := bind_eq_ok.mp read
      obtain rfl := Except.ok.inj read
      rintro value (_ | ⟨_, later⟩)
      · exact held_of_json first_read
      · exact held_of_jsonItems others_read value later

theorem held_of_jsonMembers {limit : Nat} {values : List (String × Json)} :
    ∀ {members : List (Node × Node)} {done : List (String × Json)},
      Node.jsonMembers limit members done = .ok values → Ordered done →
      (∀ member ∈ done, Held limit member.2) →
      Ordered values ∧ ∀ member ∈ values, Held limit member.2
  | [], done, read, ordered, each => by
      obtain rfl := Except.ok.inj read
      exact ⟨ordered, each⟩
  | (name, node) :: rest, done, read, ordered, each => by
      obtain ⟨key, _, read⟩ := bind_eq_ok.mp read
      obtain ⟨value, value_read, read⟩ := bind_eq_ok.mp read
      refine held_of_jsonMembers read ordered.insertMember ?_
      intro member member_mem
      rcases mem_insertMember member_mem with rfl | earlier
      · exact held_of_json value_read
      · exact each member earlier

end

end Json
end Intake
