import Intake.Json.Decode
import Intake.Proofs.Json.Tokens

/-!
# Texts of the grammar are read

Every value of the grammar is read wherever it stands, and its tree depends only on the trees of its
parts: an object text is read member by member, each key and value as in a text of its own.
-/

namespace Intake
namespace Json

/-- The tree of a text. -/
def tree (text : List UInt8) : Node := (Document.read text).root

/-- The trees of a member. -/
def Member.trees (member : Member) : Node × Node := (tree member.key, tree member.value)

/-- Wherever a value is due, this text is read as this node. -/
def Builds (text : List UInt8) (node : Node) : Prop :=
  ∀ (frames : List Frame) (rest : List UInt8), Stops rest →
    build frames .value (tokens (text ++ rest)) = build frames (.separator node) (tokens rest)

theorem Builds.read {text : List UInt8} {node : Node} (builds : Builds text node) :
    Document.read text = ⟨node, false⟩ := by
  have built := builds [] [] stops_nil
  rw [List.append_nil, tokens_nil] at built
  rw [Document.read, built]
  rfl

theorem Builds.of_exists {text : List UInt8} (builds : ∃ node, Builds text node) :
    Builds text (tree text) := by
  obtain ⟨node, builds⟩ := builds
  rw [tree, builds.read]
  exact builds

theorem stops_comma (rest : List UInt8) : Stops (0x2C :: rest) := by
  rintro byte ⟨⟩
  decide

theorem stops_closeArray (rest : List UInt8) : Stops (0x5D :: rest) := by
  rintro byte ⟨⟩
  decide

theorem stops_closeObject (rest : List UInt8) : Stops (0x7D :: rest) := by
  rintro byte ⟨⟩
  decide

theorem Stops.blank_append {blanks rest : List UInt8} (blank : Blank blanks) (stops : Stops rest) :
    Stops (blanks ++ rest) := by
  cases blanks with
  | nil => exact stops
  | cons byte blanks =>
      rintro _ ⟨⟩
      have is_blank := blank byte List.mem_cons_self
      refine ⟨fun digit => ?_, ?_, ?_, ?_⟩
      · exact Bool.noConfusion ((isBlank_number (.inr digit)).symm.trans is_blank)
      all_goals
        rintro rfl
        exact absurd is_blank (by decide)

/-- Blanks around a value are no part of it. -/
theorem Builds.padded {inner text : List UInt8} {node : Node} (builds : Builds inner node)
    (padded : Padded inner text) : Builds text node := by
  obtain ⟨before, after, before_blank, after_blank, rfl⟩ := padded
  intro frames rest stops
  rw [List.append_assoc, List.append_assoc, tokens_blank before_blank,
    builds frames _ (stops.blank_append after_blank), tokens_blank after_blank]

/-! ## Containers -/

/-- The tree of a string holds what the string denotes, if it denotes anything. -/
theorem IsString.tree {text : List UInt8} (is_string : IsString text) :
    ∃ content, Json.tree text = .quoted content ∧
      (∀ rest, Json.tokens (text ++ rest) = .quoted content :: Json.tokens rest) ∧
      ∀ value, content = .ok value ↔ SpellsString text value := by
  obtain ⟨content, read, denotes⟩ := is_string.tokens
  refine ⟨content, ?_, read, denotes⟩
  have alone := read []
  rw [List.append_nil] at alone
  rw [Json.tree, Document.read, alone]
  rfl

theorem SpellsString.tree {text : List UInt8} {value : String}
    (spelled : SpellsString text value) : Json.tree text = .quoted (.ok value) := by
  obtain ⟨content, made, -, denotes⟩ := spelled.isString.tree
  rw [made, (denotes value).mpr spelled]

/-- Items are read behind those already read, up to the end of their array. -/
theorem Listed.build_items {items : List (List UInt8)} {inner : List UInt8}
    (listed : Listed Padded items inner) (each : ∀ item ∈ items, Builds item (tree item))
    {done : List Node} (start : items = [] → done = []) (frames : List Frame)
    (rest : List UInt8) :
    build (.array done :: frames) .value (tokens (inner ++ 0x5D :: rest)) =
      build frames (.separator (.array (done.reverse ++ items.map tree) none)) (tokens rest) := by
  have closed : tokens (0x5D :: rest) = .closeArray :: tokens rest := tokens_cons rfl rest
  induction listed generalizing done with
  | empty blank =>
      obtain rfl := start rfl
      rw [tokens_blank blank, closed]
      rfl
  | @last item text padded =>
      have first := (each item List.mem_cons_self).padded padded
      rw [first _ _ (stops_closeArray rest), closed]
      change build frames (.separator (.array (tree item :: done).reverse none)) _ = _
      rw [List.reverse_cons]
      rfl
  | @more item next others text further padded _ induction =>
      have first := (each item List.mem_cons_self).padded padded
      have remaining := @induction
        (fun other other_mem => each other (List.mem_cons_of_mem item other_mem))
        (tree item :: done) (fun none_left => absurd none_left (List.cons_ne_nil next others))
      have comma (after : List UInt8) : tokens (0x2C :: after) = .comma :: tokens after :=
        tokens_cons rfl after
      rw [List.append_assoc, List.cons_append, first _ _ (stops_comma _), comma]
      change build (.array (tree item :: done) :: frames) .value (tokens _) = _
      rw [remaining, List.reverse_cons, List.append_assoc]
      rfl

/-- Where a key is due, a member is read up to its value. -/
theorem Member.Spells.build {member : Member} {text : List UInt8} (spelled : member.Spells text)
    (is_string : IsString member.key) (value : Builds member.value (tree member.value))
    (done : List (Node × Node)) (frames : List Frame) {rest : List UInt8} (stops : Stops rest) :
    build frames (.key done) (tokens (text ++ rest)) =
      build (.object done (tree member.key) :: frames) (.separator (tree member.value))
        (tokens rest) := by
  obtain ⟨key, body, key_padded, value_padded, rfl⟩ := spelled
  obtain ⟨content, key_tree, key_read, -⟩ := is_string.tree
  obtain ⟨before, between, before_blank, between_blank, rfl⟩ := key_padded
  have colon (after : List UInt8) : tokens (0x3A :: after) = .colon :: tokens after :=
    tokens_cons rfl after
  rw [List.append_assoc, List.cons_append, List.append_assoc, List.append_assoc,
    tokens_blank before_blank, key_read, tokens_blank between_blank, colon, key_tree]
  exact value.padded value_padded (.object done (.quoted content) :: frames) rest stops

/-- Members are read behind those already read, up to the end of their object. -/
theorem Listed.build_members {members : List Member} {inner : List UInt8}
    (listed : Listed Member.Spells members inner) (keys : ∀ member ∈ members, IsString member.key)
    (values : ∀ member ∈ members, Builds member.value (tree member.value))
    {done : List (Node × Node)} (start : members = [] → done = []) (frames : List Frame)
    (rest : List UInt8) :
    build frames (.key done) (tokens (inner ++ 0x7D :: rest)) =
      build frames (.separator (.object (done.reverse ++ members.map Member.trees) none))
        (tokens rest) := by
  have closed : tokens (0x7D :: rest) = .closeObject :: tokens rest := tokens_cons rfl rest
  induction listed generalizing done with
  | empty blank =>
      obtain rfl := start rfl
      rw [tokens_blank blank, closed]
      rfl
  | @last member text spelled =>
      rw [spelled.build (keys member List.mem_cons_self) (values member List.mem_cons_self) _ _
        (stops_closeObject rest), closed]
      change build frames (.separator (.object (member.trees :: done).reverse none)) _ = _
      rw [List.reverse_cons]
      rfl
  | @more member next others text further spelled _ induction =>
      have remaining := @induction
        (fun other other_mem => keys other (List.mem_cons_of_mem member other_mem))
        (fun other other_mem => values other (List.mem_cons_of_mem member other_mem))
        (member.trees :: done) (fun none_left => absurd none_left (List.cons_ne_nil next others))
      have comma (after : List UInt8) : tokens (0x2C :: after) = .comma :: tokens after :=
        tokens_cons rfl after
      rw [List.append_assoc, List.cons_append,
        spelled.build (keys member List.mem_cons_self) (values member List.mem_cons_self) _ _
          (stops_comma _), comma]
      change build frames (.key (member.trees :: done)) (tokens _) = _
      rw [remaining, List.reverse_cons, List.append_assoc]
      rfl

theorem Listed.builds_array {items : List (List UInt8)} {inner : List UInt8}
    (listed : Listed Padded items inner) (each : ∀ item ∈ items, Builds item (tree item)) :
    Builds (0x5B :: (inner ++ [0x5D])) (.array (items.map tree) none) := by
  intro frames rest _
  have opened (after : List UInt8) : tokens (0x5B :: after) = .openArray :: tokens after :=
    tokens_cons rfl after
  rw [List.cons_append, List.append_assoc, List.singleton_append, opened]
  exact listed.build_items each (fun _ => rfl) frames rest

theorem Listed.builds_object {members : List Member} {inner : List UInt8}
    (listed : Listed Member.Spells members inner) (keys : ∀ member ∈ members, IsString member.key)
    (values : ∀ member ∈ members, Builds member.value (tree member.value)) :
    Builds (0x7B :: (inner ++ [0x7D])) (.object (members.map Member.trees) none) := by
  intro frames rest _
  have opened (after : List UInt8) : tokens (0x7B :: after) = .openObject :: tokens after :=
    tokens_cons rfl after
  rw [List.cons_append, List.append_assoc, List.singleton_append, opened]
  exact listed.build_members keys values (fun _ => rfl) frames rest

/-! ## Values -/

/-- Every value of the grammar is read, wherever it stands, and nothing is missing from its tree. -/
theorem Grammatical.exists_builds {text : List UInt8} (grammatical : Grammatical text) :
    ∃ node, node.pass = .ok () ∧ Builds text node := by
  induction grammatical with
  | null =>
      refine ⟨.null, rfl, fun frames rest _ => ?_⟩
      have read : tokens (nullText ++ rest) = .null :: tokens rest := tokens_cons rfl _
      rw [read]
      rfl
  | flag value =>
      refine ⟨.boolean value, rfl, fun frames rest _ => ?_⟩
      have read : tokens (flagText value ++ rest) = .boolean value :: tokens rest := by
        cases value <;> exact tokens_cons rfl _
      rw [read]
      rfl
  | number is_number =>
      obtain ⟨number, read⟩ := is_number.tokens
      refine ⟨.number number, rfl, fun frames rest stops => ?_⟩
      rw [read rest stops]
      rfl
  | string is_string =>
      obtain ⟨content, read, -⟩ := is_string.tokens
      refine ⟨.quoted content, rfl, fun frames rest _ => ?_⟩
      rw [read]
      rfl
  | @array items inner listed _ induction =>
      have each : ∀ item ∈ items, Builds item (tree item) := fun item item_mem =>
        .of_exists ((induction item item_mem).imp fun _ => And.right)
      exact ⟨_, rfl, listed.builds_array each⟩
  | @object members inner listed keys _ induction =>
      have values : ∀ member ∈ members, Builds member.value (tree member.value) :=
        fun member member_mem =>
          .of_exists ((induction member member_mem).imp fun _ => And.right)
      exact ⟨_, rfl, listed.builds_object keys values⟩

theorem Grammatical.builds {text : List UInt8} (grammatical : Grammatical text) :
    Builds text (tree text) :=
  .of_exists (grammatical.exists_builds.imp fun _ => And.right)

/-- A value of the grammar is passed over. -/
theorem Grammatical.pass {text : List UInt8} (grammatical : Grammatical text) :
    (tree text).pass = .ok () := by
  obtain ⟨node, passed, builds⟩ := grammatical.exists_builds
  rw [tree, builds.read]
  exact passed

/-- An object text is read member by member. -/
theorem ObjectText.read {members : List Member} {text : List UInt8}
    (object : ObjectText members text) :
    Document.read text = ⟨.object (members.map Member.trees) none, false⟩ := by
  obtain ⟨inner, listed, padded⟩ := object.spelled
  have values : ∀ member ∈ members, Builds member.value (tree member.value) :=
    fun member member_mem => (object.values member member_mem).builds
  exact ((listed.builds_object object.keys values).padded padded).read

end Json
end Intake
