import Intake.Proofs.Json.Texts

/-!
# Documents of written values

`Json.node` is the tree that a value has in its own text.  What is written in compact form is of the
grammar, item by item and member by member, so the trees of the parts make up the tree of the whole,
wherever in other values it stands.
-/

namespace Intake
namespace Json

/-- A value all of whose numbers are whole. -/
inductive Exact : Json → Prop where
  | null : Exact .null
  | boolean (value : Bool) : Exact (.boolean value)
  | whole (value : Whole) : Exact (.whole value)
  | text (value : String) : Exact (.text value)
  | array {items : List Json} (each : ∀ item ∈ items, Exact item) : Exact (.array items)
  | object {members : List (String × Json)} (each : ∀ member ∈ members, Exact member.2) :
      Exact (.object members)

mutual

/-- The tree of a value in its text; a double has the tree of whatever its text is read as. -/
def node : Json → Node
  | null => .null
  | boolean value => .boolean value
  | whole value => .number (wholeText value.value)
  | double bits => (Document.read (double bits).bytes).root
  | text value => .quoted (.ok value)
  | array items => .array (itemNodes items) none
  | object members => .object (memberNodes members) none

/-- The trees of items. -/
def itemNodes : List Json → List Node
  | [] => []
  | item :: rest => item.node :: itemNodes rest

/-- The trees of members with those of their keys. -/
def memberNodes : List (String × Json) → List (Node × Node)
  | [] => []
  | (key, value) :: rest => (.quoted (.ok key), value.node) :: memberNodes rest

end

/-- Wherever a value is due, its text is read as its tree. -/
def BuildsNode (value : Json) : Prop :=
  ∀ (frames : List Frame) (rest : List UInt8), Stops rest →
    build frames .value (tokens (utf8 value.chars ++ rest)) =
      build frames (.separator value.node) (tokens rest)

/-! ## Written in compact form -/

/-- What is written with commas between is a list of pieces, if each piece is spelled. -/
theorem listed_separated {Source Part : Type} {Spells : Part → List UInt8 → Prop}
    {sources : List Source} {label : Source → Part} {write : Source → List Char}
    (spelled : ∀ source ∈ sources, Spells (label source) (utf8 (write source))) :
    Listed Spells (sources.map label) (utf8 (separated (sources.map write))) := by
  induction sources with
  | nil => exact .empty Blank.nil
  | cons source rest induction =>
      have first := spelled source List.mem_cons_self
      have further := induction fun other later => spelled other (List.mem_cons_of_mem source later)
      cases rest with
      | nil => exact .last first
      | cons next others =>
          have bytes : utf8 (separated (write source :: write next :: others.map write)) =
              utf8 (write source) ++ 0x2C :: utf8 (separated (write next :: others.map write)) := by
            change utf8 (write source ++ ',' :: separated (write next :: others.map write)) = _
            rw [utf8_append, utf8_ascii_cons (by decide)]
            rfl
          rw [List.map_cons, List.map_cons, List.map_cons, List.map_cons, bytes]
          exact .more first further

/-- A member as it is written. -/
def Member.written (member : String × Json) : Member :=
  ⟨utf8 (quoted member.1), utf8 member.2.chars⟩

theorem Member.spells_written (member : String × Json) :
    (Member.written member).Spells (utf8 (quoted member.1 ++ ':' :: member.2.chars)) := by
  refine ⟨_, _, .refl _, .refl _, ?_⟩
  rw [utf8_append, utf8_ascii_cons (by decide)]
  rfl

theorem itemChars_eq_map (items : List Json) : itemChars items = items.map chars := by
  induction items with
  | nil => rfl
  | cons item rest induction => rw [itemChars, induction, List.map_cons]

theorem memberChars_eq_map (members : List (String × Json)) :
    memberChars members = members.map fun member => quoted member.1 ++ ':' :: member.2.chars := by
  induction members with
  | nil => rfl
  | cons member rest induction => rw [memberChars, induction, List.map_cons]

theorem listed_itemChars (items : List Json) :
    Listed Padded (items.map fun item => utf8 item.chars)
      (utf8 (separated (itemChars items))) := by
  rw [itemChars_eq_map]
  exact listed_separated fun item _ => .refl (utf8 item.chars)

theorem listed_memberChars (members : List (String × Json)) :
    Listed Member.Spells (members.map Member.written)
      (utf8 (separated (memberChars members))) := by
  rw [memberChars_eq_map]
  exact listed_separated fun member _ => Member.spells_written member

theorem utf8_bracketed {opening closing : Char} (opening_small : opening.toNat < 128)
    (closing_small : closing.toNat < 128) (inner : List Char) :
    utf8 (opening :: inner ++ [closing]) =
      opening.toUInt8 :: (utf8 inner ++ [closing.toUInt8]) := by
  rw [List.cons_append, utf8_ascii_cons opening_small, utf8_append,
    utf8_ascii_cons closing_small]
  rfl

theorem isString_quoted (value : String) : IsString (utf8 (quoted value)) :=
  (spellsString_quoted value).isString

theorem isNumber_wholeChars (value : Int) : IsNumber (utf8 (wholeChars value)) := by
  obtain ⟨lexeme, is_number, same⟩ := isNumber_of_scanNumber (scanNumber_whole value stops_nil)
  rw [List.append_nil, List.append_nil] at same
  exact same ▸ is_number

/-! ## Trees -/

theorem map_tree_itemChars {items : List Json} (each : ∀ item ∈ items, BuildsNode item) :
    (items.map fun item => utf8 item.chars).map tree = itemNodes items := by
  induction items with
  | nil => rfl
  | cons item rest induction =>
      obtain ⟨first, others⟩ := List.forall_mem_cons.mp each
      rw [List.map_cons, List.map_cons, induction others, tree, Builds.read first]
      rfl

theorem map_trees_memberChars {members : List (String × Json)}
    (each : ∀ member ∈ members, BuildsNode member.2) :
    (members.map Member.written).map Member.trees = memberNodes members := by
  induction members with
  | nil => rfl
  | cons member rest induction =>
      obtain ⟨first, others⟩ := List.forall_mem_cons.mp each
      rw [List.map_cons, List.map_cons, induction others, Member.trees, Member.written,
        (spellsString_quoted _).tree, tree, Builds.read first]
      rfl

/-- The text of a value without doubles is read as its tree. -/
theorem Exact.buildsNode {value : Json} (exact_value : Exact value) : BuildsNode value := by
  induction exact_value with
  | null =>
      intro frames rest _
      rw [chars, tokens_null]
      rfl
  | boolean value =>
      intro frames rest _
      cases value with
      | true =>
          rw [chars, tokens_true]
          rfl
      | false =>
          rw [chars, tokens_false]
          rfl
  | whole value =>
      intro frames rest stops
      rw [chars, tokens_whole value.value stops]
      rfl
  | text value =>
      intro frames rest _
      rw [chars, (spellsString_quoted value).tokens]
      rfl
  | @array items _ induction =>
      have each : ∀ text ∈ items.map fun item => utf8 item.chars, Builds text (tree text) :=
        List.forall_mem_map.mpr fun item item_mem => .of_exists ⟨_, induction item item_mem⟩
      have builds := (listed_itemChars items).builds_array each
      rw [map_tree_itemChars induction] at builds
      rw [BuildsNode, chars, utf8_bracketed (by decide) (by decide)]
      exact builds
  | @object members _ induction =>
      have values : ∀ member ∈ members.map Member.written,
          Builds member.value (tree member.value) :=
        List.forall_mem_map.mpr fun member member_mem =>
          .of_exists ⟨_, induction member member_mem⟩
      have builds := (listed_memberChars members).builds_object
        (List.forall_mem_map.mpr fun member _ => isString_quoted member.1) values
      rw [map_trees_memberChars induction] at builds
      rw [BuildsNode, chars, utf8_bracketed (by decide) (by decide)]
      exact builds

/-- The document of a written value is its tree, with nothing after it. -/
theorem Exact.read_bytes {value : Json} (exact_value : Exact value) :
    Document.read value.bytes = ⟨value.node, false⟩ := by
  have built := exact_value.buildsNode [] [] stops_nil
  rw [List.append_nil, tokens_nil] at built
  rw [Document.read, bytes_eq, built]
  rfl

/-- Whoever reads the text of a value reads its tree. -/
theorem Exact.decode_bytes {Value : Type} {value : Json} (exact_value : Exact value)
    (read : Nat → Node → Reading Value) : decode read value.bytes = read deepest value.node := by
  rw [decode, exact_value.read_bytes]
  cases read deepest value.node <;> rfl

/-! ## Texts of the grammar -/

/-- A written value is of the grammar. -/
theorem Exact.grammatical {value : Json} (exact_value : Exact value) :
    Grammatical (utf8 value.chars) := by
  induction exact_value with
  | null => exact .null
  | boolean value =>
      cases value with
      | true => exact .flag true
      | false => exact .flag false
  | whole value => exact .number (isNumber_wholeChars value.value)
  | text value => exact .string (isString_quoted value)
  | array _ induction =>
      rw [chars, utf8_bracketed (by decide) (by decide)]
      exact .array (listed_itemChars _) (List.forall_mem_map.mpr induction)
  | object _ induction =>
      rw [chars, utf8_bracketed (by decide) (by decide)]
      refine .object (listed_memberChars _) (List.forall_mem_map.mpr fun member _ => ?_)
        (List.forall_mem_map.mpr induction)
      exact isString_quoted member.1

/-- A written object is the text of an object with its members as they are written. -/
theorem objectText_written {members : List (String × Json)}
    (each : ∀ member ∈ members, Exact member.2) :
    ObjectText (members.map Member.written) (object members).bytes where
  keys := List.forall_mem_map.mpr fun member _ => isString_quoted member.1
  values := List.forall_mem_map.mpr fun member member_mem => (each member member_mem).grammatical
  spelled := by
    refine ⟨_, listed_memberChars members, ?_⟩
    rw [bytes_eq, chars, utf8_bracketed (by decide) (by decide)]
    exact .refl _

end Json
end Intake
