import Intake.Proofs.Json.Texts

/-!
# Only texts of the grammar are read to their end

A tree is unbroken if nothing is missing from it, so that a reader can pass over it.  Wherever the
builder of an unbroken tree is due to read something, the text goes on with it: a token is spelled
there, or a whole value.  So an unbroken tree with nothing behind it comes from a value of the
grammar with blanks around it.
-/

namespace Intake
namespace Json

/-! ## Unbroken trees -/

/-- A tree that goes on to its end. -/
def Document.Unbroken (document : Document) : Prop := document.root.pass = .ok ()

/-- Where a text breaks within a container, or at a node that is broken itself, its tree is. -/
theorem not_unbroken_breakOff {defect : Defect} {frames : List Frame} {node : Node}
    (broken : frames = [] → node.pass ≠ .ok ()) :
    ¬(breakOff defect frames node).Unbroken := by
  induction frames generalizing node with
  | nil => exact broken rfl
  | cons frame frames induction =>
      cases frame <;> exact induction fun _ cut => by cases cut

theorem not_unbroken_breakMissing (defect : Defect) (frames : List Frame) :
    ¬(breakMissing defect frames).Unbroken := not_unbroken_breakOff fun _ cut => by cases cut

theorem not_unbroken_breakAfterKey (defect : Defect) (frames : List Frame)
    (members : List (Node × Node)) (key : Node) :
    ¬(breakAfterKey defect frames members key).Unbroken := not_unbroken_breakMissing _ _

variable {document : Document} {frames : List Frame} {text : List UInt8}

/-- The byte that a mark is spelled with. -/
def Token.mark? : Token → Option UInt8
  | openArray => some 0x5B
  | closeArray => some 0x5D
  | openObject => some 0x7B
  | closeObject => some 0x7D
  | colon => some 0x3A
  | comma => some 0x2C
  | null | boolean _ | number _ | quoted _ | faulty _ => none

/-- A text whose first token is a mark starts with it, perhaps behind blanks. -/
theorem exists_mark {token : Token} {more : List Token} {mark : UInt8}
    (is_mark : token.mark? = some mark) (read : tokens text = token :: more) :
    ∃ before rest, Blank before ∧ text = before ++ mark :: rest ∧ tokens rest = more := by
  have sound : ∀ flaw, token ≠ .faulty flaw := by
    rintro flaw rfl
    cases is_mark
  obtain ⟨before, lexeme, rest, blank, spelled, rfl, left⟩ := exists_spells_of_tokens read sound
  cases spelled <;> cases is_mark <;> exact ⟨before, rest, blank, rfl, left⟩

/-- The token that closes a container. -/
def Frame.closing : Frame → Token
  | array _ => .closeArray
  | object _ _ => .closeObject

/-- The byte that closes a container. -/
def Frame.closingMark : Frame → UInt8
  | array _ => 0x5D
  | object _ _ => 0x7D

/-- Behind a value within a container stands a comma, or the container is closed. -/
theorem separator_cases (unbroken : document.Unbroken) {frame : Frame} {node : Node}
    (built : build (frame :: frames) (.separator node) (tokens text) = document) :
    ∃ before rest, Blank before ∧
      (text = before ++ 0x2C :: rest ∧
          build (frame :: frames) (.separator node) (.comma :: tokens rest) = document ∨
        text = before ++ frame.closingMark :: rest ∧
          build (frame :: frames) (.separator node) (frame.closing :: tokens rest) = document) := by
  have broken {defect : Defect} (built : breakOff defect (frame :: frames) node = document) :
      False :=
    not_unbroken_breakOff (fun none_open => by cases none_open) (built ▸ unbroken)
  cases read : tokens text with
  | nil =>
      rw [read] at built
      cases frame <;> exact (broken built).elim
  | cons token more =>
      rw [read] at built
      cases token with
      | comma =>
          obtain ⟨before, rest, blank, rfl, rfl⟩ := exists_mark rfl read
          exact ⟨before, rest, blank, .inl ⟨rfl, built⟩⟩
      | closeArray =>
          cases frame with
          | array items =>
              obtain ⟨before, rest, blank, rfl, rfl⟩ := exists_mark rfl read
              exact ⟨before, rest, blank, .inr ⟨rfl, built⟩⟩
          | object => exact (broken built).elim
      | closeObject =>
          cases frame with
          | array => exact (broken built).elim
          | object members key =>
              obtain ⟨before, rest, blank, rfl, rfl⟩ := exists_mark rfl read
              exact ⟨before, rest, blank, .inr ⟨rfl, built⟩⟩
      | _ => cases frame <;> exact (broken built).elim

/-- Behind a key stands a colon. -/
theorem exists_colon (unbroken : document.Unbroken) {members : List (Node × Node)} {key : Node}
    (built : build frames (.colon members key) (tokens text) = document) :
    ∃ before rest, Blank before ∧ text = before ++ 0x3A :: rest ∧
      build (.object members key :: frames) .value (tokens rest) = document := by
  cases read : tokens text with
  | nil =>
      rw [read] at built
      exact absurd (built ▸ unbroken) (not_unbroken_breakAfterKey _ _ _ _)
  | cons token more =>
      rw [read] at built
      cases token with
      | colon =>
          obtain ⟨before, rest, blank, rfl, rfl⟩ := exists_mark rfl read
          exact ⟨before, rest, blank, rfl, built⟩
      | _ => exact absurd (built ▸ unbroken) (not_unbroken_breakAfterKey _ _ _ _)

/-- Where a key is due, there is a key with its colon, or an object without members ends. -/
theorem key_cases (unbroken : document.Unbroken) {members : List (Node × Node)}
    (built : build frames (.key members) (tokens text) = document) :
    (∃ before key after rest node, Blank before ∧ IsString key ∧ Blank after ∧
      text = before ++ (key ++ (after ++ 0x3A :: rest)) ∧
      build (.object members node :: frames) .value (tokens rest) = document) ∨
    ∃ before rest, members = [] ∧ Blank before ∧ text = before ++ 0x7D :: rest ∧
      build frames (.separator (.object [] none)) (tokens rest) = document := by
  cases read : tokens text with
  | nil =>
      rw [read] at built
      cases members with
      | nil => exact absurd (built ▸ unbroken) (not_unbroken_breakOff fun _ cut => by cases cut)
      | cons => exact absurd (built ▸ unbroken) (not_unbroken_breakAfterKey _ _ _ _)
  | cons token more =>
      rw [read] at built
      cases token with
      | quoted content =>
          obtain ⟨before, key, rest, blank, spelled, rfl, rfl⟩ :=
            exists_spells_of_tokens read fun _ same => by cases same
          obtain ⟨after, rest, after_blank, rfl, value_built⟩ := exists_colon unbroken built
          cases spelled with
          | string is_string =>
              exact .inl ⟨before, key, after, rest, _, blank, is_string, after_blank, rfl,
                value_built⟩
      | closeObject =>
          cases members with
          | nil =>
              obtain ⟨before, rest, blank, rfl, rfl⟩ := exists_mark rfl read
              exact .inr ⟨before, rest, rfl, blank, rfl, built⟩
          | cons => exact absurd (built ▸ unbroken) (not_unbroken_breakAfterKey _ _ _ _)
      | faulty flaw =>
          cases flaw <;> cases members <;>
            exact absurd (built ▸ unbroken) (not_unbroken_breakAfterKey _ _ _ _)
      | _ =>
          cases members <;>
            exact absurd (built ▸ unbroken) (not_unbroken_breakAfterKey _ _ _ _)

/-! ## Only texts of the grammar -/

/-- If a value is due at the front of the text and the tree is unbroken, then the text goes on with
a value, or it closes an array without items. -/
def ValueAhead (document : Document) (text : List UInt8) : Prop :=
  ∀ frames, build frames .value (tokens text) = document →
    (∃ before value rest node, Blank before ∧ Grammatical value ∧
      text = before ++ (value ++ rest) ∧
      build frames (.separator node) (tokens rest) = document) ∨
    ∃ below before rest, frames = .array [] :: below ∧ Blank before ∧
      text = before ++ 0x5D :: rest ∧
      build below (.separator (.array [] none)) (tokens rest) = document

/-- An array that is not broken off ends, and its items are of the grammar. -/
theorem exists_items (unbroken : document.Unbroken) {bound : Nat}
    (ahead : ∀ text : List UInt8, text.length < bound → ValueAhead document text)
    (short : text.length < bound) {done : List Node}
    (built : build (.array done :: frames) .value (tokens text) = document) :
    ∃ items inner rest node, Listed Padded items inner ∧ (∀ item ∈ items, Grammatical item) ∧
      (items = [] → done = []) ∧ text = inner ++ 0x5D :: rest ∧
      build frames (.separator node) (tokens rest) = document := by
  induction length : text.length using Nat.strongRecOn generalizing text done with
  | ind _ induction =>
      rcases ahead text short _ built with
        ⟨before, value, rest, node, blank, grammatical, rfl, behind⟩ |
        ⟨below, before, rest, opened, blank, rfl, behind⟩
      · obtain ⟨after, rest, after_blank, ⟨rfl, further⟩ | ⟨rfl, closed⟩⟩ :=
          separator_cases unbroken behind
        · have shorter : rest.length < (before ++ (value ++ (after ++ 0x2C :: rest))).length := by
            simp only [List.length_append, List.length_cons]
            omega
          obtain ⟨items, inner, left, last, listed, each, start, rfl, closed⟩ :=
            induction _ (length ▸ shorter) (shorter.trans short) further rfl
          cases items with
          | nil => exact absurd (start rfl) (List.cons_ne_nil _ _)
          | cons next others =>
              refine ⟨value :: next :: others, _, left, last,
                .more ⟨before, after, blank, after_blank, rfl⟩ listed, ?_, ?_, ?_, closed⟩
              · exact List.forall_mem_cons.mpr ⟨grammatical, each⟩
              · exact fun none_left => absurd none_left (List.cons_ne_nil _ _)
              · simp only [List.append_assoc, List.cons_append]
        · refine ⟨[value], _, rest, _, .last ⟨before, after, blank, after_blank, rfl⟩, ?_, ?_, ?_,
            closed⟩
          · exact List.forall_mem_singleton.mpr grammatical
          · exact fun none_left => absurd none_left (List.cons_ne_nil _ _)
          · simp only [List.append_assoc]
            rfl
      · obtain ⟨same, rfl⟩ := List.cons.inj opened
        exact ⟨[], before, rest, _, .empty blank, by simp, fun _ => Frame.array.inj same, rfl,
          behind⟩

/-- An object that is not broken off ends, and its members are of the grammar. -/
theorem exists_members (unbroken : document.Unbroken) {bound : Nat}
    (ahead : ∀ text : List UInt8, text.length < bound → ValueAhead document text)
    (short : text.length < bound) {done : List (Node × Node)}
    (built : build frames (.key done) (tokens text) = document) :
    ∃ members inner rest node, Listed Member.Spells members inner ∧
      (∀ member ∈ members, IsString member.key) ∧
      (∀ member ∈ members, Grammatical member.value) ∧
      (members = [] → done = []) ∧ text = inner ++ 0x7D :: rest ∧
      build frames (.separator node) (tokens rest) = document := by
  induction length : text.length using Nat.strongRecOn generalizing text done with
  | ind _ induction =>
      rcases key_cases unbroken built with
        ⟨before, key, colon, rest, name, blank, is_string, colon_blank, rfl, value_built⟩ |
        ⟨before, rest, rfl, blank, rfl, closed⟩
      · have value_short : rest.length < bound := by
          simp only [List.length_append, List.length_cons] at short
          omega
        rcases ahead rest value_short _ value_built with
          ⟨start, value, rest, node, start_blank, grammatical, rfl, behind⟩ |
          ⟨_, _, _, opened, _⟩
        · obtain ⟨after, rest, after_blank, ⟨rfl, further⟩ | ⟨rfl, closed⟩⟩ :=
            separator_cases unbroken behind
          · have shorter : rest.length < (before ++ (key ++ (colon ++ 0x3A ::
                (start ++ (value ++ (after ++ 0x2C :: rest)))))).length := by
              simp only [List.length_append, List.length_cons]
              omega
            obtain ⟨members, inner, left, last, listed, keys, values, done_nil, rfl, closed⟩ :=
              induction _ (length ▸ shorter) (shorter.trans short) further rfl
            cases members with
            | nil => exact absurd (done_nil rfl) (List.cons_ne_nil _ _)
            | cons next others =>
                refine ⟨⟨key, value⟩ :: next :: others, _, left, last,
                  .more ⟨_, _, ⟨before, colon, blank, colon_blank, rfl⟩,
                    ⟨start, after, start_blank, after_blank, rfl⟩, rfl⟩ listed, ?_, ?_, ?_, ?_,
                  closed⟩
                · exact List.forall_mem_cons.mpr ⟨is_string, keys⟩
                · exact List.forall_mem_cons.mpr ⟨grammatical, values⟩
                · exact fun none_left => absurd none_left (List.cons_ne_nil _ _)
                · simp only [List.append_assoc, List.cons_append]
          · refine ⟨[⟨key, value⟩], _, rest, _,
              .last ⟨_, _, ⟨before, colon, blank, colon_blank, rfl⟩,
                ⟨start, after, start_blank, after_blank, rfl⟩, rfl⟩, ?_, ?_, ?_, ?_, closed⟩
            · exact List.forall_mem_singleton.mpr is_string
            · exact List.forall_mem_singleton.mpr grammatical
            · exact fun none_left => absurd none_left (List.cons_ne_nil _ _)
            · simp only [List.append_assoc, List.cons_append]
              rfl
        · cases opened
      · exact ⟨[], before, rest, _, .empty blank, by simp, by simp, fun _ => rfl, rfl, closed⟩

/-- In an unbroken tree there is a value wherever one is due. -/
theorem valueAhead (unbroken : document.Unbroken) (text : List UInt8) :
    ValueAhead document text := by
  induction length : text.length using Nat.strongRecOn generalizing text with
  | ind bound induction =>
      have ahead (rest : List UInt8) (short : rest.length < bound) : ValueAhead document rest :=
        induction rest.length short rest rfl
      intro frames built
      have missing {defect : Defect} (built : breakMissing defect frames = document) : False :=
        not_unbroken_breakMissing defect frames (built ▸ unbroken)
      cases read : tokens text with
      | nil =>
          rw [read] at built
          -- An array without items that breaks off stands for itself, everything else is missing.
          match frames with
          | [] | .object _ _ :: _ | .array (_ :: _) :: _ => exact (missing built).elim
          | .array [] :: below =>
              exact absurd (built ▸ unbroken) (not_unbroken_breakOff fun _ cut => by cases cut)
      | cons token more =>
          rw [read] at built
          have plain (sound : ∀ flaw, token ≠ .faulty flaw)
              (only : ∀ lexeme, token.Spells lexeme → Grammatical lexeme)
              (behind : build frames (.separator token.node) more = document) :
              ∃ before value rest node, Blank before ∧ Grammatical value ∧
                text = before ++ (value ++ rest) ∧
                build frames (.separator node) (tokens rest) = document := by
            obtain ⟨before, lexeme, rest, blank, spelled, split, rfl⟩ :=
              exists_spells_of_tokens read sound
            exact ⟨before, lexeme, rest, _, blank, only lexeme spelled, split, behind⟩
          cases token with
          | null =>
              refine .inl (plain (fun _ same => by cases same) ?_ built)
              rintro _ ⟨⟩
              exact .null
          | boolean value =>
              refine .inl (plain (fun _ same => by cases same) ?_ built)
              rintro _ ⟨⟩
              exact .flag value
          | number number =>
              refine .inl (plain (fun _ same => by cases same) (fun lexeme spelled => ?_) built)
              cases spelled with
              | number is_number => exact .number is_number
          | quoted content =>
              refine .inl (plain (fun _ same => by cases same) (fun lexeme spelled => ?_) built)
              cases spelled with
              | string is_string => exact .string is_string
          | openArray =>
              obtain ⟨before, rest, blank, rfl, rfl⟩ := exists_mark rfl read
              have short : rest.length < bound := by
                simp only [List.length_append, List.length_cons] at length
                omega
              obtain ⟨items, inner, left, node, listed, each, -, rfl, behind⟩ :=
                exists_items unbroken ahead short built
              exact .inl ⟨before, _, left, node, blank, .array listed each, by simp, behind⟩
          | openObject =>
              obtain ⟨before, rest, blank, rfl, rfl⟩ := exists_mark rfl read
              have short : rest.length < bound := by
                simp only [List.length_append, List.length_cons] at length
                omega
              obtain ⟨members, inner, left, node, listed, keys, values, -, rfl, behind⟩ :=
                exists_members unbroken ahead short built
              exact .inl ⟨before, _, left, node, blank, .object listed keys values, by simp,
                behind⟩
          | closeArray =>
              match frames with
              | [] | .object _ _ :: _ | .array (_ :: _) :: _ => exact (missing built).elim
              | .array [] :: below =>
                  obtain ⟨before, rest, blank, rfl, rfl⟩ := exists_mark rfl read
                  exact .inr ⟨below, before, rest, rfl, blank, rfl, built⟩
          | faulty flaw =>
              exact absurd (built ▸ unbroken)
                (not_unbroken_breakOff fun _ passed => by cases flaw <;> cases passed)
          | closeObject | colon | comma => exact (missing built).elim

/-- A text is read to its end, and nothing is missing from its tree, exactly if it is a value of the
grammar with blanks around it. -/
theorem unbroken_read_iff (text : List UInt8) :
    (Document.read text).Unbroken ∧ (Document.read text).trailing = false ↔
      ∃ value, Grammatical value ∧ Padded value text := by
  constructor
  · rintro ⟨unbroken, whole⟩
    rcases valueAhead unbroken text [] rfl with
      ⟨before, value, rest, node, blank, grammatical, rfl, read⟩ | ⟨_, _, _, opened, _⟩
    · rw [← read] at whole
      have none_left : tokens rest = [] := by simpa [build] using whole
      exact ⟨value, grammatical, before, rest, blank, blank_of_tokens_eq_nil none_left,
        (List.append_assoc _ _ _).symm⟩
    · cases opened
  · rintro ⟨value, grammatical, padded⟩
    obtain ⟨node, passed, builds⟩ := grammatical.exists_builds
    rw [(builds.padded padded).read]
    exact ⟨passed, rfl⟩

/-! ## Objects -/

/-- The first byte that is no blank opens an object. -/
def OpensObject (text : List UInt8) : Prop := (text.dropWhile isBlank).head? = some 0x7B

/-- Of the values of the grammar only objects start with the mark of an object. -/
theorem Grammatical.exists_members {value text : List UInt8} (grammatical : Grammatical value)
    (padded : Padded value text) (opens : OpensObject text) :
    ∃ members, ObjectText members text := by
  have other {byte : UInt8} {rest : List UInt8} (solid : isBlank byte = false)
      (different : byte ≠ 0x7B) (starts : value = byte :: rest) : False := by
    obtain ⟨before, after, before_blank, -, rfl⟩ := padded
    rw [OpensObject, List.append_assoc, List.dropWhile_append_of_pos before_blank, starts,
      List.cons_append, List.dropWhile_cons_of_neg (by simp [solid])] at opens
    exact different (Option.some.inj opens)
  cases grammatical with
  | object listed keys values => exact ⟨_, keys, values, _, listed, padded⟩
  | null => exact (other rfl (by decide) rfl).elim
  | flag flag => cases flag <;> exact (other rfl (by decide) rfl).elim
  | number is_number =>
      obtain ⟨byte, rest, rfl, numeric⟩ := is_number.exists_cons
      refine (other (isBlank_number numeric) ?_ rfl).elim
      rintro rfl
      exact absurd numeric (by decide)
  | string is_string =>
      obtain ⟨inner, -, rfl⟩ := is_string
      exact (other rfl (by decide) rfl).elim
  | array => exact (other rfl (by decide) rfl).elim

end Json
end Intake
