import Intake.Json.Token

/-!
# Documents

A document is the tree of a text that may break off or go wrong: the tree holds all that comes
before the break, and says at each place that the break leaves open what is missing there.  So a
reader of the tree meets data and defects in the order of the text.  `build` reads tokens with a
stack of open containers.
-/

namespace Intake
namespace Json

/-- A value as it stands in a text.  The defect of a container says that it is not closed, and what
is wrong for a reader who passes over it. -/
inductive Node where
  | null
  | boolean (value : Bool)
  | number (value : NumberText)
  | quoted (value : Except Defect String)
  | array (items : List Node) (cut : Option Defect)
  /-- Members in the order of the text, with their keys as they stand. -/
  | object (members : List (Node × Node)) (cut : Option Defect)
  | flawed (flaw : Flaw)

instance : Inhabited Node := ⟨.null⟩

/-- A container that is open around the place of the next value, with what it holds so far, last
first. -/
inductive Frame where
  | array (items : List Node)
  | object (members : List (Node × Node)) (key : Node)

/-- The tree of a text, and whether tokens follow it. -/
structure Document where
  root : Node
  trailing : Bool

/-- What comes next in the text. -/
inductive Due where
  /-- A value; an array without items may also end. -/
  | value
  /-- The key of the member after these, last first; an object without members may also end. -/
  | key (members : List (Node × Node))
  /-- The colon after a key. -/
  | colon (members : List (Node × Node)) (key : Node)
  /-- After a value: a comma, the end of its container, or the end of the text. -/
  | separator (value : Node)

/-- The tree in which a text breaks at a node within open containers. -/
def breakOff (defect : Defect) : List Frame → Node → Document
  | [], node => ⟨node, false⟩
  | .array items :: frames, node =>
      breakOff defect frames (.array (node :: items).reverse (some defect))
  | .object members key :: frames, node =>
      breakOff defect frames (.object ((key, node) :: members).reverse (some defect))

/-- The tree in which nothing stands where a value is due. -/
def breakMissing (defect : Defect) (frames : List Frame) : Document :=
  breakOff defect frames (.flawed (.missing defect))

/-- The tree in which the text breaks at the value of a key. -/
def breakAfterKey (defect : Defect) (frames : List Frame) (members : List (Node × Node))
    (key : Node) : Document :=
  breakMissing defect (.object members key :: frames)

/-- The node of a token by itself. -/
def Token.node : Token → Node
  | null => .null
  | boolean value => .boolean value
  | number value => .number value
  | quoted value => .quoted value
  | openArray => .array [] none
  | openObject => .object [] none
  | faulty flaw => .flawed flaw
  | closeArray | closeObject | colon | comma => .flawed (.missing .malformed)

/-- Builds a document from what is open, what is due and the tokens left. -/
def build (frames : List Frame) : Due → List Token → Document
  | .value, tokens =>
      match tokens, frames with
      | [], .array [] :: frames => breakOff .truncated frames (.array [] (some .truncated))
      | [], frames => breakMissing .truncated frames
      | .openArray :: rest, frames => build (.array [] :: frames) .value rest
      | .openObject :: rest, frames => build frames (.key []) rest
      | .null :: rest, frames => build frames (.separator .null) rest
      | .boolean value :: rest, frames => build frames (.separator (.boolean value)) rest
      | .number value :: rest, frames => build frames (.separator (.number value)) rest
      | .quoted value :: rest, frames => build frames (.separator (.quoted value)) rest
      | .closeArray :: rest, .array [] :: frames => build frames (.separator (.array [] none)) rest
      | .faulty flaw :: _, frames => breakOff flaw.passed frames (.flawed flaw)
      | _ :: _, frames => breakMissing .malformed frames
  | .key members, tokens =>
      match tokens, members with
      | .quoted key :: rest, members => build frames (.colon members (.quoted key)) rest
      | .faulty (.quoted read passed) :: _, members =>
          breakAfterKey passed frames members (.flawed (.quoted read passed))
      | [], [] => breakOff .truncated frames (.object [] (some .truncated))
      | [], members =>
          breakAfterKey .truncated frames members (.flawed (.missing .truncated))
      | .closeObject :: rest, [] => build frames (.separator (.object [] none)) rest
      | token :: _, [] => breakAfterKey .malformed frames [] token.node
      | _ :: _, members => breakAfterKey .malformed frames members (.flawed (.missing .malformed))
  | .colon members key, tokens =>
      match tokens with
      | .colon :: rest => build (.object members key :: frames) .value rest
      | [] => breakAfterKey .truncated frames members key
      | _ :: _ => breakAfterKey .malformed frames members key
  | .separator node, tokens =>
      match frames, tokens with
      | [], tokens => ⟨node, !tokens.isEmpty⟩
      | frame :: frames, [] => breakOff .truncated (frame :: frames) node
      | .array items :: frames, .comma :: rest =>
          build (.array (node :: items) :: frames) .value rest
      | .array items :: frames, .closeArray :: rest =>
          build frames (.separator (.array (node :: items).reverse none)) rest
      | .object members key :: frames, .comma :: rest =>
          build frames (.key ((key, node) :: members)) rest
      | .object members key :: frames, .closeObject :: rest =>
          build frames (.separator (.object ((key, node) :: members).reverse none)) rest
      | frame :: frames, _ :: _ => breakOff .malformed (frame :: frames) node

/-- The document of a text. -/
def Document.read (text : List UInt8) : Document := build [] .value (tokens text)

namespace Node

/-- Passes over a value, whatever it denotes. -/
def pass : Node → Except Defect Unit
  | array _ (some defect) => .error defect
  | object _ (some defect) => .error defect
  | flawed flaw => .error flaw.passed
  | _ => .ok ()

/-- The key of a member, for a reader of names. -/
def key : Node → Except Defect String
  | quoted value => value
  | flawed (.quoted read _) => .error read
  | flawed (.missing defect) => .error defect
  | _ => .error .malformed

/-- The end of a container after its last item or member. -/
def finish : Option Defect → Except Defect Unit
  | some defect => .error defect
  | none => .ok ()

end Node
end Json
end Intake
