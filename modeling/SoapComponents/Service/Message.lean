import SoapComponents.Reference.Root
import SoapComponents.Service.Basic

/-!
Messages and what their parts stand for. A part names an element or a type, and what counts of it
is the object that this comes to, in the namespace of the element.
-/

set_option autoImplicit false

namespace SoapComponents

inductive PartKind where
  | element
  | type
  deriving DecidableEq, Repr

namespace PartKind

def name : PartKind → String
  | element => "element"
  | type => "type"

end PartKind

structure MessagePart where
  name : String
  kind : PartKind
  written : String
  key : String

/-- An entry of the type graph with the object to start from. -/
structure PartType where
  key : String
  root : Root

namespace Service

def messages (s : Service) : List Tree := s.definitions.children "message"

/-- The message that a reference names: one with its local name, or else one whose name the
reference ends with. -/
def message? (s : Service) (ref : String) : Option Tree :=
  (s.messages.find? fun m => m.attribute? "name" == some (Name.localPart ref)).or
    (s.messages.find? fun m =>
      match m.given? "name" with
      | some name => name.toList.isSuffixOf ref.toList
      | none => false)

def partReference? (part : Tree) : Option (PartKind × String) :=
  match part.given? "element" with
  | some written => some (.element, written)
  | none => (part.given? "type").map (.type, ·)

/-- The first part of a message that refers to anything. -/
def messagePart? (s : Service) (ref : String) : Noted (Option MessagePart) := do
  let parts := ((s.message? ref).map (·.children "part")).getD []
  match parts.findSome? fun part => (partReference? part).map (part, ·) with
  | none => return none
  | some (part, kind, written) =>
    return some ⟨(part.attribute? "name").getD "", kind, written, ← s.qualify written⟩

end Service

namespace Catalog

/-- The object of an entry that was found, and the namespace of the element, when that is told
apart from the object's. -/
def partObject (c : Catalog) (part : MessagePart) (key : String) :
    TypeNode → Outcome (ObjectId × Option String)
  | .object id => return (id, none)
  | .primitive _ => throw (.partNotComplex part.name)
  | .reference pointer => do
    match ← ExceptT.lift (c.resolveObject key) with
    | some (id, _) => return (id, pointer.space)
    | none =>
      throw (.typeNotFound pointer.name c.graph.availableKeys (.elementType part.written))

/-- The object that a part stands for. The root lies in the namespace of the element, and is a
copy if that is not the object's own. -/
def resolvePart (c : Catalog) (part : MessagePart) : Outcome PartType := do
  if (Name.schemaSpace ++ ":").toList.isPrefixOf part.key.toList then
    throw (.simplePart part.name part.written)
  match c.lookup part.key (part.kind == .type) [] with
  | none =>
    throw (.typeNotFound part.written c.graph.availableKeys (.messagePart part.name))
  | some found =>
    Outcome.tellAll (found.notices part.key)
    let key := found.entry.key
    let (id, elementSpace) ← c.partObject part key found.node
    let object := c.graph.object id
    match ((Name.given? elementSpace).or (Name.given? object.space)).or
        (Name.given? (Name.space? key)) with
    | none => throw (.noNamespace key)
    | some space =>
      if object.space = some space then return ⟨key, Root.ofId c.graph id⟩
      else return ⟨key, { object with space := some space }, none⟩

end Catalog

end SoapComponents
