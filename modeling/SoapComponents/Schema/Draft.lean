import SoapComponents.TypeGraph.Basic

/-!
Types as a schema writes them: trees, before the objects of a graph are made. The members of a
drafted object are its element declarations in the order in which they are met, and a name may
come twice.
-/

set_option autoImplicit false

namespace SoapComponents

structure Derived (τ : Type) where
  type : ObjectType τ
  extended : Option String := none

inductive Draft where
  | primitive (name : String)
  | reference (key : String)
  | object (derived : Derived Draft)

/-- An object that is to inherit the members of a named type. -/
structure Extension where
  id : ObjectId
  base : String
  deriving DecidableEq

namespace Draft

mutual

/-- Puts a draft into a graph. The extensions are listed from the outside inwards, in the order of
the members. -/
def place (g : TypeGraph) : Draft → TypeGraph × TypeNode × List Extension
  | primitive name => (g, .primitive name, [])
  | reference key => (g, .reference ⟨key, none, none⟩, [])
  | object derived =>
    let (g, id, extensions) := placeObject g derived
    (g, .object id, extensions)

def placeObject (g : TypeGraph) : Derived Draft → TypeGraph × ObjectId × List Extension
  | ⟨⟨members, space, qualified, base, attributes⟩, extended⟩ =>
    let (g, placed, inner) := placeMembers g members
    let (g, id) := g.addObject
      ⟨Table.ofAssignments placed, space, qualified, base, attributes⟩
    (g, id, (extended.map (Extension.mk id)).toList ++ inner)

def placeMembers (g : TypeGraph) :
    List (String × Member Draft) → TypeGraph × List (String × Member TypeNode) × List Extension
  | [] => (g, [], [])
  | (key, ⟨type, minOccurs, maxOccurs, qualified, space⟩) :: rest =>
    let (g, type, outer) := place g type
    let (g, members, inner) := placeMembers g rest
    (g, (key, ⟨type, minOccurs, maxOccurs, qualified, space⟩) :: members, outer ++ inner)

end

end Draft

end SoapComponents
