import SoapComponents.Remaining
import SoapComponents.Table
import SoapComponents.TypeGraph.HostType

/-!
Type graphs. An object type has members in order, and a member's type is a built-in type, a
reference by name, or another object. Objects live in a list and are known by their place in it,
so an object can lie within itself, and two objects with the same members are still two.
-/

set_option autoImplicit false

namespace SoapComponents

/-- A pointer to a type or element by its qualified name. As the entry of an element it says which
namespace the element is in, and whether its schema wants children qualified. -/
structure Reference where
  name : String
  space : Option String := none
  qualified : Option Bool := none
  deriving DecidableEq, Repr

inductive Modifier where
  | one
  | optional
  | repeated
  deriving DecidableEq, Repr

namespace Modifier

def text : Modifier → String
  | one => ""
  | optional => "?"
  | repeated => "[]"

/-- The modifier for occurrence bounds, where an empty bound means one. -/
def ofOccurs (minOccurs maxOccurs : String) : Modifier :=
  if maxOccurs ≠ "" ∧ maxOccurs ≠ "1" then repeated
  else if minOccurs ≠ "" ∧ minOccurs ≠ "1" then optional
  else one

end Modifier

structure Member (τ : Type) where
  type : τ
  minOccurs : String := "1"
  maxOccurs : String := "1"
  /-- Whether the element's tag is qualified, when its declaration says so. -/
  qualified : Option Bool := none
  space : Option String := none
  deriving Repr

namespace Member

variable {τ : Type}

def isRepeated (m : Member τ) : Bool := m.maxOccurs != "1"

def isOptional (m : Member τ) : Bool := !m.isRepeated && m.minOccurs != "1"

def modifier (m : Member τ) : Modifier := Modifier.ofOccurs m.minOccurs m.maxOccurs

end Member

structure ObjectType (τ : Type) where
  members : List (String × Member τ) := []
  space : Option String := none
  qualified : Option Bool := none
  base : Option String := none
  attributes : List (String × String) := []
  deriving Repr

abbrev ObjectId := Nat

inductive TypeNode where
  | primitive (name : String)
  | reference (pointer : Reference)
  | object (id : ObjectId)
  deriving DecidableEq, Repr

abbrev ObjectNode := ObjectType TypeNode

/-- The elements and complex types of a set of schemas, by qualified name. -/
structure TypeGraph where
  objects : List ObjectNode := []
  elements : Table TypeNode := []
  complexTypes : Table ObjectId := []
  namespaces : Table String := []
  schemas : List String := []

namespace TypeGraph

/-- The object with a number; numbers that are not in use have the object without members. -/
def object (g : TypeGraph) (id : ObjectId) : ObjectNode := g.objects.getD id {}

def addObject (g : TypeGraph) (o : ObjectNode) : TypeGraph × ObjectId :=
  ({ g with objects := g.objects ++ [o] }, g.objects.length)

def setObject (g : TypeGraph) (id : ObjectId) (o : ObjectNode) : TypeGraph :=
  { g with objects := g.objects.set id o }

def isEmpty (g : TypeGraph) : Bool := g.elements.isEmpty && g.complexTypes.isEmpty

def availableKeys (g : TypeGraph) : List String :=
  ((g.elements.keys ++ g.complexTypes.keys).mergeSort (fun a b => a ≤ b)).eraseDups

/-- The number of objects that a walk has not yet gone into. -/
def unvisited (g : TypeGraph) (visited : List ObjectId) : Nat :=
  remaining (List.range g.objects.length) visited

theorem lt_of_members_ne_nil {g : TypeGraph} {id : ObjectId} (h : (g.object id).members ≠ []) :
    id < g.objects.length := by
  refine Nat.lt_of_not_le fun hle => h ?_
  simp [object, List.getElem?_eq_none hle]

theorem unvisited_cons_lt {g : TypeGraph} {id : ObjectId} {visited : List ObjectId}
    (hm : (g.object id).members ≠ []) (hn : id ∉ visited) :
    g.unvisited (id :: visited) < g.unvisited visited :=
  remaining_cons_lt (List.mem_range.2 (lt_of_members_ne_nil hm)) hn

end TypeGraph

end SoapComponents
