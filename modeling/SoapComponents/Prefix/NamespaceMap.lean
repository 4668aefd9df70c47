import SoapComponents.Failure
import SoapComponents.Table

/-!
What a component has to know of namespaces: the tags that it uses under each prefix, the namespace
of each prefix, and the namespace that the members of a name are in.
-/

set_option autoImplicit false

namespace SoapComponents

structure BoundSpace where
  space : String
  tagPrefix : String
  deriving DecidableEq, Repr

structure NamespaceMap where
  tags : Table (List String) := []
  spaces : Table String := []
  types : Table BoundSpace := []
  basePrefix : String := ""

namespace NamespaceMap

def addTag (m : NamespaceMap) (tagPrefix tag : String) : NamespaceMap :=
  let tags := (m.tags.value? tagPrefix).getD []
  { m with tags := m.tags.put tagPrefix (if tag ∈ tags then tags else tags ++ [tag]) }

/-- Binds a prefix, unless it has another namespace already. -/
def register (m : NamespaceMap) (tagPrefix space : String) : Except Failure NamespaceMap :=
  match m.spaces.value? tagPrefix with
  | some old =>
    if old = space then .ok m else .error (.prefixTaken tagPrefix old space)
  | none => .ok { m with spaces := m.spaces.put tagPrefix space }

def merge (m other : NamespaceMap) : NamespaceMap :=
  let m := { m with spaces := Table.putAllNew m.spaces other.spaces }
  let m := other.tags.foldl (fun m e => e.2.foldl (fun m tag => m.addTag e.1 tag) m) m
  { m with types := Table.putAllNew m.types other.types }

end NamespaceMap

/-- The tags that were used, each with its prefix, and the namespaces of the prefixes. -/
structure Usage where
  pairs : List (String × String) := []
  spaces : Table String := []

def Usage.record (u : Usage) (tag tagPrefix : String) (space : Option String) : Usage where
  pairs := if (tagPrefix, tag) ∈ u.pairs then u.pairs else u.pairs ++ [(tagPrefix, tag)]
  spaces := match space.filter (· ≠ "") with
    | some s => u.spaces.putNew tagPrefix s
    | none => u.spaces

end SoapComponents
