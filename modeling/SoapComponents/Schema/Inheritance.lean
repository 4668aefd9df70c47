import SoapComponents.Noted
import SoapComponents.Schema.Draft

/-!
Inheritance between object types. An object that extends a type gets the type's members before its
own, leaving out those that it declares itself, and the attributes that it lacks. A base that
extends another type is settled first; where that would go round in a circle, it stops.
-/

set_option autoImplicit false

namespace SoapComponents.Inheritance

/-- The complex type of a name, by its qualified name or else the first with its local name. -/
def base? (g : TypeGraph) (key : String) : Option ObjectId :=
  match g.complexTypes.value? key with
  | some id => some id
  | none =>
    (List.find? (fun e => Name.localPart e.1 == Name.localPart key) g.complexTypes).map (·.2)

def inherit (base own : ObjectNode) : ObjectNode :=
  { own with
    members := base.members.filter (fun m => !Table.holds own.members m.1) ++ own.members
    attributes := Table.putAllNew own.attributes base.attributes }

structure State where
  graph : TypeGraph
  settled : List ObjectId := []

def State.mark (s : State) (id : ObjectId) : State := { s with settled := id :: s.settled }

/-- Settles one extension. `chain` holds the bases on the way to it, so that a circle is seen. -/
def settle (extensions : List Extension) (chain : List String)
    (e : { e // e ∈ extensions }) (s : State) : Noted State := do
  if e.1.id ∈ s.settled then return s
  match base? s.graph e.1.base with
  | none =>
    Noted.tell (.baseMissing e.1.base)
    return s.mark e.1.id
  | some baseId =>
    if e.1.base ∈ chain then
      Noted.tell (.extensionCircular e.1.base)
      return s.mark e.1.id
    else
      let s ← extensions.attach.foldlM (fun s inner =>
        if inner.1.id = baseId then settle extensions (e.1.base :: chain) inner s else pure s) s
      let own := inherit (s.graph.object baseId) (s.graph.object e.1.id)
      return { s with graph := s.graph.setObject e.1.id own }.mark e.1.id
termination_by remaining (extensions.map Extension.base) chain
decreasing_by exact remaining_cons_lt (List.mem_map_of_mem e.2) (by assumption)

def settleAll (extensions : List Extension) (g : TypeGraph) : Noted TypeGraph := do
  let s ← extensions.attach.foldlM (fun s e => settle extensions [] e s) { graph := g }
  return s.graph

end SoapComponents.Inheritance
