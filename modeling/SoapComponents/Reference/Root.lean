import SoapComponents.Reference.Resolution

/-!
Objects from which output is made, and the objects that lie around the content of others. A
wrapper is an object whose only member is one object, not a repeated one; what it wraps is the
payload.
-/

set_option autoImplicit false

namespace SoapComponents

/-- An object to start from. One that is a copy of an object in the graph, under another
namespace, has no number. -/
structure Root where
  node : ObjectNode
  id : Option ObjectId

namespace Root

def ofId (g : TypeGraph) (id : ObjectId) : Root := ⟨g.object id, some id⟩

def visited (r : Root) : List ObjectId := r.id.toList

end Root

/-- The only member of a wrapper, with the object that it wraps. -/
structure Payload where
  key : String
  member : Member TypeNode
  id : ObjectId

namespace Catalog

/-- The object that a member's type is or refers to. -/
def memberObject (c : Catalog) : TypeNode → Noted (Option ObjectId)
  | .primitive _ => return none
  | .object id => return some id
  | .reference pointer => return (← c.resolveObject pointer.name).map (·.1)

/-- The payload of a wrapper: an object with members. -/
def payload? (c : Catalog) (o : ObjectNode) : Noted (Option Payload) := do
  match o.members with
  | [(key, m)] =>
    if m.isRepeated then return none
    match ← c.memberObject m.type with
    | some id =>
      return if (c.graph.object id).members.isEmpty then none else some ⟨key, m, id⟩
    | none => return none
  | _ => return none

theorem members_of_payload? {c : Catalog} {o : ObjectNode} {p : Payload}
    (h : (c.payload? o).value = some p) : (c.graph.object p.id).members ≠ [] := by
  unfold payload? at h
  split at h
  · split at h
    · simp at h
    · simp only [Noted.value_bind] at h
      split at h
      · next id _ =>
        simp only [Noted.value_pure] at h
        split at h
        · simp at h
        · next hm =>
          obtain rfl := Option.some.inj h
          simpa [List.isEmpty_iff] using hm
      · simp at h
  · simp at h

/-- The payloads of a chain of wrappers, from the outside inwards. A payload that was gone into
before ends the chain. -/
def payloads (c : Catalog) (o : ObjectNode) (visited : List ObjectId) : Noted (List Payload) :=
  match _h : c.payload? o with
  | ⟨none, notices⟩ => ⟨[], notices⟩
  | ⟨some p, notices⟩ =>
    if p.id ∈ visited then ⟨[], notices⟩
    else
      let inner := c.payloads (c.graph.object p.id) (p.id :: visited)
      ⟨p :: inner.value, notices ++ inner.notices⟩
termination_by c.graph.unvisited visited
decreasing_by
  exact TypeGraph.unvisited_cons_lt (members_of_payload? (by rw [_h])) (by assumption)

/-- The object at the end of the chain of wrappers that begins with a root. -/
def expand (c : Catalog) (r : Root) : Noted Root := do
  match (← c.payloads r.node r.visited).getLast? with
  | some p => return Root.ofId c.graph p.id
  | none => return r

end Catalog

end SoapComponents
