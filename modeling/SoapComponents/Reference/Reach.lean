import SoapComponents.Reference.Root

/-!
The named types that an object leads to: those that its members refer to, the members of those,
and so on, also through objects that have no name.
-/

set_option autoImplicit false

namespace SoapComponents.Catalog

structure Reached where
  keys : List String
  visited : List ObjectId

/-- Goes through the pending members, into each object once. `pending` comes first, so the members
of an object are looked at before those that follow it. -/
def reachFrom (c : Catalog) (pending : List (String × Member TypeNode)) (r : Reached) :
    Noted Reached :=
  match pending with
  | [] => pure r
  | (_, m) :: rest =>
    match m.type with
    | .primitive _ => c.reachFrom rest r
    | .object id =>
      if (c.graph.object id).members = [] then c.reachFrom rest r
      else if id ∈ r.visited then c.reachFrom rest r
      else c.reachFrom ((c.graph.object id).members ++ rest) { r with visited := id :: r.visited }
    | .reference pointer =>
      let resolved := c.resolveObject pointer.name
      Noted.andThen (Noted.tellAll resolved.notices) fun _ =>
        match resolved.value with
        | none => c.reachFrom rest r
        | some (id, resolution) =>
          if resolution.key ∈ r.keys then c.reachFrom rest r
          else if (c.graph.object id).members = [] then
            c.reachFrom rest { r with keys := resolution.key :: r.keys }
          else if id ∈ r.visited then
            c.reachFrom rest { r with keys := resolution.key :: r.keys }
          else
            c.reachFrom ((c.graph.object id).members ++ rest)
              ⟨resolution.key :: r.keys, id :: r.visited⟩
termination_by (c.graph.unvisited r.visited, pending.length)
decreasing_by
  all_goals first
    | exact Prod.Lex.right _ (by simp)
    | exact Prod.Lex.left _ _ (TypeGraph.unvisited_cons_lt (by assumption) (by assumption))

/-- The keys of the named object types that a root leads to, beside those that are `known`. -/
def reach (c : Catalog) (root : Root) (known : List String) : Noted (List String) := do
  let reached ← c.reachFrom root.node.members ⟨known, root.visited⟩
  return reached.keys

def sortedReach (c : Catalog) (root : Root) (known : List String) : Noted (List String) := do
  return ((← c.reach root known).mergeSort (fun a b => a ≤ b)).eraseDups

end SoapComponents.Catalog
