import SoapComponents.Interface.Fields

/-!
The interfaces that the props of a component need: one for each name, with those of the members of
its object after it. The first object that asks for a name is the one described.
-/

set_option autoImplicit false

namespace SoapComponents

namespace TypeGraph

def membersBeside (g : TypeGraph) (o : ObjectNode) : List (String × Member TypeNode) :=
  o.members ++ g.objects.flatMap (·.members)

theorem mem_membersBeside {g : TypeGraph} (o : ObjectNode) {id : ObjectId}
    {e : String × Member TypeNode} (h : e ∈ (g.object id).members) : e ∈ g.membersBeside o := by
  have hlt : id < g.objects.length := lt_of_members_ne_nil (List.ne_nil_of_mem h)
  refine List.mem_append_right _ (List.mem_flatMap.2 ⟨g.object id, ?_, h⟩)
  simp [object, List.getElem?_eq_getElem hlt]

end TypeGraph

structure NestedObject where
  name : String
  id : ObjectId
  isInline : Bool

namespace Catalog

def nested? (c : Catalog) (key : String) (type : TypeNode) : Noted (Option NestedObject) := do
  match type with
  | .primitive _ => return none
  | .object id =>
    return if (c.graph.object id).members.isEmpty then none else some ⟨Name.pascal key, id, true⟩
  | .reference pointer =>
    match ← c.resolveObject pointer.name with
    | none => return none
    | some (id, r) =>
      return if (c.graph.object id).members.isEmpty then none
        else some ⟨interfaceName r.key pointer.name, id, false⟩

def interfaceNames (c : Catalog) (o : ObjectNode) : List String :=
  (c.graph.membersBeside o).flatMap (fun e =>
    Name.pascal e.1 :: (match e.2.type with
      | .reference pointer => [Name.pascal pointer.name]
      | _ => [])) ++ c.entryKeys.map Name.pascal

theorem name_of_nested? {c : Catalog} {o : ObjectNode} {key : String} {m : Member TypeNode}
    {n : NestedObject} (hm : (key, m) ∈ c.graph.membersBeside o)
    (h : (c.nested? key m.type).value = some n) : n.name ∈ c.interfaceNames o := by
  unfold nested? at h
  split at h
  · simp at h
  · simp only [Noted.value_pure] at h
    split at h
    · simp at h
    · obtain rfl := Option.some.inj h
      exact List.mem_append_left _ (List.mem_flatMap.2 ⟨_, hm, by simp⟩)
  · next pointer hp =>
    simp only [Noted.value_bind] at h
    split at h
    · simp at h
    · next id r hr =>
      simp only [Noted.value_pure] at h
      split at h
      · simp at h
      · obtain rfl := Option.some.inj h
        by_cases hk : r.key = ""
        · refine List.mem_append_left _ (List.mem_flatMap.2 ⟨_, hm, ?_⟩)
          simp [hp, interfaceName, hk]
        · refine List.mem_append_right _ ?_
          have hkey := key_of_resolveObject hr
          simpa [interfaceName, hk] using List.mem_map_of_mem hkey

def shapeNotices (c : Catalog) (n : NestedObject) (found : List Interface) : Noted Unit := do
  match found.find? (·.name == n.name) with
  | none => return ()
  | some existing =>
    if n.isInline then
      let fields ← c.fields (c.graph.object n.id)
      if !existing.hasFields fields then Noted.tell (.shapesDiffer n.name)

/-- Adds the interfaces that the pending members lead to. The members of an object come before
those that follow it. All of them belong to `o` or to an object of the graph. -/
def collect (c : Catalog) (o : ObjectNode) (pending : List (String × Member TypeNode))
    (found : List Interface) (known : ∀ e ∈ pending, e ∈ c.graph.membersBeside o) :
    Noted (List Interface) :=
  match pending, known with
  | [], _ => pure found
  | (key, m) :: rest, known =>
    have later : ∀ e ∈ rest, e ∈ c.graph.membersBeside o :=
      fun e he => known e (List.mem_cons_of_mem _ he)
    match hn : c.nested? key m.type with
    | ⟨none, notices⟩ =>
      Noted.andThen (Noted.tellAll notices) fun _ => c.collect o rest found later
    | ⟨some n, notices⟩ =>
      if hf : n.name ∈ found.map (·.name) then
        Noted.andThen (Noted.tellAll notices) fun _ =>
          Noted.andThen (c.shapeNotices n found) fun _ => c.collect o rest found later
      else
        Noted.andThen (Noted.tellAll notices) fun _ =>
          Noted.andThen (c.fields (c.graph.object n.id)) fun fields =>
            c.collect o ((c.graph.object n.id).members ++ rest) (found ++ [⟨n.name, fields⟩])
              fun e he => (List.mem_append.1 he).elim (TypeGraph.mem_membersBeside o) (later e)
termination_by (remaining (c.interfaceNames o) (found.map (·.name)), pending.length)
decreasing_by
  · exact Prod.Lex.right _ (by simp)
  · exact Prod.Lex.right _ (by simp)
  · refine Prod.Lex.left _ _ ?_
    rw [List.map_append]
    exact remaining_append_lt (name_of_nested? (known (key, m) (by simp)) (by rw [hn])) hf

def collectAll (c : Catalog) (o : ObjectNode) (found : List Interface) : Noted (List Interface) :=
  c.collect o o.members found fun _ he => List.mem_append_left _ he

def addInterface (c : Catalog) (name : String) (o : ObjectNode) (found : List Interface) :
    Noted (List Interface) := do
  if name ∈ found.map (·.name) then return found
  let fields ← c.fields o
  c.collectAll o (found ++ [⟨name, fields⟩])

end Catalog

structure Shapes where
  props : Interface
  interfaces : List Interface

namespace Catalog

/-- The props and interfaces of a root. The props have the fields of the payload; interfaces are
made for the root, for the named types at `reachable`, and for all that these lead to. Where a
field of the props has an alias as its type, the alias stands for the interface. -/
def shapes (c : Catalog) (name : String) (root : Root) (reachable : List String)
    (propsName : Option String) : Noted Shapes := do
  let rootName := Name.pascal name
  let payload ← c.expand root
  let props : Interface :=
    ⟨(Name.given? propsName).getD (rootName ++ "Props"), ← c.fields payload.node⟩
  let found ← c.addInterface rootName root.node []
  let found ← reachable.foldlM (fun found key =>
    match c.graph.complexTypes.value? key with
    | some id => c.addInterface (Name.pascal key) (c.graph.object id) found
    | none => pure found) found
  let found ←
    if payload.id = root.id then pure found
    else c.collectAll payload.node found
  let aliases ← c.typeAliases payload.node
  let kept := found.filter fun i => i.name ∉ aliases.map (·.name)
  Noted.tell (.flattened name props.fields.length kept.length)
  return ⟨props, kept⟩

end Catalog

end SoapComponents
