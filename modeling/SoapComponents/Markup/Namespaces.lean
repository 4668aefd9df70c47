import SoapComponents.Markup.Body

/-!
The namespaces of a component. A first account comes from what the members declare, going through
inline objects; the tags are then those that the markup really uses, with every prefix that turns
up on the way.
-/

set_option autoImplicit false

namespace SoapComponents

structure DeclaredTag where
  key : String
  space : String
  qualified : Bool

namespace TypeGraph

/-- The declarations of the pending members and of all members inside them. Each pending member
comes with the namespace that it has unless it says otherwise. -/
def declaredTags (g : TypeGraph) (visited : List ObjectId) :
    List (String × Member TypeNode × String) → List DeclaredTag
  | [] => []
  | (key, m, outer) :: rest =>
    let space := (Name.given? m.space).getD outer
    ⟨key, space, g.isQualified m⟩ ::
      (match m.type with
      | .object id =>
        if (g.object id).members = [] then g.declaredTags visited rest
        else if id ∈ visited then g.declaredTags visited rest
        else
          let inner := (Name.given? (g.object id).space).getD space
          g.declaredTags (id :: visited)
            ((g.object id).members.map (fun (k, m) => (k, m, inner)) ++ rest)
      | _ => g.declaredTags visited rest)
termination_by pending => (g.unvisited visited, pending.length)
decreasing_by
  all_goals first
    | exact Prod.Lex.right _ (by simp)
    | exact Prod.Lex.left _ _ (TypeGraph.unvisited_cons_lt (by assumption) (by assumption))

def rootTags (g : TypeGraph) (root : Root) (space : String) : List DeclaredTag :=
  g.declaredTags root.visited (root.node.members.map fun (k, m) => (k, m, space))

end TypeGraph

abbrev Naming := ExceptT Failure Assigning

def Naming.ofOutcome {α : Type} (x : Outcome α) : Naming α :=
  ExceptT.mk (StateT.lift (ExceptT.run x))

namespace NamespaceMap

def declare (policy : Prefix.Policy) (m : NamespaceMap) (tag : DeclaredTag) :
    Naming NamespaceMap := do
  let tagPrefix ← Assigning.prefixFor policy tag.space
  let m := { m with types := m.types.putNew tag.key ⟨tag.space, tagPrefix⟩ }
  if tag.qualified then
    match m.register tagPrefix tag.space with
    | .ok m => return m.addTag tagPrefix (Name.localPart tag.key)
    | .error failure => throw failure
  else return m

/-- The namespaces that the declarations speak of. The root has to be in one. -/
def declared (c : Catalog) (policy : Prefix.Policy) (name : String) (root : Root) :
    Naming NamespaceMap := do
  match Name.given? root.node.space with
  | none => throw (.noNamespace name)
  | some space =>
    let base ← Assigning.prefixFor policy space
    let start : NamespaceMap := { basePrefix := base, spaces := [(base, space)] }
    (c.graph.rootTags root space).foldlM (declare policy)
      (start.addTag base (Name.localPart name))

def plan (c : Catalog) (policy : Prefix.Policy) (m : NamespaceMap) (name : String) : BodyPlan :=
  ⟨c, policy, m, m.basePrefix, Name.localPart name⟩

def observed (c : Catalog) (policy : Prefix.Policy) (m : NamespaceMap) (name : String)
    (root : Root) : Assigning Usage := do
  return (← (m.plan c policy name).write root none).2

/-- Tags that begin with a low line are left out. -/
def listed (u : Usage) : List (String × String) :=
  u.pairs.filter fun e => !"_".toList.isPrefixOf e.2.toList

def bindAll (p : Prefixes) (m : NamespaceMap) : List String → Except Failure NamespaceMap
  | [] => .ok m
  | tagPrefix :: rest =>
    if m.spaces.holds tagPrefix then bindAll p m rest
    else match p.byPrefix.value? tagPrefix with
      | some space => bindAll p { m with spaces := m.spaces.put tagPrefix space } rest
      | none => .error (.unboundPrefix tagPrefix)

/-- The account of namespaces after the tags that were really used. -/
def settled (m : NamespaceMap) (u : Usage) : Naming NamespaceMap := do
  let m := (listed u).foldl (fun m e => m.addTag e.1 e.2) { m with tags := [] }
  Noted.tellAll ((u.spaces.filter fun e => !m.spaces.holds e.1).map fun e =>
    .prefixSeen e.1 e.2)
  let m := { m with spaces := Table.putAllNew m.spaces u.spaces }
  match bindAll (← get) m m.tags.keys with
  | .ok m => return m
  | .error failure => throw failure

def ofRoot (c : Catalog) (policy : Prefix.Policy) (name : String) (root : Root) :
    Naming NamespaceMap := do
  let m ← declared c policy name root
  let u ← m.observed c policy name root
  m.settled u

end NamespaceMap

end SoapComponents
