import SoapComponents.Schema.Content
import SoapComponents.Schema.Inheritance
import SoapComponents.Schema.Visit

/-!
Building the type graph of a set of schemas. The schemas are visited in order; each registers its
groups and its complex types. When all are known, elements are registered and inheritance is
settled. A set of schemas without elements offers its complex types as elements, and one that
declares nothing at all is a failure that says what was found.
-/

set_option autoImplicit false

namespace SoapComponents

structure Building where
  graph : TypeGraph := {}
  groups : Groups := []
  extensions : List Extension := []
  /-- Element declarations, registered when all complex types are known. -/
  elements : List (Tree × Scope) := []

namespace Building

def enter (b : Building) (scope : Scope) : Building :=
  { b with graph := { b.graph with
      namespaces := Table.putAllNew b.graph.namespaces (scope.namespaces.filter (·.1 ≠ ""))
      schemas := b.graph.schemas ++ [Visit.schemaName scope] } }

def registerGroups (b : Building) (schema : Tree) (scope : Scope) : Building :=
  { b with groups := (schema.children "group").foldl (fun groups node =>
      match node.given? "name" with
      | some name => Table.put groups (Name.qualified scope.target name) (node, scope)
      | none => groups) b.groups }

def addType (b : Building) (scope : Scope) (node : Tree) : Outcome (Building × ObjectId) := do
  let derived ← Content.complexType b.groups b.groups.depthBound scope node
  let (graph, id, extensions) := Draft.placeObject b.graph derived
  return ({ b with graph := graph, extensions := b.extensions ++ extensions }, id)

def registerType (scope : Scope) (b : Building) (node : Tree) : Outcome Building := do
  match node.given? "name" with
  | none => return b
  | some name =>
    let key := Name.qualified scope.target name
    let (b, id) ← b.addType scope node
    Outcome.tell (.typeRegistered key)
    return { b with graph := { b.graph with complexTypes := b.graph.complexTypes.put key id } }

def step (b : Building) : Visit → Outcome Building
  | .enter scope => return b.enter scope
  | .load _ _ => return b
  | .tell notice => do
    Outcome.tell notice
    return b
  | .fail failure => throw failure
  | .declare schema scope => do
    let b ← (schema.children "complexType").foldlM (registerType scope)
      (b.registerGroups schema scope)
    return { b with elements := b.elements ++ (schema.children "element").map (·, scope) }

/-- The content model of a global element: its complex type, or itself if it has a sequence and
names no type. -/
def content? (node : Tree) : Option Tree :=
  (node.element? "complexType").or
    (if (node.given? "type").isNone && (node.element? "sequence").isSome then some node else none)

def pointer (scope : Scope) (node : Tree) : Noted Reference := do
  let target ← match node.given? "type" with
    | some typeName => scope.qualify typeName
    | none => pure (Name.builtIn "anyType")
  return ⟨target, scope.target, some scope.qualified⟩

def registerElement (b : Building) (declaration : Tree × Scope) : Outcome Building := do
  let (node, scope) := declaration
  match node.given? "name" with
  | none => return b
  | some name =>
    let key := Name.qualified scope.target name
    match content? node with
    | some content =>
      let (b, id) ← b.addType scope content
      Outcome.tell (.elementRegistered key)
      return { b with graph := { b.graph with
        elements := b.graph.elements.put key (.object id)
        complexTypes := b.graph.complexTypes.putNew key id } }
    | none =>
      let target ← pointer scope node
      Outcome.tell (.elementRegistered key)
      return { b with graph := { b.graph with
        elements := b.graph.elements.put key (.reference target) } }

def registerElements (b : Building) : Outcome Building := b.elements.foldlM registerElement b

/-- Settles inheritance, and offers types as elements if there are no elements. -/
def finish (b : Building) : Outcome TypeGraph := do
  let g ← Inheritance.settleAll b.extensions b.graph
  let g ←
    if g.elements.isEmpty && !g.complexTypes.isEmpty then do
      Outcome.tell .typesAsElements
      pure { g with elements := g.complexTypes.map fun e => (e.1, .object e.2) }
    else pure g
  Outcome.tell (.graphBuilt g.elements.length g.complexTypes.length g.schemas.length)
  return g

end Building

def diagnose (g : TypeGraph) (schemas : List Tree) : Diagnosis where
  schemas := g.schemas
  complexTypes := (schemas.flatMap (·.children "complexType")).map fun node =>
    (node.given? "name").getD "(anonymous)"
  elements := (schemas.flatMap (·.children "element")).map fun node =>
    let details := ["name", "type", "ref"].filterMap fun key =>
      (node.given? key).map fun value => key ++ "=" ++ value
    if details.isEmpty then "(no attributes)" else " ".intercalate details
  namespaces := (g.namespaces.map fun e => e.1 ++ "=" ++ e.2).mergeSort (fun a b => a ≤ b)

def Building.gather (origin : Option Visit.Origin) (schemas : List Tree) (outer : Table String)
    (location : Option String) : Outcome Building := do
  let b ← (Visit.all origin schemas outer location).foldlM Building.step {}
  b.registerElements

/-- The type graph of a list of schemas that stand where `outer` prefixes are declared. -/
def TypeGraph.build (origin : Option Visit.Origin) (schemas : List Tree) (outer : Table String)
    (location : Option String) : Outcome TypeGraph := do
  let b ← Building.gather origin schemas outer location
  let g ← b.finish
  if g.isEmpty then throw (.nothingDeclared (diagnose g schemas))
  return g

end SoapComponents
