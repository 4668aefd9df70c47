import SoapComponents.Library
import SoapComponents.Schema.Scope

/-!
Which schemas a set of schemas leads to, and in which order. The visits of a schema begin with its
entry, go on with those of its imports, each followed once, and end with its declarations. One
that cannot be followed is told of and leaves no other trace.
-/

set_option autoImplicit false

namespace SoapComponents

inductive Visit where
  | enter (scope : Scope)
  | load (space : Option String) (location : String)
  | declare (schema : Tree) (scope : Scope)
  | tell (notice : Notice)
  | fail (failure : Failure)

namespace Visit

/-- The documents that imports are loaded from, and how long a server may take. -/
structure Origin where
  library : Library
  timeout : Int

namespace Origin

def document (origin : Origin) (location : String) : Outcome Tree := do
  let bytes ← origin.library.load origin.timeout location
  Outcome.ofExcept (Tree.parse bytes)

def schema? (origin : Origin) (location : String) : Option Tree :=
  match (origin.document location).result with
  | .ok tree => tree.element? "schema"
  | .error _ => none

end Origin

/-- Under what an import is remembered: the namespace that it names, and where it leads. -/
def mark (space : Option String) (location : String) : String := space.getD "" ++ "|" ++ location

/-- Where an import leads: what it writes, and the location that this means. -/
structure Lead where
  origin : Origin
  reference : String
  location : String

/-- The lead of an import, or what is told where it has none. -/
def lead (origin : Option Origin) (scope : Scope) (node : Tree) : Except (List Visit) Lead :=
  match node.given? "schemaLocation" with
  | none => .error [.tell (.importWithoutLocation (node.attribute? "namespace"))]
  | some reference =>
    match origin with
    | none => .error [.tell (.importWithoutLibrary reference)]
    | some origin =>
      match Location.resolve scope.location reference with
      | .error flaw => .error [.fail (.badLocation flaw)]
      | .ok location => .ok ⟨origin, reference, location⟩

/-- What is told when the document of an import is read. Being unable to is told of, and so is a
document without schema. -/
def Lead.told (l : Lead) : List Visit :=
  let loaded := l.origin.document l.location
  loaded.notices.map Visit.tell ++ [
    match loaded.result with
    | .error failure =>
      if failure.isLoading || failure.isStructural then
        .tell (.importFailed l.reference failure.message)
      else .fail failure
    | .ok tree =>
      if (tree.element? "schema").isSome then .tell (.importFollowed l.location)
      else .tell (.importWithoutSchema l.location)]

def eachIn {α : Type} (visit : α → List String → List Visit × List String) :
    List α → List String → List Visit × List String
  | [], seen => ([], seen)
  | item :: rest, seen =>
    let (visits, seen) := visit item seen
    let (more, seen) := eachIn visit rest seen
    (visits ++ more, seen)

def follow (origin : Option Origin) (scope : Scope)
    (inside : Tree → String → List String → List Visit × List String)
    (node : Tree) (seen : List String) : List Visit × List String :=
  match lead origin scope node with
  | .error told => (told, seen)
  | .ok l =>
    let space := node.attribute? "namespace"
    let visit := mark space l.location
    if visit ∈ seen then ([.tell (.importRepeated visit)], seen)
    else
      match l.origin.schema? l.location with
      | none => (.load space l.location :: l.told, visit :: seen)
      | some found =>
        let (more, seen) := inside found l.location (visit :: seen)
        (.load space l.location :: (l.told ++ more), seen)

def schemaName (scope : Scope) : String :=
  match Name.given? scope.location with
  | some location => location
  | none => "inline:" ++ (Name.given? scope.target).getD "(no namespace)"

/-- A schema that is entered counts as an import of its own namespace from where it is. -/
def entered (scope : Scope) (seen : List String) : List String :=
  match Name.given? scope.location with
  | some location => mark scope.target location :: seen
  | none => seen

/-- The visits of a schema and of all that it imports, with the imports seen. The first argument
bounds how deep imports nest. -/
def schema (origin : Option Origin) :
    Nat → Tree → Table String → Option String → List String → List Visit × List String
  | 0, _, _, _, seen => ([], seen)
  | depth + 1, node, outer, location, seen =>
    let scope := Scope.ofSchema node outer location
    let (imported, seen) := eachIn (follow origin scope fun found place seen =>
      schema origin depth found scope.namespaces (some place) seen) node.imports
      (entered scope seen)
    (.enter scope :: (imported ++ [.declare node scope]), seen)

def sourceSchemas : Source → List Tree
  | .file bytes | .answer _ _ bytes =>
    match Tree.parse bytes with
    | .ok tree => (tree.element? "schema").toList
    | .error _ => []
  | _ => []

def allImports (library : Library) (schemas : List Tree) : List Tree :=
  (schemas ++ library.flatMap fun e => sourceSchemas e.2).flatMap Tree.imports

/-- More than the number of different imports that can be followed: each has the namespace of some
node that imports, and leads to a location of the library or to one that such a node writes. -/
def depthBound (origin : Option Origin) (schemas : List Tree) : Nat :=
  match origin with
  | none => 1
  | some origin =>
    let imports := allImports origin.library schemas
    imports.length * (origin.library.length + imports.length) + 1

def within (origin : Option Origin) (depth : Nat) (schemas : List Tree) (outer : Table String)
    (location : Option String) : List Visit × List String :=
  eachIn (fun node seen => schema origin depth node outer location seen) schemas []

def all (origin : Option Origin) (schemas : List Tree) (outer : Table String)
    (location : Option String) : List Visit :=
  (within origin (depthBound origin schemas) schemas outer location).1

end Visit

end SoapComponents
