import SoapComponents.Schema.Build
import SoapComponents.Settings.Basic

/-!
Service descriptions: a document that defines messages, operations and bindings, with the types of
the schemas in it.
-/

set_option autoImplicit false

namespace SoapComponents

structure Service where
  definitions : Tree
  namespaces : Table String
  graph : TypeGraph

namespace Service

def target (s : Service) : Option String := s.definitions.attribute? "targetNamespace"

def schemas (definitions : Tree) : List Tree :=
  ((definitions.element? "types").map (·.children "schema")).getD []

def load (library : Library) (timeout : Int) (location : String) : Outcome Service := do
  Outcome.tell (.loading location)
  let bytes ← library.load timeout location
  let tree ← Outcome.ofExcept (Tree.parse bytes)
  match tree.element? "definitions" with
  | none => throw (.noDefinitions location)
  | some definitions =>
    let namespaces := definitions.namespaces
    let graph ←
      TypeGraph.build (some ⟨library, timeout⟩) (schemas definitions) namespaces (some location)
    return ⟨definitions, namespaces, graph⟩

/-- The qualified name that a name in the document means. Prefixes that the document does not
declare are taken from its schemas, and those that nothing declares mean the target namespace. -/
def qualify (s : Service) (name : String) : Noted String := do
  match Name.prefixed? name with
  | some (nsPrefix, base) =>
    match (Name.given? (s.namespaces.value? nsPrefix)).or (s.graph.namespaces.value? nsPrefix) with
    | some space => return Name.qualified (some space) base
    | none =>
      Noted.tell (.prefixUnknown nsPrefix name)
      return Name.qualified s.target base
  | none =>
    return Name.qualified ((Name.given? (s.namespaces.value? "")).or s.target) name

/-- The envelope namespace: that of version 1.2 when a declared namespace asks for it. -/
def envelope (s : Service) : String :=
  let soap := (s.namespaces.map Prod.snd).filter fun space =>
    Text.contains "soap".toList (Text.lower space).toList
  ((soap.map fun space => Settings.envelope (some space)).find?
    (· ≠ Settings.envelope none)).getD (Settings.envelope none)

end Service

end SoapComponents
