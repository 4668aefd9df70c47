import SoapComponents.Prefix.NamespaceMap
import SoapComponents.Yaml.Print

/-!
The account of namespaces as a document of its own, beside the component.
-/

set_option autoImplicit false

namespace SoapComponents

namespace BoundSpace

def document (b : BoundSpace) : Yaml := .map [("uri", .text b.space), ("prefix", .text b.tagPrefix)]

end BoundSpace

namespace NamespaceMap

def document (m : NamespaceMap) : List (String × Yaml) := [
  ("base_prefix", .text m.basePrefix),
  ("prefixes", .map (m.spaces.map fun e => (e.1, .text e.2))),
  ("tags", .map (m.tags.map fun e => (e.1, .list e.2))),
  ("types", .map (m.types.map fun e => (e.1, e.2.document)))]

def print (m : NamespaceMap) : String := Yaml.print m.document

end NamespaceMap

end SoapComponents
