import SoapComponents.Noted
import SoapComponents.Tree.Query
import SoapComponents.TypeGraph.HostType

/-!
What the names in a schema document mean. A scope holds the target namespace, the prefixes that
are declared around the schema and on it, and the location that imports are relative to.
-/

set_option autoImplicit false

namespace SoapComponents

structure Scope where
  target : Option String
  namespaces : Table String
  /-- Elements inside types are qualified unless they say otherwise. -/
  qualified : Bool
  location : Option String

namespace Scope

def ofSchema (schema : Tree) (outer : Table String) (location : Option String) : Scope where
  target := schema.attribute? "targetNamespace"
  namespaces := Table.putAll outer schema.namespaces
  qualified := schema.attribute? "elementFormDefault" == some "qualified"
  location := location

/-- Prefixes that mean the built-in types even where nothing declares them. -/
def customaryPrefixes : List String := ["xs", "xsd"]

/-- The qualified name that a name in the schema means. A prefix that is not declared gives the
target namespace, and so does no prefix at all when the default namespace is that of the built-in
types and none of them has the name. -/
def qualify (s : Scope) (name : String) : Noted String := do
  match Name.prefixed? name with
  | some (nsPrefix, base) =>
    match s.namespaces.value? nsPrefix with
    | some space => return Name.qualified (some space) base
    | none =>
      if nsPrefix ∈ customaryPrefixes then return Name.builtIn base
      Noted.tell (.prefixUndeclared nsPrefix name)
      return Name.qualified s.target base
  | none =>
    let default := (s.namespaces.value? "").filter fun space =>
      !(space == Name.schemaSpace && (HostType.ofBuiltIn? name).isNone)
    return Name.qualified ((Name.given? default).or s.target) name

end Scope

end SoapComponents
