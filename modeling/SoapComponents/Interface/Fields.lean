import SoapComponents.Interface.Basic
import SoapComponents.Reference.Root

/-!
The fields of an object. A field has a host type when the element holds text, and otherwise the
name of an interface: that of the named type, or one after the element for a type without a name.
-/

set_option autoImplicit false

namespace SoapComponents

def ObjectType.leafHost? {τ : Type} (o : ObjectType τ) : Option HostType :=
  if o.members.isEmpty then
    some (match Name.given? o.base with
      | none => .string
      | some base => .ofName (Name.localPart base))
  else none

/-- The interface name for the entry `key`, to which the reference `ref` led. -/
def interfaceName (key ref : String) : String :=
  Name.pascal (if key == "" then ref else key)

namespace Catalog

def fieldType (c : Catalog) (key : String) (type : TypeNode) : Noted FieldType := do
  match type with
  | .primitive name => return .host (.ofName name)
  | .object id =>
    return match (c.graph.object id).leafHost? with
      | some host => .host host
      | none => .interface (Name.pascal key)
  | .reference pointer =>
    match ← c.resolve pointer.name with
    | none =>
      Noted.tell (.fieldUnresolved pointer.name key)
      return .unresolved (Name.pascal key)
    | some r =>
      return match r.target with
        | .primitive name => .host (.ofName name)
        | .object id =>
          match (c.graph.object id).leafHost? with
          | some host => .host host
          | none => .interface (interfaceName r.key pointer.name)

def field (c : Catalog) (key : String) (m : Member TypeNode) : Noted Field := do
  return ⟨Name.camel key, ← c.fieldType key m.type, m.modifier⟩

def fields (c : Catalog) (o : ObjectNode) : Noted (List Field) :=
  o.members.mapM fun e => c.field e.1 e.2

def builtInHost? (c : Catalog) (type : TypeNode) : Noted (Option HostType) := do
  match type with
  | .primitive name => return some (.ofName name)
  | .object _ => return none
  | .reference pointer =>
    return match ← c.resolve pointer.name with
      | some ⟨.primitive name, _, _, _⟩ => some (.ofName name)
      | _ => none

def typeAliases (c : Catalog) (o : ObjectNode) : Noted (List TypeAlias) := do
  let found ← o.members.mapM fun (key, m) => do
    return (← c.builtInHost? m.type).map (TypeAlias.mk (Name.pascal key))
  return found.filterMap id

end Catalog

end SoapComponents
