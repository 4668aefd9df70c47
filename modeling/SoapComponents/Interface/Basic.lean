import SoapComponents.TypeGraph.Basic

/-!
Interfaces of generated code: a name and fields with their types.
-/

set_option autoImplicit false

namespace SoapComponents

inductive FieldType where
  | host (type : HostType)
  | interface (name : String)
  | unresolved (name : String)
  deriving DecidableEq, Repr

def FieldType.text : FieldType → String
  | host type => type.name
  | interface name | unresolved name => name

structure Field where
  name : String
  type : FieldType
  modifier : Modifier := .one
  deriving DecidableEq, Repr

def Field.texts (f : Field) : String × String × String := (f.name, f.type.text, f.modifier.text)

structure Interface where
  name : String
  fields : List Field := []
  deriving DecidableEq, Repr

namespace Interface

def fieldNames (i : Interface) : List String := i.fields.map (·.name)

def hasFields (i : Interface) (fields : List Field) : Bool :=
  i.fields.map Field.texts == fields.map Field.texts

end Interface

structure TypeAlias where
  name : String
  type : HostType
  deriving DecidableEq, Repr

end SoapComponents
