import SoapComponents.Name

/-!
The types of values in generated code, and the built-in types that they stand for.
-/

set_option autoImplicit false

namespace SoapComponents

inductive HostType where
  | string
  | number
  | boolean
  | date
  deriving DecidableEq, Repr

namespace HostType

def name : HostType → String
  | string => "string"
  | number => "number"
  | boolean => "boolean"
  | date => "Date"

def textual : List String := [
  "string", "normalizedString", "token", "language", "Name", "NCName", "NMTOKEN", "NMTOKENS",
  "QName", "ID", "IDREF", "IDREFS", "ENTITY", "anyURI", "base64Binary", "hexBinary", "anyType",
  "anySimpleType", "duration", "gYearMonth", "gYear", "gMonthDay", "gDay", "gMonth"]

def numeric : List String := [
  "int", "integer", "long", "short", "byte", "float", "double", "decimal", "nonNegativeInteger",
  "nonPositiveInteger", "positiveInteger", "negativeInteger", "unsignedLong", "unsignedInt",
  "unsignedShort", "unsignedByte"]

def temporal : List String := ["date", "time", "dateTime"]

def ofBuiltIn? (name : String) : Option HostType :=
  if name ∈ textual then some string
  else if name ∈ numeric then some number
  else if name ∈ temporal then some date
  else if name = "boolean" then some boolean
  else none

def ofName (name : String) : HostType := (ofBuiltIn? name).getD string

end HostType

end SoapComponents
