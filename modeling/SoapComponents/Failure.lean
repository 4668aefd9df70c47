import SoapComponents.Text.Blank
import SoapComponents.Text.Quoted

/-!
Why a run, or one operation of it, comes to nothing. Each cause has one constructor with its data,
and `Failure.message` has the wording of all of them.
-/

set_option autoImplicit false

namespace SoapComponents

inductive LoadProblem where
  | unreadable (detail : String)
  | noResponse (seconds : Int)
  | requestFailed (detail : String)
  | status (code : Int) (reason : String)
  deriving DecidableEq

inductive Sought where
  | messagePart (name : String)
  | elementType (name : String)
  | inputMessage
  deriving DecidableEq

inductive LocationFlaw where
  | brackets
  | addressInBrackets (host : String)
  | shortAddressInBrackets
  | futureAddress
  | hostCharacters (host : String)
  deriving DecidableEq

structure Diagnosis where
  schemas : List String
  complexTypes : List String
  elements : List String
  namespaces : List String
  deriving DecidableEq

inductive Failure where
  | malformed
  | unknownEncoding (name : String)
  | multiByteEncoding
  | badLocation (flaw : LocationFlaw)
  | notLoaded (location : String) (problem : LoadProblem)
  | strayChildren (typeName : String) (found : List String)
  /-- Groups are read inside each other deeper than there is room for. -/
  | tooDeep
  | nothingDeclared (diagnosis : Diagnosis)
  | noDefinitions (location : String)
  | noPortType
  | noInput (operation : String)
  | simplePart (part type : String)
  | partNotComplex (part : String)
  | typeNotFound (reference : String) (available : List String) (sought : Sought)
  | noNamespace (typeName : String)
  | unboundPrefix (tagPrefix : String)
  | prefixTaken (tagPrefix old new : String)
  | operationNotFound (operation : String) (available : List String)
  | nothingGenerated (location : String)
  | emptySeparator
  deriving DecidableEq

namespace LoadProblem

def message : LoadProblem → String
  | unreadable detail => s!"Error reading file ({detail})"
  | noResponse seconds => s!"No response within {seconds}s"
  | requestFailed detail => s!"Request failed ({detail})"
  | status code reason =>
    String.ofList (Text.trimRight s!"HTTP error {code} {reason}".toList)

end LoadProblem

namespace Sought

def message : Sought → String
  | messagePart name => "message part " ++ name
  | elementType name => "type of element " ++ name
  | inputMessage => "input message with an element or type part"

end Sought

namespace LocationFlaw

def message : LocationFlaw → String
  | brackets => "Invalid IPv6 URL"
  | addressInBrackets host =>
    Text.quoted host ++ " does not appear to be an IPv4 or IPv6 address"
  | shortAddressInBrackets => "An IPv4 address cannot be in brackets"
  | futureAddress => "IPvFuture address is invalid"
  | hostCharacters host =>
    "netloc \x27" ++ host ++ "\x27 contains invalid characters under NFKC normalization"

end LocationFlaw

def listing (separator : String) : List String → String
  | [] => "(none)"
  | items => separator.intercalate items

namespace Diagnosis

def message (d : Diagnosis) : String :=
  "\n".intercalate [
    "No elements or complexTypes were found in the WSDL types section or its imports.",
    "Schemas processed: " ++ listing ", " d.schemas,
    "complexType declarations: " ++ listing ", " d.complexTypes,
    "element declarations: " ++ listing "; " d.elements,
    "Namespaces declared: " ++ listing ", " d.namespaces,
    "Check that every xsd:import has a reachable schemaLocation and that the " ++
      "schema declares its types inside <types><schema>...</schema></types>."]

end Diagnosis

namespace Failure

def shownTypes : Nat := 20

def availableMessage : List String → String
  | [] => ""
  | available =>
    ". Available types: " ++ ", ".intercalate (available.take shownTypes) ++
      (if shownTypes < available.length then
        " (+" ++ toString (available.length - shownTypes) ++ " more)"
      else "")

def message : Failure → String
  | malformed => "Document is not well-formed XML"
  | unknownEncoding name => "unknown encoding: " ++ name
  | multiByteEncoding => "multi-byte encodings are not supported"
  | badLocation flaw => flaw.message
  | notLoaded location problem => problem.message ++ ": " ++ location
  | strayChildren typeName found =>
    "complexType " ++ typeName ++
      ": no sequence/choice/all/group/simpleContent/complexContent found (found: " ++
      ", ".intercalate found ++ ")"
  | tooDeep => "maximum recursion depth exceeded"
  | nothingDeclared diagnosis => diagnosis.message
  | noDefinitions location => location ++ " has no definitions element"
  | noPortType => "WSDL has no portType"
  | noInput operation => "operation " ++ operation ++ " has no input message"
  | simplePart part type =>
    "part " ++ part ++ " is the simple type " ++ type ++ ", nothing to generate"
  | partNotComplex part => "part " ++ part ++ " does not resolve to a complex type"
  | typeNotFound reference available sought =>
    "Type " ++ Text.quoted reference ++ " not found (" ++ sought.message ++ ")" ++
      availableMessage available
  | noNamespace typeName => "type " ++ typeName ++ " has no $namespace"
  | unboundPrefix tagPrefix => "prefix " ++ tagPrefix ++ " is used but bound to no namespace"
  | prefixTaken tagPrefix old new =>
    "Prefix " ++ tagPrefix ++ " already bound to " ++ old ++ ", cannot bind " ++ new
  | operationNotFound operation available =>
    "Operation " ++ Text.quoted operation ++ " not found. Available operations: " ++
      (if available.isEmpty then "(none)" else
        let names := ", ".intercalate available
        if names == "" then "(none)" else names)
  | nothingGenerated location => "No components were generated from " ++ location
  | emptySeparator => "empty separator"

def isStructural : Failure → Bool
  | malformed | strayChildren .. | nothingDeclared _ | noDefinitions _ | noPortType | noInput _
  | simplePart .. | partNotComplex _ | noNamespace _ | unboundPrefix _ => true
  | _ => false

def isUnresolved : Failure → Bool
  | typeNotFound .. => true
  | _ => false

def isLoading : Failure → Bool
  | notLoaded .. => true
  | _ => false

/-- The failures that end one operation, and a run when nothing else comes of it. -/
def isGenerating : Failure → Bool
  | operationNotFound .. | nothingGenerated _ => true
  | f => f.isStructural || f.isUnresolved

end Failure

end SoapComponents
