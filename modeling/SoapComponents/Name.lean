import SoapComponents.Text.Cut
import SoapComponents.Text.Ranges

/-!
Names of types and elements. A qualified name is a namespace, a colon and a local name; since a
namespace may hold colons itself, the local name is what follows the last one. The same text with
a prefix in the place of the namespace is a name as a document writes it.
-/

set_option autoImplicit false

namespace SoapComponents.Name

open SoapComponents.Text

/-- The part of a name after its last colon. -/
def localPart (name : String) : String :=
  match cutLast ':' name.toList with
  | some parts => String.ofList parts.2
  | none => name

def space? (name : String) : Option String :=
  (cutLast ':' name.toList).map fun parts => String.ofList parts.1

def prefixed? (name : String) : Option (String × String) :=
  (cutFirst ':' name.toList).map fun parts => (String.ofList parts.1, String.ofList parts.2)

def given? (s : Option String) : Option String := s.filter (· ≠ "")

def qualified (space : Option String) (name : String) : String :=
  match given? space with
  | some s => s ++ ":" ++ name
  | none => name

def schemaSpace : String := "http://www.w3.org/2001/XMLSchema"

def isBuiltIn (name : String) : Bool := space? name == some schemaSpace

def builtIn (name : String) : String := schemaSpace ++ ":" ++ name

def words (cs : List Char) : List (List Char) :=
  (splitBy (fun c => !isAsciiAlphanum c) cs).filter (· ≠ [])

def capitalize : List Char → List Char
  | [] => []
  | c :: rest => c.toUpper :: rest

/-- The name of an interface: the words of the local name, each with a capital first letter. -/
def pascal (name : String) : String :=
  String.ofList ((words (localPart name).toList).flatMap capitalize)

def camel (name : String) : String :=
  match (pascal name).toList with
  | [] => ""
  | c :: rest => String.ofList (c.toLower :: rest)

theorem localPart_of_not_mem {name : String} (h : ':' ∉ name.toList) : localPart name = name := by
  unfold localPart
  split
  · next parts hp => exact absurd (by rw [cutLast_eq_some (hp : _ = some (parts.1, parts.2))]; simp) h
  · rfl

end SoapComponents.Name
