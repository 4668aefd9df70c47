import SoapComponents.Text.Cut
import SoapComponents.Xml.Doctype
import SoapComponents.Xml.Encoding
import SoapComponents.Table

/-!
A document as a sequence of events: declarations of namespaces, then the start of their element,
its text and its inner elements, and its end. `events` reads the bytes of a document; it fails
when the document is not well formed, declares an entity, or is in an encoding that it cannot
read.
-/

set_option autoImplicit false

namespace SoapComponents.Xml

open SoapComponents.Text

structure ExpandedName where
  space : Option String
  base : String
  deriving DecidableEq, Repr

inductive Event where
  /-- The next element to start binds a prefix, or none, to a namespace. -/
  | declare (nsPrefix space : String)
  | start (name : ExpandedName) (attributes : List (ExpandedName × String))
  | text (content : String)
  | finish
  deriving DecidableEq, Repr

inductive Token where
  | start (name : String) (attributes : List (String × String))
  | text (content : String)
  | finish

/-- The attributes of a tag and its end. The answer says whether the tag is empty. -/
def Scan.tagRest (lenient : Bool) :
    Nat → List (String × String) → Scan (List (String × String) × Bool)
  | 0, _ => failure
  | fuel + 1, found => do
    let spaced ← Scan.blanks
    if ← Scan.option ['>'] then return (found.reverse, false)
    if ← Scan.option ['/', '>'] then return (found.reverse, true)
    if !spaced then failure
    let name ← Scan.name
    let _ ← Scan.blanks
    Scan.literal ['=']
    let _ ← Scan.blanks
    let written ← Scan.quotedText
    let value ← attributeValue? lenient (written.length + 1) written
    tagRest lenient fuel ((String.ofList name, String.ofList value) :: found)

/-- The tokens from inside the elements `open?` to the end of the outermost one. -/
def Scan.content (lenient : Bool) : Nat → List String → Scan (List Token)
  | 0, _ => failure
  | _ + 1, [] => return []
  | fuel + 1, name :: outer => do
    if ← Scan.option "<!--".toList then
      Scan.commentRest
      content lenient fuel (name :: outer)
    else if ← Scan.option "<![CDATA[".toList then
      let text ← Scan.upTo "]]>".toList
      return .text (String.ofList text) :: (← content lenient fuel (name :: outer))
    else if ← Scan.option "<?".toList then
      Scan.instructionRest
      content lenient fuel (name :: outer)
    else if ← Scan.option "</".toList then
      Scan.literal name.toList
      let _ ← Scan.blanks
      Scan.literal ['>']
      return .finish :: (← content lenient fuel outer)
    else if ← Scan.option ['<'] then
      let inner := String.ofList (← Scan.name)
      let (attributes, empty) ← Scan.tagRest lenient ((← get).length + 1) []
      if empty then
        return .start inner attributes :: .finish :: (← content lenient fuel (name :: outer))
      else
        return .start inner attributes :: (← content lenient fuel (inner :: name :: outer))
    else if ← Scan.option ['&'] then
      match ← Scan.referenceRest with
      | .inl c => return .text (String.ofList [c]) :: (← content lenient fuel (name :: outer))
      | .inr _ => failure
    else
      let text ← Scan.takeWhile fun c => c != '<' && c != '&'
      if text.isEmpty || contains "]]>".toList text then failure
      return .text (String.ofList text) :: (← content lenient fuel (name :: outer))

def Scan.misc : Nat → Scan Unit
  | 0 => failure
  | fuel + 1 => do
    let _ ← Scan.blanks
    if ← Scan.option "<!--".toList then
      Scan.commentRest
      misc fuel
    else if ← Scan.option "<?".toList then
      Scan.instructionRest
      misc fuel
    else return

def Scan.document (fuel : Nat) : Scan (Doctype × List Token) := do
  let declaration ← Scan.declaration
  Scan.misc fuel
  let doctype ← if ← Scan.option "<!DOCTYPE".toList then
      let d ← Doctype.read declaration.standalone fuel
      Scan.misc fuel
      pure d
    else pure {}
  Scan.literal ['<']
  let root := String.ofList (← Scan.name)
  let (attributes, empty) ← Scan.tagRest doctype.incomplete fuel []
  let rest ← if empty then pure [Token.finish] else Scan.content doctype.incomplete fuel [root]
  Scan.misc fuel
  if !(← get).isEmpty then failure
  return (doctype, .start root attributes :: rest)

def xmlSpace : String := "http://www.w3.org/XML/1998/namespace"

def xmlnsSpace : String := "http://www.w3.org/2000/xmlns/"

def declaredPrefix? (name : String) : Option String :=
  if name == "xmlns" then some ""
  else match cutFirst ':' name.toList with
    | some (before, after) =>
      if String.ofList before == "xmlns" then some (String.ofList after) else none
    | none => none

def bindable (nsPrefix space : String) : Bool :=
  (nsPrefix == "" || space != "") && nsPrefix != "xmlns" && !space.toList.contains '}' &&
    ((nsPrefix == "xml") == (space == xmlSpace)) && space != xmlnsSpace

/-- The attributes that an element has: those written, with their values as the type declaration
wants them, and then those that it supplies. -/
def suppliedAttributes (d : Doctype) (element : String) (written : List (String × String)) :
    List (String × String) :=
  let rules := d.rulesFor element
  let kept := written.map fun (name, value) =>
    match rules.find? (·.name == name) with
    | some rule =>
      if rule.asWritten then (name, value)
      else (name, String.ofList (collapseBlanks value.toList))
    | none => (name, value)
  kept ++ rules.filterMap fun rule =>
    match rule.value with
    | some value => if written.any (·.1 == rule.name) then none else some (rule.name, value)
    | none => none

abbrev Bindings := List (String × String)

/-- A name with its namespace. A name without a prefix has the default one if `defaulted`. -/
def expand? (bindings : Bindings) (defaulted : Bool) (name : String) : Option ExpandedName :=
  match cutFirst ':' name.toList with
  | some (nsPrefix, base) =>
    if String.ofList nsPrefix == "xml" then some ⟨some xmlSpace, String.ofList base⟩
    else (Table.value? bindings (String.ofList nsPrefix)).map fun space =>
      ⟨some space, String.ofList base⟩
  | none =>
    if defaulted then some ⟨(Table.value? bindings "").filter (· != ""), name⟩
    else some ⟨none, name⟩

def startEvents (d : Doctype) (bindings : Bindings) (name : String)
    (written : List (String × String)) : Option (List Event × Bindings) := do
  if !(written.map Prod.fst).Nodup then none
  let attributes := suppliedAttributes d name written
  let declared := attributes.filterMap fun (key, space) =>
    (declaredPrefix? key).map (·, space)
  if !declared.all fun (nsPrefix, space) => bindable nsPrefix space then none
  let bindings := declared.reverse ++ bindings
  let plain := attributes.filter fun (key, _) => (declaredPrefix? key).isNone
  let expanded ← plain.mapM fun (key, value) =>
    (expand? bindings false key).map (·, value)
  if !(expanded.map Prod.fst).Nodup then none
  let element ← expand? bindings true name
  return (declared.map (fun (nsPrefix, space) => .declare nsPrefix space) ++ [.start element expanded],
    bindings)

/-- The events of the tokens. `scopes` holds the bindings inside each open element. -/
def eventsOf (d : Doctype) : List Bindings → List Token → Option (List Event)
  | _, [] => some []
  | scopes, .start name written :: rest => do
    let (events, bindings) ← startEvents d (scopes.headD []) name written
    return events ++ (← eventsOf d (bindings :: scopes) rest)
  | scopes, .text content :: rest => return .text content :: (← eventsOf d scopes rest)
  | scopes, .finish :: rest => return .finish :: (← eventsOf d scopes.tail rest)

def events? (cs : List Char) : Option (List Event) :=
  if cs.all isCharacter then do
    let cs := normalizeLines cs
    let ((doctype, tokens), _) ← (Scan.document (cs.length + 1)).run cs
    eventsOf doctype [] tokens
  else none

def events (bytes : List UInt8) : Except EncodingError (List Event) := do
  match events? (← decode bytes) with
  | some found => .ok found
  | none => .error .invalid

end SoapComponents.Xml
