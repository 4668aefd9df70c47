import SoapComponents.Table
import SoapComponents.Text.Blank
import SoapComponents.Xml.Event

/-!
Documents as trees. An element is a node of its namespace declarations, attributes and children
under their names as the document writes them; children of one name are gathered in a list. An
element with nothing but text is that text.
-/

set_option autoImplicit false

namespace SoapComponents

open SoapComponents.Xml

inductive Tree where
  | text (content : String)
  | node (entries : List (String × Tree))
  | many (items : List Tree)
  deriving Repr

namespace Tree

def textKey : String := "#text"

def declarationKey (nsPrefix : String) : String :=
  if nsPrefix == "" then "xmlns" else "xmlns:" ++ nsPrefix

/-- The name as the document wrote it: bare in the default namespace, and otherwise with the
prefix, of those bound to the namespace, that was declared last. -/
def writtenName (scope : Table String) (name : ExpandedName) : String :=
  match name.space with
  | none => name.base
  | some space =>
    if scope.value? "" == some space then name.base
    else match scope.reverse.find? fun e => e.2 == space && e.1 != "" with
      | some (nsPrefix, _) => nsPrefix ++ ":" ++ name.base
      | none => if space == xmlSpace then "xml:" ++ name.base else name.base

def addChild : List (String × Tree) → String → Tree → List (String × Tree)
  | [], key, value => [(key, value)]
  | (k, v) :: rest, key, value =>
    if k = key then
      (k, match v with
        | many items => many (items ++ [value])
        | single => many [single, value]) :: rest
    else (k, v) :: addChild rest key value

/-- An element that has started and not finished. -/
structure Frame where
  tag : String
  entries : List (String × Tree)
  scope : Table String
  leading : String
  childless : Bool

def Frame.start (scope : Table String) (declared : List (String × String)) (name : ExpandedName)
    (attributes : List (ExpandedName × String)) : Frame :=
  let scope := Table.putAll scope declared
  let entries : Table Tree :=
    Table.putAll [] (declared.map fun (nsPrefix, space) => (declarationKey nsPrefix, text space))
  let entries := Table.putAll entries
    (attributes.map fun (key, value) => (writtenName scope key, text value))
  ⟨writtenName scope name, entries, scope, "", true⟩

def Frame.value (f : Frame) : Tree :=
  let content := Text.trim f.leading
  if f.entries.isEmpty then text content
  else if content == "" then node f.entries
  else node (Table.put f.entries textKey (text content))

/-- Folds the events that are left. `frames` holds the open elements, the innermost first, and
`declared` the declarations for the next element. -/
def fold : List Event → List Frame → List (String × String) → Option (String × Tree)
  | [], _, _ => none
  | .declare nsPrefix space :: rest, frames, declared =>
    fold rest frames (declared ++ [(nsPrefix, space)])
  | .start name attributes :: rest, frames, declared =>
    let scope := match frames with
      | f :: _ => f.scope
      | [] => []
    fold rest (Frame.start scope declared name attributes :: frames) []
  | .text content :: rest, frames, declared =>
    match frames with
    | f :: outer =>
      fold rest ((if f.childless then { f with leading := f.leading ++ content } else f) :: outer)
        declared
    | [] => fold rest [] declared
  | .finish :: rest, frames, declared =>
    match frames with
    | f :: g :: outer =>
      fold rest ({ g with entries := addChild g.entries f.tag f.value, childless := false } :: outer)
        declared
    | [f] => some (f.tag, f.value)
    | [] => none

/-- The tree of a document: a node with the root element as its only entry. -/
def ofEvents? (events : List Event) : Option Tree :=
  (fold events [] []).map fun root => node [root]

end Tree

end SoapComponents
