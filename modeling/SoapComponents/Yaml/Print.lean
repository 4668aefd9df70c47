import SoapComponents.Yaml.Basic
import SoapComponents.Yaml.Scalar

/-!
The text of a document. A map has one entry after the other, and a list one item after the other,
each in a line of its own. A key that is short and in one line stands before its value; another
one stands after a question mark, with the value in the next line.
-/

set_option autoImplicit false

namespace SoapComponents.Yaml

def keyLimit : Nat := 122

def isShortKey (key : String) : Bool :=
  key != "" && !isMultiline key.toList && key.length ≤ keyLimit

def shortKey (key : String) : List Char := scalar ⟨0, 0, false⟩ key

def itemsFrom (indent : Nat) : List String → List Char
  | [] => []
  | [item] => '-' :: ' ' :: scalar ⟨indent + 2, indent + 2, true⟩ item
  | item :: rest =>
    '-' :: ' ' :: scalar ⟨indent + 2, indent + 2, true⟩ item ++ newLine indent ++
      itemsFrom indent rest

mutual

/-- What stands after the colon of an entry. `column` is where the colon ends, and `ownLine` says
that it stands alone in its line, which a collection then begins in. -/
def valueFrom (indent column : Nat) (ownLine : Bool) : Yaml → List Char
  | text content => ' ' :: scalar ⟨indent + 2, column + 1, true⟩ content
  | list [] => " []".toList
  | list items =>
    if ownLine then ' ' :: itemsFrom (indent + 2) items
    else newLine indent ++ itemsFrom indent items
  | map [] => " \x7b\x7d".toList
  | map (entry :: rest) =>
    (if ownLine then [' '] else newLine (indent + 2)) ++ entriesFrom (indent + 2) (entry :: rest)

def entriesFrom (indent : Nat) : List (String × Yaml) → List Char
  | [] => []
  | (key, value) :: rest =>
    (if isShortKey key then
      let written := shortKey key
      written ++ ':' :: valueFrom indent (indent + written.length + 1) false value
    else
      '?' :: ' ' :: scalar ⟨indent + 2, indent + 2, true⟩ key ++ newLine indent ++
        ':' :: valueFrom indent (indent + 1) true value) ++
    (match rest with
    | [] => []
    | next :: others => newLine indent ++ entriesFrom indent (next :: others))

end

def print (entries : List (String × Yaml)) : String :=
  match entries with
  | [] => "\x7b\x7d\n"
  | entries => String.ofList (entriesFrom 0 entries ++ ['\n'])

end SoapComponents.Yaml
