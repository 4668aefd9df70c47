import SoapComponents.Text.Indent

/-!
Markup that renders data, as a tree, and its text. An element encloses its content, a leaf the
value at a path, and a loop is rendered for every item of the list at a path.
-/

set_option autoImplicit false

namespace SoapComponents

/-- Markup whose tags are of some kind. -/
inductive Markup (τ : Type) where
  | leaf (tag : τ) (path : String)
  | element (tag : τ) (content : List (Markup τ))
  /-- Content that is rendered without the element that it belongs to. -/
  | bare (tag : τ) (content : List (Markup τ))
  | loop (path : String) (body : Markup τ)

namespace Markup

variable {τ σ : Type}

def loopVariable : String := "item"

mutual

def tags : Markup τ → List τ
  | leaf tag _ => [tag]
  | element tag content => tag :: tagsAll content
  | bare tag content => tag :: tagsAll content
  | loop _ body => tags body

def tagsAll : List (Markup τ) → List τ
  | [] => []
  | m :: rest => tags m ++ tagsAll rest

end

mutual

def map (f : τ → σ) : Markup τ → Markup σ
  | leaf tag path => leaf (f tag) path
  | element tag content => element (f tag) (mapAll f content)
  | bare tag content => bare (f tag) (mapAll f content)
  | loop path body => loop path (map f body)

def mapAll (f : τ → σ) : List (Markup τ) → List (Markup σ)
  | [] => []
  | m :: rest => map f m :: mapAll f rest

end

def openTag (tag : String) : String := "<" ++ tag ++ ">"

def closeTag (tag : String) : String := "</" ++ tag ++ ">"

def enclose (tag inner : String) : String :=
  if inner == "" then openTag tag ++ closeTag tag
  else openTag tag ++ "\n" ++ Text.indent inner 1 ++ "\n" ++ closeTag tag

def interpolate (path : String) : String := "\x7b" ++ path ++ "\x7d"

def iterate (path inner : String) : String :=
  interpolate (path ++ ".map((" ++ loopVariable ++ ", i) => (\n" ++ Text.indent inner 1 ++ "\n))")

mutual

def print : Markup String → String
  | leaf tag path => openTag tag ++ interpolate path ++ closeTag tag
  | element tag content => enclose tag ("\n".intercalate (printAll content))
  | bare _ content => "\n".intercalate (printAll content)
  | loop path body => iterate path (print body)

def printAll : List (Markup String) → List String
  | [] => []
  | m :: rest =>
    let block := print m
    if block == "" then printAll rest else block :: printAll rest

end

end Markup

end SoapComponents
