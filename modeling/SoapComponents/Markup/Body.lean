import SoapComponents.Markup.Outline
import SoapComponents.Prefix.Assignment
import SoapComponents.Prefix.NamespaceMap

/-!
The body of a component: the outline of its root with prefixes for the tags. Qualified tags have
the prefix of the member's namespace; the others all have the same one. The tags get their
prefixes in the order in which they are written.
-/

set_option autoImplicit false

namespace SoapComponents

def unqualifiedPrefix : String := "xml"

/-- Where a qualified tag has its prefix from: a namespace, or a prefix that is known already. -/
inductive TagPrefix where
  | ofSpace (space : String)
  | known (tagPrefix : String)
  deriving DecidableEq

namespace TypeGraph

def inline? (g : TypeGraph) (type : TypeNode) : Option ObjectNode :=
  match type with
  | .object id => some (g.object id)
  | _ => none

def isQualified (g : TypeGraph) (m : Member TypeNode) : Bool :=
  (m.qualified.or ((g.inline? m.type).bind (·.qualified))).getD false

/-- The prefix of a member's tag: that of its own namespace, else of its inline type's, else what
is known for the key of its parent, or its own key, and else the prefix of the root. -/
def tagPrefix (g : TypeGraph) (spaces : NamespaceMap) (key : String) (parent : Option String)
    (m : Member TypeNode) : TagPrefix :=
  match (Name.given? m.space).or
      (Name.given? ((g.inline? m.type).bind (·.space))) with
  | some space => .ofSpace space
  | none =>
    match spaces.types.value? (parent.getD key) with
    | some known => .known known.tagPrefix
    | none => .known spaces.basePrefix

end TypeGraph

namespace TagPrefix

def assign (policy : Prefix.Policy) : TagPrefix → Assigning String
  | ofSpace space => Assigning.prefixFor policy space
  | known tagPrefix => pure tagPrefix

def text (p : Prefixes) : TagPrefix → String
  | ofSpace space => (p.bySpace.value? space).getD ""
  | known tagPrefix => tagPrefix

end TagPrefix

structure BodyPlan where
  catalog : Catalog
  policy : Prefix.Policy
  spaces : NamespaceMap
  rootPrefix : String
  rootTag : String

namespace BodyPlan

def siteTag? (b : BodyPlan) (site : TagSite) : Option TagPrefix :=
  if b.catalog.graph.isQualified site.member then
    some (b.catalog.graph.tagPrefix b.spaces site.key none site.member)
  else none

def record (b : BodyPlan) (tag tagPrefix : String) (u : Usage) : Assigning Usage := do
  let p ← get
  let space := (Name.given? (b.spaces.spaces.value? tagPrefix)).or (p.byPrefix.value? tagPrefix)
  return u.record tag tagPrefix space

def visit (b : BodyPlan) (u : Usage) (site : TagSite) : Assigning Usage := do
  let u ← match b.siteTag? site with
    | some source => do
      let tagPrefix ← source.assign b.policy
      b.record (Name.localPart site.key) tagPrefix u
    | none => pure u
  Noted.tellAll site.notices
  return u

def tagName (b : BodyPlan) (p : Prefixes) (site : TagSite) : String :=
  (match b.siteTag? site with
    | some source => source.text p
    | none => unqualifiedPrefix) ++ "." ++ Name.localPart site.key

def basePath (propsField : Option String) : String :=
  match Name.given? propsField with
  | some field => "props." ++ field
  | none => "props"

def markup (b : BodyPlan) (p : Prefixes) (content : List (Markup TagSite)) : Markup String :=
  .element (b.rootPrefix ++ "." ++ b.rootTag) (Markup.mapAll (b.tagName p) content)

/-- The text of a root's markup, and the tags that it uses. -/
def write (b : BodyPlan) (root : Root) (propsField : Option String) :
    Assigning (String × Usage) := do
  let (notices, content) := b.catalog.outline (basePath propsField) root.visited root.node
  let u ← b.record b.rootTag b.rootPrefix {}
  Noted.tellAll notices
  let u ← (Markup.tagsAll content).foldlM b.visit u
  return ((b.markup (← get) content).print, u)

end BodyPlan

end SoapComponents
