import SoapComponents.Markup.Basic
import SoapComponents.Reference.Root

/-!
The markup of an object before its tags have prefixes. Around the root, the members of wrappers
become tags but leave no trace in paths, since the fields of the payload are those of the props.
An object that lies within itself is rendered once, and is empty where it comes again.
-/

set_option autoImplicit false

namespace SoapComponents

/-- A place where a tag is written: the member that it is for, and what is told just after. -/
structure TagSite where
  key : String
  member : Member TypeNode
  notices : List Notice := []

inductive MemberContent where
  | value
  /-- The members of an object. A `bare` object is rendered without the member's own tag. -/
  | object (id : ObjectId) (bare : Bool)

namespace Catalog

def contentOf (c : Catalog) (key : String) (type : TypeNode) : Noted MemberContent := do
  match type with
  | .primitive _ => return .value
  | .object id =>
    return if (c.graph.object id).members.isEmpty then .value else .object id false
  | .reference pointer =>
    match ← c.resolve pointer.name with
    | none =>
      Noted.tell (.elementUnresolved pointer.name key)
      return .value
    | some r =>
      match r.target with
      | .primitive _ => return .value
      | .object id =>
        return if (c.graph.object id).members.isEmpty then .value else .object id r.circular

theorem members_of_contentOf {c : Catalog} {key : String} {type : TypeNode} {id : ObjectId}
    {bare : Bool} (h : (c.contentOf key type).value = .object id bare) :
    (c.graph.object id).members ≠ [] := by
  have cond : ∀ {i : ObjectId} {b : Bool},
      (if (c.graph.object i).members.isEmpty then MemberContent.value else .object i b) =
        .object id bare → (c.graph.object id).members ≠ [] := by
    intro i b hib
    split at hib
    · simp at hib
    · next hm =>
      obtain ⟨rfl, _⟩ := MemberContent.object.inj hib
      simpa [List.isEmpty_iff] using hm
  unfold contentOf at h
  split at h
  · simp at h
  · exact cond h
  · simp only [Noted.value_bind] at h
    split at h
    · simp at h
    · split at h
      · simp at h
      · exact cond h

def fieldPath (path key : String) : String := path ++ "." ++ Name.camel key

/-- The markup of members, one block for each. `opened` holds the objects around them. -/
def outlineMembers (c : Catalog) (path : String) (opened : List ObjectId) :
    List (String × Member TypeNode) → List (Markup TagSite)
  | [] => []
  | (key, m) :: rest =>
    let field := fieldPath path key
    let inner := if m.isRepeated then Markup.loopVariable else field
    let block : Markup TagSite :=
      match _h : c.contentOf key m.type with
      | ⟨.value, notices⟩ => .leaf ⟨key, m, notices⟩ inner
      | ⟨.object id bare, notices⟩ =>
        if id ∈ opened then .element ⟨key, m, notices⟩ []
        else
          let content := c.outlineMembers inner (id :: opened) (c.graph.object id).members
          if bare then .bare ⟨key, m, notices⟩ content else .element ⟨key, m, notices⟩ content
    (if m.isRepeated then .loop field block else block) :: c.outlineMembers path opened rest
termination_by members => (c.graph.unvisited opened, members.length)
decreasing_by
  · exact Prod.Lex.left _ _
      (TypeGraph.unvisited_cons_lt (members_of_contentOf (by rw [_h])) (by assumption))
  · exact Prod.Lex.right _ (by simp)

/-- The markup inside a root: what is told first, and the blocks. -/
def outline (c : Catalog) (path : String) (opened : List ObjectId) (o : ObjectNode) :
    List Notice × List (Markup TagSite) :=
  match _h : c.payload? o with
  | ⟨none, notices⟩ => (notices, c.outlineMembers path opened o.members)
  | ⟨some p, notices⟩ =>
    if p.id ∈ opened then (notices, c.outlineMembers path opened o.members)
    else
      let inner := c.outline path (p.id :: opened) (c.graph.object p.id)
      (notices, [.element ⟨p.key, p.member, inner.1⟩ inner.2])
termination_by c.graph.unvisited opened
decreasing_by
  exact TypeGraph.unvisited_cons_lt (members_of_payload? (by rw [_h])) (by assumption)

end Catalog

end SoapComponents
