import SoapComponents.Markup.Outline

/-!
The markup of members and of roots, opened one step at a time and without the notices.
-/

set_option autoImplicit false

namespace SoapComponents.Catalog

variable {c : Catalog} {path : String} {opened : List ObjectId}

def outlineContent (c : Catalog) (path : String) (opened : List ObjectId) (key : String)
    (m : Member TypeNode) : Markup TagSite :=
  let site : TagSite := ⟨key, m, (c.contentOf key m.type).notices⟩
  match (c.contentOf key m.type).value with
  | .value => .leaf site path
  | .object id bare =>
    if id ∈ opened then .element site []
    else
      let content := c.outlineMembers path (id :: opened) (c.graph.object id).members
      if bare then .bare site content else .element site content

def outlineMember (c : Catalog) (path : String) (opened : List ObjectId) (key : String)
    (m : Member TypeNode) : Markup TagSite :=
  if m.isRepeated then
    .loop (fieldPath path key) (c.outlineContent Markup.loopVariable opened key m)
  else c.outlineContent (fieldPath path key) opened key m

theorem outlineContent_primitive {key name : String} {m : Member TypeNode}
    (h : m.type = .primitive name) :
    c.outlineContent path opened key m = .leaf ⟨key, m, []⟩ path := by
  simp [outlineContent, contentOf, h]

theorem outlineContent_object {key : String} {m : Member TypeNode} {id : ObjectId} {bare : Bool}
    (h : (c.contentOf key m.type).value = .object id bare) (hn : id ∉ opened) :
    c.outlineContent path opened key m =
      let site : TagSite := ⟨key, m, (c.contentOf key m.type).notices⟩
      let content := c.outlineMembers path (id :: opened) (c.graph.object id).members
      if bare then .bare site content else .element site content := by
  simp only [outlineContent, h, if_neg hn]

theorem outlineMember_single {key : String} {m : Member TypeNode} (h : m.maxOccurs = "1") :
    c.outlineMember path opened key m = c.outlineContent (fieldPath path key) opened key m := by
  simp [outlineMember, Member.isRepeated, h]

@[simp] theorem outlineMembers_nil : c.outlineMembers path opened [] = [] := by
  rw [outlineMembers]

theorem outlineMembers_cons (key : String) (m : Member TypeNode)
    (rest : List (String × Member TypeNode)) :
    c.outlineMembers path opened ((key, m) :: rest) =
      c.outlineMember path opened key m :: c.outlineMembers path opened rest := by
  rw [outlineMembers]
  congr 1
  by_cases hr : m.isRepeated = true
  · simp only [outlineMember, outlineContent, hr, if_true, Markup.loop.injEq, true_and]
    split <;> next h => rw [h]
  · simp only [outlineMember, outlineContent, hr, if_false, Bool.false_eq_true]
    split <;> next h => rw [h]

def next? (c : Catalog) (o : ObjectNode) (opened : List ObjectId) : Option Payload :=
  (c.payload? o).value.filter (·.id ∉ opened)

theorem next?_eq_some {o : ObjectNode} {p : Payload} :
    c.next? o opened = some p ↔ (c.payload? o).value = some p ∧ p.id ∉ opened := by
  simp [next?, Option.filter_eq_some_iff]

section Chain

variable {o : ObjectNode}

theorem outline_of_next_none (h : c.next? o opened = none) :
    (c.outline path opened o).2 = c.outlineMembers path opened o.members := by
  rw [outline]
  split
  · rfl
  · next p notices hp =>
    have hmem : p.id ∈ opened := by simpa [next?, hp, Option.filter] using h
    rw [if_pos hmem]

theorem outline_of_next {p : Payload} (h : c.next? o opened = some p) :
    (c.outline path opened o).2 =
      [.element ⟨p.key, p.member, (c.outline path (p.id :: opened) (c.graph.object p.id)).1⟩
        (c.outline path (p.id :: opened) (c.graph.object p.id)).2] := by
  obtain ⟨hv, hmem⟩ := next?_eq_some.1 h
  rw [outline]
  split
  · next notices hp => simp [hp] at hv
  · next found notices hp =>
    obtain rfl : found = p := by simpa [hp] using hv
    rw [if_neg hmem]

theorem payloads_of_next_none (h : c.next? o opened = none) : (c.payloads o opened).value = [] := by
  rw [payloads]
  split
  · rfl
  · next p notices hp =>
    have hmem : p.id ∈ opened := by simpa [next?, hp, Option.filter] using h
    rw [if_pos hmem]

theorem payloads_of_next {p : Payload} (h : c.next? o opened = some p) :
    (c.payloads o opened).value =
      p :: (c.payloads (c.graph.object p.id) (p.id :: opened)).value := by
  obtain ⟨hv, hmem⟩ := next?_eq_some.1 h
  rw [payloads]
  split
  · next notices hp => simp [hp] at hv
  · next found notices hp =>
    obtain rfl : found = p := by simpa [hp] using hv
    rw [if_neg hmem]

end Chain

end SoapComponents.Catalog
