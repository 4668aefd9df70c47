import SoapComponents.Proofs.Component.Optional
import SoapComponents.Proofs.Markup.Within
import SoapComponents.Proofs.Reference.Named

/-!
The namespaces that a type graph speaks of, and why accounts and bodies ask for no others: roots
are objects of the graph, and each tag is that of a member of one.
-/

set_option autoImplicit false

namespace SoapComponents

def TypeNode.space? : TypeNode → Option String
  | .reference pointer => pointer.space
  | _ => none

namespace TypeGraph

/-- The namespaces that the objects, the elements and the names of entries speak of. -/
def spaces (g : TypeGraph) : List String :=
  (g.objects.flatMap (fun o => o.space :: o.members.map (·.2.space)) ++
    g.elements.map (·.2.space?) ++
    (g.elements.keys ++ g.complexTypes.keys).map Name.space?).filterMap Name.given?

variable {g : TypeGraph} {id : ObjectId} {s : String}

theorem object_eq_default_or_mem (g : TypeGraph) (id : ObjectId) :
    g.object id = {} ∨ g.object id ∈ g.objects := by
  rw [object, List.getD_eq_getElem?_getD]
  cases h : g.objects[id]? with
  | none => exact .inl rfl
  | some o => exact .inr (List.mem_of_getElem? h)

theorem space_of_object (h : Name.given? (g.object id).space = some s) : s ∈ g.spaces := by
  rcases g.object_eq_default_or_mem id with hid | hid
  · rw [hid] at h
    cases h
  · refine List.mem_filterMap.2 ⟨(g.object id).space, ?_, h⟩
    exact List.mem_append_left _ (List.mem_append_left _
      (List.mem_flatMap.2 ⟨_, hid, List.mem_cons_self⟩))

theorem space_of_member {e : String × Member TypeNode} (he : e ∈ (g.object id).members)
    (h : Name.given? e.2.space = some s) : s ∈ g.spaces := by
  rcases g.object_eq_default_or_mem id with hid | hid
  · rw [hid] at he
    cases he
  · refine List.mem_filterMap.2 ⟨e.2.space, ?_, h⟩
    exact List.mem_append_left _ (List.mem_append_left _
      (List.mem_flatMap.2 ⟨_, hid, List.mem_cons_of_mem _ (List.mem_map_of_mem he)⟩))

theorem space_of_element {e : String × TypeNode} (he : e ∈ g.elements)
    (h : Name.given? e.2.space? = some s) : s ∈ g.spaces := by
  refine List.mem_filterMap.2 ⟨e.2.space?, ?_, h⟩
  exact List.mem_append_left _ (List.mem_append_right _ (List.mem_map_of_mem he))

theorem space_of_key {key : String} (hkey : key ∈ g.elements.keys ++ g.complexTypes.keys)
    (h : Name.given? (Name.space? key) = some s) : s ∈ g.spaces :=
  List.mem_filterMap.2 ⟨Name.space? key, List.mem_append_right _ (List.mem_map_of_mem hkey), h⟩

end TypeGraph

/-- A root with the members of an object of the graph, in a namespace that the graph speaks of. -/
structure Root.Inside (root : Root) (g : TypeGraph) : Prop where
  members : ∃ id, root.node.members = (g.object id).members
  space : ∀ s, Name.given? root.node.space = some s → s ∈ g.spaces

theorem TypeGraph.space_of_rootTags_inside {g : TypeGraph} {root : Root} (hroot : root.Inside g)
    {space : String} (hs : space ∈ g.spaces) :
    ∀ tag ∈ g.rootTags root space, tag.space ∈ g.spaces := by
  refine g.declaredTags_forall (fun _ _ he _ => space_of_member he) (fun _ _ => space_of_object) _
    _ ?_
  intro e he
  obtain ⟨⟨k, m⟩, hm, rfl⟩ := List.mem_map.1 he
  obtain ⟨id, hid⟩ := hroot.members
  exact ⟨hs, fun s => space_of_member (hid ▸ hm)⟩

namespace Catalog

variable {c : Catalog}

theorem space_of_partObject {part : MessagePart} {found : Found} {preferTypes : Bool}
    (hfound : c.lookup part.key preferTypes [] = some found) {id : ObjectId}
    {elementSpace : Option String}
    (h : (c.partObject part found.entry.key found.node).result = .ok (id, elementSpace))
    {s : String} (hs : Name.given? elementSpace = some s) : s ∈ c.graph.spaces := by
  have hentry := (finds_of_lookup hfound).value
  cases hnode : found.node with
  | object id =>
    rw [hnode] at h
    obtain ⟨-, rfl⟩ := Prod.mk.inj (Except.ok.inj h)
    cases hs
  | primitive name =>
    rw [hnode] at h
    cases h
  | reference pointer =>
    rw [hnode] at h hentry
    have hspace : elementSpace = pointer.space := by
      simp only [partObject, Outcome.result_bind, Outcome.result_lift] at h
      split at h
      · exact (Prod.mk.inj (Except.ok.inj h)).2.symm
      · cases h
    rw [hspace] at hs
    cases hkind : found.entry.kind with
    | elements =>
      rw [hkind] at hentry
      exact TypeGraph.space_of_element (Table.mem_of_value? hentry) hs
    | complexTypes =>
      rw [hkind, value?_typeEntries] at hentry
      obtain ⟨_, _, hobject⟩ := Option.map_eq_some_iff.1 hentry
      cases hobject

theorem inside_of_resolvePart {part : MessagePart} {found : PartType}
    (h : (c.resolvePart part).result = .ok found) : found.root.Inside c.graph := by
  rw [result_resolvePart] at h
  split at h
  · cases h
  · split at h
    · cases h
    · next entry hentry =>
      split at h
      · cases h
      · next id elementSpace hobject =>
        split at h
        · cases h
        · next space hspace =>
          have hinside : space ∈ c.graph.spaces := by
            rcases Option.or_eq_some_iff.1 hspace with hspace | ⟨_, hkey⟩
            · rcases Option.or_eq_some_iff.1 hspace with hown | ⟨_, hobject'⟩
              · exact space_of_partObject hentry hobject hown
              · exact TypeGraph.space_of_object hobject'
            · exact TypeGraph.space_of_key (key_of_lookup hentry) hkey
          split at h
          · obtain rfl := Except.ok.inj h
            exact ⟨⟨id, rfl⟩, fun s => TypeGraph.space_of_object⟩
          · obtain rfl := Except.ok.inj h
            refine ⟨⟨id, rfl⟩, fun s hs => ?_⟩
            obtain rfl := Option.some.inj (given?_eq_some.1 hs).1
            exact hinside

variable {path : String} {opened : List ObjectId}

def Known (c : Catalog) (members : List (String × Member TypeNode)) (site : TagSite) : Prop :=
  (site.key, site.member) ∈ members ∨ ∃ id, (site.key, site.member) ∈ (c.graph.object id).members

theorem Known.of_object {members : List (String × Member TypeNode)} {site : TagSite}
    {id : ObjectId} (h : c.Known (c.graph.object id).members site) : c.Known members site :=
  h.elim (fun hm => .inr ⟨id, hm⟩) .inr

theorem known_outlineContent {key : String} {m : Member TypeNode}
    (ih : ∀ id, (∃ bare, (c.contentOf key m.type).value = .object id bare) → id ∉ opened →
      ∀ site ∈ Markup.tagsAll (c.outlineMembers path (id :: opened) (c.graph.object id).members),
        c.Known (c.graph.object id).members site) :
    ∀ site ∈ Markup.tags (c.outlineContent path opened key m), c.Known [(key, m)] site := by
  have hown : ∀ notices, c.Known [(key, m)] ⟨key, m, notices⟩ := fun _ =>
    .inl List.mem_cons_self
  unfold outlineContent
  dsimp only
  split
  · simpa [Markup.tags] using hown _
  · next id bare hc =>
    split
    · simpa [Markup.tags, Markup.tagsAll] using hown _
    · next hid =>
      have hinner := ih id ⟨bare, hc⟩ hid
      have hall : ∀ site ∈ (⟨key, m, (c.contentOf key m.type).notices⟩ : TagSite) ::
          Markup.tagsAll (c.outlineMembers path (id :: opened) (c.graph.object id).members),
          c.Known [(key, m)] site :=
        List.forall_mem_cons.2 ⟨hown _, fun site hsite => (hinner site hsite).of_object⟩
      split
      · exact hall
      · exact hall

theorem known_outlineMembers (c : Catalog) (path : String) (opened : List ObjectId)
    (members : List (String × Member TypeNode)) :
    ∀ site ∈ Markup.tagsAll (c.outlineMembers path opened members), c.Known members site := by
  induction path, opened, members using outlineMembers.induct c with
  | case1 path opened => simp [Markup.tagsAll]
  | case2 path opened key m rest field inner ihInner ih =>
    have hcontent : ∀ site ∈ Markup.tags (c.outlineContent inner opened key m),
        c.Known [(key, m)] site := by
      refine known_outlineContent fun id hc hid => ?_
      obtain ⟨bare, hc⟩ := hc
      exact ihInner id bare (c.contentOf key m.type).notices (by rw [← hc]) hid
    have hmember : Markup.tags (c.outlineMember path opened key m) =
        Markup.tags (c.outlineContent inner opened key m) := by
      unfold outlineMember
      dsimp only [inner, field]
      split <;> rfl
    intro site hsite
    rw [outlineMembers_cons, Markup.tagsAll, hmember, List.mem_append] at hsite
    rcases hsite with hsite | hsite
    · exact (hcontent site hsite).imp_left fun hm =>
        List.mem_cons.2 (.inl (List.mem_singleton.1 hm))
    · exact (ih site hsite).imp_left (List.mem_cons_of_mem _)

theorem known_outline (c : Catalog) (path : String) (opened : List ObjectId) (o : ObjectNode) :
    ∀ site ∈ Markup.tagsAll (c.outline path opened o).2, c.Known o.members site := by
  induction opened, o using outline.induct c path with
  | case1 opened o notices h =>
    rw [outline_of_next_none (by simp [next?, h])]
    exact c.known_outlineMembers path opened o.members
  | case2 opened o payload notices h hopened =>
    rw [outline_of_next_none (by simp [next?, h, Option.filter, hopened])]
    exact c.known_outlineMembers path opened o.members
  | case3 opened o payload notices h hopened ih =>
    have hnext : c.next? o opened = some payload := by
      simp [next?, h, Option.filter, hopened]
    have hmembers := (spec_of_payload? (o := o) (p := payload) (by rw [h])).1
    rw [outline_of_next hnext]
    simp only [Markup.tagsAll, Markup.tags, List.append_nil]
    refine List.forall_mem_cons.2 ⟨.inl ?_, fun site hsite => (ih site hsite).of_object⟩
    rw [hmembers]
    exact List.mem_cons_self

end Catalog

namespace BodyPlan

theorem space_of_siteTag? {b : BodyPlan} {root : Root} (hroot : root.Inside b.catalog.graph)
    {propsField : Option String} {site : TagSite}
    (hsite : site ∈ Markup.tagsAll (b.content root propsField)) {space : String}
    (h : b.siteTag? site = some (.ofSpace space)) : space ∈ b.catalog.graph.spaces := by
  unfold siteTag? at h
  split at h
  · have htag := Option.some.inj h
    unfold TypeGraph.tagPrefix at htag
    split at htag
    · next found hfound =>
      obtain rfl := TagPrefix.ofSpace.inj htag
      rcases Option.or_eq_some_iff.1 hfound with hown | ⟨_, hinline⟩
      · obtain ⟨id, hid⟩ := hroot.members
        rcases b.catalog.known_outline _ _ _ site hsite with hm | ⟨other, hm⟩
        · exact TypeGraph.space_of_member (hid ▸ hm) hown
        · exact TypeGraph.space_of_member hm hown
      · cases htype : site.member.type with
        | object id =>
          rw [htype] at hinline
          exact TypeGraph.space_of_object hinline
        | primitive name =>
          rw [htype] at hinline
          cases hinline
        | reference pointer =>
          rw [htype] at hinline
          cases hinline
    · split at htag <;> cases htag
  · cases h

end BodyPlan

end SoapComponents
