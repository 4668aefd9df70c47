import SoapComponents.Proofs.Markup.Written
import SoapComponents.Proofs.Prefix.NamespaceMap

/-!
What writing a body does: which prefixes it asks for, which tags it notes, and why the same body
written later in the run has the same text.
-/

set_option autoImplicit false

namespace SoapComponents

open Assigning

namespace TagPrefix

/-- The prefix is known, or its namespace has been asked for. -/
def Settled (p : Prefixes) : TagPrefix → Prop
  | ofSpace space => ∃ r, p.bySpace.value? space = some r
  | known _ => True

theorem Settled.mono {p q : Prefixes} {source : TagPrefix} (h : source.Settled p)
    (hpq : p.Extends q) : source.Settled q := by
  cases source with
  | ofSpace space =>
    obtain ⟨r, hr⟩ := h
    exact ⟨r, hpq.bySpace hr⟩
  | known r => trivial

theorem text_of_extends {p q : Prefixes} {source : TagPrefix} (h : source.Settled p)
    (hpq : p.Extends q) : source.text q = source.text p := by
  cases source with
  | ofSpace space =>
    obtain ⟨r, hr⟩ := h
    simp [text, hr, hpq.bySpace hr]
  | known r => rfl

theorem assign_onlyAsks (policy : Prefix.Policy) (source : TagPrefix) :
    (source.assign policy).OnlyAsks := by
  cases source with
  | ofSpace space => exact .prefixFor policy space
  | known r => exact .pure r

theorem assign_spec {p : Prefixes} (h : p.Sound) (policy : Prefix.Policy) (source : TagPrefix) :
    source.Settled ((source.assign policy).after p) ∧
      (source.assign policy).result p = source.text ((source.assign policy).after p) := by
  cases source with
  | ofSpace space =>
    have hs := (Prefixes.prefixFor_spec h policy space).2.2
    refine ⟨⟨_, hs⟩, ?_⟩
    show (p.prefixFor policy space).value.1 =
      ((p.prefixFor policy space).value.2.bySpace.value? space).getD ""
    rw [hs, Option.getD_some]
  | known r => exact ⟨trivial, rfl⟩

end TagPrefix

theorem given?_eq_some {s : Option String} {t : String} :
    Name.given? s = some t ↔ s = some t ∧ t ≠ "" := by
  simp [Name.given?, Option.filter_eq_some_iff]

namespace BodyPlan

variable {b : BodyPlan} {p : Prefixes}

theorem siteTag?_cases {site : TagSite} {source : TagPrefix} (hb : b.spaces.Backed p)
    (h : b.siteTag? site = some source) :
    (∃ space, space ≠ "" ∧ source = .ofSpace space) ∨
      (∃ r space, space ≠ "" ∧ p.bySpace.value? space = some r ∧ source = .known r) := by
  unfold siteTag? at h
  split at h
  · obtain rfl := Option.some.inj h
    unfold TypeGraph.tagPrefix
    split
    · next space hs =>
      refine .inl ⟨space, ?_, rfl⟩
      rcases Option.or_eq_some_iff.1 hs with hs | ⟨_, hs⟩
      · exact (given?_eq_some.1 hs).2
      · exact (given?_eq_some.1 hs).2
    · split
      · next bound hk => exact .inr ⟨_, _, (hb.types hk).1, (hb.types hk).2, rfl⟩
      · obtain ⟨space, hne, hs⟩ := hb.base
        exact .inr ⟨_, space, hne, hs, rfl⟩
  · simp at h

theorem siteTag?_own {site : TagSite} {source : TagPrefix} {own : String}
    (hown : Name.given? site.member.space = some own) (h : b.siteTag? site = some source) :
    source = .ofSpace own := by
  unfold siteTag? at h
  split at h
  · obtain rfl := Option.some.inj h
    simp [TypeGraph.tagPrefix, hown]
  · simp at h

theorem given_text {q : Prefixes} {site : TagSite} {source : TagPrefix}
    (hb : b.spaces.Backed p) (hpq : p.Extends q) (h : b.siteTag? site = some source)
    (hs : source.Settled q) :
    ∃ space, space ≠ "" ∧ q.bySpace.value? space = some (source.text q) := by
  rcases siteTag?_cases hb h with ⟨space, hne, rfl⟩ | ⟨r, space, hne, hr, rfl⟩
  · obtain ⟨r, hr⟩ := hs
    exact ⟨space, hne, by simp [TagPrefix.text, hr]⟩
  · exact ⟨space, hne, hpq.bySpace hr⟩

end BodyPlan

namespace Usage

theorem mem_pairs_record {u : Usage} {tag r : String} {space : Option String}
    {e : String × String} :
    e ∈ (u.record tag r space).pairs ↔ e = (r, tag) ∨ e ∈ u.pairs := by
  unfold record
  split
  · next hm =>
    constructor
    · exact .inr
    · rintro (rfl | he)
      · exact hm
      · exact he
  · rw [List.mem_append, List.mem_singleton]
    exact or_comm

/-- Every prefix with a tag has a namespace, and that is its namespace in the run. -/
structure Bound (u : Usage) (p : Prefixes) : Prop where
  held : ∀ {e}, e ∈ u.pairs → ∃ space, u.spaces.value? e.1 = some space
  backed : ∀ {r space}, u.spaces.value? r = some space →
    space ≠ "" ∧ p.bySpace.value? space = some r

theorem bound_empty (p : Prefixes) : Bound {} p := ⟨by simp, by simp [Table.value?]⟩

theorem Bound.mono {u : Usage} {p q : Prefixes} (h : u.Bound p) (hpq : p.Extends q) : u.Bound q :=
  ⟨h.held, fun hr => ⟨(h.backed hr).1, hpq.bySpace (h.backed hr).2⟩⟩

theorem Bound.record {u : Usage} {p : Prefixes} (h : u.Bound p) {r space : String}
    (hne : space ≠ "") (hr : p.bySpace.value? space = some r) (tag : String) :
    (u.record tag r (some space)).Bound p := by
  have hspaces : (u.record tag r (some space)).spaces = u.spaces.putNew r space := by
    simp [Usage.record, Option.filter, hne]
  constructor
  · intro e he
    rw [hspaces, Table.value?_putNew]
    rcases mem_pairs_record.1 he with rfl | he
    · cases hv : u.spaces.value? r with
      | none => exact ⟨space, by simp⟩
      | some old => exact ⟨old, rfl⟩
    · obtain ⟨s, hs⟩ := h.held he
      exact ⟨s, by simp [hs]⟩
  · intro q s hq
    rw [hspaces, Table.value?_putNew] at hq
    rcases Option.or_eq_some_iff.1 hq with hq | ⟨_, hq⟩
    · exact h.backed hq
    · split at hq
      · next heq =>
        obtain rfl := Option.some.inj hq
        exact ⟨hne, heq ▸ hr⟩
      · simp at hq

end Usage

namespace BodyPlan

variable {b : BodyPlan} {p : Prefixes}

def pair? (b : BodyPlan) (p : Prefixes) (site : TagSite) : Option (String × String) :=
  (b.siteTag? site).map fun source => (source.text p, Name.localPart site.key)

theorem record_onlyAsks (b : BodyPlan) (tag r : String) (u : Usage) :
    (b.record tag r u).OnlyAsks := .of_after_eq fun _ => rfl

theorem visit_onlyAsks (b : BodyPlan) (u : Usage) (site : TagSite) : (b.visit u site).OnlyAsks := by
  unfold visit
  split
  · next source _ =>
    exact .bind (source.assign_onlyAsks b.policy) fun r =>
      .bind (b.record_onlyAsks _ r u) fun _ => .of_after_eq fun _ => rfl
  · exact .of_after_eq fun _ => rfl

theorem result_visit_none {site : TagSite} (h : b.siteTag? site = none) (u : Usage) :
    (b.visit u site).result p = u ∧ (b.visit u site).after p = p := by
  simp [visit, h]

theorem result_visit_some {site : TagSite} {source : TagPrefix} (h : b.siteTag? site = some source)
    (u : Usage) :
    (b.visit u site).after p = (source.assign b.policy).after p ∧
      (b.visit u site).result p =
        (b.record (Name.localPart site.key) ((source.assign b.policy).result p) u).result
          ((source.assign b.policy).after p) := by
  simp only [visit, h]
  exact ⟨rfl, rfl⟩

theorem result_record {r space : String} (hb : b.spaces.Backed p) (hp : p.Sound)
    (hr : p.bySpace.value? space = some r) (tag : String) (u : Usage) :
    (b.record tag r u).result p = u.record tag r (some space) := by
  show u.record tag r ((Name.given? (b.spaces.spaces.value? r)).or (p.byPrefix.value? r)) = _
  cases hv : Name.given? (b.spaces.spaces.value? r) with
  | none => rw [Option.none_or, hp.back hr]
  | some s =>
    have hs := (hb.spaces (given?_eq_some.1 hv).1).2
    rw [Option.some_or, hp.space_unique hs hr]

theorem visit_spec (hb : b.spaces.Backed p) (hp : p.Sound) {u : Usage} (hu : u.Bound p)
    (site : TagSite) :
    (∀ source, b.siteTag? site = some source → source.Settled ((b.visit u site).after p)) ∧
      (∀ e, e ∈ ((b.visit u site).result p).pairs ↔
        b.pair? ((b.visit u site).after p) site = some e ∨ e ∈ u.pairs) ∧
      ((b.visit u site).result p).Bound ((b.visit u site).after p) := by
  have hext := (b.visit_onlyAsks u site).extends hp
  cases hs : b.siteTag? site with
  | none =>
    obtain ⟨hresult, hafter⟩ := b.result_visit_none (p := p) hs u
    rw [hresult, hafter]
    exact ⟨by simp, by simp [pair?, hs], hu⟩
  | some source =>
    obtain ⟨hafter, hresult⟩ := b.result_visit_some (p := p) hs u
    rw [hafter] at hext ⊢
    obtain ⟨hsettled, htext⟩ := source.assign_spec hp b.policy
    have hsound := (source.assign_onlyAsks b.policy).sound hp
    obtain ⟨space, hne, hr⟩ := given_text hb hext hs hsettled
    rw [hresult, htext, result_record (hb.mono hext) hsound hr]
    refine ⟨?_, ?_, (hu.mono hext).record hne hr _⟩
    · intro other ho
      obtain rfl := Option.some.inj ho
      exact hsettled
    · intro e
      rw [Usage.mem_pairs_record, pair?, hs, Option.map_some, Option.some.injEq]
      exact or_congr eq_comm Iff.rfl

/-- After all tags are visited, each has its prefix for good, and the tags noted are those that
were noted before and the qualified ones that were visited. -/
theorem visits_spec (sites : List TagSite) (hb : b.spaces.Backed p) (hp : p.Sound) {u : Usage}
    (hu : u.Bound p) :
    (∀ site ∈ sites, ∀ source, b.siteTag? site = some source →
      source.Settled ((sites.foldlM b.visit u).after p)) ∧
      (∀ e, e ∈ ((sites.foldlM b.visit u).result p).pairs ↔
        (∃ site ∈ sites, b.pair? ((sites.foldlM b.visit u).after p) site = some e) ∨ e ∈ u.pairs) ∧
      ((sites.foldlM b.visit u).result p).Bound ((sites.foldlM b.visit u).after p) := by
  induction sites generalizing u p with
  | nil => exact ⟨by simp, by simp, hu⟩
  | cons site rest ih =>
    obtain ⟨hsettled, hpairs, hbound⟩ := visit_spec hb hp hu site
    have hext := (b.visit_onlyAsks u site).extends hp
    have hsound := (b.visit_onlyAsks u site).sound hp
    obtain ⟨hsettled', hpairs', hbound'⟩ := ih (hb.mono hext) hsound hbound
    have hext' := (OnlyAsks.foldlM b.visit_onlyAsks rest ((b.visit u site).result p)).extends hsound
    have hpair : b.pair? ((b.visit u site).after p) site =
        b.pair? ((rest.foldlM b.visit ((b.visit u site).result p)).after
          ((b.visit u site).after p)) site := by
      cases hs : b.siteTag? site with
      | none => simp [pair?, hs]
      | some source => simp [pair?, hs, TagPrefix.text_of_extends (hsettled source hs) hext']
    simp only [List.foldlM_cons, result_bind, after_bind]
    refine ⟨?_, ?_, hbound'⟩
    · intro t ht source hs
      rcases List.mem_cons.1 ht with rfl | ht
      · exact (hsettled source hs).mono hext'
      · exact hsettled' t ht source hs
    · intro e
      rw [hpairs', hpairs, hpair, List.exists_mem_cons_iff]
      exact or_left_comm.trans or_assoc.symm

/-- The markup inside the root, before its tags have prefixes. -/
def content (b : BodyPlan) (root : Root) (propsField : Option String) : List (Markup TagSite) :=
  (b.catalog.outline (basePath propsField) root.visited root.node).2

/-- The tags noted after all sites of the body are visited. -/
def visited (b : BodyPlan) (root : Root) (propsField : Option String) : Assigning Usage := do
  let u ← b.record b.rootTag b.rootPrefix {}
  (Markup.tagsAll (b.content root propsField)).foldlM b.visit u

theorem result_write (b : BodyPlan) (root : Root) (propsField : Option String) (p : Prefixes) :
    (b.write root propsField).result p =
      ((b.markup ((b.write root propsField).after p) (b.content root propsField)).print,
        (b.visited root propsField).result p) := rfl

theorem visited_onlyAsks (b : BodyPlan) (root : Root) (propsField : Option String) :
    (b.visited root propsField).OnlyAsks :=
  .bind (b.record_onlyAsks _ _ _) fun u => .foldlM b.visit_onlyAsks _ u

theorem write_onlyAsks (b : BodyPlan) (root : Root) (propsField : Option String) :
    (b.write root propsField).OnlyAsks := b.visited_onlyAsks root propsField

theorem visited_spec (hb : b.spaces.Backed p) (hp : p.Sound) {space : String} (hne : space ≠ "")
    (hroot : p.bySpace.value? space = some b.rootPrefix) (root : Root)
    (propsField : Option String) :
    let q := (b.visited root propsField).after p
    let u := (b.visited root propsField).result p
    let sites := Markup.tagsAll (b.content root propsField)
    (∀ site ∈ sites, ∀ source, b.siteTag? site = some source → source.Settled q) ∧
      (∀ e, e ∈ u.pairs ↔ e = (b.rootPrefix, b.rootTag) ∨ ∃ site ∈ sites, b.pair? q site = some e) ∧
      u.Bound q := by
  intro q u sites
  have hstart := (Usage.bound_empty p).record hne hroot b.rootTag
  rw [← result_record hb hp hroot] at hstart
  obtain ⟨hsettled, hpairs, hbound⟩ := visits_spec sites hb hp hstart
  refine ⟨hsettled, ?_, hbound⟩
  intro e
  have hrecord : e ∈ ((b.record b.rootTag b.rootPrefix {}).result p).pairs ↔
      e = (b.rootPrefix, b.rootTag) := by
    rw [result_record hb hp hroot, Usage.mem_pairs_record]
    simp
  have he := hpairs e
  rw [hrecord] at he
  exact he.trans or_comm

/-- The text stays the same while more prefixes are given out, and under every plan that takes
the prefixes of the written tags from the same places. -/
theorem print_markup_eq {b b' : BodyPlan} {q q' : Prefixes} (hext : q.Extends q')
    (hroot : b'.rootPrefix = b.rootPrefix) (htag : b'.rootTag = b.rootTag)
    {content : List (Markup TagSite)}
    (hsettled : ∀ site ∈ Markup.writtenAll content, ∀ source, b.siteTag? site = some source →
      source.Settled q)
    (hsame : ∀ site ∈ Markup.writtenAll content, b'.siteTag? site = b.siteTag? site) :
    (b'.markup q' content).print = (b.markup q content).print := by
  have hname : ∀ site ∈ Markup.writtenAll content, b'.tagName q' site = b.tagName q site := by
    intro site hsite
    unfold tagName
    rw [hsame site hsite]
    cases hs : b.siteTag? site with
    | none => rfl
    | some source => simp [TagPrefix.text_of_extends (hsettled site hsite source hs) hext]
  simp only [markup, Markup.print, hroot, htag, Markup.printAll_mapAll_congr content hname]

end BodyPlan

end SoapComponents
