import SoapComponents.Proofs.Markup.Account

/-!
One root with two plans. The texts are the same just when every tag in them has the same prefix,
and where one map says at least what the other does, that hangs on the tags without a namespace.
-/

set_option autoImplicit false

namespace SoapComponents

namespace Markup

variable {σ : Type}

theorem solid_eq_of_enclose_eq {tag s t : String} (h : enclose tag s = enclose tag t) :
    solid s = solid t := by
  have hsolid := congrArg solid h
  rw [solid_enclose, solid_enclose] at hsolid
  have hmiddle := List.append_cancel_right (List.append_cancel_left hsolid)
  by_cases hs : s = ""
  · by_cases ht : t = ""
    · rw [hs, ht]
    · simp [hs, ht] at hmiddle
  · by_cases ht : t = ""
    · simp [hs, ht] at hmiddle
    · simp only [hs, ht, if_false, List.cons_append, List.cons.injEq, true_and] at hmiddle
      exact List.append_cancel_right hmiddle

end Markup

namespace BodyPlan

variable {b b' : BodyPlan} {p : Prefixes}

def prefixOf (b : BodyPlan) (p : Prefixes) (site : TagSite) : String :=
  match b.siteTag? site with
  | some source => source.text p
  | none => unqualifiedPrefix

theorem tagName_eq (b : BodyPlan) (p : Prefixes) :
    b.tagName p = Markup.named (b.prefixOf p) fun site => Name.localPart site.key := rfl

theorem undotted_of_given (hp : p.Sound) {space r : String} (h : p.bySpace.value? space = some r) :
    Markup.Undotted r := by
  intro c hc
  have hstem := hp.plain h c hc
  constructor
  · rintro rfl
    exact absurd hstem (by decide)
  · rintro rfl
    exact absurd hstem (by decide)

theorem undotted_prefixOf (hb : b.spaces.Backed p) (hp : p.Sound) {site : TagSite}
    (hsettled : ∀ source, b.siteTag? site = some source → source.Settled p) :
    Markup.Undotted (b.prefixOf p site) := by
  unfold prefixOf
  split
  · next source hs =>
    obtain ⟨space, _, hr⟩ := given_text hb (.refl p) hs (hsettled source hs)
    exact undotted_of_given hp hr
  · intro c hc
    have hc : c ∈ ['x', 'm', 'l'] := hc
    simp only [List.mem_cons, List.not_mem_nil, or_false] at hc
    obtain rfl | rfl | rfl := hc <;> exact ⟨by decide, by decide⟩

theorem print_markup_eq_iff (hp : p.Sound) (hb : b.spaces.Backed p) (hb' : b'.spaces.Backed p)
    (hroot : b'.rootPrefix = b.rootPrefix) (htag : b'.rootTag = b.rootTag)
    {content : List (Markup TagSite)}
    (hsettled : ∀ site ∈ Markup.writtenAll content, ∀ source, b.siteTag? site = some source →
      source.Settled p)
    (hsettled' : ∀ site ∈ Markup.writtenAll content, ∀ source, b'.siteTag? site = some source →
      source.Settled p) :
    (b'.markup p content).print = (b.markup p content).print ↔
      ∀ site ∈ Markup.writtenAll content, b'.prefixOf p site = b.prefixOf p site := by
  simp only [markup, Markup.print, hroot, htag, tagName_eq]
  constructor
  · intro h
    have hsolid := Markup.solid_eq_of_enclose_eq h
    have hplain : ∀ site ∈ Markup.writtenAll content,
        Markup.Undotted (b'.prefixOf p site) ∧ Markup.Undotted (b.prefixOf p site) :=
      fun site hsite => ⟨undotted_prefixOf hb' hp (hsettled' site hsite),
        undotted_prefixOf hb hp (hsettled site hsite)⟩
    exact (Markup.printAll_cancel content hplain (congrArg (· ++ ([] : List Char)) hsolid)).1
  · intro h
    have hname : ∀ site ∈ Markup.writtenAll content,
        Markup.named (b'.prefixOf p) (fun site => Name.localPart site.key) site =
          Markup.named (b.prefixOf p) (fun site => Name.localPart site.key) site := by
      intro site hsite
      simp only [Markup.named, h site hsite]
    rw [Markup.printAll_mapAll_congr content hname]

def ownSpace? (g : TypeGraph) (m : Member TypeNode) : Option String :=
  (Name.given? m.space).or (Name.given? ((g.inline? m.type).bind (·.space)))

/-- A qualified tag that has no namespace, and whose name the map does not know. It has the prefix
of the root for want of anything else. -/
structure Homeless (b : BodyPlan) (site : TagSite) : Prop where
  qualified : b.catalog.graph.isQualified site.member = true
  unspaced : ownSpace? b.catalog.graph site.member = none
  unknown : b.spaces.types.value? site.key = none

theorem prefixOf_eq (b : BodyPlan) (p : Prefixes) (site : TagSite) :
    b.prefixOf p site =
      if b.catalog.graph.isQualified site.member then
        match ownSpace? b.catalog.graph site.member with
        | some space => (p.bySpace.value? space).getD ""
        | none => ((b.spaces.types.value? site.key).map (·.tagPrefix)).getD b.spaces.basePrefix
      else unqualifiedPrefix := by
  unfold prefixOf siteTag? TypeGraph.tagPrefix
  by_cases hq : b.catalog.graph.isQualified site.member = true
  · have hfold : (Name.given? site.member.space).or
        (Name.given? ((b.catalog.graph.inline? site.member.type).bind (·.space))) =
          ownSpace? b.catalog.graph site.member := rfl
    simp only [hq, if_true, hfold]
    cases ownSpace? b.catalog.graph site.member with
    | some space => rfl
    | none =>
      simp only [Option.getD_none]
      cases b.spaces.types.value? site.key with
      | some known => rfl
      | none => rfl
  · simp only [hq, if_false, Bool.false_eq_true]

theorem prefixOf_eq_iff (hcatalog : b'.catalog = b.catalog) (h : b.spaces.Extends b'.spaces)
    (site : TagSite) :
    b'.prefixOf p site = b.prefixOf p site ↔
      (b.Homeless site → ∀ bound, b'.spaces.types.value? site.key = some bound →
        bound.tagPrefix = b.spaces.basePrefix) := by
  rw [prefixOf_eq, prefixOf_eq, hcatalog]
  by_cases hq : b.catalog.graph.isQualified site.member = true
  · simp only [hq, if_true]
    cases hs : ownSpace? b.catalog.graph site.member with
    | some space =>
      refine iff_of_true rfl fun hhome => ?_
      simp [hhome.unspaced] at hs
    | none =>
      cases hk : b.spaces.types.value? site.key with
      | some known =>
        refine iff_of_true ?_ fun hhome => ?_
        · simp [h.types hk]
        · simp [hhome.unknown] at hk
      | none =>
        have hhome : b.Homeless site := ⟨hq, hs, hk⟩
        cases hn : b'.spaces.types.value? site.key with
        | none => simp [h.base]
        | some bound => simp [hhome]
  · simp only [hq, if_false, Bool.false_eq_true]
    exact iff_of_true trivial fun hhome => absurd hhome.qualified hq

/-- Wherever one plan can only fall back on the prefix of the root, the other says the same. -/
def Agrees (b b' : BodyPlan) (content : List (Markup TagSite)) : Prop :=
  ∀ site ∈ Markup.writtenAll content, b.Homeless site →
    ∀ bound, b'.spaces.types.value? site.key = some bound → bound.tagPrefix = b.spaces.basePrefix

theorem agrees_iff (hcatalog : b'.catalog = b.catalog) (h : b.spaces.Extends b'.spaces)
    (p : Prefixes) (content : List (Markup TagSite)) :
    b.Agrees b' content ↔
      ∀ site ∈ Markup.writtenAll content, b'.prefixOf p site = b.prefixOf p site :=
  forall₂_congr fun site _ => (prefixOf_eq_iff hcatalog h site).symm

theorem pair?_eq (b : BodyPlan) (p : Prefixes) (site : TagSite) :
    b.pair? p site =
      if b.catalog.graph.isQualified site.member then
        some (b.prefixOf p site, Name.localPart site.key)
      else none := by
  unfold pair? prefixOf siteTag?
  split <;> rfl

theorem emitted_congr (hcatalog : b'.catalog = b.catalog) (hroot : b'.rootPrefix = b.rootPrefix)
    (htag : b'.rootTag = b.rootTag) {content : List (Markup TagSite)}
    (h : ∀ site ∈ Markup.writtenAll content, b'.prefixOf p site = b.prefixOf p site) :
    b'.emitted p content = b.emitted p content := by
  have hpairs : (Markup.writtenAll content).filterMap (b'.pair? p) =
      (Markup.writtenAll content).filterMap (b.pair? p) := by
    apply List.filterMap_congr
    intro site hsite
    rw [pair?_eq, pair?_eq, hcatalog, h site hsite]
  rw [emitted, emitted, hroot, htag, hpairs]

/-- The body of a root after other maps were merged into its account: it has the text that it had
with the account alone just when the two agree, and then the merged map still has all its tags. -/
theorem Accounted.body_absorbed {c : Catalog} {policy : Prefix.Policy} {name : String}
    {own m : NamespaceMap} {root : Root} {r p : Prefixes}
    (h : (own.plan c policy name).Accounted root r) (hp : p.Sound)
    (hext : r.Extends p) (habsorbed : own.Absorbed m p) :
    let alone := own.plan c policy name
    let final := m.plan c policy name
    let content := final.content root none
    let q := (final.write root none).after p
    (((final.write root none).result p).1 = (alone.markup r content).print ↔
      alone.Agrees final content) ∧
    (alone.Agrees final content → ∀ e ∈ final.emitted q content,
      (startsLow e.2 = false → e ∈ m.pairs) ∧ ∃ space, m.spaces.value? e.1 = some space) := by
  intro alone final content q
  have honly := final.write_onlyAsks root none
  have hq : q.Sound := honly.sound hp
  have hlater : r.Extends q := hext.trans (honly.extends hp)
  have hbase : final.rootPrefix = alone.rootPrefix := habsorbed.grows.base
  have haccount : alone.Accounted root q := h.mono hlater
  obtain ⟨space, hspace⟩ := h.bound _ List.mem_cons_self
  obtain ⟨hne, hfound⟩ := h.backed.spaces hspace
  have hroot : p.bySpace.value? space = some final.rootPrefix := by
    rw [hbase]
    exact hext.bySpace hfound
  obtain ⟨hsettled, _, _⟩ := visited_spec (b := final) habsorbed.backed hp hne hroot root none
  have hfinal : ∀ site ∈ Markup.writtenAll content, ∀ source, final.siteTag? site = some source →
      source.Settled q :=
    fun site hsite => hsettled site ((Markup.mem_tagsAll _).2 (.inl hsite))
  have halone : (alone.markup q content).print = (alone.markup r content).print :=
    print_markup_eq hlater rfl rfl h.settled_written fun _ _ => rfl
  have hagrees : alone.Agrees final content ↔
      ∀ site ∈ Markup.writtenAll content, final.prefixOf q site = alone.prefixOf q site :=
    @agrees_iff alone final rfl habsorbed.grows q content
  constructor
  · rw [hagrees, ← halone]
    exact print_markup_eq_iff hq haccount.backed (habsorbed.backed.mono (honly.extends hp)) hbase
      rfl haccount.settled_written hfinal
  · intro hagree e he
    have hsame : final.emitted q content = alone.emitted q content :=
      @emitted_congr alone final q rfl hbase rfl content (hagrees.1 hagree)
    rw [hsame] at he
    obtain ⟨bound, hbound⟩ := haccount.bound e he
    refine ⟨?_, bound, habsorbed.grows.spaces hbound⟩
    intro hlow
    exact habsorbed.pairs e ((haccount.mem_pairs e).2 ⟨hlow, .inl he⟩)

end BodyPlan

end SoapComponents
