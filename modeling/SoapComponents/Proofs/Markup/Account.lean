import SoapComponents.Proofs.Markup.Outline
import SoapComponents.Proofs.Markup.Usage
import SoapComponents.Proofs.Outcome

/-!
The namespaces of a root against the body that is written with them. The account always comes to
an end, it binds every prefix that the body uses, and the body written with it has the text that it
was made from. It lists the tags of that body, and with them those of unwrapped payloads, which
the body leaves out.
-/

set_option autoImplicit false

namespace SoapComponents

open Assigning

namespace TypeGraph

/-- What holds of all namespaces that the pending members come with, and of those that members and
objects say, holds of the namespaces of all declarations. -/
theorem declaredTags_forall (g : TypeGraph) {P : String → Prop}
    (hmembers : ∀ id, ∀ e ∈ (g.object id).members, ∀ s, Name.given? e.2.space = some s → P s)
    (hobjects : ∀ id s, Name.given? (g.object id).space = some s → P s) (visited : List ObjectId)
    (pending : List (String × Member TypeNode × String))
    (h : ∀ e ∈ pending, P e.2.2 ∧ ∀ s, Name.given? e.2.1.space = some s → P s) :
    ∀ tag ∈ g.declaredTags visited pending, P tag.space := by
  have hgiven : ∀ {s : Option String} {outer : String}, P outer →
      (∀ t, Name.given? s = some t → P t) → P ((Name.given? s).getD outer) := by
    intro s outer ho hs
    cases hg : Name.given? s with
    | none => exact ho
    | some space => exact hs space hg
  induction visited, pending using TypeGraph.declaredTags.induct g with
  | case1 visited => simp [declaredTags]
  | case2 visited key m outer rest space ih ihInner =>
    have hrest := ih fun e he => h e (List.mem_cons_of_mem _ he)
    obtain ⟨houter, hown⟩ := h _ List.mem_cons_self
    have hspace : P space := hgiven houter hown
    rw [declaredTags]
    refine List.forall_mem_cons.2 ⟨hspace, ?_⟩
    split
    · next id htype =>
      split
      · exact hrest
      · next hm =>
        split
        · exact hrest
        · next hid =>
          refine ihInner id hm hid ?_
          intro e he
          rcases List.mem_append.1 he with he | he
          · obtain ⟨⟨k, n⟩, hn, rfl⟩ := List.mem_map.1 he
            exact ⟨hgiven hspace (hobjects id), hmembers id _ hn⟩
          · exact h e (List.mem_cons_of_mem _ he)
    · exact hrest

theorem space_of_declaredTags (g : TypeGraph) (visited : List ObjectId)
    (pending : List (String × Member TypeNode × String)) (h : ∀ e ∈ pending, e.2.2 ≠ "") :
    ∀ tag ∈ g.declaredTags visited pending, tag.space ≠ "" := by
  have hgiven : ∀ {s : Option String} (t : String), Name.given? s = some t → t ≠ "" :=
    fun _ ht => (given?_eq_some.1 ht).2
  exact g.declaredTags_forall (fun _ _ _ => hgiven) (fun _ => hgiven) visited pending
    fun e he => ⟨h e he, hgiven⟩

theorem space_of_rootTags (g : TypeGraph) (root : Root) {space : String} (h : space ≠ "") :
    ∀ tag ∈ g.rootTags root space, tag.space ≠ "" := by
  refine space_of_declaredTags g _ _ ?_
  intro e he
  obtain ⟨⟨k, m⟩, _, rfl⟩ := List.mem_map.1 he
  exact h

end TypeGraph

namespace NamespaceMap

variable {m n : NamespaceMap} {p : Prefixes} {policy : Prefix.Policy}

theorem Backed.addTag (h : m.Backed p) (r tag : String) : (m.addTag r tag).Backed p :=
  ⟨h.spaces, h.types, h.base⟩

theorem extends_addTag (m : NamespaceMap) (r tag : String) : m.Extends (m.addTag r tag) :=
  ⟨id, id, rfl⟩

/-- The map with the name of a declaration under a prefix. -/
def typed (m : NamespaceMap) (tag : DeclaredTag) (r : String) : NamespaceMap :=
  { m with types := m.types.putNew tag.key ⟨tag.space, r⟩ }

theorem extends_typed (m : NamespaceMap) (tag : DeclaredTag) (r : String) :
    m.Extends (m.typed tag r) := by
  refine ⟨id, ?_, rfl⟩
  intro key bound hk
  simp only [typed, Table.value?_putNew, hk, Option.some_or]

theorem Backed.typed (h : m.Backed p) {tag : DeclaredTag} {r : String} (hne : tag.space ≠ "")
    (hr : p.bySpace.value? tag.space = some r) : (m.typed tag r).Backed p := by
  refine ⟨h.spaces, ?_, h.base⟩
  intro key bound hk
  simp only [NamespaceMap.typed, Table.value?_putNew] at hk
  rcases Option.or_eq_some_iff.1 hk with hk | ⟨_, hk⟩
  · exact h.types hk
  · split at hk
    · obtain rfl := Option.some.inj hk
      exact ⟨hne, hr⟩
    · simp at hk

theorem result_carried (x : Except Failure NamespaceMap) (f : NamespaceMap → NamespaceMap)
    (p : Prefixes) :
    (match x with
      | .ok m => Pure.pure (f m)
      | .error failure => throw failure : Naming NamespaceMap).result p = x.map f := by
  cases x <;> rfl

theorem after_carried (x : Except Failure NamespaceMap) (f : NamespaceMap → NamespaceMap)
    (p : Prefixes) :
    (match x with
      | .ok m => Pure.pure (f m)
      | .error failure => throw failure : Naming NamespaceMap).after p = p := by
  cases x <;> rfl

theorem after_declare (policy : Prefix.Policy) (m : NamespaceMap) (tag : DeclaredTag)
    (p : Prefixes) :
    (declare policy m tag).after p = (p.prefixFor policy tag.space).value.2 := by
  unfold declare
  rw [Naming.after_bind]
  show (ite _ _ _ : Naming NamespaceMap).after _ = _
  split
  · split <;> rfl
  · rfl

theorem result_declare (policy : Prefix.Policy) (m : NamespaceMap) (tag : DeclaredTag)
    (p : Prefixes) :
    (declare policy m tag).result p =
      let r := (p.prefixFor policy tag.space).value.1
      if tag.qualified then
        ((m.typed tag r).register r tag.space).map (·.addTag r (Name.localPart tag.key))
      else .ok (m.typed tag r) := by
  unfold declare
  rw [Naming.result_bind]
  let r := (p.prefixFor policy tag.space).value.1
  show (ite _ _ _ : Naming NamespaceMap).result _ = ite _ _ _
  split
  · exact result_carried ((m.typed tag r).register r tag.space)
      (·.addTag r (Name.localPart tag.key)) _
  · rfl

theorem declare_cases {tag : DeclaredTag} (h : (declare policy m tag).result p = .ok n) :
    ∃ r, n = m.typed tag r ∨ ∃ o, (m.typed tag r).register r tag.space = .ok o ∧
      n = o.addTag r (Name.localPart tag.key) := by
  rw [result_declare] at h
  refine ⟨(p.prefixFor policy tag.space).value.1, ?_⟩
  dsimp only at h
  split at h
  · obtain ⟨o, hregister, hadded⟩ := eq_ok_of_map h
    exact .inr ⟨o, hregister, hadded.symm⟩
  · exact .inl (Except.ok.inj h).symm

theorem declare_spec (hm : m.Backed p) (hp : p.Sound) (policy : Prefix.Policy) {tag : DeclaredTag}
    (hne : tag.space ≠ "") :
    ∃ n, (declare policy m tag).result p = .ok n ∧ m.Extends n ∧
      n.Backed ((declare policy m tag).after p) := by
  obtain ⟨hsound, hext, hfound⟩ := Prefixes.prefixFor_spec hp policy tag.space
  have htyped := (hm.mono hext).typed hne hfound
  rw [result_declare, after_declare]
  simp only
  split
  · obtain ⟨n, hn, hback, hgrown⟩ := htyped.register hsound hne hfound
    rw [hn]
    exact ⟨_, rfl, ((extends_typed m tag _).trans hgrown).trans (extends_addTag n _ _),
      hback.addTag _ _⟩
  · exact ⟨_, rfl, extends_typed m tag _, htyped⟩

theorem declares_spec (tags : List DeclaredTag) (hm : m.Backed p) (hp : p.Sound)
    (policy : Prefix.Policy) (hne : ∀ tag ∈ tags, tag.space ≠ "") :
    let x := tags.foldlM (declare policy) m
    ∃ n, x.result p = .ok n ∧ m.Extends n ∧ n.Backed (x.after p) ∧ (x.after p).Sound ∧
      p.Extends (x.after p) := by
  induction tags generalizing m p with
  | nil => exact ⟨m, rfl, .refl m, hm, hp, .refl p⟩
  | cons tag rest ih =>
    obtain ⟨n, hn, hgrown, hback⟩ := declare_spec hm hp policy (hne tag (by simp))
    obtain ⟨hsound, hext, _⟩ := Prefixes.prefixFor_spec hp policy tag.space
    rw [← after_declare policy m tag] at hsound hext
    obtain ⟨o, ho, hgrown', hback', hsound', hext'⟩ :=
      ih hback hsound fun t ht => hne t (List.mem_cons_of_mem _ ht)
    simp only [List.foldlM_cons, Naming.result_bind, Naming.after_bind, hn]
    exact ⟨o, ho, hgrown.trans hgrown', hback', hsound', hext.trans hext'⟩

theorem declared_spec (c : Catalog) (policy : Prefix.Policy) (name : String) {root : Root}
    {space : String} (hspace : Name.given? root.node.space = some space) (hp : p.Sound) :
    let x := declared c policy name root
    ∃ d, x.result p = .ok d ∧ d.spaces.value? d.basePrefix = some space ∧ d.Backed (x.after p) ∧
      (x.after p).Sound ∧ p.Extends (x.after p) := by
  obtain ⟨hsound, hext, hfound⟩ := Prefixes.prefixFor_spec hp policy space
  have hne := (given?_eq_some.1 hspace).2
  let r := (p.prefixFor policy space).value.1
  let start : NamespaceMap := { basePrefix := r, spaces := [(r, space)] }
  have hstart : start.Backed (p.prefixFor policy space).value.2 := by
    refine ⟨?_, by simp [start, Table.value?], ⟨space, hne, hfound⟩⟩
    intro q s hq
    simp only [start, Table.value?] at hq
    split at hq
    · next heq =>
      obtain rfl := Option.some.inj hq
      exact ⟨hne, heq ▸ hfound⟩
    · simp at hq
  obtain ⟨d, hd, hgrown, hback, hsound', hext'⟩ := declares_spec (c.graph.rootTags root space)
    (hstart.addTag r (Name.localPart name)) hsound policy (c.graph.space_of_rootTags root hne)
  have hbase : start.spaces.value? start.basePrefix = some space := by simp [start, Table.value?]
  have hbound := hgrown.spaces hbase
  simp only [declared, hspace, Naming.result_bind, Naming.after_bind, Naming.result_assigning,
    Naming.after_assigning]
  refine ⟨d, hd, ?_, hback, hsound', hext.trans hext'⟩
  rw [hgrown.base]
  exact hbound

def spaceOf? (tags : List DeclaredTag) (key : String) : Option String :=
  (tags.find? fun tag => tag.key == key).map (·.space)

theorem spaceOf?_cons (tag : DeclaredTag) (rest : List DeclaredTag) (key : String) :
    spaceOf? (tag :: rest) key = if tag.key = key then some tag.space else spaceOf? rest key := by
  unfold spaceOf?
  rw [List.find?_cons]
  by_cases h : tag.key = key
  · simp [h]
  · simp [h, beq_false_of_ne h]

theorem types_declare {tag : DeclaredTag} {key : String}
    (h : (declare policy m tag).result p = .ok n) :
    (n.types.value? key).map (·.space) =
      ((m.types.value? key).map (·.space)).or (if tag.key = key then some tag.space else none) := by
  have htyped : ∀ r, ((m.typed tag r).types.value? key).map (·.space) =
      ((m.types.value? key).map (·.space)).or
        (if tag.key = key then some tag.space else none) := by
    intro r
    simp only [typed, Table.value?_putNew]
    cases m.types.value? key with
    | some bound => rfl
    | none =>
      by_cases hk : tag.key = key
      · simp [hk]
      · simp [hk, Ne.symm hk]
  obtain ⟨r, rfl | ⟨o, hregister, rfl⟩⟩ := declare_cases h
  · exact htyped r
  · rw [← htyped r, ← types_register hregister]
    rfl

theorem types_declares {tags : List DeclaredTag} {key : String}
    (h : (tags.foldlM (declare policy) m).result p = .ok n) :
    (n.types.value? key).map (·.space) =
      ((m.types.value? key).map (·.space)).or (spaceOf? tags key) := by
  induction tags generalizing m p with
  | nil =>
    obtain rfl := Except.ok.inj h
    cases (m.types.value? key).map (·.space) <;> rfl
  | cons tag rest ih =>
    rw [List.foldlM_cons] at h
    obtain ⟨o, ho, hrest⟩ := Naming.result_bind_eq_ok h
    rw [ih hrest, types_declare ho, spaceOf?_cons, Option.or_assoc]
    split <;> rfl

theorem types_declared {c : Catalog} {policy : Prefix.Policy} {name : String} {root : Root}
    {space : String} {d : NamespaceMap} (hspace : Name.given? root.node.space = some space)
    (h : (declared c policy name root).result p = .ok d) (key : String) :
    (d.types.value? key).map (·.space) = spaceOf? (c.graph.rootTags root space) key := by
  simp only [declared, hspace, Naming.result_bind, Naming.result_assigning] at h
  rw [types_declares h]
  rfl

def settledMap (m : NamespaceMap) (u : Usage) : NamespaceMap :=
  let listing := (listed u).foldl (fun m e => m.addTag e.1 e.2) { m with tags := [] }
  { listing with spaces := Table.putAllNew listing.spaces u.spaces }

section Settled

variable {u : Usage}

theorem spaces_settledMap (m : NamespaceMap) (u : Usage) (r : String) :
    (m.settledMap u).spaces.value? r = (m.spaces.value? r).or (u.spaces.value? r) := by
  have hkeep := (foldl_addTag_keeps (listed u) { m with tags := [] }).1
  simp only [settledMap, Table.value?_putAllNew, hkeep]

theorem types_settledMap (m : NamespaceMap) (u : Usage) : (m.settledMap u).types = m.types :=
  (foldl_addTag_keeps (listed u) { m with tags := [] }).2.1

theorem extends_settledMap (m : NamespaceMap) (u : Usage) : m.Extends (m.settledMap u) := by
  refine ⟨?_, ?_, (foldl_addTag_keeps (listed u) { m with tags := [] }).2.2⟩
  · intro r space hr
    rw [spaces_settledMap, hr, Option.some_or]
  · intro key bound hk
    rw [types_settledMap]
    exact hk

theorem wellListed_settledMap (m : NamespaceMap) (u : Usage) : (m.settledMap u).WellListed := by
  have hnil : ({ m with tags := [] } : NamespaceMap).WellListed := wellListed_of_tags_nil rfl
  have h := hnil.foldl_addTag (listed u)
  exact ⟨h.proper, h.nodup⟩

theorem mem_pairs_settledMap (m : NamespaceMap) (u : Usage) (e : String × String) :
    e ∈ (m.settledMap u).pairs ↔ e ∈ listed u := by
  have hnil : ({ m with tags := [] } : NamespaceMap).WellListed := wellListed_of_tags_nil rfl
  have h := @mem_pairs_foldl_addTag _ hnil (listed u) e
  rw [show ({ m with tags := [] } : NamespaceMap).pairs = [] from rfl] at h
  exact h.trans (or_iff_left List.not_mem_nil)

theorem Backed.settledMap (hm : m.Backed p) (hu : u.Bound p) : (m.settledMap u).Backed p := by
  have hkeep := extends_settledMap m u
  refine ⟨?_, ?_, ?_⟩
  · intro r space hr
    rw [spaces_settledMap] at hr
    rcases Option.or_eq_some_iff.1 hr with hr | ⟨_, hr⟩
    · exact hm.spaces hr
    · exact hu.backed hr
  · intro key bound hk
    rw [types_settledMap] at hk
    exact hm.types hk
  · rw [hkeep.base]
    exact hm.base

theorem holds_settledMap (m : NamespaceMap) (hu : u.Bound p) :
    ∀ r ∈ (m.settledMap u).tags.keys, (m.settledMap u).spaces.holds r = true := by
  intro r hr
  have hused : r ∈ (listed u).map Prod.fst := by
    rcases mem_keys_foldl_addTag hr with hr | hr
    · exact hr
    · simp [Table.keys] at hr
  obtain ⟨e, he, rfl⟩ := List.mem_map.1 hused
  obtain ⟨space, hs⟩ := hu.held (List.mem_of_mem_filter he)
  rw [Table.holds, spaces_settledMap, hs]
  cases m.spaces.value? e.1 <;> rfl

theorem settled_spec (m : NamespaceMap) (hu : u.Bound p) :
    (m.settled u).result p = .ok (m.settledMap u) ∧ (m.settled u).after p = p := by
  have hbind := bindAll_of_holds (p := p) (m.holds_settledMap hu)
  have hresult : (m.settled u).result p =
      bindAll p (m.settledMap u) (m.settledMap u).tags.keys := by
    unfold settled
    simp only [Naming.result_bind]
    exact (result_carried _ id p).trans (congrFun Except.map_id _)
  have hafter : (m.settled u).after p = p := by
    unfold settled
    simp only [Naming.after_bind]
    exact after_carried _ id p
  exact ⟨hresult.trans hbind, hafter⟩

end Settled

theorem observed_spec (hm : m.Backed p) (hp : p.Sound) {space : String} (hne : space ≠ "")
    (hroot : m.spaces.value? m.basePrefix = some space) (c : Catalog) (policy : Prefix.Policy)
    (name : String) (root : Root) :
    let b := m.plan c policy name
    let q := (m.observed c policy name root).after p
    let u := (m.observed c policy name root).result p
    let sites := Markup.tagsAll (b.content root none)
    (∀ site ∈ sites, ∀ source, b.siteTag? site = some source → source.Settled q) ∧
      (∀ e, e ∈ u.pairs ↔ e = (b.rootPrefix, b.rootTag) ∨ ∃ site ∈ sites, b.pair? q site = some e) ∧
      u.Bound q ∧ q.Sound ∧ p.Extends q := by
  have honly := (m.plan c policy name).visited_onlyAsks root none
  obtain ⟨hsettled, hpairs, hbound⟩ :=
    BodyPlan.visited_spec (b := m.plan c policy name) hm hp hne (hm.spaces hroot).2 root none
  exact ⟨hsettled, hpairs, hbound, honly.sound hp, honly.extends hp⟩

/-- The account of a root in a namespace never fails: it is what is settled on after the tags that
the body uses when it is written with the first account. -/
theorem ofRoot_eq (c : Catalog) (policy : Prefix.Policy) (name : String) {root : Root}
    {space : String} (hspace : Name.given? root.node.space = some space) (hp : p.Sound) :
    let q := (declared c policy name root).after p
    ∃ d, (declared c policy name root).result p = .ok d ∧
      d.spaces.value? d.basePrefix = some space ∧ d.Backed q ∧ q.Sound ∧ p.Extends q ∧
      (ofRoot c policy name root).result p =
        .ok (d.settledMap ((d.observed c policy name root).result q)) ∧
      (ofRoot c policy name root).after p = (d.observed c policy name root).after q := by
  obtain ⟨d, hd, hroot, hback, hsound, hext⟩ := declared_spec c policy name hspace hp
  obtain ⟨_, _, hbound, _, _⟩ := observed_spec hback hsound (given?_eq_some.1 hspace).2 hroot c
    policy name root
  obtain ⟨hresult, hafter⟩ := settled_spec d hbound
  refine ⟨d, hd, hroot, hback, hsound, hext, ?_, ?_⟩
  · simp only [ofRoot, Naming.result_bind, hd]
    exact hresult
  · simp only [ofRoot, Naming.after_bind, hd]
    exact hafter

theorem base_ofRoot {c : Catalog} {policy : Prefix.Policy} {name : String} {root : Root}
    {space : String} (hspace : Name.given? root.node.space = some space) (hp : p.Sound)
    (h : (ofRoot c policy name root).result p = .ok m) :
    m.spaces.value? m.basePrefix = some space := by
  obtain ⟨d, _, hroot, _, _, _, hresult, _⟩ := ofRoot_eq c policy name hspace hp
  obtain rfl := Except.ok.inj (h.symm.trans hresult)
  rw [(d.extends_settledMap _).base]
  exact (d.extends_settledMap _).spaces hroot

theorem types_ofRoot {c : Catalog} {policy : Prefix.Policy} {name : String} {root : Root}
    {space : String} (hspace : Name.given? root.node.space = some space) (hp : p.Sound)
    (h : (ofRoot c policy name root).result p = .ok m) (key : String) :
    (m.types.value? key).map (·.space) = spaceOf? (c.graph.rootTags root space) key := by
  obtain ⟨d, hd, _, _, _, _, hresult, _⟩ := ofRoot_eq c policy name hspace hp
  obtain rfl := Except.ok.inj (h.symm.trans hresult)
  rw [types_settledMap]
  exact types_declared hspace hd key

end NamespaceMap

namespace BodyPlan

def startsLow (tag : String) : Bool := "_".toList.isPrefixOf tag.toList

/-- The qualified tags that stand in a body, each with its prefix. That of the root is the first. -/
def emitted (b : BodyPlan) (p : Prefixes) (content : List (Markup TagSite)) :
    List (String × String) :=
  (b.rootPrefix, b.rootTag) :: (Markup.writtenAll content).filterMap (b.pair? p)

/-- The qualified tags of the members that a body renders without their tags. -/
def unwritten (b : BodyPlan) (p : Prefixes) (content : List (Markup TagSite)) :
    List (String × String) :=
  (Markup.omittedAll content).filterMap (b.pair? p)

theorem mem_emitted {b : BodyPlan} {p : Prefixes} {content : List (Markup TagSite)}
    {r tag : String} (h : (r, tag) ∈ b.emitted p content) :
    tag = b.rootTag ∨ ∃ site ∈ Markup.writtenAll content, tag = Name.localPart site.key := by
  rcases List.mem_cons.1 h with h | h
  · exact .inl (Prod.mk.inj h).2
  · obtain ⟨site, hsite, hpair⟩ := List.mem_filterMap.1 h
    obtain ⟨source, _, heq⟩ := Option.map_eq_some_iff.1 hpair
    exact .inr ⟨site, hsite, (Prod.mk.inj heq).2.symm⟩

theorem mem_emitted_or_unwritten {b : BodyPlan} {p : Prefixes} {content : List (Markup TagSite)}
    {e : String × String} :
    (e ∈ b.emitted p content ∨ e ∈ b.unwritten p content) ↔
      e = (b.rootPrefix, b.rootTag) ∨ ∃ site ∈ Markup.tagsAll content, b.pair? p site = some e := by
  simp only [emitted, unwritten, List.mem_cons, List.mem_filterMap, Markup.mem_tagsAll,
    or_and_right, exists_or, or_assoc]

theorem siteTag?_congr {b b' : BodyPlan} (hcatalog : b'.catalog = b.catalog)
    (htypes : b'.spaces.types = b.spaces.types)
    (hbase : b'.spaces.basePrefix = b.spaces.basePrefix) (site : TagSite) :
    b'.siteTag? site = b.siteTag? site := by
  simp only [siteTag?, TypeGraph.tagPrefix, hcatalog, htypes, hbase]

theorem pairs_eq {b b' : BodyPlan} {p q : Prefixes} (hext : p.Extends q) {sites : List TagSite}
    (hsettled : ∀ site ∈ sites, ∀ source, b.siteTag? site = some source → source.Settled p)
    (hsame : ∀ site ∈ sites, b'.siteTag? site = b.siteTag? site) :
    sites.filterMap (b'.pair? q) = sites.filterMap (b.pair? p) := by
  apply List.filterMap_congr
  intro site hsite
  unfold pair?
  rw [hsame site hsite]
  cases hs : b.siteTag? site with
  | none => rfl
  | some source =>
    simp only [Option.map_some, TagPrefix.text_of_extends (hsettled site hsite source hs) hext]

/-- What is known once a root has its account, and the prefixes `p` are given out: all tags have
their prefixes, and those that are listed stand in the body or were left out of it. -/
structure Accounted (b : BodyPlan) (root : Root) (p : Prefixes) : Prop where
  backed : b.spaces.Backed p
  wellListed : b.spaces.WellListed
  settled : ∀ site ∈ Markup.tagsAll (b.content root none), ∀ source, b.siteTag? site = some source →
    source.Settled p
  mem_pairs : ∀ e, e ∈ b.spaces.pairs ↔ startsLow e.2 = false ∧
    (e ∈ b.emitted p (b.content root none) ∨ e ∈ b.unwritten p (b.content root none))
  bound : ∀ e ∈ b.emitted p (b.content root none), ∃ space, b.spaces.spaces.value? e.1 = some space

theorem Accounted.settled_written {b : BodyPlan} {root : Root} {p : Prefixes}
    (h : b.Accounted root p) :
    ∀ site ∈ Markup.writtenAll (b.content root none), ∀ source, b.siteTag? site = some source →
      source.Settled p :=
  fun site hsite => h.settled site ((Markup.mem_tagsAll _).2 (.inl hsite))

theorem Accounted.emitted_eq {b : BodyPlan} {root : Root} {p q : Prefixes}
    (h : b.Accounted root p) (hpq : p.Extends q) :
    b.emitted q (b.content root none) = b.emitted p (b.content root none) :=
  congrArg _ (pairs_eq hpq h.settled_written fun _ _ => rfl)

theorem Accounted.mono {b : BodyPlan} {root : Root} {p q : Prefixes} (h : b.Accounted root p)
    (hpq : p.Extends q) : b.Accounted root q := by
  have homitted : ∀ site ∈ Markup.omittedAll (b.content root none), ∀ source,
      b.siteTag? site = some source → source.Settled p :=
    fun site hsite => h.settled site ((Markup.mem_tagsAll _).2 (.inr hsite))
  have hunwritten : b.unwritten q (b.content root none) = b.unwritten p (b.content root none) :=
    pairs_eq hpq homitted fun _ _ => rfl
  refine ⟨h.backed.mono hpq, h.wellListed, ?_, ?_, ?_⟩
  · intro site hsite source hs
    exact (h.settled site hsite source hs).mono hpq
  · intro e
    rw [h.emitted_eq hpq, hunwritten]
    exact h.mem_pairs e
  · rw [h.emitted_eq hpq]
    exact h.bound

theorem Accounted.own_space {b : BodyPlan} {root : Root} {p : Prefixes} (h : b.Accounted root p)
    (hp : p.Sound) {site : TagSite} (hsite : site ∈ Markup.writtenAll (b.content root none))
    {own : String} (hown : Name.given? site.member.space = some own) {e : String × String}
    (he : b.pair? p site = some e) : b.spaces.spaces.value? e.1 = some own := by
  obtain ⟨source, hs, rfl⟩ := Option.map_eq_some_iff.1 he
  have hmem : (source.text p, Name.localPart site.key) ∈ b.emitted p (b.content root none) :=
    List.mem_cons_of_mem _ (List.mem_filterMap.2 ⟨site, hsite, he⟩)
  obtain ⟨space, hspace⟩ := h.bound _ hmem
  have hfound : p.bySpace.value? space = some (source.text p) := (h.backed.spaces hspace).2
  have hset := h.settled_written site hsite source hs
  rw [siteTag?_own hown hs] at hset hfound
  obtain ⟨r, hr⟩ := hset
  have htext : (TagPrefix.ofSpace own).text p = r := by simp [TagPrefix.text, hr]
  have heq : own = space := hp.space_unique hr (htext ▸ hfound)
  rw [heq]
  exact hspace

end BodyPlan

namespace NamespaceMap

theorem mem_listed {u : Usage} {e : String × String} :
    e ∈ listed u ↔ BodyPlan.startsLow e.2 = false ∧ e ∈ u.pairs := by
  simp [listed, BodyPlan.startsLow, and_comm]

/-- The account never fails. The body that it is made from has the text that a body written with
the account has. -/
theorem ofRoot_accounted (c : Catalog) (policy : Prefix.Policy) (name : String) {root : Root}
    {space : String} {p : Prefixes} (hspace : Name.given? root.node.space = some space)
    (hp : p.Sound) :
    let r := (ofRoot c policy name root).after p
    ∃ d m, (declared c policy name root).result p = .ok d ∧
      (ofRoot c policy name root).result p = .ok m ∧ r.Sound ∧ p.Extends r ∧
      (m.plan c policy name).Accounted root r ∧
      (((d.plan c policy name).write root none).result
          ((declared c policy name root).after p)).1 =
        ((m.plan c policy name).markup r ((m.plan c policy name).content root none)).print := by
  obtain ⟨d, hd, hroot, hback, hsound, hext, hresult, hafter⟩ := ofRoot_eq c policy name hspace hp
  obtain ⟨hsettled, hpairs, hbound, hsound', hext'⟩ :=
    observed_spec hback hsound (given?_eq_some.1 hspace).2 hroot c policy name root
  rw [hafter]
  generalize hq : (declared c policy name root).after p = q at *
  generalize hu : (d.observed c policy name root).result q = u at *
  generalize hr : (d.observed c policy name root).after q = r at *
  obtain ⟨m, hm⟩ : ∃ m, m = d.settledMap u := ⟨_, rfl⟩
  have hbase : m.basePrefix = d.basePrefix := by
    rw [hm]
    exact (d.extends_settledMap u).base
  have htypes : m.types = d.types := by rw [hm, d.types_settledMap]
  have hsame : ∀ site,
      (m.plan c policy name).siteTag? site = (d.plan c policy name).siteTag? site :=
    BodyPlan.siteTag?_congr rfl htypes hbase
  have hused : ∀ e,
      (e ∈ (m.plan c policy name).emitted r ((m.plan c policy name).content root none) ∨
        e ∈ (m.plan c policy name).unwritten r ((m.plan c policy name).content root none)) ↔
          e ∈ u.pairs := by
    intro e
    rw [BodyPlan.mem_emitted_or_unwritten, hpairs]
    simp only [BodyPlan.pair?, hsame]
    rw [show (m.plan c policy name).rootPrefix = (d.plan c policy name).rootPrefix from hbase]
    rfl
  refine ⟨d, m, hd, hm ▸ hresult, hsound', hext.trans hext', ⟨?_, ?_, ?_, ?_, ?_⟩, ?_⟩
  · show m.Backed r
    rw [hm]
    exact (hback.mono hext').settledMap hbound
  · show m.WellListed
    rw [hm]
    exact d.wellListed_settledMap u
  · intro site hsite source hs
    rw [hsame] at hs
    exact hsettled site hsite source hs
  · intro e
    rw [hused, ← mem_listed, ← d.mem_pairs_settledMap, ← hm]
    rfl
  · intro e he
    obtain ⟨found, hfound⟩ := hbound.held ((hused e).1 (.inl he))
    show ∃ found, m.spaces.value? e.1 = some found
    rw [hm, d.spaces_settledMap, hfound]
    cases d.spaces.value? e.1 with
    | none => exact ⟨found, rfl⟩
    | some old => exact ⟨old, rfl⟩
  · have hwritten : ∀ site ∈ Markup.writtenAll ((d.plan c policy name).content root none),
        ∀ source, (d.plan c policy name).siteTag? site = some source → source.Settled r :=
      fun site hsite => hsettled site ((Markup.mem_tagsAll _).2 (.inl hsite))
    have htext := @BodyPlan.print_markup_eq (d.plan c policy name) (m.plan c policy name) r r
      (.refl r) hbase rfl _ hwritten fun site _ => hsame site
    rw [BodyPlan.result_write]
    exact hr ▸ htext.symm

/-- The account of a root against the body that is written with it, after any run of requests for
prefixes. The body has the text that the account was made from, and every tag in it has a prefix
that is bound, to the namespace of the member where that has one. Each tag is listed once; but
besides the tags of the body those are listed that unwrapped payloads are rendered without. So the
list is exactly that of the body when these tags stand in the body elsewhere. -/
theorem ofRoot_against_body (c : Catalog) (policy : Prefix.Policy) (taken : Table String)
    (calls : List (Prefix.Policy × String)) (name : String) {root : Root} {space : String}
    (hspace : Name.given? root.node.space = some space) :
    let p := (prefixesFor calls).after ⟨[], taken⟩
    ∃ d m, (declared c policy name root).result p = .ok d ∧
      (ofRoot c policy name root).result p = .ok m ∧
      let observing := (d.plan c policy name).write root none
      let observed := observing.result ((declared c policy name root).after p)
      let b := m.plan c policy name
      let content := b.content root none
      let body := (b.write root none).result ((ofRoot c policy name root).after p)
      let q := (b.write root none).after ((ofRoot c policy name root).after p)
      body.1 = (b.markup q content).print ∧ body.1 = observed.1 ∧
      m.pairs.Nodup ∧
      (∀ e, e ∈ m.pairs ↔ BodyPlan.startsLow e.2 = false ∧
        (e ∈ b.emitted q content ∨ e ∈ b.unwritten q content)) ∧
      ((∀ e, e ∈ m.pairs ↔ BodyPlan.startsLow e.2 = false ∧ e ∈ b.emitted q content) ↔
        ∀ e ∈ b.unwritten q content, BodyPlan.startsLow e.2 = false → e ∈ b.emitted q content) ∧
      (∀ e ∈ b.emitted q content, ∃ bound, m.spaces.value? e.1 = some bound) ∧
      ∀ site ∈ Markup.writtenAll content, ∀ own, Name.given? site.member.space = some own →
        ∀ e, b.pair? q site = some e → m.spaces.value? e.1 = some own := by
  intro p
  have hp : p.Sound := (prefixesFor_spec calls (Prefixes.sound_of_unasked taken)).1
  obtain ⟨d, m, hd, hm, hsound, _, haccount, htext⟩ := ofRoot_accounted c policy name hspace hp
  refine ⟨d, m, hd, hm, ?_⟩
  intro observing observed b content body q
  have hext := (b.write_onlyAsks root none).extends hsound
  have hq := (b.write_onlyAsks root none).sound hsound
  have hlater : b.Accounted root q := haccount.mono hext
  have hbody : body.1 = (b.markup q content).print := rfl
  have hsame := BodyPlan.print_markup_eq hext rfl rfl haccount.settled_written fun _ _ => rfl
  refine ⟨hbody, ?_, nodup_pairs hlater.wellListed, hlater.mem_pairs, ?_, hlater.bound, ?_⟩
  · rw [hbody]
    exact hsame.trans htext.symm
  · constructor
    · intro h e he hlow
      exact ((h e).1 ((hlater.mem_pairs e).2 ⟨hlow, .inr he⟩)).2
    · intro h e
      refine (hlater.mem_pairs e).trans (and_congr_right fun hlow => ⟨?_, .inl⟩)
      rintro (he | he)
      · exact he
      · exact h e he hlow
  · intro site hsite own hown e he
    exact hlater.own_space hq hsite hown he

def qualifiedMember (space : String) (type : TypeNode) : Member TypeNode :=
  { type := type, qualified := some true, space := some space }

/-- An element that points at the complex type of its own name, and a root with it. -/
def ownNameGraph : TypeGraph where
  objects := [
    { members := [("x", qualifiedMember "urn:t" (.primitive "string"))]
      space := some "urn:t" },
    { members := [
        ("Foo", qualifiedMember "urn:t" (.reference { name := "urn:t:Foo" })),
        ("b", qualifiedMember "urn:t" (.primitive "string"))]
      space := some "urn:t" }]
  elements := [
    ("urn:t:Foo",
      .reference { name := "urn:t:Foo", space := some "urn:t", qualified := some true }),
    ("urn:t:Root", .object 1)]
  complexTypes := [("urn:t:Foo", 0), ("urn:t:Root", 1)]

theorem outline_ownNameGraph :
    let foo := qualifiedMember "urn:t" (.reference { name := "urn:t:Foo" })
    let text := qualifiedMember "urn:t" (.primitive "string")
    (ownNameGraph.catalog.outline "props" [1] (ownNameGraph.object 1)).2 =
      [.bare ⟨"Foo", foo, (ownNameGraph.catalog.contentOf "Foo" foo.type).notices⟩
        [.leaf ⟨"x", text, []⟩ (Catalog.fieldPath (Catalog.fieldPath "props" "Foo") "x")],
       .leaf ⟨"b", text, []⟩ (Catalog.fieldPath "props" "b")] := by
  intro foo text
  have hnext : ownNameGraph.catalog.next? (ownNameGraph.object 1) [1] = none := rfl
  have hfoo : (ownNameGraph.catalog.contentOf "Foo" foo.type).value = .object 0 true := rfl
  have hinner : ∀ path, ownNameGraph.catalog.outlineMembers path [0, 1]
      (ownNameGraph.catalog.graph.object 0).members =
        [.leaf ⟨"x", text, []⟩ (Catalog.fieldPath path "x")] := by
    intro path
    show ownNameGraph.catalog.outlineMembers path [0, 1] [("x", text)] = _
    rw [Catalog.outlineMembers_cons, Catalog.outlineMember_single rfl,
      Catalog.outlineContent_primitive rfl, Catalog.outlineMembers_nil]
  rw [Catalog.outline_of_next_none hnext]
  show ownNameGraph.catalog.outlineMembers "props" [1] [("Foo", foo), ("b", text)] = _
  rw [Catalog.outlineMembers_cons, Catalog.outlineMembers_cons, Catalog.outlineMembers_nil,
    Catalog.outlineMember_single rfl, Catalog.outlineMember_single rfl,
    Catalog.outlineContent_object hfoo (by decide), Catalog.outlineContent_primitive rfl, hinner]
  rfl

theorem ofRoot_against_body_ownNameGraph :
    let root := Root.ofId ownNameGraph 1
    Name.given? root.node.space = some "urn:t" ∧
      ∃ m, (ofRoot ownNameGraph.catalog ⟨10, 6⟩ "urn:t:Root" root).result {} = .ok m ∧
        m.pairs.Nodup := by
  intro root
  have hspace : Name.given? root.node.space = some "urn:t" := by decide
  obtain ⟨_, m, _, hm, _, _, hnodup, _⟩ :=
    ofRoot_against_body ownNameGraph.catalog ⟨10, 6⟩ [] [] "urn:t:Root" hspace
  exact ⟨hspace, m, hm, hnodup⟩

/-- The tag of the unwrapped element is listed, and the body has it nowhere. -/
theorem ofRoot_lists_unwritten_tag :
    let root := Root.ofId ownNameGraph 1
    let account := ofRoot ownNameGraph.catalog ⟨10, 6⟩ "urn:t:Root" root
    ∃ m, account.result {} = .ok m ∧
      let b := m.plan ownNameGraph.catalog ⟨10, 6⟩ "urn:t:Root"
      let q := (b.write root none).after (account.after {})
      ¬ ∀ e, e ∈ m.pairs ↔
        BodyPlan.startsLow e.2 = false ∧ e ∈ b.emitted q (b.content root none) := by
  intro root account
  have hspace : Name.given? root.node.space = some "urn:t" := by decide
  obtain ⟨_, m, _, hm, hsound, _, haccount, _⟩ := ofRoot_accounted ownNameGraph.catalog ⟨10, 6⟩
    "urn:t:Root" hspace (Prefixes.sound_of_unasked [])
  refine ⟨m, hm, ?_⟩
  intro b q hall
  have hlater : b.Accounted root q := haccount.mono ((b.write_onlyAsks root none).extends hsound)
  have hcontent : b.content root none = _ := outline_ownNameGraph
  let r := (q.bySpace.value? "urn:t").getD ""
  have hlow : BodyPlan.startsLow "Foo" = false := by decide
  have hlisted : (r, "Foo") ∈ m.pairs := by
    refine (hlater.mem_pairs _).2 ⟨hlow, .inr ?_⟩
    rw [hcontent]
    exact List.mem_filterMap.2 ⟨_, List.mem_cons_self, rfl⟩
  rcases BodyPlan.mem_emitted ((hall _).1 hlisted).2 with hroot | ⟨site, hsite, hname⟩
  · exact absurd hroot (by decide : "Foo" ≠ Name.localPart "urn:t:Root")
  · have hkey : site.key = "x" ∨ site.key = "b" := by
      rw [hcontent] at hsite
      simp only [Markup.writtenAll, Markup.written, List.append_nil, List.mem_append,
        List.mem_singleton] at hsite
      rcases hsite with rfl | rfl
      · exact .inl rfl
      · exact .inr rfl
    rcases hkey with hkey | hkey
    · rw [hkey] at hname
      exact absurd hname (by decide)
    · rw [hkey] at hname
      exact absurd hname (by decide)

end NamespaceMap

end SoapComponents
