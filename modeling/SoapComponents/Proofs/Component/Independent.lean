import SoapComponents.Proofs.Component.Bindings
import SoapComponents.Proofs.Markup.Spaces
import SoapComponents.Proofs.Prefix.Steady

/-!
Operations of a run do not influence each other, as long as the first digests of all namespaces are
different and not reserved. Each step of making a component then comes to the same whatever was
made before: a namespace has the prefix that it would have alone, also when it had it already.
-/

set_option autoImplicit false

namespace SoapComponents

open Assigning Prefixes

variable {policy : Prefix.Policy} {spaces : List String} {p q : Prefixes}

namespace BodyPlan

variable {b : BodyPlan}

theorem record_stable (hpq : Later policy spaces p q) (hb : b.spaces.Backed p) {r space : String}
    (hr : p.bySpace.value? space = some r) (tag : String) (u : Usage) :
    (b.record tag r u).Stable policy spaces p q := by
  refine .of_silent hpq rfl rfl ?_
  rw [result_record hb hpq.before.sound hr,
    result_record (hb.mono hpq.ext) hpq.after.sound (hpq.ext.bySpace hr)]

theorem visit_stable (h : Apart b.policy spaces) (hpq : Later b.policy spaces p q)
    (hb : b.spaces.Backed p) {site : TagSite}
    (hsite : ∀ space, b.siteTag? site = some (.ofSpace space) → space ∈ spaces) (u : Usage) :
    (b.visit u site).Stable b.policy spaces p q := by
  cases hs : b.siteTag? site with
  | none =>
    obtain ⟨hresult, hafter⟩ := b.result_visit_none (p := p) hs u
    obtain ⟨hresult', hafter'⟩ := b.result_visit_none (p := q) hs u
    exact .of_silent hpq hafter hafter' (hresult'.trans hresult.symm)
  | some source =>
    have hassign : (source.assign b.policy).Stable b.policy spaces p q := by
      cases source with
      | ofSpace space => exact prefixFor_stable h hpq (hsite space hs)
      | known r => exact .of_silent hpq rfl rfl rfl
    have hext := (source.assign_onlyAsks b.policy).extends hpq.before.sound
    obtain ⟨hsettled, htext⟩ := source.assign_spec hpq.before.sound b.policy
    obtain ⟨space, _, hr⟩ := given_text hb hext hs hsettled
    rw [← htext] at hr
    have hrecord := record_stable hassign.later (hb.mono hext) hr (Name.localPart site.key) u
    obtain ⟨hafter, hresult⟩ := b.result_visit_some (p := p) hs u
    obtain ⟨hafter', hresult'⟩ := b.result_visit_some (p := q) hs u
    constructor
    · rw [hresult, hresult', hassign.same]
      exact hrecord.same
    · rw [hafter, hafter']
      exact hassign.later

theorem visits_stable (h : Apart b.policy spaces) {sites : List TagSite}
    (hsites : ∀ site ∈ sites, ∀ space, b.siteTag? site = some (.ofSpace space) → space ∈ spaces)
    (hpq : Later b.policy spaces p q) (hb : b.spaces.Backed p) (u : Usage) :
    (sites.foldlM b.visit u).Stable b.policy spaces p q := by
  induction sites generalizing u p q with
  | nil => exact .of_silent hpq rfl rfl rfl
  | cons site rest ih =>
    have hvisit := visit_stable h hpq hb (hsites site List.mem_cons_self) u
    have hext := (b.visit_onlyAsks u site).extends hpq.before.sound
    rw [List.foldlM_cons]
    exact hvisit.bind (ih (fun t ht => hsites t (List.mem_cons_of_mem _ ht)) hvisit.later
      (hb.mono hext) _)

theorem write_stable {root : Root} (hroot : root.Inside b.catalog.graph)
    (h : Apart b.policy b.catalog.graph.spaces)
    (hpq : Later b.policy b.catalog.graph.spaces p q) (hb : b.spaces.Backed p) {space : String}
    (hne : space ≠ "") (hr : p.bySpace.value? space = some b.rootPrefix)
    (propsField : Option String) :
    (b.write root propsField).Stable b.policy b.catalog.graph.spaces p q := by
  have hrecord := record_stable hpq hb hr b.rootTag {}
  have hvisited : (b.visited root propsField).Stable b.policy b.catalog.graph.spaces p q :=
    hrecord.bind (visits_stable h (fun site hsite _ => space_of_siteTag? hroot hsite)
      hrecord.later hb _)
  obtain ⟨hsettled, -, -⟩ := visited_spec hb hpq.before.sound hne hr root propsField
  have htext := @print_markup_eq b b _ _ hvisited.later.ext rfl rfl _
    (fun site hsite => hsettled site ((Markup.mem_tagsAll _).2 (.inl hsite))) fun _ _ => rfl
  refine ⟨?_, hvisited.later⟩
  rw [result_write, result_write, hvisited.same]
  exact congrArg (·, (b.visited root propsField).result p) htext

end BodyPlan

namespace NamespaceMap

variable {m : NamespaceMap}

theorem declare_stable (h : Apart policy spaces) (hpq : Later policy spaces p q)
    {tag : DeclaredTag} (hs : tag.space ∈ spaces) (m : NamespaceMap) :
    (declare policy m tag).Stable policy spaces p q := by
  obtain ⟨hsame, hlater⟩ := hpq.prefixFor h hs
  constructor
  · rw [result_declare, result_declare, hsame]
  · rw [after_declare, after_declare]
    exact hlater

theorem declares_stable (h : Apart policy spaces) {tags : List DeclaredTag}
    (htags : ∀ tag ∈ tags, tag.space ∈ spaces) (hpq : Later policy spaces p q)
    (m : NamespaceMap) : (tags.foldlM (declare policy) m).Stable policy spaces p q := by
  induction tags generalizing m p q with
  | nil => exact .of_silent hpq rfl rfl rfl
  | cons tag rest ih =>
    have hfirst := declare_stable h hpq (htags tag List.mem_cons_self) m
    rw [List.foldlM_cons]
    exact hfirst.bind fun n _ => ih (fun t ht => htags t (List.mem_cons_of_mem _ ht)) hfirst.later n

variable {c : Catalog}

theorem declared_stable {root : Root} (hroot : root.Inside c.graph)
    (h : Apart policy c.graph.spaces) (hpq : Later policy c.graph.spaces p q) (name : String) :
    (declared c policy name root).Stable policy c.graph.spaces p q := by
  unfold declared
  split
  · exact .of_silent hpq rfl rfl rfl
  · next space hspace =>
    have hinside := hroot.space space hspace
    have hbase := prefixFor_stable h hpq hinside
    exact hbase.lift.bind fun base _ =>
      declares_stable h (TypeGraph.space_of_rootTags_inside hroot hinside) hbase.later _

theorem observed_stable {root : Root} (hroot : root.Inside c.graph)
    (h : Apart policy c.graph.spaces) (hpq : Later policy c.graph.spaces p q) (hm : m.Backed p)
    (name : String) : (m.observed c policy name root).Stable policy c.graph.spaces p q := by
  obtain ⟨space, hne, hr⟩ := hm.base
  have hwrite := BodyPlan.write_stable (b := m.plan c policy name) hroot h hpq hm hne hr none
  exact ⟨congrArg Prod.snd hwrite.same, hwrite.later⟩

theorem ofRoot_stable {root : Root} (hroot : root.Inside c.graph)
    (h : Apart policy c.graph.spaces) (hpq : Later policy c.graph.spaces p q) (name : String) :
    (ofRoot c policy name root).Stable policy c.graph.spaces p q := by
  have hfirst := declared_stable hroot h hpq name
  refine hfirst.bind fun d hd => ?_
  cases hspace : Name.given? root.node.space with
  | none => simp [declared, hspace] at hd
  | some space =>
    obtain ⟨d', hd', hbase, hback, hsound, _⟩ := declared_spec c policy name hspace hpq.before.sound
    obtain rfl : d = d' := Except.ok.inj (hd.symm.trans hd')
    obtain ⟨_, _, hbound, _⟩ := observed_spec hback hsound (given?_eq_some.1 hspace).2 hbase c
      policy name root
    have hobserved := observed_stable hroot h hfirst.later hback name
    refine hobserved.lift.bind fun u hu => ?_
    obtain rfl := Except.ok.inj hu
    -- every tag has its namespace, so settling asks for nothing
    obtain ⟨hsettled, hafter⟩ := settled_spec d hbound
    obtain ⟨hsettled', hafter'⟩ := settled_spec d (hbound.mono hobserved.later.ext)
    exact .of_silent hobserved.later hafter hafter' (hsettled'.trans hsettled.symm)

end NamespaceMap

namespace Assembler

variable {a : Assembler}

theorem headerRoot_stable (h : Apart a.policy a.catalog.graph.spaces)
    (hpq : Later a.policy a.catalog.graph.spaces p q) (header : Header) :
    (a.headerRoot header).Stable a.policy a.catalog.graph.spaces p q := by
  refine Naming.Stable.bind (.of_silent hpq rfl rfl rfl) fun found hfound => ?_
  have hroot := Catalog.inside_of_resolvePart hfound
  have haccount := NamespaceMap.ofRoot_stable hroot h hpq found.key
  exact haccount.bind fun _ _ => .of_silent haccount.later rfl rfl rfl

theorem inside_of_headerRoot {header : Header} {found : PartType} {namespaces : NamespaceMap}
    (h : (a.headerRoot header).result p = .ok (found, namespaces)) :
    found.root.Inside a.catalog.graph := by
  obtain ⟨part, hpart, h⟩ := Naming.result_bind_eq_ok h
  obtain ⟨_, _, h⟩ := Naming.result_bind_eq_ok h
  obtain ⟨rfl, -⟩ := Prod.mk.inj (Except.ok.inj h)
  exact Catalog.inside_of_resolvePart hpart

theorem addHeaderRoot_stable (h : Apart a.policy a.catalog.graph.spaces)
    (hpq : Later a.policy a.catalog.graph.spaces p q) {found : PartType}
    (hroot : found.root.Inside a.catalog.graph) {namespaces : NamespaceMap}
    (hb : namespaces.Backed p) (space : HeaderSpace) (header : Header) :
    (a.addHeaderRoot space header found namespaces).Stable a.policy a.catalog.graph.spaces p q := by
  obtain ⟨root, hne, hr⟩ := hb.base
  have hwrite := BodyPlan.write_stable (b := namespaces.plan a.catalog a.policy found.key) hroot h
    hpq hb hne hr (some (Name.camel header.part))
  exact hwrite.bind (.of_silent hwrite.later rfl rfl rfl)

theorem addHeader_stable (h : Apart a.policy a.catalog.graph.spaces)
    (hpq : Later a.policy a.catalog.graph.spaces p q) (space : HeaderSpace) (header : Header) :
    (a.addHeader space header).Stable a.policy a.catalog.graph.spaces p q := by
  have hheader := headerRoot_stable h hpq header
  refine hheader.liftExcept.bind fun made hmade => ?_
  cases made with
  | error failure =>
    dsimp only
    split
    · exact .of_silent hheader.later rfl rfl rfl
    · exact .of_silent hheader.later rfl rfl rfl
  | ok pair =>
    have hmade : (a.headerRoot header).result p = .ok pair := Except.ok.inj hmade
    obtain ⟨_, _, hback⟩ := a.headerRoot_spec header hpq.before.sound
    exact (addHeaderRoot_stable h hheader.later (inside_of_headerRoot hmade)
      (hback _ _ hmade) space header).lift

theorem addHeaders_stable (h : Apart a.policy a.catalog.graph.spaces)
    (hpq : Later a.policy a.catalog.graph.spaces p q) (headers : List Header)
    (space : HeaderSpace) :
    (headers.foldlM a.addHeader space).Stable a.policy a.catalog.graph.spaces p q := by
  induction headers generalizing space p q with
  | nil => exact .of_silent hpq rfl rfl rfl
  | cons header rest ih =>
    have hfirst := addHeader_stable h hpq space header
    rw [List.foldlM_cons]
    exact hfirst.bind fun next _ => ih hfirst.later next

theorem assembleFrom_stable (h : Apart a.policy a.catalog.graph.spaces)
    (hpq : Later a.policy a.catalog.graph.spaces p q) (op : Operation) {request : PartType}
    (hroot : request.root.Inside a.catalog.graph) :
    (a.assembleFrom op request).Stable a.policy a.catalog.graph.spaces p q := by
  have haccount := NamespaceMap.ofRoot_stable hroot h hpq request.key
  refine Naming.Stable.bind (.of_silent hpq rfl rfl rfl) fun headers _ => ?_
  refine Naming.Stable.bind (.of_silent hpq rfl rfl rfl) fun response _ => ?_
  refine haccount.bind fun own hown => ?_
  refine Naming.Stable.bind (.of_silent haccount.later rfl rfl rfl) fun reachable _ => ?_
  refine Naming.Stable.bind (.of_silent haccount.later rfl rfl rfl) fun shapes _ => ?_
  have hheaders := addHeaders_stable h haccount.later headers
    { namespaces := own, props := shapes.props, interfaces := shapes.interfaces }
  refine hheaders.bind fun last hlast => ?_
  obtain ⟨_, _, hspace⟩ :=
    NamespaceMap.ofRoot_spec a.catalog a.policy request.key request.root hpq.before.sound
  obtain ⟨space, hs⟩ := hspace own hown
  obtain ⟨_, m, _, hm, hsound, _, hmade, _⟩ :=
    NamespaceMap.ofRoot_accounted a.catalog a.policy request.key hs hpq.before.sound
  obtain rfl : own = m := Except.ok.inj (hown.symm.trans hm)
  obtain ⟨_, _, habsorbed⟩ := a.addHeaders_spec headers
    { namespaces := own, props := shapes.props, interfaces := shapes.interfaces } hsound
    hmade.wellListed hmade.backed
  have hback := (habsorbed last hlast).backed
  obtain ⟨root, hne, hr⟩ := hback.base
  have hwrite := BodyPlan.write_stable (b := last.namespaces.plan a.catalog a.policy request.key)
    hroot h hheaders.later hback hne hr none
  exact hwrite.lift.bind fun body _ => .of_silent hwrite.later rfl rfl rfl

theorem inside_of_request {op : Operation} {request : PartType}
    (h : (a.service.request a.catalog op).result = .ok request) :
    request.root.Inside a.catalog.graph := by
  unfold Service.request at h
  split at h
  · cases h
  · simp only [Outcome.result_bind, Outcome.result_lift] at h
    split at h
    · exact Catalog.inside_of_resolvePart h
    · cases h

theorem assembleOnce_stable (h : Apart a.policy a.catalog.graph.spaces)
    (hpq : Later a.policy a.catalog.graph.spaces p q) (op : Operation) :
    (a.assembleOnce op).Stable a.policy a.catalog.graph.spaces p q := by
  have hmake : (a.assemble op).Stable a.policy a.catalog.graph.spaces p q := by
    refine Naming.Stable.bind (.of_silent hpq rfl rfl rfl) fun _ _ => ?_
    refine Naming.Stable.bind (.of_silent hpq rfl rfl rfl) fun request hrequest => ?_
    exact assembleFrom_stable h hpq op (inside_of_request hrequest)
  exact ⟨hmake.same, hmake.later⟩

theorem later_assembleOnce (h : Apart a.policy a.catalog.graph.spaces)
    (hp : p.Steady a.policy a.catalog.graph.spaces) (op : Operation) :
    Later a.policy a.catalog.graph.spaces p ((a.assembleOnce op).after p) :=
  ⟨hp, (assembleOnce_stable h hp.later op).later.after, (a.assembleOnce_extends op hp.sound).2⟩

theorem later_assembleAll (h : Apart a.policy a.catalog.graph.spaces)
    (hp : p.Steady a.policy a.catalog.graph.spaces) (ops : List Operation) :
    Later a.policy a.catalog.graph.spaces p ((a.assembleAll ops).after p) := by
  induction ops generalizing p with
  | nil => exact hp.later
  | cons op rest ih =>
    have hstep := later_assembleOnce h hp op
    rw [after_assembleAll_cons]
    exact hstep.trans (ih hstep.after)

/-- Operations do not influence each other. If the first digests of all namespaces that the types
speak of are different and none is reserved, then what an operation comes to, a component or a
failure, is the same in a fresh run as after any others. -/
theorem assembleOnce_after_others (a : Assembler)
    (hdistinct : ∀ s ∈ a.catalog.graph.spaces, ∀ t ∈ a.catalog.graph.spaces,
      hashed a.policy s 0 = hashed a.policy t 0 → s = t)
    (hfree : ∀ s ∈ a.catalog.graph.spaces, hashed a.policy s 0 ∉ Prefix.reserved)
    (others : List Operation) (op : Operation) :
    (a.assembleOnce op).result ((a.assembleAll others).after {}) = (a.assembleOnce op).result {} :=
  have h : Apart a.policy a.catalog.graph.spaces := ⟨hdistinct, hfree⟩
  (assembleOnce_stable h (later_assembleAll h (steady_empty _ _) others) op).same

end Assembler

namespace SampleHeader

theorem spaces_graph : ∀ s ∈ graph.spaces, s = "urn:a" ∨ s = "urn:h" := by decide

theorem hashed_first : ∃ digest digest' : List Char, digest.length = 3 ∧ digest'.length = 3 ∧
    hashed assembler.policy "urn:a" 0 = String.ofList ('a' :: digest) ∧
    hashed assembler.policy "urn:h" 0 = String.ofList ('h' :: digest') := by
  have hstem : Prefix.stem "urn:a" assembler.policy.stemLength = ['a'] := by decide
  have hstem' : Prefix.stem "urn:h" assembler.policy.stemLength = ['h'] := by decide
  refine ⟨Prefix.hash "urn:a" (0 : Nat), Prefix.hash "urn:h" (0 : Nat), ?_, ?_, ?_, ?_⟩
  · simp [Prefix.hash, Prefix.hashWidth, Digest.base36]
  · simp [Prefix.hash, Prefix.hashWidth, Digest.base36]
  · rw [hashed, hstem]
    rfl
  · rw [hashed, hstem']
    rfl

theorem reserved_first : ∀ word ∈ Prefix.reserved, word.toList.length = 4 →
    word.toList.head? ≠ some 'a' ∧ word.toList.head? ≠ some 'h' := by decide

theorem apart : Apart assembler.policy graph.spaces := by
  obtain ⟨digest, digest', hlength, hlength', ha, hh⟩ := hashed_first
  have hne : hashed assembler.policy "urn:a" 0 ≠ hashed assembler.policy "urn:h" 0 := by
    rw [ha, hh]
    intro heq
    have hchars := congrArg String.toList heq
    rw [String.toList_ofList, String.toList_ofList] at hchars
    exact absurd (List.cons.inj hchars).1 (by decide)
  constructor
  · intro s hs t ht heq
    rcases spaces_graph s hs with rfl | rfl
    · rcases spaces_graph t ht with rfl | rfl
      · rfl
      · exact absurd heq hne
    · rcases spaces_graph t ht with rfl | rfl
      · exact absurd heq.symm hne
      · rfl
  · intro s hs hreserved
    rcases spaces_graph s hs with rfl | rfl
    · rw [ha] at hreserved
      exact (reserved_first _ hreserved (by simp [hlength])).1 (by simp)
    · rw [hh] at hreserved
      exact (reserved_first _ hreserved (by simp [hlength'])).2 (by simp)

/-- The component of the operation is the same when the operation was made twice before. -/
theorem operation_after_itself : Apart assembler.policy assembler.catalog.graph.spaces ∧
    ∃ made, (assembler.assembleOnce operation).result {} = .ok made ∧
      (assembler.assembleOnce operation).result
        ((assembler.assembleAll [operation, operation]).after {}) = .ok made := by
  obtain ⟨_, _, _, made, _, _, _, _, hmade, _⟩ := assembled
  refine ⟨apart, made, hmade, ?_⟩
  exact (Assembler.assembleOnce_after_others assembler apart.distinct apart.free
    [operation, operation] operation).trans hmade

end SampleHeader

end SoapComponents
