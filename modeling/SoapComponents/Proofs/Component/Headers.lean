import SoapComponents.Component.Assembly
import SoapComponents.Proofs.Markup.Plans

/-!
What headers do to the body of a request. Each one merges its namespaces into those of the
request before the body is written; the body then has the text that the request alone would give
it, except for tags without a namespace whose names a header knows.
-/

set_option autoImplicit false

namespace SoapComponents

open Assigning

namespace NamespaceMap

theorem ofRoot_spec (c : Catalog) (policy : Prefix.Policy) (name : String) (root : Root)
    {p : Prefixes} (hp : p.Sound) :
    let x := ofRoot c policy name root
    (x.after p).Sound ∧ p.Extends (x.after p) ∧
      ∀ m, x.result p = .ok m → ∃ space, Name.given? root.node.space = some space := by
  intro x
  cases hs : Name.given? root.node.space with
  | none =>
    have hdeclared : (declared c policy name root).result p = .error (.noNamespace name) ∧
        (declared c policy name root).after p = p := by
      simp only [declared, hs]
      exact ⟨rfl, rfl⟩
    have hresult : x.result p = .error (.noNamespace name) := by
      simp only [x, ofRoot, Naming.result_bind, hdeclared.1]
    have hafter : x.after p = p := by
      simp only [x, ofRoot, Naming.after_bind, hdeclared.1, hdeclared.2]
    rw [hafter, hresult]
    exact ⟨hp, .refl p, by simp⟩
  | some space =>
    obtain ⟨_, _, _, _, hsound, hext, _⟩ := ofRoot_accounted c policy name hs hp
    exact ⟨hsound, hext, fun _ _ => ⟨space, rfl⟩⟩

end NamespaceMap

namespace Assembler

variable {a : Assembler} {p : Prefixes}

theorem headerRoot_spec (a : Assembler) (header : Header) (hp : p.Sound) :
    let x := a.headerRoot header
    (x.after p).Sound ∧ p.Extends (x.after p) ∧
      ∀ found namespaces, x.result p = .ok (found, namespaces) →
        namespaces.Backed (x.after p) := by
  intro x
  simp only [x, headerRoot, Naming.result_bind, Naming.after_bind, Naming.result_ofOutcome,
    Naming.after_ofOutcome]
  cases (a.catalog.resolvePart ⟨header.part, .element, header.written, header.key⟩).result with
  | error failure => exact ⟨hp, .refl p, by simp⟩
  | ok found =>
    obtain ⟨hsound, hext, hspace⟩ :=
      NamespaceMap.ofRoot_spec a.catalog a.policy found.key found.root hp
    dsimp only
    cases hm : (NamespaceMap.ofRoot a.catalog a.policy found.key found.root).result p with
    | error failure =>
      exact ⟨hsound, hext, by simp⟩
    | ok m =>
      refine ⟨hsound, hext, ?_⟩
      intro found' namespaces heq
      obtain ⟨space, hs⟩ := hspace m hm
      obtain ⟨_, n, _, hn, _, _, haccount, _⟩ :=
        NamespaceMap.ofRoot_accounted a.catalog a.policy found.key hs hp
      obtain rfl : m = n := Except.ok.inj (hm.symm.trans hn)
      obtain ⟨rfl, rfl⟩ := Prod.mk.inj (Except.ok.inj heq)
      exact haccount.backed

theorem addHeader_spec (a : Assembler) (space : HeaderSpace) (header : Header) (hp : p.Sound)
    (hl : space.namespaces.WellListed) (hb : space.namespaces.Backed p) :
    let x := a.addHeader space header
    (x.after p).Sound ∧ p.Extends (x.after p) ∧
      ∀ next, x.result p = .ok next → space.namespaces.Absorbed next.namespaces (x.after p) := by
  obtain ⟨hsound, hext, hback⟩ := a.headerRoot_spec header hp
  simp only [addHeader, Naming.result_bind, Naming.after_bind, Naming.result_liftExcept,
    Naming.after_liftExcept]
  generalize (a.headerRoot header).after p = q at hsound hext hback ⊢
  cases hr : (a.headerRoot header).result p with
  | error failure =>
    dsimp only
    split
    · refine ⟨hsound, hext, ?_⟩
      intro next heq
      obtain rfl := Except.ok.inj heq
      exact .refl hl (hb.mono hext)
    · exact ⟨hsound, hext, by simp⟩
  | ok pair =>
    obtain ⟨found, namespaces⟩ := pair
    have hback := hback found namespaces hr
    have honly := (namespaces.plan a.catalog a.policy found.key).write_onlyAsks found.root
      (some (Name.camel header.part))
    have hlater := honly.extends hsound
    refine ⟨honly.sound hsound, hext.trans hlater, ?_⟩
    intro next heq
    obtain rfl := Except.ok.inj heq
    exact NamespaceMap.absorbed_merge hl ((hb.mono hext).mono hlater) (hback.mono hlater)

theorem addHeader_of_ok {space : HeaderSpace} {header : Header} {found : PartType}
    {namespaces : NamespaceMap} (h : (a.headerRoot header).result p = .ok (found, namespaces)) :
    ∃ next, (a.addHeader space header).result p = .ok next ∧
      next.namespaces = space.namespaces.merge namespaces := by
  simp only [addHeader, Naming.result_bind, Naming.result_liftExcept, h]
  exact ⟨_, rfl, rfl⟩

theorem addHeaders_spec (a : Assembler) (headers : List Header) (space : HeaderSpace)
    (hp : p.Sound) (hl : space.namespaces.WellListed) (hb : space.namespaces.Backed p) :
    let x := headers.foldlM a.addHeader space
    (x.after p).Sound ∧ p.Extends (x.after p) ∧
      ∀ last, x.result p = .ok last → space.namespaces.Absorbed last.namespaces (x.after p) := by
  induction headers generalizing space p with
  | nil =>
    refine ⟨hp, .refl p, ?_⟩
    intro last heq
    obtain rfl := Except.ok.inj heq
    exact .refl hl hb
  | cons header rest ih =>
    obtain ⟨hsound, hext, hnext⟩ := a.addHeader_spec space header hp hl hb
    simp only [List.foldlM_cons, Naming.result_bind, Naming.after_bind]
    generalize (a.addHeader space header).after p = q at hsound hext hnext ⊢
    cases hr : (a.addHeader space header).result p with
    | error failure => exact ⟨hsound, hext, by simp⟩
    | ok next =>
      have habsorbed := hnext next hr
      obtain ⟨hsound', hext', hlast⟩ := ih next hsound habsorbed.wellListed habsorbed.backed
      exact ⟨hsound', hext.trans hext', fun last heq => habsorbed.trans (hlast last heq)⟩

def startSpace (a : Assembler) (request : PartType) (own : NamespaceMap) : HeaderSpace :=
  let reachable := (a.catalog.sortedReach request.root []).value
  let shapes := (a.catalog.shapes request.key request.root reachable none).value
  { namespaces := own, props := shapes.props, interfaces := shapes.interfaces }

def withHeaders (a : Assembler) (op : Operation) (request : PartType) (own : NamespaceMap) :
    Naming HeaderSpace :=
  (a.service.headers a.catalog op).value.foldlM a.addHeader (a.startSpace request own)

theorem assembleFrom_spec {op : Operation} {request : PartType} {own : NamespaceMap}
    {last : HeaderSpace} {q : Prefixes}
    (hown : (NamespaceMap.ofRoot a.catalog a.policy request.key request.root).result p = .ok own)
    (hlast : (a.withHeaders op request own).result
      ((NamespaceMap.ofRoot a.catalog a.policy request.key request.root).after p) = .ok last)
    (hq : (a.withHeaders op request own).after
      ((NamespaceMap.ofRoot a.catalog a.policy request.key request.root).after p) = q) :
    let body := (last.namespaces.plan a.catalog a.policy request.key).write request.root none
    ∃ assembled, (a.assembleFrom op request).result p = .ok assembled ∧
      (a.assembleFrom op request).after p = body.after q ∧
      assembled.namespaces = last.namespaces ∧
      assembled.component.tags = last.namespaces.tags ∧
      assembled.component.spaces = last.namespaces.spaces ∧
      assembled.component.body = (body.result q).1 := by
  simp only [withHeaders, startSpace] at hlast hq
  simp only [assembleFrom, Naming.result_bind, Naming.after_bind, Naming.result_lift,
    Naming.after_lift, Naming.result_assigning, Naming.after_assigning, hown, hlast, hq]
  exact ⟨_, rfl, rfl, rfl, rfl, rfl, rfl⟩

theorem headers_of_assembleFrom {op : Operation} {request : PartType} {assembled : Assembled}
    (h : (a.assembleFrom op request).result p = .ok assembled) :
    let account := NamespaceMap.ofRoot a.catalog a.policy request.key request.root
    ∃ own last, account.result p = .ok own ∧
      (a.withHeaders op request own).result (account.after p) = .ok last := by
  intro account
  simp only [assembleFrom, Naming.result_bind, Naming.result_lift, Naming.after_lift] at h
  cases hown : account.result p with
  | error failure => simp [account, hown] at h
  | ok own =>
    simp only [account, hown] at h
    split at h
    · next last hlast => exact ⟨own, last, rfl, hlast⟩
    · simp at h

theorem assembleFrom_body {op : Operation} {request : PartType} {assembled : Assembled}
    (hp : p.Sound) (h : (a.assembleFrom op request).result p = .ok assembled) :
    let first := NamespaceMap.declared a.catalog a.policy request.key request.root
    ∃ d own, first.result p = .ok d ∧
      (NamespaceMap.ofRoot a.catalog a.policy request.key request.root).result p = .ok own ∧
      let observed := (d.plan a.catalog a.policy request.key).write request.root none
      let alone := own.plan a.catalog a.policy request.key
      let final := assembled.namespaces.plan a.catalog a.policy request.key
      let content := final.content request.root none
      let q := (a.assembleFrom op request).after p
      assembled.component.body = (final.markup q content).print ∧
      (assembled.component.body = (observed.result (first.after p)).1 ↔
        alone.Agrees final content) ∧
      (alone.Agrees final content → ∀ e ∈ final.emitted q content,
        (BodyPlan.startsLow e.2 = false →
          e.2 ∈ (assembled.component.tags.value? e.1).getD []) ∧
        ∃ space, assembled.component.spaces.value? e.1 = some space) := by
  intro first
  obtain ⟨own, last, hown, hlast⟩ := headers_of_assembleFrom h
  obtain ⟨made, hmade, hafter, hnamespaces, htags, hspaces, hbody⟩ :=
    assembleFrom_spec hown hlast rfl
  obtain rfl : made = assembled := Except.ok.inj (hmade.symm.trans h)
  obtain ⟨_, _, hspace⟩ :=
    NamespaceMap.ofRoot_spec a.catalog a.policy request.key request.root hp
  obtain ⟨space, hs⟩ := hspace own hown
  obtain ⟨d, m, hd, hm, hsound, _, haccount, htext⟩ :=
    NamespaceMap.ofRoot_accounted a.catalog a.policy request.key hs hp
  obtain rfl : own = m := Except.ok.inj (hown.symm.trans hm)
  obtain ⟨hsound', hext, habsorbed⟩ := a.addHeaders_spec (a.service.headers a.catalog op).value
    (a.startSpace request own) hsound haccount.wellListed haccount.backed
  obtain ⟨htext', hlisted⟩ := haccount.body_absorbed hsound' hext (habsorbed last hlast)
  refine ⟨d, own, hd, hown, ?_⟩
  rw [hnamespaces, hafter, htags, hspaces, hbody]
  refine ⟨rfl, htext.symm ▸ htext', ?_⟩
  intro hagrees e he
  obtain ⟨hpairs, hbound⟩ := hlisted hagrees e he
  exact ⟨fun hlow => (NamespaceMap.mem_pairs (habsorbed last hlast).wellListed).1 (hpairs hlow),
    hbound⟩

theorem result_assembleOnce (a : Assembler) (op : Operation) (p : Prefixes) :
    (a.assembleOnce op).result p = (a.assemble op).result p := rfl

theorem after_assembleOnce (a : Assembler) (op : Operation) (p : Prefixes) :
    (a.assembleOnce op).after p = (a.assemble op).after p := rfl

theorem request_of_assembleOnce {op : Operation} {assembled : Assembled}
    (h : (a.assembleOnce op).result p = .ok assembled) :
    ∃ request, (a.service.request a.catalog op).result = .ok request ∧
      (a.assembleFrom op request).result p = .ok assembled ∧
      (a.assembleOnce op).after p = (a.assembleFrom op request).after p := by
  rw [result_assembleOnce] at h
  rw [after_assembleOnce]
  simp only [assemble, Naming.result_bind, Naming.after_bind, Naming.result_lift,
    Naming.after_lift, Naming.result_ofOutcome, Naming.after_ofOutcome] at h ⊢
  cases hr : (a.service.request a.catalog op).result with
  | error failure => simp [hr] at h
  | ok request =>
    simp only [hr] at h
    exact ⟨request, rfl, h, rfl⟩

/-- Headers and the body of a request, for every operation that comes out well, after any run of
requests for prefixes. The body is written when all headers are merged, and has the text that the
account of the request was made from just when the headers agree with that account: when no
qualified tag that has no namespace, and whose name the account does not know, has its name given
another prefix by a header. Then every tag in the body is listed, and its prefix is bound. -/
theorem body_with_headers (a : Assembler) (taken : Table String)
    (calls : List (Prefix.Policy × String)) (op : Operation) {assembled : Assembled}
    (h : (a.assembleOnce op).result ((prefixesFor calls).after ⟨[], taken⟩) = .ok assembled) :
    let p := (prefixesFor calls).after ⟨[], taken⟩
    ∃ request d own, (a.service.request a.catalog op).result = .ok request ∧
      let first := NamespaceMap.declared a.catalog a.policy request.key request.root
      first.result p = .ok d ∧
      (NamespaceMap.ofRoot a.catalog a.policy request.key request.root).result p = .ok own ∧
      let observed := (d.plan a.catalog a.policy request.key).write request.root none
      let alone := own.plan a.catalog a.policy request.key
      let final := assembled.namespaces.plan a.catalog a.policy request.key
      let content := final.content request.root none
      let q := (a.assembleOnce op).after p
      assembled.component.body = (final.markup q content).print ∧
      (assembled.component.body = (observed.result (first.after p)).1 ↔
        alone.Agrees final content) ∧
      (alone.Agrees final content → ∀ e ∈ final.emitted q content,
        (BodyPlan.startsLow e.2 = false →
          e.2 ∈ (assembled.component.tags.value? e.1).getD []) ∧
        ∃ space, assembled.component.spaces.value? e.1 = some space) := by
  intro p
  have hp : p.Sound := (prefixesFor_spec calls (Prefixes.sound_of_unasked taken)).1
  obtain ⟨request, hrequest, hfrom, hafter⟩ := request_of_assembleOnce h
  obtain ⟨d, own, hd, hown, hbody⟩ := assembleFrom_body hp hfrom
  rw [← hafter] at hbody
  exact ⟨request, d, own, hrequest, hd, hown, hbody⟩

end Assembler

namespace SampleHeader

open NamespaceMap

/-- The request has a qualified tag in no namespace, inside a type that is referred to. A header
has a tag of the same name, in the namespace of the header. -/
def graph : TypeGraph where
  objects := [
    { members := [("Item", { type := .primitive "string", qualified := some true })] },
    { members := [
        ("data", qualifiedMember "urn:a" (.reference { name := "Payload" })),
        ("other", qualifiedMember "urn:a" (.primitive "string"))]
      space := some "urn:a" },
    { members := [("Item", { type := .primitive "string", space := some "urn:h" })]
      space := some "urn:h" }]
  elements := [("urn:a:Req", .object 1), ("urn:h:Hdr", .object 2)]
  complexTypes := [("Payload", 0)]

def message (name part element : String) : Tree :=
  .node [("name", .text name), ("part", .node [("name", .text part), ("element", .text element)])]

def definitions : Tree := .node [
  ("message", .many [message "In" "p" "a:Req", message "HdrMsg" "auth" "h:Hdr"]),
  ("portType", .node [("name", .text "PT")]),
  ("binding", .node [
    ("type", .text "PT"),
    ("operation", .node [
      ("name", .text "Op"),
      ("input", .node [
        ("header", .node [("message", .text "HdrMsg"), ("part", .text "auth")])])])])]

def assembler : Assembler where
  service := ⟨definitions, [("a", "urn:a"), ("h", "urn:h")], graph⟩
  catalog := graph.catalog
  policy := ⟨10, 6⟩

def operation : Operation := ⟨"Op", some "In", none⟩

def request : PartType := ⟨"urn:a:Req", Root.ofId graph 1⟩

def header : PartType := ⟨"urn:h:Hdr", Root.ofId graph 2⟩

theorem request_eq :
    (assembler.service.request assembler.catalog operation).result = .ok request := rfl

theorem headers_eq : (assembler.service.headers assembler.catalog operation).value =
    [⟨"auth", "h:Hdr", "urn:h:Hdr"⟩] := rfl

theorem resolvePart_eq :
    (assembler.catalog.resolvePart ⟨"auth", .element, "h:Hdr", "urn:h:Hdr"⟩).result =
      .ok header := rfl

theorem space_request : Name.given? request.root.node.space = some "urn:a" := by decide

theorem space_header : Name.given? header.root.node.space = some "urn:h" := by decide

theorem accounts : ∃ own other r, r.Sound ∧
    (ofRoot assembler.catalog assembler.policy request.key request.root).result {} = .ok own ∧
    (ofRoot assembler.catalog assembler.policy request.key request.root).after {} = r ∧
    own.Backed r ∧
    (ofRoot assembler.catalog assembler.policy header.key header.root).result r = .ok other := by
  obtain ⟨_, own, _, hown, hr, _, haccount, _⟩ := ofRoot_accounted assembler.catalog
    assembler.policy request.key space_request (Prefixes.sound_of_unasked [])
  obtain ⟨_, other, _, hother, _⟩ := ofRoot_accounted assembler.catalog assembler.policy header.key
    space_header hr
  exact ⟨own, other, _, hr, hown, rfl, haccount.backed, hother⟩

theorem assembled : ∃ own other r result, r.Sound ∧ own.Backed r ∧
    (ofRoot assembler.catalog assembler.policy request.key request.root).result {} = .ok own ∧
    (ofRoot assembler.catalog assembler.policy header.key header.root).result r = .ok other ∧
    (assembler.assembleOnce operation).result {} = .ok result ∧
    (assembler.assembleFrom operation request).result {} = .ok result ∧
    result.namespaces = own.merge other := by
  obtain ⟨own, other, r, hr, hown, hafter, hback, hother⟩ := accounts
  have hroot : (assembler.headerRoot ⟨"auth", "h:Hdr", "urn:h:Hdr"⟩).result r =
      .ok (header, other) := by
    simp only [Assembler.headerRoot, Naming.result_bind, Naming.result_ofOutcome,
      Naming.after_ofOutcome, resolvePart_eq, hother]
    rfl
  obtain ⟨last, hlast, hmerged⟩ :=
    @Assembler.addHeader_of_ok _ _ (assembler.startSpace request own) _ _ _ hroot
  have hheaders : (assembler.withHeaders operation request own).result r = .ok last := by
    simp only [Assembler.withHeaders, headers_eq, List.foldlM_cons, List.foldlM_nil,
      Naming.result_bind, hlast, Naming.result_pure]
  subst hafter
  obtain ⟨result, hresult, _, hnamespaces, _⟩ := Assembler.assembleFrom_spec hown hheaders rfl
  refine ⟨own, other, _, result, hr, hback, hown, hother, ?_, hresult,
    hnamespaces.trans hmerged⟩
  rw [Assembler.result_assembleOnce]
  simp only [Assembler.assemble, Naming.result_bind, Naming.result_lift, Naming.after_lift,
    Naming.result_ofOutcome, Naming.after_ofOutcome, request_eq]
  exact hresult

theorem item_written (b : BodyPlan) (hb : b.catalog = assembler.catalog) :
    ⟨"Item", { type := .primitive "string", qualified := some true }, []⟩ ∈
      Markup.writtenAll (b.content request.root none) := by
  have hnext : graph.catalog.next? (graph.object 1) [1] = none := rfl
  have hdata : (graph.catalog.contentOf "data" (.reference { name := "Payload" })).value =
      .object 0 false := rfl
  have hcontent : b.content request.root none =
      graph.catalog.outlineMembers "props" [1] (graph.object 1).members := by
    unfold BodyPlan.content
    rw [hb]
    exact Catalog.outline_of_next_none hnext
  have hmembers : (graph.object 1).members =
      [("data", qualifiedMember "urn:a" (.reference { name := "Payload" })),
        ("other", qualifiedMember "urn:a" (.primitive "string"))] := rfl
  have hitem : (graph.catalog.graph.object 0).members =
      [("Item", { type := .primitive "string", qualified := some true })] := rfl
  rw [hcontent, hmembers, Catalog.outlineMembers_cons, Catalog.outlineMember_single rfl,
    Catalog.outlineContent_object hdata (by decide), hitem, Catalog.outlineMembers_cons,
    Catalog.outlineMember_single rfl, Catalog.outlineContent_primitive rfl]
  simp [Markup.writtenAll, Markup.written]

theorem rootTags_request : graph.rootTags request.root "urn:a" =
    [⟨"data", "urn:a", true⟩, ⟨"other", "urn:a", true⟩] := by
  show graph.declaredTags request.root.visited
    [("data", qualifiedMember "urn:a" (.reference { name := "Payload" }), "urn:a"),
      ("other", qualifiedMember "urn:a" (.primitive "string"), "urn:a")] = _
  rw [TypeGraph.declaredTags, TypeGraph.declaredTags, TypeGraph.declaredTags]
  rfl

theorem rootTags_header : graph.rootTags header.root "urn:h" = [⟨"Item", "urn:h", false⟩] := by
  show graph.declaredTags header.root.visited
    [("Item", { type := .primitive "string", space := some "urn:h" }, "urn:h")] = _
  rw [TypeGraph.declaredTags, TypeGraph.declaredTags]
  rfl

/-- The header gives the tag its own prefix, so the body is not the one that was observed. -/
theorem header_changes_body : ∃ d result,
    (assembler.service.request assembler.catalog operation).result = .ok request ∧
    (declared assembler.catalog assembler.policy request.key request.root).result {} = .ok d ∧
    (assembler.assembleOnce operation).result {} = .ok result ∧
    result.component.body ≠
      (((d.plan assembler.catalog assembler.policy request.key).write request.root none).result
        ((declared assembler.catalog assembler.policy request.key request.root).after {})).1 := by
  obtain ⟨own, other, r, result, hr, hback, hown, hother, honce, hfrom, hmerged⟩ := assembled
  obtain ⟨d, own', hd, hown', _, hbody, _⟩ :=
    Assembler.assembleFrom_body (Prefixes.sound_of_unasked []) hfrom
  obtain rfl : own = own' := Except.ok.inj (hown.symm.trans hown')
  refine ⟨d, result, request_eq, hd, honce, ?_⟩
  rw [Ne, hbody, hmerged]
  intro hagrees
  have hunknown : own.types.value? "Item" = none := by
    have htypes := types_ofRoot space_request (Prefixes.sound_of_unasked []) hown "Item"
    rw [show assembler.catalog.graph = graph from rfl, rootTags_request] at htypes
    exact Option.map_eq_none_iff.1 htypes
  obtain ⟨bound, hbound, hspace⟩ : ∃ bound, other.types.value? "Item" = some bound ∧
      bound.space = "urn:h" := by
    have htypes := types_ofRoot space_header hr hother "Item"
    rw [show assembler.catalog.graph = graph from rfl, rootTags_header] at htypes
    exact Option.map_eq_some_iff.1 htypes
  have hsame : bound.tagPrefix = own.basePrefix := by
    refine hagrees _ (item_written _ rfl) ⟨rfl, rfl, hunknown⟩ bound ?_
    show (own.merge other).types.value? "Item" = some bound
    rw [types_merge, hunknown, hbound, Option.none_or]
  obtain ⟨_, other', _, hother', hsound, hext, haccount, _⟩ := ofRoot_accounted assembler.catalog
    assembler.policy header.key space_header hr
  obtain rfl : other = other' := Except.ok.inj (hother.symm.trans hother')
  have hbase := base_ofRoot space_request (Prefixes.sound_of_unasked []) hown
  have hrequest := hext.bySpace (hback.spaces hbase).2
  have hheader := (haccount.backed.types hbound).2
  rw [hsame] at hheader
  have heq := hsound.space_unique hheader hrequest
  rw [hspace] at heq
  exact absurd heq (by decide)

/-- Nothing is asked of the headers but that the operation comes out well. -/
theorem body_with_sample_header : ∃ result,
    (assembler.assembleOnce operation).result {} = .ok result ∧
    ∃ found own, (assembler.service.request assembler.catalog operation).result = .ok found ∧
      (ofRoot assembler.catalog assembler.policy found.key found.root).result {} = .ok own := by
  obtain ⟨_, _, _, result, _, _, _, _, honce, _, _⟩ := assembled
  obtain ⟨found, _, own, hfound, _, hown, _⟩ :=
    Assembler.body_with_headers assembler [] [] operation honce
  exact ⟨result, honce, found, own, hfound, hown⟩

end SampleHeader

end SoapComponents
