import SoapComponents.Proofs.Component.Kept
import SoapComponents.Proofs.Interface.Gathering
import SoapComponents.Proofs.Markup.Fields
import SoapComponents.Proofs.Reference.Walking

/-!
The interface that the props name for a header, against the markup of the header. The markup reads
the payload of the header, and the interface that a header brings has the fields of this payload;
but the first interface of a name counts, and the request or an earlier header may have asked for
one of that name before.
-/

set_option autoImplicit false

namespace SoapComponents

open Assigning

theorem addUnknown_append (known added more : List Interface) :
    addUnknown known (added ++ more) = addUnknown (addUnknown known added) more :=
  List.foldl_append

theorem find?_addUnknown (known added : List Interface) (name : String) :
    (addUnknown known added).find? (·.name == name) =
      (known ++ added).find? (·.name == name) := by
  induction added generalizing known with
  | nil => rw [List.append_nil]; rfl
  | cons i rest ih =>
    rw [addUnknown_cons, ih]
    by_cases hknown : i.name ∈ known.map (·.name)
    · rw [if_pos hknown, List.find?_append, List.find?_append, List.find?_cons]
      -- an interface that is left out has the name of one that is there
      by_cases hname : i.name = name
      · obtain ⟨j, hj, hsame⟩ := List.mem_map.1 hknown
        have hsome : (known.find? (·.name == name)).isSome :=
          List.find?_isSome.2 ⟨j, hj, by simp [hsame, hname]⟩
        rw [Option.or_of_isSome hsome, Option.or_of_isSome hsome]
      · rw [show (i.name == name) = false by simpa using hname]
    · rw [if_neg hknown, List.append_assoc, List.singleton_append]

theorem filter_name_of_find? {found : List Interface} {name : String} {i : Interface}
    (hnodup : (found.map (·.name)).Nodup) (h : found.find? (·.name == name) = some i) :
    found.filter (·.name == name) = [i] := by
  induction found with
  | nil => cases h
  | cons first rest ih =>
    rw [List.map_cons, List.nodup_cons] at hnodup
    obtain ⟨hfirst, hrest⟩ := hnodup
    by_cases hname : first.name = name
    · have hnone : rest.filter (·.name == name) = [] := by
        rw [List.filter_eq_nil_iff]
        intro j hj hsame
        have hj' : j.name = first.name := (eq_of_beq hsame).trans hname.symm
        exact hfirst (hj' ▸ List.mem_map_of_mem hj)
      rw [List.find?_cons_of_pos (by simpa using hname)] at h
      obtain rfl := Option.some.inj h
      rw [List.filter_cons_of_pos (by simpa using hname), hnone]
    · rw [List.find?_cons_of_neg (by simpa using hname)] at h
      rw [List.filter_cons_of_neg (by simpa using hname), ih hrest h]

/-- The markup is that of the payload of a root at a path, within the tags of the root and of what
wraps the payload. -/
def HeaderMarkup.Renders (kept : HeaderMarkup) (c : Catalog) (root : Root) (path : String) : Prop :=
  ∃ (b : BodyPlan) (q : Prefixes), b.catalog = c ∧
    let chain := (c.payloads root.node root.visited).value
    kept.markup =
      ((b.rootPrefix ++ "." ++ b.rootTag) :: chain.map (b.wrapperTag q)).foldr Markup.enclose
        ("\n".intercalate (Markup.printAll (Markup.mapAll (b.tagName q)
          (c.outlineMembers path ((chain.map (·.id)).reverse ++ root.visited)
            (c.expand root).value.node.members))))

namespace Assembler

variable {a : Assembler} {p : Prefixes} {kept : HeaderMarkup} {found : PartType}
  {space next last : HeaderSpace}

def broughtBy (a : Assembler) (header : Header) : List Interface :=
  match (a.catalog.resolvePart header.messagePart).result with
  | .ok found => a.headerInterfaces header found
  | .error _ => []

def requestInterfaces (a : Assembler) (request : PartType) : List Interface :=
  (a.catalog.shapes request.key request.root
    (a.catalog.sortedReach request.root []).value none).value.interfaces

/-- All interfaces that were asked for when these headers are added, in their order, those of a name
that is there already among them. -/
def asked (a : Assembler) (request : PartType) (headers : List HeaderMarkup) : List Interface :=
  a.requestInterfaces request ++ headers.flatMap fun kept => a.broughtBy kept.header

theorem asked_append (a : Assembler) (request : PartType) (earlier later : List HeaderMarkup) :
    a.asked request (earlier ++ later) =
      a.asked request earlier ++ later.flatMap fun kept => a.broughtBy kept.header := by
  rw [asked, asked, List.flatMap_append, List.append_assoc]

theorem broughtBy_of_ok {header : Header}
    (h : (a.catalog.resolvePart header.messagePart).result = .ok found) :
    a.broughtBy header = a.headerInterfaces header found := by
  rw [broughtBy, h]

theorem Joins.interfaces (h : a.Joins kept found space next) :
    next.interfaces = addUnknown space.interfaces (a.broughtBy kept.header) := by
  obtain ⟨namespaces, p, -, rfl⟩ := h.made
  rw [broughtBy_of_ok h.part, result_addHeaderRoot]

theorem Joins.field (h : a.Joins kept found space next) :
    ⟨Name.camel kept.header.part, .interface (Name.pascal kept.header.key), .one⟩ ∈
      next.props.fields := by
  obtain ⟨namespaces, p, -, rfl⟩ := h.made
  rw [result_addHeaderRoot]
  exact List.mem_append_right _ (List.mem_singleton.2 rfl)

theorem Joins.renders (h : a.Joins kept found space next) :
    kept.Renders a.catalog found.root
      (BodyPlan.basePath (some (Name.camel kept.header.part))) := by
  obtain ⟨namespaces, p, -, hnext⟩ := h.made
  have hmarkups := congrArg HeaderSpace.markups hnext
  rw [result_addHeaderRoot, h.markups] at hmarkups
  have hkept := List.singleton_inj.1 (List.append_cancel_left hmarkups)
  let b := namespaces.plan a.catalog a.policy found.key
  have htext := b.text_write found.root (some (Name.camel kept.header.part))
    ((NamespaceMap.ofRoot a.catalog a.policy found.key found.root).after p)
  exact ⟨b, _, rfl, (congrArg HeaderMarkup.markup hkept).symm.trans htext⟩

theorem addHeaders_interfaces {headers : List Header}
    (h : (headers.foldlM a.addHeader space).result p = .ok last) :
    ∃ joined, last.markups = space.markups ++ joined ∧ last.interfaces =
      addUnknown space.interfaces (joined.flatMap fun kept => a.broughtBy kept.header) := by
  induction headers generalizing space p with
  | nil =>
    obtain rfl := Except.ok.inj h
    exact ⟨[], (List.append_nil _).symm, rfl⟩
  | cons header rest ih =>
    rw [List.foldlM_cons] at h
    obtain ⟨next, hnext, hrest⟩ := Naming.result_bind_eq_ok h
    obtain ⟨joined, hmarkups, hinterfaces⟩ := ih hrest
    rcases addHeader_joins hnext with rfl | ⟨first, found, -, hjoins⟩
    · exact ⟨joined, hmarkups, hinterfaces⟩
    · refine ⟨first :: joined, ?_, ?_⟩
      · rw [hmarkups, hjoins.markups, List.append_assoc, List.singleton_append]
      · rw [hinterfaces, hjoins.interfaces, List.flatMap_cons, addUnknown_append]

theorem interfaces_of_assembleOnce {op : Operation} {assembled : Assembled}
    (h : (a.assembleOnce op).result p = .ok assembled) :
    let k := assembled.component
    ∃ request, (a.service.request a.catalog op).result = .ok request ∧
      (k.interfaces.map (·.name)).Nodup ∧ ∀ name,
        k.interfaces.find? (·.name == name) =
          (a.asked request k.headers).find? (·.name == name) := by
  intro k
  obtain ⟨request, own, last, q, hrequest, -, hlast, hcomponent, -⟩ := component_of_assembleOnce h
  obtain ⟨other, hother, harranged⟩ := arranged_of_assembleOnce h
  obtain ⟨joined, hmarkups, hinterfaces⟩ := addHeaders_interfaces hlast
  have hk : k = a.componentOf request last _ _ := hcomponent
  have hheaders : k.headers = joined := by
    rw [hk]
    exact hmarkups
  have hall : k.interfaces = addUnknown (a.requestInterfaces request)
      (k.headers.flatMap fun kept => a.broughtBy kept.header) := by
    rw [hheaders, hk]
    exact hinterfaces
  refine ⟨request, hrequest, harranged.nodup, fun name => ?_⟩
  rw [hall, find?_addUnknown]
  rfl

/-- The interface of each header of a component, for every operation that comes out well. The props
have a field for the header, the markup renders the payload of the header at the path of this field,
and just one interface has the name that the field has as its type. It is the first of this name
that was asked for, by the request or by an earlier header; and if none was, it has the fields of
the payload. So it declares what the markup reads just when the first one does. -/
theorem header_interfaces (a : Assembler) {p : Prefixes} {op : Operation} {assembled : Assembled}
    (h : (a.assembleOnce op).result p = .ok assembled) :
    let c := a.catalog
    let k := assembled.component
    let texts := fun fields : List Field => fields.map Field.texts
    ∃ request, (a.service.request c op).result = .ok request ∧
      ∀ earlier kept later, k.headers = earlier ++ kept :: later →
        let field := Name.camel kept.header.part
        let type := Name.pascal kept.header.key
        let first? := (a.asked request earlier).find? (·.name == type)
        ∃ found declared, (c.resolvePart kept.header.messagePart).result = .ok found ∧
          let payload := (c.fields (c.expand found.root).value.node).value
          ⟨field, .interface type, .one⟩ ∈ k.props.fields ∧
          kept.Renders c found.root (BodyPlan.basePath (some field)) ∧
          k.interfaces.filter (·.name == type) = [declared] ∧
          declared = first?.getD ⟨type, payload⟩ ∧
          (texts declared.fields = texts payload ↔
            ∀ first, first? = some first → texts first.fields = texts payload) := by
  intro c k texts
  obtain ⟨request, hrequest, hnodup, hfirst⟩ := interfaces_of_assembleOnce h
  refine ⟨request, hrequest, fun earlier kept later hsplit => ?_⟩
  intro field type first?
  obtain ⟨-, found, before, next, hjoins, hwithin⟩ := joins_of_assembleOnce h kept
    (show kept ∈ k.headers from hsplit ▸ List.mem_append_right _ List.mem_cons_self)
  let payload := (c.fields (c.expand found.root).value.node).value
  have hown : (a.broughtBy kept.header).find? (·.name == type) = some ⟨type, payload⟩ := by
    rw [broughtBy_of_ok hjoins.part, headerInterfaces, Catalog.value_shapes]
    exact List.find?_cons_of_pos (beq_self_eq_true type)
  have hdeclared : k.interfaces.find? (·.name == type) =
      some (first?.getD ⟨type, payload⟩) := by
    rw [hfirst, hsplit, asked_append, List.find?_append, List.flatMap_cons, List.find?_append, hown,
      Option.some_or]
    exact Option.or_some
  refine ⟨found, _, hjoins.part, hwithin.fields.subset hjoins.field, hjoins.renders,
    filter_name_of_find? hnodup hdeclared, rfl, ?_⟩
  cases first? with
  | none => exact ⟨fun _ => nofun, fun _ => rfl⟩
  | some first => simp [payload]

end Assembler

namespace SampleHeader

/-- A header of a name that nothing else has. -/
theorem interface_of_sample_header : ∃ result earlier kept later,
    (assembler.assembleOnce operation).result {} = .ok result ∧
    result.component.headers = earlier ++ kept :: later ∧
    ∃ (found : PartType) (declared : Interface),
      kept.Renders assembler.catalog found.root "props.auth" ∧
      result.component.interfaces.filter (·.name == "Hdr") = [declared] := by
  obtain ⟨_, _, _, result, _, _, _, _, honce, _, _⟩ := assembled
  have husable : assembler.usable (assembler.service.headers assembler.catalog operation).value =
      [⟨"auth", "h:Hdr", "urn:h:Hdr"⟩] := rfl
  obtain ⟨kept, hkept, hheader⟩ :=
    Assembler.headers_of_usable_singleton (Prefixes.sound_of_unasked []) honce husable
  obtain ⟨request, -, hinterfaces⟩ := assembler.header_interfaces honce
  obtain ⟨found, declared, -, -, hrenders, hdeclared, -, -⟩ := hinterfaces [] kept [] hkept
  rw [hheader] at hrenders hdeclared
  exact ⟨result, [], kept, [], honce, hkept, found, declared, hrenders, hdeclared⟩

end SampleHeader

namespace SampleWrapper

open SampleHeader

def text : Member TypeNode := { type := .primitive "string" }

/-- The request holds the element of its header, and this wraps what it is about. -/
def graph : TypeGraph where
  objects := [
    { members := [("Hdr", { type := .reference { name := "urn:h:Hdr" } })], space := some "urn:a" },
    { members := [("credentials", { type := .object 2 })], space := some "urn:h" },
    { members := [("user", text), ("pass", text)] }]
  elements := [("urn:a:Req", .object 0), ("urn:h:Hdr", .object 1)]

def assembler : Assembler where
  service := ⟨definitions, [("a", "urn:a"), ("h", "urn:h")], graph⟩
  catalog := graph.catalog
  policy := ⟨10, 6⟩

def request : PartType := ⟨"urn:a:Req", Root.ofId graph 0⟩

def header : PartType := ⟨"urn:h:Hdr", Root.ofId graph 1⟩

def wrapper : Interface := ⟨"Hdr", [⟨"credentials", .interface "Credentials", .one⟩]⟩

def credentials : Interface :=
  ⟨"Credentials", [⟨"user", .host .string, .one⟩, ⟨"pass", .host .string, .one⟩]⟩

theorem reach_request : (graph.catalog.sortedReach request.root []).value = ["urn:h:Hdr"] := by
  let members := request.root.node.members
  have hends : (graph.catalog.reachWithin 5 ⟨[], [0]⟩ members).Ends _ _ :=
    Catalog.ends_reachWithin (.inr (by decide))
  have hwithin : (graph.catalog.reachWithin 5 ⟨[], [0]⟩ members).Ends
      ⟨["urn:h:Hdr"], [2, 1, 0]⟩ [] := rfl
  have hsorted : (graph.catalog.sortedReach request.root []).value =
      ((graph.catalog.reachFrom members ⟨[], [0]⟩).value.keys.mergeSort
        (fun a b => a ≤ b)).eraseDups := rfl
  rw [hsorted, hends.unique hwithin, List.mergeSort_singleton]
  rfl

theorem interfaces_request : assembler.requestInterfaces request =
    [⟨"Req", [⟨"hdr", .interface "Hdr", .one⟩]⟩, wrapper, credentials] := by
  obtain ⟨props, met, notices, hrun⟩ : ∃ props met notices,
      (graph.catalog.shapesWithin 20 request.key request.root ["urn:h:Hdr"] none).Ends
        (⟨props, [⟨"Req", [⟨"hdr", .interface "Hdr", .one⟩]⟩, wrapper, credentials]⟩, met)
        notices := ⟨⟨"ReqProps", credentials.fields⟩, _, _, rfl⟩
  obtain ⟨g, -, -, hends⟩ :=
    graph.catalog.ends_shapesWithin request.key request.root ["urn:h:Hdr"] none
  obtain ⟨hshapes, -⟩ := Prod.mk.inj ((hends 20 (by decide) (by decide +kernel)).unique hrun)
  show (graph.catalog.shapes request.key request.root
    (graph.catalog.sortedReach request.root []).value none).value.interfaces = _
  rw [reach_request, hshapes]

theorem payload_header : (graph.catalog.expand header.root).value = Root.ofId graph 2 := by
  have hends := graph.catalog.ends_expand header.root (Nat.lt_succ_self _)
  have hwithin : (graph.catalog.expandWithin 4 header.root.visited header.root).Ends
      (Root.ofId graph 2) [] := rfl
  exact hends.unique hwithin

/-- The interface that the props name for the header is that of the wrapper, but the markup of the
header reads what is in it. -/
theorem wrapper_declared : ∃ result kept found,
    (assembler.assembleOnce operation).result {} = .ok result ∧
    result.component.headers = [kept] ∧
    ⟨"auth", .interface "Hdr", .one⟩ ∈ result.component.props.fields ∧
    (assembler.catalog.resolvePart kept.header.messagePart).result = .ok found ∧
    kept.Renders assembler.catalog found.root "props.auth" ∧
    result.component.interfaces.filter (·.name == "Hdr") = [wrapper] ∧
    wrapper.fields.map Field.texts ≠
      (assembler.catalog.fields
        (assembler.catalog.expand found.root).value.node).value.map Field.texts := by
  have hrequest : (assembler.service.request assembler.catalog operation).result =
      .ok request := rfl
  obtain ⟨result, hmade⟩ := Assembler.exists_assembleOnce (Prefixes.sound_of_unasked []) hrequest
  have husable : assembler.usable (assembler.service.headers assembler.catalog operation).value =
      [⟨"auth", "h:Hdr", "urn:h:Hdr"⟩] := rfl
  obtain ⟨kept, hkept, hheader⟩ :=
    Assembler.headers_of_usable_singleton (Prefixes.sound_of_unasked []) hmade husable
  obtain ⟨-, found, before, next, hjoins, hwithin⟩ :=
    Assembler.joins_of_assembleOnce hmade kept (hkept ▸ List.mem_cons_self)
  have hfield := hwithin.fields.subset hjoins.field
  have hrenders := hjoins.renders
  have hpart := hjoins.part
  rw [hheader] at hfield hrenders hpart
  obtain rfl : header = found := Except.ok.inj hpart
  obtain ⟨other, hother, hnodup, hfirst⟩ := Assembler.interfaces_of_assembleOnce hmade
  obtain rfl : request = other := Except.ok.inj (hrequest.symm.trans hother)
  have hdeclared : result.component.interfaces.find? (·.name == "Hdr") = some wrapper := by
    rw [hfirst, Assembler.asked, List.find?_append, interfaces_request]
    rfl
  refine ⟨result, kept, header, hmade, hkept, hfield, hjoins.part, hrenders,
    filter_name_of_find? hnodup hdeclared, ?_⟩
  show _ ≠ (graph.catalog.fields
    (graph.catalog.expand header.root).value.node).value.map Field.texts
  rw [payload_header]
  decide +kernel

end SampleWrapper

end SoapComponents
