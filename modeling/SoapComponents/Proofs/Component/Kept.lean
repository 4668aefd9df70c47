import SoapComponents.Proofs.Component.Fields
import SoapComponents.Proofs.Component.Parts

/-!
Headers that are kept in a component, and the parts that they were declared with. All that is made
of a header comes from one root. It is the one that the part stands for where the part names an
element; where it names a type, an element of the same key is taken in its place.
-/

set_option autoImplicit false

namespace SoapComponents

open Assigning

namespace HeaderSpace

structure Grows (space next : HeaderSpace) : Prop where
  fields : space.props.fields <+: next.props.fields
  interfaces : space.interfaces <+: next.interfaces
  markups : space.markups <+: next.markups
  namespaces : space.namespaces.Extends next.namespaces

theorem Grows.refl (space : HeaderSpace) : space.Grows space :=
  ⟨List.prefix_rfl, List.prefix_rfl, List.prefix_rfl, .refl _⟩

theorem Grows.trans {space next last : HeaderSpace} (h : space.Grows next) (h' : next.Grows last) :
    space.Grows last :=
  ⟨h.fields.trans h'.fields, h.interfaces.trans h'.interfaces, h.markups.trans h'.markups,
    h.namespaces.trans h'.namespaces⟩

/-- What was gathered is in a component. -/
structure PartOf (space : HeaderSpace) (assembled : Assembled) : Prop where
  fields : space.props.fields <+: assembled.component.props.fields
  interfaces : space.interfaces <+: assembled.component.interfaces
  markups : space.markups <+: assembled.component.headers
  namespaces : space.namespaces.Extends assembled.namespaces

end HeaderSpace

namespace Assembler

variable {a : Assembler} {p : Prefixes} {header : Header} {space next last : HeaderSpace}

theorem grows_addHeaderRoot (a : Assembler) (space : HeaderSpace) (header : Header)
    (found : PartType) (namespaces : NamespaceMap) (p : Prefixes) :
    space.Grows ((a.addHeaderRoot space header found namespaces).result p) := by
  rw [result_addHeaderRoot]
  exact ⟨List.prefix_append _ _, prefix_addUnknown _ _, List.prefix_append _ _,
    NamespaceMap.extends_merge _ _⟩

/-- A header joins what was gathered before it: its markup comes last, and everything is made of one
root. -/
structure Joins (a : Assembler) (kept : HeaderMarkup) (found : PartType)
    (space next : HeaderSpace) : Prop where
  part : (a.catalog.resolvePart kept.header.messagePart).result = .ok found
  made : ∃ namespaces p,
    (NamespaceMap.ofRoot a.catalog a.policy found.key found.root).result p = .ok namespaces ∧
    (a.addHeaderRoot space kept.header found namespaces).result
      ((NamespaceMap.ofRoot a.catalog a.policy found.key found.root).after p) = next
  markups : next.markups = space.markups ++ [kept]

theorem addHeader_joins (h : (a.addHeader space header).result p = .ok next) :
    next = space ∨ ∃ kept found, kept.header = header ∧ a.Joins kept found space next := by
  rcases addHeader_cases h with hsame | ⟨found, namespaces, hpart, hown, hnext⟩
  · exact .inl hsame
  · have hmarkups := congrArg HeaderSpace.markups hnext
    rw [result_addHeaderRoot] at hmarkups
    exact .inr ⟨a.headerMarkup header found namespaces _, found, rfl, hpart,
      ⟨namespaces, p, hown, hnext⟩, hmarkups.symm⟩

theorem Joins.grows {kept : HeaderMarkup} {found : PartType} (h : a.Joins kept found space next) :
    space.Grows next := by
  obtain ⟨namespaces, p, -, rfl⟩ := h.made
  exact a.grows_addHeaderRoot space kept.header found namespaces _

theorem addHeaders_joins {headers : List Header}
    (h : (headers.foldlM a.addHeader space).result p = .ok last) :
    space.Grows last ∧ ∀ kept ∈ last.markups, kept ∈ space.markups ∨ kept.header ∈ headers ∧
      ∃ found before next, a.Joins kept found before next ∧ next.Grows last := by
  induction headers generalizing space p with
  | nil =>
    obtain rfl := Except.ok.inj h
    exact ⟨.refl _, fun kept hkept => .inl hkept⟩
  | cons header rest ih =>
    rw [List.foldlM_cons] at h
    obtain ⟨next, hnext, hrest⟩ := Naming.result_bind_eq_ok h
    obtain ⟨hgrows, hlater⟩ := ih hrest
    rcases addHeader_joins hnext with rfl | ⟨first, found, hheader, hjoins⟩
    · refine ⟨hgrows, fun kept hkept => (hlater kept hkept).imp_right ?_⟩
      exact And.imp_left (List.mem_cons_of_mem _)
    · refine ⟨hjoins.grows.trans hgrows, fun kept hkept => ?_⟩
      rcases hlater kept hkept with hold | ⟨hmem, hlast⟩
      · rw [hjoins.markups] at hold
        rcases List.mem_append.1 hold with hold | hfirst
        · exact .inl hold
        · obtain rfl := List.mem_singleton.1 hfirst
          exact .inr ⟨hheader ▸ List.mem_cons_self, found, space, next, hjoins, hgrows⟩
      · exact .inr ⟨List.mem_cons_of_mem _ hmem, hlast⟩

theorem joins_of_assembleOnce {op : Operation} {assembled : Assembled}
    (h : (a.assembleOnce op).result p = .ok assembled) :
    ∀ kept ∈ assembled.component.headers, kept.header ∈ (a.service.headers a.catalog op).value ∧
      ∃ found before next, a.Joins kept found before next ∧ next.PartOf assembled := by
  obtain ⟨request, own, last, q, -, -, hlast, hcomponent, hnamespaces⟩ :=
    component_of_assembleOnce h
  intro kept hkept
  rw [hcomponent] at hkept
  obtain ⟨hmem, found, before, next, hjoins, hgrows⟩ :=
    ((addHeaders_joins hlast).2 kept hkept).resolve_left List.not_mem_nil
  refine ⟨hmem, found, before, next, hjoins, ?_, ?_, ?_, ?_⟩
  · rw [hcomponent]
    exact hgrows.fields
  · rw [hcomponent]
    exact hgrows.interfaces
  · rw [hcomponent]
    exact hgrows.markups
  · rw [hnamespaces]
    exact hgrows.namespaces

theorem headers_of_usable_singleton {op : Operation} {assembled : Assembled} (hp : p.Sound)
    (h : (a.assembleOnce op).result p = .ok assembled)
    (husable : a.usable (a.service.headers a.catalog op).value = [header]) :
    ∃ kept, assembled.component.headers = [kept] ∧ kept.header = header := by
  obtain ⟨-, -, -, hheaders⟩ := fieldNames_of_assembleOnce hp h
  rw [husable] at hheaders
  exact List.map_eq_singleton_iff.1 hheaders

/-- The headers of a component, for every operation that comes out well after any run of requests
for prefixes, against the parts that they were declared with. All that is made of a header comes from
one root, under the key of the header. The part stands for the same root if it names an element, or
a type whose key no element has, unless it names a built-in type. In general it stands for the same
root just when the entry that it names, by the kind of its name, has this root. As the input of an
operation it would be taken for what it stands for. -/
theorem headers_as_parts (s : Service) (policy : Prefix.Policy) (taken : Table String)
    (calls : List (Prefix.Policy × String)) (op : Operation) {assembled : Assembled}
    (h : (assembleOnce ⟨s, s.graph.catalog, policy⟩ op).result
      ((prefixesFor calls).after ⟨[], taken⟩) = .ok assembled) :
    let c := s.graph.catalog
    ∀ kept ∈ assembled.component.headers,
      ∃ declaration ∈ s.headerDeclarations op, ∃ node part found before next,
        s.headerPart? declaration = some node ∧ s.declaredPart? node = some part ∧
        kept.header.part = part.name ∧ kept.header.written = part.written ∧
        Joins ⟨s, c, policy⟩ kept found before next ∧ next.PartOf assembled ∧
        found.key = kept.header.key ∧
        (part.isSimple = false → (part.kind = .element ∨ node.attribute? "element" = none ∧
            s.graph.elements.value? kept.header.key = none) →
          (c.resolvePart part).result = .ok found) ∧
        ((c.resolvePart part).result = .ok found ↔ part.isSimple = false ∧
          ∃ named, c.lookup part.key (part.kind == .type) [] = some named ∧
            c.entryPart? named.entry.key named.node = some found) ∧
        ∀ asked : Operation, (asked.input.bind fun ref => (s.messagePart? ref).value) = some part →
          (s.request c asked).result = (c.resolvePart part).result := by
  intro c kept hkept
  obtain ⟨hmem, found, before, next, hjoins, hwithin⟩ := joins_of_assembleOnce h kept hkept
  rw [Service.value_headers] at hmem
  obtain ⟨declaration, hdeclaration, hheader⟩ := List.mem_filterMap.1 hmem
  obtain ⟨node, part, named, hnode, hpart, hnamed, hsame⟩ := Service.part_of_header hheader
  have hfound := hjoins.part
  rw [hsame] at hfound
  obtain ⟨hkey, hequal⟩ := Service.resolvePart_of_header hpart hnamed hfound
  refine ⟨declaration, hdeclaration, node, part, found, before, next, hnode, hpart, ?_, ?_, hjoins,
    hwithin, ?_, ?_, Catalog.resolvePart_eq_ok, fun asked hasked => ?_⟩
  · rw [hsame]
  · rw [hsame]
  · rw [hsame]
    exact hkey
  · rw [hsame]
    exact hequal
  · obtain ⟨ref, hinput, hvalue⟩ := Option.bind_eq_some_iff.1 hasked
    exact Service.result_request hinput hvalue

end Assembler

namespace SampleHeader

theorem header_of_element_part : ∃ result,
    (assembler.assembleOnce operation).result {} = .ok result ∧
    ∀ kept ∈ result.component.headers, ∃ found before next,
      assembler.Joins kept found before next ∧ next.PartOf result ∧
      (assembler.catalog.resolvePart ⟨"auth", .element, "h:Hdr", "urn:h:Hdr"⟩).result =
        .ok found := by
  obtain ⟨_, _, _, result, _, _, _, _, honce, _, _⟩ := assembled
  refine ⟨result, honce, fun kept hkept => ?_⟩
  obtain ⟨declaration, hdeclaration, node, part, found, before, next, hnode, hpart, -, -, hjoins,
    hwithin, -, hequal, -⟩ := Assembler.headers_as_parts assembler.service assembler.policy [] []
      operation honce kept hkept
  obtain rfl := List.mem_singleton.1 hdeclaration
  obtain rfl := Option.some.inj hnode
  obtain rfl := Option.some.inj hpart
  exact ⟨found, before, next, hjoins, hwithin, hequal (by decide) (.inl rfl)⟩

end SampleHeader

namespace SampleTypePart

open SampleHeader

/-- The part of the header names the type; the element of the same name has another content. -/
def graph : TypeGraph where
  objects := [
    { members := [("id", { type := .primitive "string" }), ("key", { type := .primitive "string" })]
      space := some "urn:a" },
    { members := [("token", { type := .primitive "string" })], space := some "urn:h" },
    { members := [("user", { type := .primitive "string" })], space := some "urn:h" }]
  elements := [("urn:a:Req", .object 0), ("urn:h:Auth", .object 1)]
  complexTypes := [("urn:h:Auth", 2)]

def authPart : Tree := .node [("name", .text "auth"), ("type", .text "h:Auth")]

def definitions : Tree := .node [
  ("message", .many [message "In" "p" "a:Req",
    .node [("name", .text "HdrMsg"), ("part", authPart)]]),
  ("portType", .node [("name", .text "PT")]),
  ("binding", .node [
    ("type", .text "PT"),
    ("operation", .node [
      ("name", .text "Op"),
      ("input", .node [
        ("header", .node [("message", .text "HdrMsg"), ("part", .text "auth")])])])])]

def assembler : Assembler where
  service := ⟨definitions, [("a", "urn:a"), ("h", "urn:h")], graph⟩
  catalog := graph.catalog
  policy := ⟨10, 6⟩

def request : PartType := ⟨"urn:a:Req", Root.ofId graph 0⟩

/-- The header is made of the element, although its part stands for the type. -/
theorem element_taken_for_type : ∃ result part,
    (assembler.assembleOnce operation).result {} = .ok result ∧
    assembler.service.declaredPart? authPart = some part ∧
    (assembler.catalog.resolvePart part).result = .ok ⟨"urn:h:Auth", Root.ofId graph 2⟩ ∧
    ∃ kept ∈ result.component.headers, ∃ before next,
      assembler.Joins kept ⟨"urn:h:Auth", Root.ofId graph 1⟩ before next ∧ next.PartOf result := by
  have hrequest : (assembler.service.request assembler.catalog operation).result =
      .ok request := rfl
  obtain ⟨result, hmade⟩ := Assembler.exists_assembleOnce (Prefixes.sound_of_unasked []) hrequest
  have husable : assembler.usable (assembler.service.headers assembler.catalog operation).value =
      [⟨"auth", "h:Auth", "urn:h:Auth"⟩] := rfl
  obtain ⟨kept, hkept, hheader⟩ :=
    Assembler.headers_of_usable_singleton (Prefixes.sound_of_unasked []) hmade husable
  have hmem : kept ∈ result.component.headers := hkept ▸ List.mem_cons_self
  obtain ⟨-, found, before, next, hjoins, hwithin⟩ :=
    Assembler.joins_of_assembleOnce hmade kept hmem
  have hpart := hjoins.part
  rw [hheader] at hpart
  obtain rfl : ⟨"urn:h:Auth", Root.ofId graph 1⟩ = found := Except.ok.inj hpart
  exact ⟨result, ⟨"auth", .type, "h:Auth", "urn:h:Auth"⟩, hmade, rfl, rfl, kept, hmem, before, next,
    hjoins, hwithin⟩

end SampleTypePart

end SoapComponents
