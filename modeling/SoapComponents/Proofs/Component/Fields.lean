import SoapComponents.Proofs.Component.Declared
import SoapComponents.Proofs.Identifier

/-!
The fields that the props of a component have, and the names that these come from: the members of
the payload of the request, and the parts of the headers that can be used. A field keeps the letters
and digits of a local name, but not the case of all, nor anything else; so names that differ only
in the rest have the same field.
-/

set_option autoImplicit false

namespace SoapComponents

open Assigning

namespace Name

/-- A local name of letters and digits that does not begin with a capital. -/
def IsPlain (name : String) : Prop :=
  (∀ c ∈ (localPart name).toList, Text.isAsciiAlphanum c = true) ∧
    (localPart name).toList.head?.all fun c => !c.isUpper

theorem nodup_camel_of_skeleton {names : List String} (h : (names.map skeleton).Nodup) :
    (names.map camel).Nodup := by
  rw [List.Nodup, List.pairwise_map] at h ⊢
  exact h.imp fun hne heq => hne (skeleton_eq_of_camel_eq heq)

theorem nodup_camel_iff {names : List String} (h : ∀ name ∈ names, IsPlain name) :
    (names.map camel).Nodup ↔ (names.map localPart).Nodup := by
  rw [List.map_congr_left fun name hname => camel_eq_localPart (h name hname).1 (h name hname).2]

end Name

theorem Catalog.fieldPath_inj {path a b : String} :
    fieldPath path a = fieldPath path b ↔ Name.camel a = Name.camel b :=
  String.append_right_inj _

namespace Assembler

variable {a : Assembler} {p : Prefixes}

theorem addHeader_field (hp : p.Sound) {space next : HeaderSpace} {header : Header}
    (h : (a.addHeader space header).result p = .ok next) :
    next.props.fieldNames =
        space.props.fieldNames ++ (a.usable [header]).map (Name.camel ·.part) ∧
      next.markups.map (·.header) = space.markups.map (·.header) ++ a.usable [header] := by
  cases hpart : (a.catalog.resolvePart header.messagePart).result with
  | error failure =>
    obtain rfl := Except.ok.inj ((addHeader_of_error hpart space p).1.symm.trans h)
    simp [usable, hpart]
  | ok found =>
    obtain ⟨namespaces, hroot⟩ := headerRoot_of_ok hpart hp
    simp only [addHeader, Naming.result_bind, Naming.result_liftExcept, hroot] at h
    obtain rfl := Except.ok.inj h
    simp [usable, hpart, Interface.fieldNames]

theorem addHeaders_fields (headers : List Header) (hp : p.Sound) {space last : HeaderSpace}
    (hl : space.namespaces.WellListed) (hb : space.namespaces.Backed p)
    (h : (headers.foldlM a.addHeader space).result p = .ok last) :
    last.props.fieldNames =
        space.props.fieldNames ++ (a.usable headers).map (Name.camel ·.part) ∧
      last.markups.map (·.header) = space.markups.map (·.header) ++ a.usable headers := by
  induction headers generalizing space p with
  | nil =>
    obtain rfl := Except.ok.inj h
    simp [usable]
  | cons header rest ih =>
    rw [List.foldlM_cons] at h
    obtain ⟨next, hnext, hrest⟩ := Naming.result_bind_eq_ok h
    obtain ⟨hsound, _, habsorbed⟩ := a.addHeader_spec space header hp hl hb
    obtain ⟨hfields, hmarkups⟩ := addHeader_field hp hnext
    obtain ⟨hfields', hmarkups'⟩ :=
      ih hsound (habsorbed next hnext).wellListed (habsorbed next hnext).backed hrest
    have husable : a.usable (header :: rest) = a.usable [header] ++ a.usable rest := by
      rw [usable, ← List.singleton_append, List.filter_append]
      rfl
    rw [hfields', hmarkups', hfields, hmarkups, husable, List.map_append, List.append_assoc,
      List.append_assoc]
    exact ⟨rfl, rfl⟩

def fieldSources (a : Assembler) (op : Operation) (request : PartType) : List String :=
  (a.catalog.expand request.root).value.node.members.map (·.1) ++
    (a.usable (a.service.headers a.catalog op).value).map (·.part)

theorem fieldNames_of_assembleOnce {op : Operation} {assembled : Assembled} (hp : p.Sound)
    (h : (a.assembleOnce op).result p = .ok assembled) :
    ∃ request, (a.service.request a.catalog op).result = .ok request ∧
      assembled.component.props.fieldNames = (a.fieldSources op request).map Name.camel ∧
      assembled.component.headers.map (·.header) =
        a.usable (a.service.headers a.catalog op).value := by
  obtain ⟨request, own, last, q, hrequest, hown, hlast, hcomponent, _⟩ :=
    component_of_assembleOnce h
  obtain ⟨space, hspace⟩ := Service.space_of_request hrequest
  obtain ⟨_, own', _, hown', hsound, _, haccount, _⟩ :=
    NamespaceMap.ofRoot_accounted a.catalog a.policy request.key hspace hp
  obtain rfl : own = own' := Except.ok.inj (hown.symm.trans hown')
  have hlisted : (a.startSpace request own).namespaces.WellListed := haccount.wellListed
  obtain ⟨hfields, hmarkups⟩ := addHeaders_fields _ hsound hlisted haccount.backed hlast
  have hstart : (a.startSpace request own).props.fieldNames =
      (a.catalog.expand request.root).value.node.members.map (Name.camel ·.1) := by
    have hprops : (a.startSpace request own).props.fields =
        (a.catalog.fields (a.catalog.expand request.root).value.node).value := by
      simp only [startSpace, Catalog.value_shapes]
    simp only [Interface.fieldNames, hprops, Catalog.value_fields, List.map_map,
      Function.comp_def, Catalog.value_field]
  refine ⟨request, hrequest, ?_, ?_⟩
  · rw [hcomponent]
    refine hfields.trans ?_
    simp only [hstart, fieldSources, List.map_append, List.map_map, Function.comp_def]
  · rw [hcomponent]
    exact hmarkups

/-- The fields of the props, for every operation that comes out well after any run of requests for
prefixes. There is one for each member of the payload and one for each header that can be used. They
are all names that code can have just when every local name has a letter or digit, and the first of
them is no digit. They are different if the local names differ in their letters and digits, whatever
the case; and where these are plain, just when the local names are. Two of them have the same path
just when they have the same name, and the data of a header is at the path of its field, if this has
a name at all. -/
theorem props_fields (a : Assembler) (taken : Table String) (calls : List (Prefix.Policy × String))
    (op : Operation) {assembled : Assembled}
    (h : (a.assembleOnce op).result ((prefixesFor calls).after ⟨[], taken⟩) = .ok assembled) :
    let k := assembled.component
    let path := Catalog.fieldPath (BodyPlan.basePath none)
    ∃ request, (a.service.request a.catalog op).result = .ok request ∧
      let sources := a.fieldSources op request
      k.props.fieldNames = sources.map Name.camel ∧
      ((∀ field ∈ k.props.fieldNames, Name.IsIdentifier field) ↔ ∀ source ∈ sources, ∃ c,
        (Name.localPart source).toList.find? Text.isAsciiAlphanum = some c ∧ c.isDigit = false) ∧
      ((sources.map Name.skeleton).Nodup → k.props.fieldNames.Nodup) ∧
      ((∀ source ∈ sources, Name.IsPlain source) →
        (k.props.fieldNames.Nodup ↔ (sources.map Name.localPart).Nodup)) ∧
      (∀ s ∈ sources, ∀ t ∈ sources, path s = path t ↔ Name.camel s = Name.camel t) ∧
      ∀ added ∈ k.headers, added.header.part ∈ sources ∧
        (Name.camel added.header.part ≠ "" →
          BodyPlan.basePath (some (Name.camel added.header.part)) = path added.header.part) := by
  intro k path
  have hp := (prefixesFor_spec calls (Prefixes.sound_of_unasked taken)).1
  obtain ⟨request, hrequest, hfields, hheaders⟩ := fieldNames_of_assembleOnce hp h
  refine ⟨request, hrequest, hfields, ?_, ?_, ?_, fun s _ t _ => Catalog.fieldPath_inj, ?_⟩
  · rw [hfields, List.forall_mem_map]
    exact forall₂_congr fun source _ => Name.isIdentifier_camel_iff
  · rw [hfields]
    exact Name.nodup_camel_of_skeleton
  · rw [hfields]
    exact Name.nodup_camel_iff
  · intro added hadded
    refine ⟨List.mem_append_right _ (List.mem_map.2 ⟨added.header, ?_, rfl⟩), fun hne => ?_⟩
    · rw [← hheaders]
      exact List.mem_map_of_mem hadded
    · have hgiven : Name.given? (some (Name.camel added.header.part)) =
          some (Name.camel added.header.part) := given?_eq_some.2 ⟨rfl, hne⟩
      rw [BodyPlan.basePath, hgiven]
      rfl

end Assembler

namespace SampleHeader

/-- A header beside two members of other names. -/
theorem props_fields_of_sample : ∃ result,
    (assembler.assembleOnce operation).result {} = .ok result ∧
    result.component.props.fieldNames = ["data", "other", "auth"] ∧
    result.component.props.fieldNames.Nodup := by
  obtain ⟨_, _, _, result, _, _, _, _, honce, _, _⟩ := assembled
  obtain ⟨found, hfound, hfields, _, hdistinct, -⟩ :=
    Assembler.props_fields assembler [] [] operation honce
  obtain rfl : request = found := Except.ok.inj (request_eq.symm.trans hfound)
  have hexpand : (assembler.catalog.expand request.root).value = request.root :=
    Catalog.expand_of_next_none rfl
  have hsources : assembler.fieldSources operation request = ["data", "other", "auth"] := by
    rw [Assembler.fieldSources, hexpand]
    rfl
  rw [hsources] at hfields hdistinct
  exact ⟨result, honce, hfields.trans (by decide +kernel), hdistinct (by decide +kernel)⟩

end SampleHeader

namespace SampleAuth

open SampleHeader

def text : Member TypeNode := { type := .primitive "string" }

/-- The request has an element of the name that the part of its header has. -/
def graph : TypeGraph where
  objects := [
    { members := [("auth", text), ("id", text)], space := some "urn:a" },
    { members := [("token", text)], space := some "urn:h" }]
  elements := [("urn:a:Req", .object 0), ("urn:h:Hdr", .object 1)]

def assembler : Assembler where
  service := ⟨definitions, [("a", "urn:a"), ("h", "urn:h")], graph⟩
  catalog := graph.catalog
  policy := ⟨10, 6⟩

def request : PartType := ⟨"urn:a:Req", Root.ofId graph 0⟩

/-- Both have the same field, twice in the same props. -/
theorem auth_twice : ∃ result, (assembler.assembleOnce operation).result {} = .ok result ∧
    result.component.props.fieldNames = ["auth", "id", "auth"] ∧
    ¬ result.component.props.fieldNames.Nodup := by
  have hrequest : (assembler.service.request assembler.catalog operation).result = .ok request := rfl
  obtain ⟨result, hmade⟩ := Assembler.exists_assembleOnce (Prefixes.sound_of_unasked []) hrequest
  obtain ⟨found, hfound, hfields, -⟩ :=
    Assembler.fieldNames_of_assembleOnce (Prefixes.sound_of_unasked []) hmade
  obtain rfl : request = found := Except.ok.inj (hrequest.symm.trans hfound)
  have hexpand : (assembler.catalog.expand request.root).value = request.root :=
    Catalog.expand_of_next_none rfl
  have hsources : assembler.fieldSources operation request = ["auth", "id", "auth"] := by
    rw [Assembler.fieldSources, hexpand]
    rfl
  have hnames : result.component.props.fieldNames = ["auth", "id", "auth"] := by
    rw [hfields, hsources]
    decide +kernel
  exact ⟨result, hmade, hnames, by rw [hnames]; decide⟩

end SampleAuth

end SoapComponents
