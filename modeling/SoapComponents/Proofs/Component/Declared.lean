import SoapComponents.Proofs.Component.Optional
import SoapComponents.Proofs.Interface.Closed
import SoapComponents.Proofs.Name

/-!
The names that the module of a component declares. Interfaces never have the same name twice, and
what a field names is declared, unless it is an alias of a header or of the answer: these aliases
stand for interfaces that are left out, but only those of the request are written.
-/

set_option autoImplicit false

namespace SoapComponents

open Assigning

namespace Component

def answerInterfaces (k : Component) : List Interface :=
  match k.response with
  | some r => r.interfaces
  | none => []

def propsShapes (k : Component) : List Interface := k.props :: (k.response.map (·.props)).toList

/-- All interfaces in the module, props among them. -/
def shapes (k : Component) : List Interface := k.interfaces ++ k.answerInterfaces ++ k.propsShapes

def aliasNames (k : Component) : List String := k.aliases.map (·.name)

/-- The names of all types that the module declares. -/
def declaredNames (k : Component) : List String := k.aliasNames ++ k.shapes.map (·.name)

theorem nodup_declaredNames {k : Component}
    (h : ((k.interfaces ++ k.answerInterfaces).map (·.name)).Nodup) :
    k.declaredNames.Nodup ↔ k.aliasNames.Nodup ∧ (k.propsShapes.map (·.name)).Nodup ∧
      (∀ i ∈ k.interfaces ++ k.answerInterfaces, i.name ∉ k.aliasNames) ∧
      ∀ i ∈ k.propsShapes, i.name ∉ k.aliasNames ∧
        i.name ∉ (k.interfaces ++ k.answerInterfaces).map (·.name) := by
  unfold declaredNames shapes
  generalize k.interfaces ++ k.answerInterfaces = interfaces at h ⊢
  rw [List.map_append, List.nodup_append, List.nodup_append]
  simp only [List.mem_append, List.forall_mem_map, or_imp, forall_and]
  constructor
  · rintro ⟨haliases, ⟨_, hprops, hapart⟩, hinterfaces, hprops'⟩
    refine ⟨haliases, hprops, fun i hi ha => ?_, fun i hi ha => ?_, fun i hi hm => ?_⟩
    · exact hinterfaces _ ha i hi rfl
    · exact hprops' _ ha i hi rfl
    · obtain ⟨other, hother, heq⟩ := List.mem_map.1 hm
      exact hapart other hother i hi heq
  · rintro ⟨haliases, hprops, hinterfaces, hprops', hapart⟩
    refine ⟨haliases, ⟨h, hprops, fun i hi j hj heq => ?_⟩, fun name ha i hi heq => ?_,
      fun name ha i hi heq => ?_⟩
    · exact hapart j hj (heq ▸ List.mem_map_of_mem hi)
    · exact hinterfaces i hi (heq ▸ ha)
    · exact hprops' i hi (heq ▸ ha)

end Component

theorem HostType.eq_date_of_name {host : HostType} {source : String}
    (h : host.name = Name.pascal source ∨ host.name = Name.pascal source ++ "Props") :
    host = .date := by
  have hhead : ∀ c, host.name.toList.head? = some c → c.isLower = false := by
    intro c hc
    rcases h with h | h
    · exact Name.isLower_head_pascal (h ▸ hc)
    · rw [h, String.toList_append, List.head?_append] at hc
      rcases Option.or_eq_some_iff.1 hc with hc | ⟨_, hc⟩
      · exact Name.isLower_head_pascal hc
      · obtain rfl : 'P' = c := Option.some.inj hc
        rfl
  cases host with
  | date => rfl
  | string => exact absurd (hhead 's' rfl) (by decide)
  | number => exact absurd (hhead 'n' rfl) (by decide)
  | boolean => exact absurd (hhead 'b' rfl) (by decide)

section AddUnknown

variable {known added : List Interface}

theorem addUnknown_cons (known : List Interface) (i : Interface) (rest : List Interface) :
    addUnknown known (i :: rest) =
      addUnknown (if i.name ∈ known.map (·.name) then known else known ++ [i]) rest := rfl

theorem prefix_addUnknown (known added : List Interface) : known <+: addUnknown known added := by
  induction added generalizing known with
  | nil => exact List.prefix_rfl
  | cons i rest ih =>
    rw [addUnknown_cons]
    split
    · exact ih known
    · exact (List.prefix_append _ _).trans (ih _)

theorem mem_addUnknown {i : Interface} (h : i ∈ addUnknown known added) :
    i ∈ known ∨ i ∈ added := by
  induction added generalizing known with
  | nil => exact .inl h
  | cons first rest ih =>
    rw [addUnknown_cons] at h
    rcases ih h with hold | hrest
    · split at hold
      · exact .inl hold
      · rcases List.mem_append.1 hold with hold | hfirst
        · exact .inl hold
        · exact .inr (List.mem_cons.2 (.inl (List.mem_singleton.1 hfirst)))
    · exact .inr (List.mem_cons_of_mem _ hrest)

theorem name_mem_addUnknown {i : Interface} (h : i ∈ added) :
    i.name ∈ (addUnknown known added).map (·.name) := by
  induction added generalizing known with
  | nil => cases h
  | cons first rest ih =>
    rw [addUnknown_cons]
    rcases List.mem_cons.1 h with rfl | h
    · refine ((prefix_addUnknown _ rest).map _).subset ?_
      split
      · assumption
      · simp
    · exact ih h

theorem nodup_addUnknown (h : (known.map (·.name)).Nodup) (added : List Interface) :
    ((addUnknown known added).map (·.name)).Nodup := by
  induction added generalizing known with
  | nil => exact h
  | cons first rest ih =>
    rw [addUnknown_cons]
    split
    · exact ih h
    · next hnew => exact ih (Interface.nodup_names h hnew)

end AddUnknown

/-- The interfaces have different names, and what they and the props use is one of them or one of
these aliases. -/
structure HeaderSpace.Tidy (space : HeaderSpace) (aliases : List String) : Prop where
  nodup : (space.interfaces.map (·.name)).Nodup
  named : ∀ i ∈ space.interfaces, ∃ source, i.name = Name.pascal source
  uses : ∀ i ∈ space.props :: space.interfaces, ∀ used ∈ i.uses,
    used ∈ space.interfaces.map (·.name) ∨ used ∈ aliases

theorem HeaderSpace.Tidy.add {space next : HeaderSpace} {aliases more : List String}
    {added : List Interface} (hs : space.Tidy aliases)
    (hnamed : ∀ i ∈ added, ∃ source, i.name = Name.pascal source)
    (huses : ∀ i ∈ added, ∀ used ∈ i.uses, used ∈ added.map (·.name) ∨ used ∈ more)
    (hprops : ∀ used ∈ next.props.uses, used ∈ space.props.uses ∨ used ∈ added.map (·.name))
    (hinterfaces : next.interfaces = addUnknown space.interfaces added) :
    next.Tidy (aliases ++ more) := by
  have hgrows : space.interfaces <+: next.interfaces :=
    hinterfaces ▸ prefix_addUnknown space.interfaces added
  have hjoined : ∀ used ∈ added.map (·.name), used ∈ next.interfaces.map (·.name) := by
    intro used hused
    obtain ⟨i, hi, rfl⟩ := List.mem_map.1 hused
    exact hinterfaces ▸ name_mem_addUnknown hi
  have hold : ∀ i ∈ space.props :: space.interfaces, ∀ used ∈ i.uses,
      used ∈ next.interfaces.map (·.name) ∨ used ∈ aliases ++ more := fun i hi used hused =>
    (hs.uses i hi used hused).imp (fun hm => (hgrows.map _).subset hm) (List.mem_append_left _)
  have hfrom : ∀ i ∈ next.interfaces, i ∈ space.interfaces ∨ i ∈ added := fun i hi =>
    mem_addUnknown (hinterfaces ▸ hi)
  refine ⟨hinterfaces ▸ nodup_addUnknown hs.nodup added, fun i hi => ?_,
    List.forall_mem_cons.2 ⟨fun used hused => ?_, fun i hi used hused => ?_⟩⟩
  · exact (hfrom i hi).elim (hs.named i) (hnamed i)
  · rcases hprops used hused with hused | hused
    · exact hold space.props List.mem_cons_self used hused
    · exact .inl (hjoined used hused)
  · rcases hfrom i hi with hi | hi
    · exact hold i (List.mem_cons_of_mem _ hi) used hused
    · exact (huses i hi used hused).imp (hjoined used) (List.mem_append_right _)

namespace Assembler

variable {a : Assembler} {p : Prefixes}

/-- The interfaces that a header brings: its own, with the fields of its props, and those that it
leads to. -/
def headerInterfaces (a : Assembler) (header : Header) (found : PartType) : List Interface :=
  let shapes := (a.catalog.shapes found.key found.root [] none).value
  ⟨Name.pascal header.key, shapes.props.fields⟩ :: shapes.interfaces

def headerMarkup (a : Assembler) (header : Header) (found : PartType) (namespaces : NamespaceMap)
    (p : Prefixes) : HeaderMarkup :=
  ⟨header, (((namespaces.plan a.catalog a.policy found.key).write found.root
    (some (Name.camel header.part))).result p).1⟩

theorem result_addHeaderRoot (a : Assembler) (space : HeaderSpace) (header : Header)
    (found : PartType) (namespaces : NamespaceMap) (p : Prefixes) :
    (a.addHeaderRoot space header found namespaces).result p = {
      namespaces := space.namespaces.merge namespaces
      props := { space.props with
        fields := space.props.fields ++
          [⟨Name.camel header.part, .interface (Name.pascal header.key), .one⟩] }
      interfaces := addUnknown space.interfaces (a.headerInterfaces header found)
      markups := space.markups ++ [a.headerMarkup header found namespaces p] } := rfl

theorem addHeader_cases {space next : HeaderSpace} {header : Header}
    (h : (a.addHeader space header).result p = .ok next) :
    next = space ∨ ∃ found namespaces,
      (a.catalog.resolvePart header.messagePart).result = .ok found ∧
      (NamespaceMap.ofRoot a.catalog a.policy found.key found.root).result p = .ok namespaces ∧
      (a.addHeaderRoot space header found namespaces).result
        ((NamespaceMap.ofRoot a.catalog a.policy found.key found.root).after p) = next := by
  cases hpart : (a.catalog.resolvePart header.messagePart).result with
  | error failure =>
    exact .inl (Except.ok.inj ((addHeader_of_error hpart space p).1.symm.trans h)).symm
  | ok found =>
    simp only [Header.messagePart] at hpart
    simp only [addHeader, headerRoot, Naming.result_bind, Naming.after_bind,
      Naming.result_liftExcept, Naming.after_liftExcept, Naming.result_ofOutcome,
      Naming.after_ofOutcome, hpart] at h
    cases hown : (NamespaceMap.ofRoot a.catalog a.policy found.key found.root).result p with
    | error failure =>
      rw [hown] at h
      dsimp only at h
      split at h
      · exact .inl (Except.ok.inj h).symm
      · cases h
    | ok namespaces =>
      rw [hown] at h
      exact .inr ⟨found, namespaces, rfl, hown, Except.ok.inj h⟩

def headerAliases (a : Assembler) (header : Header) : List String :=
  match (a.catalog.resolvePart header.messagePart).result with
  | .ok found => a.catalog.aliasNames found.root
  | .error _ => []

theorem startSpace_tidy (a : Assembler) (request : PartType) (own : NamespaceMap) :
    (a.startSpace request own).Tidy (a.catalog.aliasNames request.root) := by
  obtain ⟨hnodup, hnamed, _, huses⟩ := a.catalog.shapes_spec request.key request.root
    (a.catalog.sortedReach request.root []).value none
  exact ⟨hnodup, hnamed, huses⟩

theorem headerInterfaces_spec (a : Assembler) (header : Header) (found : PartType) :
    let added := a.headerInterfaces header found
    (∀ i ∈ added, ∃ source, i.name = Name.pascal source) ∧
      ∀ i ∈ added, ∀ used ∈ i.uses,
        used ∈ added.map (·.name) ∨ used ∈ a.catalog.aliasNames found.root := by
  obtain ⟨_, hnamed, _, huses⟩ := a.catalog.shapes_spec found.key found.root [] none
  obtain ⟨hprops, hinterfaces⟩ := List.forall_mem_cons.1 huses
  refine ⟨List.forall_mem_cons.2 ⟨⟨header.key, rfl⟩, hnamed⟩,
    List.forall_mem_cons.2 ⟨fun used hused => ?_, fun i hi used hused => ?_⟩⟩
  · -- only the fields count: comparing the two interfaces would evaluate their names
    rw [Interface.uses] at hused
    exact (hprops used hused).imp_left (List.mem_cons_of_mem _)
  · exact (hinterfaces i hi used hused).imp_left (List.mem_cons_of_mem _)

theorem addHeader_tidy {space next : HeaderSpace} {header : Header} {aliases : List String}
    (hs : space.Tidy aliases) (h : (a.addHeader space header).result p = .ok next) :
    next.Tidy (aliases ++ a.headerAliases header) ∧ next.props.name = space.props.name ∧
      space.interfaces <+: next.interfaces := by
  rcases addHeader_cases h with rfl | ⟨found, namespaces, hfound, -, rfl⟩
  · refine ⟨⟨hs.nodup, hs.named, fun i hi used hused => ?_⟩, rfl, List.prefix_rfl⟩
    exact (hs.uses i hi used hused).imp_right (List.mem_append_left _)
  · have haliases : a.headerAliases header = a.catalog.aliasNames found.root := by
      rw [headerAliases, hfound]
    obtain ⟨hnamed, huses⟩ := a.headerInterfaces_spec header found
    rw [haliases, result_addHeaderRoot]
    refine ⟨hs.add hnamed huses (fun used hused => ?_) rfl, rfl, prefix_addUnknown _ _⟩
    simp only [Interface.uses, List.filterMap_append, List.mem_append] at hused
    refine hused.imp_right fun hown => ?_
    obtain rfl : used = Name.pascal header.key := by simpa [FieldType.interface?] using hown
    exact List.mem_cons_self

theorem addHeaders_tidy (headers : List Header) {space last : HeaderSpace} {aliases : List String}
    (hs : space.Tidy aliases) (h : (headers.foldlM a.addHeader space).result p = .ok last) :
    last.Tidy (aliases ++ headers.flatMap a.headerAliases) ∧ last.props.name = space.props.name ∧
      space.interfaces <+: last.interfaces := by
  induction headers generalizing space aliases p with
  | nil =>
    obtain rfl := Except.ok.inj h
    rw [List.flatMap_nil, List.append_nil]
    exact ⟨hs, rfl, List.prefix_rfl⟩
  | cons header rest ih =>
    rw [List.foldlM_cons] at h
    obtain ⟨next, hnext, hrest⟩ := Naming.result_bind_eq_ok h
    obtain ⟨htidy, hname, hgrows⟩ := addHeader_tidy hs hnext
    obtain ⟨hlast, hname', hgrows'⟩ := ih htidy hrest
    rw [List.append_assoc, ← List.flatMap_cons] at hlast
    exact ⟨hlast, hname'.trans hname, hgrows.trans hgrows'⟩

/-- The aliases of the headers and of the answer of an operation, which no module declares. -/
def unwrittenAliases (a : Assembler) (op : Operation) : List String :=
  (a.service.headers a.catalog op).value.flatMap a.headerAliases ++
    match (a.service.response a.catalog op).value with
    | some found => a.catalog.aliasNames found.root
    | none => []

theorem responseShapes_spec (a : Assembler) (declared : List Interface) (found : PartType) :
    let r := (a.responseShapes declared found).value
    (r.interfaces.map (·.name)).Nodup ∧
      (∀ i ∈ r.interfaces, i.name ∉ declared.map (·.name) ∧
        ∃ source, i.name = Name.pascal source) ∧
      r.props.name = Name.pascal found.key ++ "Props" ∧
      ∀ i ∈ r.props :: r.interfaces, ∀ used ∈ i.uses,
        used ∈ (declared ++ r.interfaces).map (·.name) ∨
          used ∈ a.catalog.aliasNames found.root := by
  obtain ⟨hnodup, hnamed, _, huses⟩ := a.catalog.shapes_spec found.key found.root [] none
  have hprops : (a.catalog.shapes found.key found.root [] none).value.props.name =
      Name.pascal found.key ++ "Props" := by
    rw [Catalog.value_shapes]
    rfl
  simp only [responseShapes, Noted.value_bind, Noted.value_pure]
  generalize (a.catalog.shapes found.key found.root [] none).value = shapes at *
  refine ⟨hnodup.sublist (List.filter_sublist.map _), fun i hi => ?_, hprops,
    fun i hi used hused => ?_⟩
  · obtain ⟨hmem, hnew⟩ := List.mem_filter.1 hi
    exact ⟨of_decide_eq_true hnew, hnamed i hmem⟩
  · have hi : i ∈ shapes.props :: shapes.interfaces :=
      (List.mem_cons.1 hi).elim (fun h => List.mem_cons.2 (.inl h))
        fun h => List.mem_cons_of_mem _ (List.mem_of_mem_filter h)
    refine (huses i hi used hused).imp_left fun hm => ?_
    obtain ⟨target, htarget, rfl⟩ := List.mem_map.1 hm
    rw [List.map_append, List.mem_append]
    by_cases hknown : target.name ∈ declared.map (·.name)
    · exact .inl hknown
    · exact .inr (List.mem_map_of_mem (List.mem_filter.2 ⟨htarget, decide_eq_true hknown⟩))

/-- The interfaces of a component: those of its request, with those of the headers after them, and
then those of the answer. -/
structure Arranged (a : Assembler) (op : Operation) (request : PartType) (k : Component) :
    Prop where
  aliases : k.aliasNames = a.catalog.aliasNames request.root
  props : k.props.name = Name.pascal request.key ++ "Props"
  own : (a.catalog.shapes request.key request.root
    (a.catalog.sortedReach request.root []).value none).value.interfaces <+: k.interfaces
  nodup : (k.interfaces.map (·.name)).Nodup
  named : ∀ i ∈ k.interfaces, ∃ source, i.name = Name.pascal source
  uses : ∀ i ∈ k.props :: k.interfaces, ∀ used ∈ i.uses, used ∈ k.interfaces.map (·.name) ∨
    used ∈ k.aliasNames ++ (a.service.headers a.catalog op).value.flatMap a.headerAliases
  response : k.response = (a.service.response a.catalog op).value.map fun found =>
    (a.responseShapes k.interfaces found).value

theorem arranged_of_assembleOnce {op : Operation} {assembled : Assembled}
    (h : (a.assembleOnce op).result p = .ok assembled) :
    ∃ request, (a.service.request a.catalog op).result = .ok request ∧
      a.Arranged op request assembled.component := by
  obtain ⟨request, own, last, q, hrequest, _, hlast, hcomponent, _⟩ := component_of_assembleOnce h
  obtain ⟨htidy, hname, hgrows⟩ := addHeaders_tidy _ (a.startSpace_tidy request own) hlast
  rw [hcomponent]
  refine ⟨request, hrequest, rfl, hname.trans ?_, hgrows, htidy.nodup, htidy.named, htidy.uses,
    rfl⟩
  rw [startSpace, Catalog.value_shapes]
  rfl

namespace Arranged

variable {op : Operation} {request : PartType} {k : Component}

theorem answer (h : a.Arranged op request k) :
    (k.response = none ∧ k.answerInterfaces = [] ∧ k.propsShapes = [k.props]) ∨
    ∃ found, (a.service.response a.catalog op).value = some found ∧
      k.answerInterfaces = (a.responseShapes k.interfaces found).value.interfaces ∧
      k.propsShapes = [k.props, (a.responseShapes k.interfaces found).value.props] := by
  have hresponse := h.response
  unfold Component.answerInterfaces Component.propsShapes
  cases hr : (a.service.response a.catalog op).value with
  | none =>
    rw [hr] at hresponse
    rw [hresponse]
    exact .inl ⟨rfl, rfl, rfl⟩
  | some found =>
    rw [hr] at hresponse
    rw [hresponse]
    exact .inr ⟨found, rfl, rfl, rfl⟩

theorem nodup_interfaces (h : a.Arranged op request k) :
    ((k.interfaces ++ k.answerInterfaces).map (·.name)).Nodup := by
  rcases h.answer with ⟨_, hnone, _⟩ | ⟨found, _, hinterfaces, _⟩
  · rw [hnone, List.append_nil]
    exact h.nodup
  · obtain ⟨hnodup, hnew, _⟩ := a.responseShapes_spec k.interfaces found
    rw [hinterfaces, List.map_append, List.nodup_append]
    refine ⟨h.nodup, hnodup, ?_⟩
    rintro _ hold _ hadded rfl
    obtain ⟨i, hi, heq⟩ := List.mem_map.1 hadded
    exact (hnew i hi).1 (heq ▸ hold)

theorem declares_used (h : a.Arranged op request k) :
    ∀ i ∈ k.shapes, ∀ used ∈ i.uses, used ∈ k.declaredNames ∨ used ∈ a.unwrittenAliases op := by
  have hdeclared : ∀ {used}, used ∈ (k.interfaces ++ k.answerInterfaces).map (·.name) →
      used ∈ k.declaredNames := by
    intro used hm
    refine List.mem_append_right _ ?_
    rw [Component.shapes, List.map_append]
    exact List.mem_append_left _ hm
  have hrequest : ∀ i ∈ k.props :: k.interfaces, ∀ used ∈ i.uses,
      used ∈ k.declaredNames ∨ used ∈ a.unwrittenAliases op := by
    intro i hi used hused
    rcases h.uses i hi used hused with hm | hm
    · refine .inl (hdeclared ?_)
      rw [List.map_append]
      exact List.mem_append_left _ hm
    · rcases List.mem_append.1 hm with hm | hm
      · exact .inl (List.mem_append_left _ hm)
      · exact .inr (List.mem_append_left _ hm)
  intro i hi used hused
  rcases h.answer with ⟨_, hnone, hprops⟩ | ⟨found, hfound, hinterfaces, hprops⟩
  · refine hrequest i ?_ used hused
    simp only [Component.shapes, hnone, hprops, List.append_nil, List.mem_append,
      List.mem_singleton] at hi
    exact List.mem_cons.2 hi.symm
  · obtain ⟨_, _, _, huses⟩ := a.responseShapes_spec k.interfaces found
    have hcases : i ∈ k.props :: k.interfaces ∨
        i ∈ (a.responseShapes k.interfaces found).value.props ::
          (a.responseShapes k.interfaces found).value.interfaces := by
      simp only [Component.shapes, hinterfaces, hprops, List.mem_append, List.mem_cons,
        List.not_mem_nil, or_false] at hi ⊢
      tauto
    rcases hcases with hi | hi
    · exact hrequest i hi used hused
    · rcases huses i hi used hused with hm | hm
      · rw [← hinterfaces] at hm
        exact .inl (hdeclared hm)
      · refine .inr (List.mem_append_right _ ?_)
        rw [hfound]
        exact hm

theorem named_declared (h : a.Arranged op request k) :
    ∀ name ∈ k.declaredNames, ∃ source, name = Name.pascal source ∨
      name = Name.pascal source ++ "Props" := by
  have hprops : ∃ source, k.props.name = Name.pascal source ∨
      k.props.name = Name.pascal source ++ "Props" := ⟨_, .inr h.props⟩
  have hnamed : ∀ i ∈ k.interfaces, ∃ source, i.name = Name.pascal source ∨
      i.name = Name.pascal source ++ "Props" := fun i hi => (h.named i hi).imp fun _ => .inl
  have hshapes : ∀ i ∈ k.shapes, ∃ source, i.name = Name.pascal source ∨
      i.name = Name.pascal source ++ "Props" := by
    rcases h.answer with ⟨_, hnone, heq⟩ | ⟨found, _, hinterfaces, heq⟩
    · rw [Component.shapes, hnone, heq, List.append_nil]
      exact List.forall_mem_append.2 ⟨hnamed, List.forall_mem_singleton.2 hprops⟩
    · obtain ⟨_, hanswer, hname, _⟩ := a.responseShapes_spec k.interfaces found
      rw [Component.shapes, hinterfaces, heq]
      refine List.forall_mem_append.2 ⟨List.forall_mem_append.2 ⟨hnamed, fun i hi => ?_⟩,
        List.forall_mem_cons.2 ⟨hprops, List.forall_mem_singleton.2 ⟨_, .inr hname⟩⟩⟩
      exact (hanswer i hi).2.imp fun _ => .inl
  refine List.forall_mem_append.2 ⟨fun name hname => ?_, List.forall_mem_map.2 hshapes⟩
  rw [h.aliases] at hname
  obtain ⟨found, hfound, rfl⟩ := List.mem_map.1 hname
  exact (Catalog.pascal_of_typeAliases hfound).imp fun _ => .inl

end Arranged

/-- The names that the module of a component declares, for every operation that comes out well.
What a field names is declared, unless it is an alias of a header or of the answer. No two
interfaces have the same name, and none that the request itself leads to has that of an alias; so
all names are different just when the aliases are, the two props are, no later interface has the
name of an alias, and nothing else has the name of the props. Only the name of dates can be
declared once more. -/
theorem declared_names (a : Assembler) {p : Prefixes} {op : Operation} {assembled : Assembled}
    (h : (a.assembleOnce op).result p = .ok assembled) :
    let k := assembled.component
    let interfaces := k.interfaces ++ k.answerInterfaces
    (∀ i ∈ k.shapes, ∀ used ∈ i.uses, used ∈ k.declaredNames ∨ used ∈ a.unwrittenAliases op) ∧
    (interfaces.map (·.name)).Nodup ∧
    (∃ request own later, (a.service.request a.catalog op).result = .ok request ∧
      own = (a.catalog.shapes request.key request.root
        (a.catalog.sortedReach request.root []).value none).value.interfaces ∧
      k.interfaces = own ++ later ∧ (∀ i ∈ own, i.name ∉ k.aliasNames) ∧
      (k.declaredNames.Nodup ↔ k.aliasNames.Nodup ∧ (k.propsShapes.map (·.name)).Nodup ∧
        (∀ i ∈ later ++ k.answerInterfaces, i.name ∉ k.aliasNames) ∧
        ∀ i ∈ k.propsShapes, i.name ∉ k.aliasNames ∧ i.name ∉ interfaces.map (·.name))) ∧
    ∀ name ∈ k.declaredNames, ∀ host : HostType, name = host.name → host = .date := by
  intro k interfaces
  obtain ⟨request, hrequest, harranged⟩ := arranged_of_assembleOnce h
  obtain ⟨later, hlater⟩ := harranged.own
  have hfree : ∀ i ∈ (a.catalog.shapes request.key request.root
      (a.catalog.sortedReach request.root []).value none).value.interfaces,
      i.name ∉ k.aliasNames := by
    rw [harranged.aliases]
    exact (a.catalog.shapes_spec request.key request.root _ none).2.2.1
  refine ⟨harranged.declares_used, harranged.nodup_interfaces,
    ⟨request, _, later, hrequest, rfl, hlater.symm, hfree, ?_⟩, fun name hname host heq => ?_⟩
  · -- an interface that the request leads to never has the name of an alias
    refine (Component.nodup_declaredNames harranged.nodup_interfaces).trans
      (and_congr_right fun _ => and_congr_right fun _ => and_congr_left fun _ => ?_)
    rw [← hlater, List.append_assoc]
    exact List.forall_mem_append.trans (and_iff_right hfree)
  · obtain ⟨source, hsource⟩ := harranged.named_declared name hname
    exact HostType.eq_date_of_name (heq ▸ hsource)

end Assembler

namespace SampleAnswer

def text : Member TypeNode := { type := .primitive "string" }

/-- The answer has text in an element that is named like the type of another one. -/
def graph : TypeGraph where
  objects := [
    { members := [("id", text), ("key", text)], space := some "urn:t" },
    { members := [("unit", text), ("base", { type := .reference { name := "urn:t:Unit" } })]
      space := some "urn:t" },
    { members := [("code", text)], space := some "urn:t" }]
  elements := [("urn:t:Ask", .object 0), ("urn:t:Answer", .object 1)]
  complexTypes := [("urn:t:Unit", 2)]

def message (name element : String) : Tree :=
  .node [("name", .text name), ("part", .node [("name", .text "p"), ("element", .text element)])]

def assembler : Assembler where
  service := ⟨.node [
    ("message", .many [message "In" "t:Ask", message "Out" "t:Answer"]),
    ("portType", .node [("name", .text "PT")])], [("t", "urn:t")], graph⟩
  catalog := graph.catalog
  policy := ⟨10, 6⟩

def operation : Operation := ⟨"Op", some "In", some "Out"⟩

def request : PartType := ⟨"urn:t:Ask", Root.ofId graph 0⟩

def answer : PartType := ⟨"urn:t:Answer", Root.ofId graph 1⟩

theorem request_eq :
    (assembler.service.request assembler.catalog operation).result = .ok request := rfl

theorem response_eq :
    (assembler.service.response assembler.catalog operation).value = some answer := rfl

theorem headers_eq : (assembler.service.headers assembler.catalog operation).value = [] := rfl

theorem made : ∃ assembled own q, (assembler.assembleOnce operation).result {} = .ok assembled ∧
    assembled.component = assembler.componentOf request (assembler.startSpace request own)
      (some answer) q := by
  obtain ⟨assembled, hmade⟩ :=
    Assembler.exists_assembleOnce (Prefixes.sound_of_unasked []) request_eq
  obtain ⟨found, own, last, q, hrequest, _, hlast, hcomponent, _⟩ :=
    Assembler.component_of_assembleOnce hmade
  obtain rfl : request = found := Except.ok.inj (request_eq.symm.trans hrequest)
  rw [Assembler.withHeaders, headers_eq] at hlast
  obtain rfl : assembler.startSpace request own = last := Except.ok.inj hlast
  rw [response_eq] at hcomponent
  exact ⟨assembled, own, q, hmade, hcomponent⟩

theorem expand_eq (root : Root) (h : graph.catalog.next? root.node root.visited = none) :
    (graph.catalog.expand root).value = root :=
  Catalog.expand_of_next_none h

theorem aliases_request : graph.catalog.aliasNames request.root = ["Id", "Key"] := by
  rw [Catalog.aliasNames, expand_eq _ rfl]
  rfl

theorem aliases_answer : graph.catalog.aliasNames answer.root = ["Unit"] := by
  rw [Catalog.aliasNames, expand_eq _ rfl]
  rfl

theorem reach_request : (graph.catalog.sortedReach request.root []).value = [] := by
  have hreach : (graph.catalog.reachFrom [("id", text), ("key", text)] ⟨[], [0]⟩).value =
      ⟨[], [0]⟩ := by
    simp only [Catalog.reachFrom, text]
    rfl
  have hsorted : (graph.catalog.sortedReach request.root []).value =
      ((graph.catalog.reachFrom [("id", text), ("key", text)] ⟨[], [0]⟩).value.keys.mergeSort
        (fun a b => a ≤ b)).eraseDups := rfl
  rw [hsorted, hreach, List.mergeSort_nil, List.eraseDups_nil]

theorem interfaces_request :
    (graph.catalog.shapes request.key request.root [] none).value.interfaces.map (·.name) =
      ["Ask"] := by
  have hroot : (graph.catalog.collected request.key request.root request.root []).value =
      [⟨Name.pascal request.key, (graph.catalog.fields request.root.node).value⟩] := by
    simp only [Catalog.collected, Noted.value_bind, List.foldlM_nil, Noted.value_pure, if_true]
    have hnew : Name.pascal request.key ∉ ([] : List Interface).map (·.name) := List.not_mem_nil
    exact Catalog.addInterface_of_needs_nil hnew rfl
  rw [Catalog.value_shapes, aliases_request, expand_eq request.root rfl, hroot]
  rfl

/-- The answer has a field of a type that the module does not declare: an alias of the answer
stands for it, and that is not written. -/
theorem unit_undeclared : ∃ assembled,
    (assembler.assembleOnce operation).result {} = .ok assembled ∧
    ∃ i ∈ assembled.component.shapes, ⟨"base", .interface "Unit", .one⟩ ∈ i.fields ∧
      "Unit" ∉ assembled.component.declaredNames := by
  obtain ⟨assembled, own, q, hmade, hcomponent⟩ := made
  have hprops : (graph.catalog.shapes answer.key answer.root [] none).value.props =
      ⟨"AnswerProps", [⟨"unit", .host .string, .one⟩, ⟨"base", .interface "Unit", .one⟩]⟩ := by
    rw [Catalog.value_shapes, expand_eq answer.root rfl]
    rfl
  have hshapes : assembled.component.shapes = (assembler.startSpace request own).interfaces ++
      (graph.catalog.shapes answer.key answer.root [] none).value.interfaces.filter
        (fun i => i.name ∉ (assembler.startSpace request own).interfaces.map (·.name)) ++
      [(assembler.startSpace request own).props,
        (graph.catalog.shapes answer.key answer.root [] none).value.props] := by
    rw [hcomponent]
    rfl
  have haliases : assembled.component.aliasNames = graph.catalog.aliasNames request.root := by
    rw [hcomponent]
    rfl
  have hrequest : (assembler.startSpace request own).interfaces.map (·.name) = ["Ask"] := by
    rw [← interfaces_request, ← reach_request]
    rfl
  have hname : (assembler.startSpace request own).props.name = "AskProps" := by
    simp only [Assembler.startSpace, Catalog.value_shapes]
    rfl
  refine ⟨assembled, hmade, (graph.catalog.shapes answer.key answer.root [] none).value.props,
    ?_, ?_, ?_⟩
  · rw [hshapes]
    simp
  · rw [hprops]
    simp
  · rw [Component.declaredNames, haliases, aliases_request, hshapes, List.map_append,
      List.map_append, hrequest]
    simp only [List.mem_append, not_or]
    refine ⟨by decide, ⟨by decide, fun hm => ?_⟩, by simp [hname, hprops]⟩
    -- the answer does not keep the interface, whose name is that of its alias
    obtain ⟨i, hi, hunit⟩ := List.mem_map.1 hm
    refine (graph.catalog.shapes_spec answer.key answer.root [] none).2.2.1 i
      (List.mem_of_mem_filter hi) ?_
    rw [aliases_answer, hunit]
    exact List.mem_singleton.2 rfl

/-- What is declared of the answer is apart from what is declared of the request. -/
theorem declared_names_of_answer : ∃ assembled,
    (assembler.assembleOnce operation).result {} = .ok assembled ∧
    ((assembled.component.interfaces ++ assembled.component.answerInterfaces).map
      (·.name)).Nodup := by
  obtain ⟨assembled, _, _, hmade, _⟩ := made
  exact ⟨assembled, hmade, (Assembler.declared_names assembler hmade).2.1⟩

end SampleAnswer

end SoapComponents
