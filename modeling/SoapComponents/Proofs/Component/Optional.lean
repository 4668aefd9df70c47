import SoapComponents.Proofs.Component.Headers
import SoapComponents.Proofs.Outcome

/-!
What an operation cannot be without, and what it can. Only the input of an operation can make it
fail; an answer or a header that cannot be used leaves the component that the same description
without it would give.
-/

set_option autoImplicit false

namespace SoapComponents

open Assigning

/-- What can be wrong with a part of a message. -/
inductive Failure.OfPart : Failure → Prop
  | simplePart (part type : String) : OfPart (.simplePart part type)
  | partNotComplex (part : String) : OfPart (.partNotComplex part)
  | typeNotFound (reference : String) (available : List String) (sought : Sought) :
      OfPart (.typeNotFound reference available sought)
  | noNamespace (typeName : String) : OfPart (.noNamespace typeName)

theorem Failure.OfPart.isReported {failure : Failure} (h : failure.OfPart) :
    (failure.isUnresolved || failure.isStructural) = true := by
  cases h <;> rfl

/-- The part of a message that a header stands for, taken as an element. -/
def Header.messagePart (header : Header) : MessagePart :=
  ⟨header.part, .element, header.written, header.key⟩

namespace Catalog

variable {c : Catalog} {part : MessagePart}

theorem partObject_failure {key : String} {node : TypeNode} {failure : Failure}
    (h : (c.partObject part key node).result = .error failure) : failure.OfPart := by
  cases node with
  | object id => simp [partObject] at h
  | primitive name =>
    obtain rfl := Except.error.inj h
    exact .partNotComplex _
  | reference pointer =>
    simp only [partObject, Outcome.result_bind, Outcome.result_lift] at h
    split at h
    · simp at h
    · obtain rfl := Except.error.inj h
      exact .typeNotFound _ _ _

theorem result_resolvePart (c : Catalog) (part : MessagePart) :
    (c.resolvePart part).result =
      if (Name.schemaSpace ++ ":").toList.isPrefixOf part.key.toList then
        .error (.simplePart part.name part.written)
      else match c.lookup part.key (part.kind == .type) [] with
        | none => .error (.typeNotFound part.written c.graph.availableKeys (.messagePart part.name))
        | some found => match (c.partObject part found.entry.key found.node).result with
          | .error failure => .error failure
          | .ok (id, elementSpace) =>
            match ((Name.given? elementSpace).or (Name.given? (c.graph.object id).space)).or
                (Name.given? (Name.space? found.entry.key)) with
            | none => .error (.noNamespace found.entry.key)
            | some space =>
              if (c.graph.object id).space = some space then
                .ok ⟨found.entry.key, Root.ofId c.graph id⟩
              else .ok ⟨found.entry.key, { c.graph.object id with space := some space }, none⟩ := by
  unfold resolvePart
  by_cases hs : (Name.schemaSpace ++ ":").toList.isPrefixOf part.key.toList = true
  · rw [if_pos hs, if_pos hs]
    rfl
  · rw [if_neg hs, if_neg hs]
    cases c.lookup part.key (part.kind == .type) [] with
    | none => rfl
    | some found =>
      simp only [Outcome.result_bind, Outcome.result_tellAll]
      cases (c.partObject part found.entry.key found.node).result with
      | error failure => rfl
      | ok pair =>
        obtain ⟨id, elementSpace⟩ := pair
        dsimp only
        generalize ((Name.given? elementSpace).or _).or _ = space
        cases space with
        | none => rfl
        | some space =>
          dsimp only
          split <;> rfl

theorem resolvePart_failure {failure : Failure}
    (h : (c.resolvePart part).result = .error failure) : failure.OfPart := by
  rw [result_resolvePart] at h
  split at h
  · obtain rfl := Except.error.inj h
    exact .simplePart _ _
  · split at h
    · obtain rfl := Except.error.inj h
      exact .typeNotFound _ _ _
    · split at h
      · next hobject =>
        obtain rfl := Except.error.inj h
        exact partObject_failure hobject
      · split at h
        · obtain rfl := Except.error.inj h
          exact .noNamespace _
        · split at h <;> simp at h

theorem space_of_resolvePart {found : PartType} (h : (c.resolvePart part).result = .ok found) :
    ∃ space, Name.given? found.root.node.space = some space := by
  rw [result_resolvePart] at h
  split at h
  · simp at h
  · split at h
    · simp at h
    · split at h
      · simp at h
      · split at h
        · simp at h
        · next space hspace =>
          have hgiven : space ≠ "" := by
            simp only [Option.or_eq_some_iff, given?_eq_some] at hspace
            tauto
          refine ⟨space, given?_eq_some.2 ⟨?_, hgiven⟩⟩
          split at h
          · next hown =>
            obtain rfl := Except.ok.inj h
            exact hown
          · obtain rfl := Except.ok.inj h
            rfl

end Catalog

namespace Service

/-- Two descriptions that differ at most in what their ports and bindings declare. -/
structure Alike (s s' : Service) : Prop where
  namespaces : s'.namespaces = s.namespaces
  graph : s'.graph = s.graph
  target : s'.target = s.target
  messages : s'.messages = s.messages

variable {s s' : Service}

theorem Alike.refl (s : Service) : s.Alike s := ⟨rfl, rfl, rfl, rfl⟩

theorem Alike.qualify (h : s.Alike s') (name : String) : s'.qualify name = s.qualify name := by
  simp only [Service.qualify, h.namespaces, h.graph, h.target]

theorem Alike.message? (h : s.Alike s') (ref : String) : s'.message? ref = s.message? ref := by
  simp only [Service.message?, h.messages]

theorem Alike.messagePart? (h : s.Alike s') (ref : String) :
    s'.messagePart? ref = s.messagePart? ref := by
  simp only [Service.messagePart?, h.message?, h.qualify]

theorem Alike.request (h : s.Alike s') (c : Catalog) {op op' : Operation}
    (hname : op'.name = op.name) (hinput : op'.input = op.input) :
    s'.request c op' = s.request c op := by
  simp only [Service.request, hname, hinput, h.messagePart?, h.messages]

theorem request_failure {c : Catalog} {op : Operation} {failure : Failure}
    (h : (s.request c op).result = .error failure) :
    failure = .noInput op.name ∨ failure.OfPart := by
  unfold request at h
  split at h
  · exact .inl (Except.error.inj h).symm
  · simp only [Outcome.result_bind, Outcome.result_lift] at h
    split at h
    · exact .inr (Catalog.resolvePart_failure h)
    · obtain rfl := Except.error.inj h
      exact .inr (.typeNotFound _ _ _)

theorem space_of_request {c : Catalog} {op : Operation} {found : PartType}
    (h : (s.request c op).result = .ok found) :
    ∃ space, Name.given? found.root.node.space = some space := by
  unfold request at h
  split at h
  · simp at h
  · simp only [Outcome.result_bind, Outcome.result_lift] at h
    split at h
    · exact Catalog.space_of_resolvePart h
    · simp at h

theorem Alike.response (h : s.Alike s') (c : Catalog) (op : Operation) :
    s'.response c op = s.response c op := by
  simp only [Service.response, h.messagePart?]

theorem Alike.header (h : s.Alike s') (c : Catalog) {op op' : Operation}
    (hname : op'.name = op.name) (declaration : Tree) :
    s'.header c op' declaration = s.header c op declaration := by
  simp only [Service.header, hname, h.message?, h.qualify]

theorem Alike.envelope (h : s.Alike s') : s'.envelope = s.envelope := by
  simp only [Service.envelope, h.namespaces]

theorem value_headers (s : Service) (c : Catalog) (op : Operation) :
    (s.headers c op).value =
      (s.headerDeclarations op).filterMap fun declaration => (s.header c op declaration).value := by
  simp only [headers, Noted.value_bind, Noted.value_pure, Noted.value_mapM, List.filterMap_map]
  rfl

theorem headerDeclarations_eq (s : Service) {op op' : Operation} (hname : op'.name = op.name) :
    s.headerDeclarations op' = s.headerDeclarations op := by
  simp only [headerDeclarations, bindingOperation?, hname]

end Service

namespace NamespaceMap

theorem exists_ofRoot (c : Catalog) (policy : Prefix.Policy) (name : String) {root : Root}
    {space : String} {p : Prefixes} (hspace : Name.given? root.node.space = some space)
    (hp : p.Sound) : ∃ m, (ofRoot c policy name root).result p = .ok m := by
  obtain ⟨_, m, _, hm, _⟩ := ofRoot_accounted c policy name hspace hp
  exact ⟨m, hm⟩

end NamespaceMap

/-- The same component, made of the same types with the same namespaces. -/
structure Assembled.Same (one other : Assembled) : Prop where
  component : other.component = one.component
  responseType : other.responseType = one.responseType
  namespaces : other.namespaces = one.namespaces

namespace Assembler

variable {a : Assembler} {p : Prefixes} {header : Header}

theorem headerRoot_of_error {failure : Failure}
    (h : (a.catalog.resolvePart header.messagePart).result = .error failure) (p : Prefixes) :
    (a.headerRoot header).result p = .error failure ∧ (a.headerRoot header).after p = p := by
  simp only [Header.messagePart] at h
  simp [headerRoot, Naming.result_bind, Naming.after_bind, h]

theorem headerRoot_of_ok {found : PartType}
    (h : (a.catalog.resolvePart header.messagePart).result = .ok found) (hp : p.Sound) :
    ∃ namespaces, (a.headerRoot header).result p = .ok (found, namespaces) := by
  obtain ⟨space, hspace⟩ := Catalog.space_of_resolvePart h
  obtain ⟨m, hm⟩ := NamespaceMap.exists_ofRoot a.catalog a.policy found.key hspace hp
  simp only [Header.messagePart] at h
  refine ⟨m, ?_⟩
  simp only [headerRoot, Naming.result_bind, Naming.result_ofOutcome, Naming.after_ofOutcome, h,
    hm, Naming.result_pure]

theorem headerRoot_eq_error_iff (a : Assembler) (header : Header) (hp : p.Sound)
    {failure : Failure} : (a.headerRoot header).result p = .error failure ↔
      (a.catalog.resolvePart header.messagePart).result = .error failure := by
  cases h : (a.catalog.resolvePart header.messagePart).result with
  | error other => simp [(headerRoot_of_error h p).1]
  | ok found =>
    obtain ⟨namespaces, hroot⟩ := headerRoot_of_ok h hp
    simp [hroot]

theorem addHeader_of_error {failure : Failure}
    (h : (a.catalog.resolvePart header.messagePart).result = .error failure) (space : HeaderSpace)
    (p : Prefixes) :
    (a.addHeader space header).result p = .ok space ∧ (a.addHeader space header).after p = p := by
  obtain ⟨hroot, hafter⟩ := headerRoot_of_error h p
  have hreported := (Catalog.resolvePart_failure h).isReported
  simp only [addHeader, Naming.result_bind, Naming.after_bind, Naming.result_liftExcept,
    Naming.after_liftExcept, hroot, hafter, hreported, if_true]
  exact ⟨rfl, rfl⟩

theorem exists_addHeader (a : Assembler) (space : HeaderSpace) (header : Header) (hp : p.Sound) :
    ∃ next, (a.addHeader space header).result p = .ok next := by
  cases h : (a.catalog.resolvePart header.messagePart).result with
  | error failure => exact ⟨space, (addHeader_of_error h space p).1⟩
  | ok found =>
    obtain ⟨namespaces, hroot⟩ := headerRoot_of_ok h hp
    obtain ⟨next, hnext, _⟩ := @addHeader_of_ok _ _ space _ _ _ hroot
    exact ⟨next, hnext⟩

theorem exists_addHeaders (a : Assembler) (headers : List Header) (space : HeaderSpace)
    (hp : p.Sound) (hl : space.namespaces.WellListed) (hb : space.namespaces.Backed p) :
    ∃ last, (headers.foldlM a.addHeader space).result p = .ok last := by
  induction headers generalizing space p with
  | nil => exact ⟨space, rfl⟩
  | cons header rest ih =>
    obtain ⟨next, hnext⟩ := a.exists_addHeader space header hp
    obtain ⟨hsound, _, habsorbed⟩ := a.addHeader_spec space header hp hl hb
    obtain ⟨last, hlast⟩ := ih next hsound (habsorbed next hnext).wellListed
      (habsorbed next hnext).backed
    refine ⟨last, ?_⟩
    rw [List.foldlM_cons, Naming.result_bind, hnext]
    exact hlast

def usable (a : Assembler) (headers : List Header) : List Header :=
  headers.filter fun header =>
    match (a.catalog.resolvePart header.messagePart).result with
    | .ok _ => true
    | .error _ => false

theorem addHeaders_usable (a : Assembler) (headers : List Header) (space : HeaderSpace)
    (p : Prefixes) :
    (headers.foldlM a.addHeader space).result p =
        ((a.usable headers).foldlM a.addHeader space).result p ∧
      (headers.foldlM a.addHeader space).after p =
        ((a.usable headers).foldlM a.addHeader space).after p := by
  -- a header that is left out changes neither what is gathered nor the prefixes given out
  induction headers generalizing space p with
  | nil => exact ⟨rfl, rfl⟩
  | cons header rest ih =>
    simp only [usable, List.filter_cons] at ih ⊢
    cases h : (a.catalog.resolvePart header.messagePart).result with
    | error failure =>
      obtain ⟨hresult, hafter⟩ := addHeader_of_error h space p
      simp only [List.foldlM_cons, Naming.result_bind, Naming.after_bind, hresult, hafter]
      exact ih space p
    | ok found =>
      simp only [if_true, List.foldlM_cons, Naming.result_bind, Naming.after_bind]
      cases (a.addHeader space header).result p with
      | error failure => exact ⟨rfl, rfl⟩
      | ok next => exact ih next _

/-- The component that a request makes with its headers added, the answer of the operation, and
the prefixes `q` given out. -/
def componentOf (a : Assembler) (request : PartType) (last : HeaderSpace)
    (response : Option PartType) (q : Prefixes) : Component where
  requestName := Name.localPart request.key
  tags := last.namespaces.tags
  aliases := (a.catalog.typeAliases (a.catalog.expand request.root).value.node).value
  props := last.props
  interfaces := last.interfaces
  envelope := a.service.envelope
  spaces := last.namespaces.spaces
  body := (((last.namespaces.plan a.catalog a.policy request.key).write request.root none).result
    q).1
  headers := last.markups
  response := response.map fun found => (a.responseShapes last.interfaces found).value

theorem componentOf_alike {s' : Service} (h : a.service.Alike s') (request : PartType)
    (last : HeaderSpace) (response : Option PartType) (q : Prefixes) :
    componentOf { a with service := s' } request last response q =
      a.componentOf request last response q := by
  simp only [componentOf, h.envelope]
  rfl

theorem component_assembleFrom {op : Operation} {request : PartType} {own : NamespaceMap}
    {last : HeaderSpace} {q : Prefixes}
    (hown : (NamespaceMap.ofRoot a.catalog a.policy request.key request.root).result p = .ok own)
    (hlast : (a.withHeaders op request own).result
      ((NamespaceMap.ofRoot a.catalog a.policy request.key request.root).after p) = .ok last)
    (hq : (a.withHeaders op request own).after
      ((NamespaceMap.ofRoot a.catalog a.policy request.key request.root).after p) = q) :
    ∃ assembled, (a.assembleFrom op request).result p = .ok assembled ∧
      assembled.component =
        a.componentOf request last (a.service.response a.catalog op).value q ∧
      assembled.responseType = (a.service.response a.catalog op).value.map (·.key) ∧
      assembled.namespaces = last.namespaces ∧
      (a.assembleFrom op request).after p =
        ((last.namespaces.plan a.catalog a.policy request.key).write request.root none).after q := by
  simp only [withHeaders, startSpace] at hlast hq
  simp only [assembleFrom, Naming.result_bind, Naming.after_bind, Naming.result_lift,
    Naming.after_lift, Naming.result_assigning, Naming.after_assigning, hown, hlast, hq]
  refine ⟨_, rfl, ?_, rfl, rfl, rfl⟩
  cases (a.service.response a.catalog op).value <;> rfl

theorem component_of_assembleOnce {op : Operation} {assembled : Assembled}
    (h : (a.assembleOnce op).result p = .ok assembled) :
    ∃ request own last q, (a.service.request a.catalog op).result = .ok request ∧
      (NamespaceMap.ofRoot a.catalog a.policy request.key request.root).result p = .ok own ∧
      (a.withHeaders op request own).result
        ((NamespaceMap.ofRoot a.catalog a.policy request.key request.root).after p) = .ok last ∧
      assembled.component =
        a.componentOf request last (a.service.response a.catalog op).value q ∧
      assembled.namespaces = last.namespaces := by
  obtain ⟨request, hrequest, hfrom, _⟩ := request_of_assembleOnce h
  obtain ⟨own, last, hown, hlast⟩ := headers_of_assembleFrom hfrom
  obtain ⟨made, hmade, hcomponent, _, hnamespaces, _⟩ := component_assembleFrom hown hlast rfl
  obtain rfl : made = assembled := Except.ok.inj (hmade.symm.trans hfrom)
  exact ⟨request, own, last, _, hrequest, hown, hlast, hcomponent, hnamespaces⟩

theorem exists_withHeaders (a : Assembler) (op : Operation) {request : PartType} {space : String}
    (hspace : Name.given? request.root.node.space = some space) (hp : p.Sound) :
    ∃ own last,
      (NamespaceMap.ofRoot a.catalog a.policy request.key request.root).result p = .ok own ∧
      (a.withHeaders op request own).result
        ((NamespaceMap.ofRoot a.catalog a.policy request.key request.root).after p) = .ok last := by
  obtain ⟨_, own, _, hown, hsound, _, haccount, _⟩ :=
    NamespaceMap.ofRoot_accounted a.catalog a.policy request.key hspace hp
  obtain ⟨last, hlast⟩ := a.exists_addHeaders (a.service.headers a.catalog op).value
    (a.startSpace request own) hsound haccount.wellListed haccount.backed
  exact ⟨own, last, hown, hlast⟩

theorem result_assembleOnce_of_request {op : Operation} :
    (a.assembleOnce op).result p =
      match (a.service.request a.catalog op).result with
      | .ok request => (a.assembleFrom op request).result p
      | .error failure => .error failure := by
  rw [result_assembleOnce]
  simp only [assemble, Naming.result_bind, Naming.result_lift, Naming.after_lift,
    Naming.result_ofOutcome, Naming.after_ofOutcome]
  cases (a.service.request a.catalog op).result <;> rfl

theorem assembleOnce_eq_error_iff (a : Assembler) (op : Operation) (hp : p.Sound)
    {failure : Failure} : (a.assembleOnce op).result p = .error failure ↔
      (a.service.request a.catalog op).result = .error failure := by
  rw [result_assembleOnce_of_request]
  cases hr : (a.service.request a.catalog op).result with
  | error other => simp
  | ok request =>
    obtain ⟨space, hspace⟩ := Service.space_of_request hr
    obtain ⟨own, last, hown, hlast⟩ := a.exists_withHeaders op hspace hp
    obtain ⟨assembled, hassembled, _⟩ := component_assembleFrom hown hlast rfl
    simp [hassembled]

theorem exists_assembleOnce {op : Operation} {request : PartType} (hp : p.Sound)
    (h : (a.service.request a.catalog op).result = .ok request) :
    ∃ assembled, (a.assembleOnce op).result p = .ok assembled := by
  cases hmade : (a.assembleOnce op).result p with
  | error failure => cases h.symm.trans ((a.assembleOnce_eq_error_iff op hp).1 hmade)
  | ok assembled => exact ⟨assembled, rfl⟩

/-- A header that comes to nothing: it cannot be located, or what it names cannot be resolved. -/
def Unusable (a : Assembler) (op : Operation) (declaration : Tree) : Prop :=
  ∀ header, (a.service.header a.catalog op declaration).value = some header →
    ∃ failure, (a.catalog.resolvePart header.messagePart).result = .error failure

theorem usable_drop {s' : Service} {op : Operation} {before after : List Tree} {declaration : Tree}
    (halike : a.service.Alike s')
    (hdeclared : a.service.headerDeclarations op = before ++ declaration :: after)
    (hdropped : s'.headerDeclarations op = before ++ after)
    (hunusable : a.Unusable op declaration) :
    a.usable (s'.headers a.catalog op).value = a.usable (a.service.headers a.catalog op).value := by
  have hheader : s'.header a.catalog op = a.service.header a.catalog op :=
    funext fun t => halike.header a.catalog rfl t
  simp only [usable, Service.value_headers, hdeclared, hdropped, hheader, List.filterMap_append,
    List.filter_append, List.filterMap_cons]
  cases hlocated : (a.service.header a.catalog op declaration).value with
  | none => rfl
  | some header =>
    obtain ⟨failure, hfailure⟩ := hunusable header hlocated
    simp [hfailure]

/-- Nothing but the input, the usable headers and the answer of an operation decides on its
component, and on the prefixes that are given out for it. -/
theorem assembleOnce_congr {s' : Service} {op op' : Operation} {assembled : Assembled}
    (halike : a.service.Alike s') (hname : op'.name = op.name) (hinput : op'.input = op.input)
    (hheaders : a.usable (s'.headers a.catalog op').value =
      a.usable (a.service.headers a.catalog op).value)
    (hresponse : (s'.response a.catalog op').value = (a.service.response a.catalog op).value)
    (hp : p.Sound) (h : (a.assembleOnce op).result p = .ok assembled) :
    let a' := { a with service := s' }
    (∃ alone, (a'.assembleOnce op').result p = .ok alone ∧ assembled.Same alone) ∧
      (a'.assembleOnce op').after p = (a.assembleOnce op).after p := by
  intro a'
  obtain ⟨request, hrequest, hfrom, hafterOnce⟩ := request_of_assembleOnce h
  obtain ⟨space, hspace⟩ := Service.space_of_request hrequest
  obtain ⟨own, last, hown, hlast⟩ := a.exists_withHeaders op hspace hp
  obtain ⟨made, hmade, hcomponent, htype, hnamespaces, hafter⟩ :=
    component_assembleFrom hown hlast rfl
  obtain rfl : made = assembled := Except.ok.inj (hmade.symm.trans hfrom)
  generalize hq : (NamespaceMap.ofRoot a.catalog a.policy request.key request.root).after p = q
    at hlast hcomponent hafter
  -- the usable headers are the same, so both descriptions add the same to the same start
  have husable := a.addHeaders_usable (a.service.headers a.catalog op).value
    (a.startSpace request own) q
  rw [← hheaders] at husable
  obtain ⟨hresult', hafter'⟩ := a.addHeaders_usable (s'.headers a.catalog op').value
    (a.startSpace request own) q
  have hlast' : (a'.withHeaders op' request own).result q = .ok last :=
    (hresult'.trans husable.1.symm).trans hlast
  have hsame : (a'.withHeaders op' request own).after q = (a.withHeaders op request own).after q :=
    hafter'.trans husable.2.symm
  have hrequest' : (s'.request a.catalog op').result = .ok request := by
    rw [halike.request a.catalog hname hinput, hrequest]
  subst hq
  obtain ⟨alone, halone, hcomponent', htype', hnamespaces', hafterFrom⟩ :=
    @component_assembleFrom a' p op' request own last _ hown hlast' hsame
  have honce : (a'.assembleOnce op').result p = .ok alone := by
    rw [result_assembleOnce_of_request]
    simp only [a', hrequest']
    exact halone
  obtain ⟨request', hrequest'', _, hafterOnce'⟩ := request_of_assembleOnce honce
  obtain rfl : request = request' := Except.ok.inj (hrequest'.symm.trans hrequest'')
  refine ⟨⟨alone, honce, ?_⟩, ?_⟩
  · constructor
    · rw [hcomponent', hcomponent, componentOf_alike halike, hresponse]
    · rw [htype', htype, hresponse]
    · rw [hnamespaces', hnamespaces]
  · rw [hafterOnce', hafterOnce, hafterFrom, hafter]

/-- Optional parts degrade cleanly, for every operation after any run of requests for prefixes. An
operation fails just as its input does, never for a prefix; a header fails just as its part does.
When the operation comes out well, an answer that comes to nothing gives the component that the
operation without it gives, and a header that comes to nothing gives the one that the same
description without that header gives, with the same prefixes given out. -/
theorem optional_parts (a : Assembler) (taken : Table String)
    (calls : List (Prefix.Policy × String)) (op : Operation) :
    let p := (prefixesFor calls).after ⟨[], taken⟩
    (∀ failure, (a.assembleOnce op).result p = .error failure ↔
      (a.service.request a.catalog op).result = .error failure) ∧
    (∀ failure, (a.assembleOnce op).result p = .error failure →
      failure = .noInput op.name ∨ failure.OfPart) ∧
    (∀ header failure, (a.headerRoot header).result p = .error failure ↔
      (a.catalog.resolvePart header.messagePart).result = .error failure) ∧
    (∀ header failure, (a.headerRoot header).result p = .error failure → failure.OfPart) ∧
    ∀ assembled, (a.assembleOnce op).result p = .ok assembled →
      ∀ s', a.service.Alike s' →
        let a' := { a with service := s' }
        (s'.headerDeclarations op = a.service.headerDeclarations op →
          (a.service.response a.catalog op).value = none →
          let silent := { op with output := none }
          (∃ alone, (a'.assembleOnce silent).result p = .ok alone ∧ assembled.Same alone) ∧
            (a'.assembleOnce silent).after p = (a.assembleOnce op).after p) ∧
        ∀ before declaration after,
          a.service.headerDeclarations op = before ++ declaration :: after →
          s'.headerDeclarations op = before ++ after → a.Unusable op declaration →
          (∃ alone, (a'.assembleOnce op).result p = .ok alone ∧ assembled.Same alone) ∧
            (a'.assembleOnce op).after p = (a.assembleOnce op).after p := by
  intro p
  have hp : p.Sound := (prefixesFor_spec calls (Prefixes.sound_of_unasked taken)).1
  refine ⟨fun _ => a.assembleOnce_eq_error_iff op hp, ?_,
    fun header _ => a.headerRoot_eq_error_iff header hp, ?_, ?_⟩
  · intro failure h
    exact Service.request_failure ((a.assembleOnce_eq_error_iff op hp).1 h)
  · intro header failure h
    exact Catalog.resolvePart_failure ((a.headerRoot_eq_error_iff header hp).1 h)
  · intro assembled h s' halike a'
    constructor
    · intro hdeclared hnone silent
      refine assembleOnce_congr halike rfl rfl ?_ ?_ hp h
      · have hheader : s'.header a.catalog silent = a.service.header a.catalog op :=
          funext fun t => halike.header a.catalog rfl t
        have hsilent : s'.headerDeclarations silent = s'.headerDeclarations op :=
          s'.headerDeclarations_eq rfl
        rw [Service.value_headers, Service.value_headers, hheader, hsilent, hdeclared]
      · rw [hnone]
        rfl
    · intro before declaration after hdeclared hdropped hunusable
      refine assembleOnce_congr halike rfl rfl ?_ ?_ hp h
      · rw [usable_drop halike hdeclared hdropped hunusable]
      · rw [halike.response]

end Assembler

namespace SampleNote

def graph : TypeGraph where
  objects := [{ members := [("a", { type := .primitive "string" })], space := some "urn:a" }]
  elements := [("urn:a:Req", .object 0), ("urn:h:Note", .primitive "string")]

def message (name part element : String) : Tree :=
  .node [("name", .text name), ("part", .node [("name", .text part), ("element", .text element)])]

def declaration (part : String) : Tree :=
  .node [("message", .text "Headers"), ("part", .text part)]

/-- The description whose operation asks for these headers. -/
def service (headers : List Tree) : Service where
  definitions := .node [
    ("message", .many [message "In" "p" "a:Req", message "Headers" "note" "h:Note"]),
    ("portType", .node [("name", .text "PT")]),
    ("binding", .node [
      ("type", .text "PT"),
      ("operation", .node [
        ("name", .text "Op"), ("input", .node [("header", .many headers)])])])]
  namespaces := [("a", "urn:a"), ("h", "urn:h")]
  graph := graph

def assembler : Assembler where
  service := service [declaration "absent", declaration "note"]
  catalog := graph.catalog
  policy := ⟨10, 6⟩

def operation : Operation := ⟨"Op", some "In", some "Out"⟩

theorem note_unusable : assembler.Unusable operation (declaration "note") := by
  intro header hheader
  obtain rfl : header = ⟨"note", "h:Note", "urn:h:Note"⟩ := (Option.some.inj hheader).symm
  exact ⟨.partNotComplex "note", rfl⟩

/-- Neither the answer nor the header that names text matters to the component. -/
theorem optional_parts_of_note : ∃ assembled,
    (assembler.assembleOnce operation).result {} = .ok assembled ∧
    (∃ alone, (assembler.assembleOnce { operation with output := none }).result {} = .ok alone ∧
      assembled.Same alone) ∧
    ∃ alone, ({ assembler with service := service [declaration "absent"] }.assembleOnce
      operation).result {} = .ok alone ∧ assembled.Same alone := by
  obtain ⟨hfails, _, _, _, hparts⟩ := Assembler.optional_parts assembler [] [] operation
  cases hmade : (assembler.assembleOnce operation).result {} with
  | error failure => exact absurd ((hfails failure).1 hmade) (by rintro ⟨⟩)
  | ok assembled =>
    refine ⟨assembled, rfl, ?_, ?_⟩
    · exact ((hparts assembled hmade assembler.service (.refl _)).1 rfl rfl).1
    · exact ((hparts assembled hmade (service [declaration "absent"]) ⟨rfl, rfl, rfl, rfl⟩).2
        [declaration "absent"] (declaration "note") [] rfl rfl note_unusable).1

end SampleNote

end SoapComponents
