import SoapComponents.Proofs.Name
import SoapComponents.Proofs.Schema.Registered

/-!
What the names in schemas mean. A schema is read with the namespaces that are declared on it and,
for those that it does not declare, around it; all names inside it are read with these, whatever
the elements that they stand on declare.
-/

set_option autoImplicit false

namespace SoapComponents

theorem Tree.proper_namespaces (t : Tree) : Table.Proper t.namespaces := by
  have hempty : Table.Proper ([] : Table String) := by simp [Table.Proper, Table.keys]
  refine List.foldlRecOn t.entries _ hempty fun found h e _ => ?_
  split
  · split
    · exact h.put _ _
    · split
      · exact h.put _ _
      · exact h
  · exact h

theorem Scope.namespaces_ofSchema (schema : Tree) (around : Table String)
    (location : Option String) (nsPrefix : String) :
    (Scope.ofSchema schema around location).namespaces.value? nsPrefix =
      (schema.namespaces.value? nsPrefix).or (around.value? nsPrefix) := by
  simp only [Scope.ofSchema, Table.value?_putAll, Table.value?_reverse schema.proper_namespaces]

section

variable {scope : Scope} {nsPrefix space base : String}

theorem Scope.qualify_of_declared (hleft : ':' ∉ nsPrefix.toList) (hspace : space ≠ "")
    (h : scope.namespaces.value? nsPrefix = some space) :
    (scope.qualify (nsPrefix ++ ":" ++ base)).value = space ++ ":" ++ base := by
  simp only [qualify, Name.prefixed?_joined base hleft, h, Noted.value_pure,
    Name.qualified_of_ne base hspace]

def Content.typeIn (space base : String) : Draft :=
  if space = Name.schemaSpace then .primitive base else .reference (space ++ ":" ++ base)

theorem Content.namedType_of_declared (hleft : ':' ∉ nsPrefix.toList)
    (hbase : ':' ∉ base.toList) (hspace : space ≠ "")
    (h : scope.namespaces.value? nsPrefix = some space) :
    (namedType scope (nsPrefix ++ ":" ++ base)).value = typeIn space base := by
  simp only [namedType, Noted.value_bind, Noted.value_pure,
    Scope.qualify_of_declared hleft hspace h, Name.isBuiltIn, Name.space?_joined space hbase,
    Name.localPart_joined space hbase, typeIn]
  by_cases hs : space = Name.schemaSpace <;> simp [hs]

def Content.nodeIn (space base : String) : TypeNode :=
  if space = Name.schemaSpace then .primitive base
  else .reference ⟨space ++ ":" ++ base, none, none⟩

theorem TypeNode.eq_reference_of_head {type : TypeNode} {pointer : Reference}
    (h : type.head = .reference pointer) : type = .reference pointer := by
  cases type <;> simp_all [head]

theorem Content.eq_nodeIn_of_head {type : TypeNode} (h : type.head = (typeIn space base).head) :
    type = nodeIn space base := by
  unfold typeIn at h
  unfold nodeIn
  split at h
  · next hs =>
    rw [if_pos hs]
    cases type <;> simp_all [TypeNode.head, Draft.head]
  · next hs =>
    rw [if_neg hs]
    exact TypeNode.eq_reference_of_head h

end

/-- What a prefix means for a schema: what the schema declares or, for a root that does not declare
it, what is declared around the roots. -/
def Visit.Binds (roots : List Tree) (outer : Table String) (start : Option String) (schema : Tree)
    (scope : Scope) (nsPrefix space : String) : Prop :=
  schema.namespaces.value? nsPrefix = some space ∨
    schema.namespaces.value? nsPrefix = none ∧ schema ∈ roots ∧
      scope = Scope.ofSchema schema outer start ∧ outer.value? nsPrefix = some space

/-- The base of the restriction that an element declaration has for its type. -/
def Content.restrictedBase? (node : Tree) : Option String :=
  ((node.element? "simpleType").bind (·.element? "restriction")).bind (·.given? "base")

namespace TypeGraph

variable {origin : Option Visit.Origin} {roots : List Tree} {outer : Table String}
  {start : Option String} {g : TypeGraph} {schema node : Tree} {scope : Scope}
  {nsPrefix space base : String}

theorem scope_of_binds (hdeclare : .declare schema scope ∈ Visit.all origin roots outer start)
    (h : Visit.Binds roots outer start schema scope nsPrefix space) :
    scope.namespaces.value? nsPrefix = some space := by
  obtain ⟨hwalked, _⟩ := @Visit.within_walked origin roots start _ outer (Nat.le_refl _)
  obtain ⟨around, haround⟩ := (hwalked.followed schema scope hdeclare).around
  rcases h with hown | ⟨hnone, _, hscope, houter⟩
  · rw [haround, Scope.namespaces_ofSchema, hown, Option.some_or]
  · rw [hscope, Scope.namespaces_ofSchema, hnone, Option.none_or, houter]

theorem type_of_ref {e : String × Member TypeNode} {ref : String}
    (h : Content.declared? scope node = some (e.1, e.2.map TypeNode.head))
    (href : node.given? "ref" = some ref) :
    e.2.type = .reference ⟨(scope.qualify ref).value, none, none⟩ := by
  simp only [Content.declared?, href, Option.some.injEq, Prod.mk.injEq, Member.map,
    Member.mk.injEq] at h
  exact TypeNode.eq_reference_of_head h.2.1.symm

theorem head_of_declared {e : String × Member TypeNode}
    (h : Content.declared? scope node = some (e.1, e.2.map TypeNode.head))
    (href : node.given? "ref" = none) : e.2.type.head = Content.headOf scope node := by
  simp only [Content.declared?, href, Option.map_eq_some_iff, Prod.mk.injEq, Member.map,
    Member.mk.injEq] at h
  obtain ⟨_, _, _, htype, _⟩ := h
  exact htype.symm

theorem headOf_of_type {name : String} (htype : node.given? "type" = some name) :
    Content.headOf scope node = (Content.namedType scope name).value.head := by
  simp only [Content.headOf, htype]

theorem headOf_of_restriction {name : String} (htype : node.given? "type" = none)
    (hcomplex : node.element? "complexType" = none) (hsequence : node.element? "sequence" = none)
    (hbase : Content.restrictedBase? node = some name) :
    Content.headOf scope node = (Content.namedType scope name).value.head := by
  simp only [Content.restrictedBase?, Option.bind_eq_some_iff] at hbase
  obtain ⟨restriction, ⟨simple, hsimple, hrestriction⟩, hbase⟩ := hbase
  simp [Content.headOf, htype, hcomplex, hsequence, Content.simpleType, hsimple, hrestriction,
    hbase]

section

-- a prefix that a scope binds to a namespace
variable (hleft : ':' ∉ nsPrefix.toList) (hbase : ':' ∉ base.toList) (hspace : space ≠ "")
  (hscope : scope.namespaces.value? nsPrefix = some space)

include hleft hbase hspace hscope

theorem result_group_of_name {groups : Groups} {depth : Nat}
    (href : node.given? "ref" = some (nsPrefix ++ ":" ++ base)) :
    (Content.group groups depth scope node).result =
      Content.referredGroup groups depth (space ++ ":" ++ base) base := by
  rw [Content.result_group_of_ref href, Scope.qualify_of_declared hleft hspace hscope,
    Name.localPart_joined nsPrefix hbase]

theorem type_of_name {e : String × Member TypeNode}
    (h : Content.declared? scope node = some (e.1, e.2.map TypeNode.head)) :
    (node.given? "ref" = some (nsPrefix ++ ":" ++ base) →
      e.2.type = .reference ⟨space ++ ":" ++ base, none, none⟩) ∧
    (node.given? "ref" = none → node.given? "type" = some (nsPrefix ++ ":" ++ base) →
      e.2.type = Content.nodeIn space base) ∧
    (node.given? "ref" = none → node.given? "type" = none →
      node.element? "complexType" = none → node.element? "sequence" = none →
      Content.restrictedBase? node = some (nsPrefix ++ ":" ++ base) →
      e.2.type = Content.nodeIn space base) := by
  have hnamed := Content.namedType_of_declared hleft hbase hspace hscope
  refine ⟨fun href => ?_, fun href htype => ?_, fun href htype hcomplex hsequence hrestricted => ?_⟩
  · rw [type_of_ref h href, Scope.qualify_of_declared hleft hspace hscope]
  · refine Content.eq_nodeIn_of_head ?_
    rw [head_of_declared h href, headOf_of_type htype, hnamed]
  · refine Content.eq_nodeIn_of_head ?_
    rw [head_of_declared h href, headOf_of_restriction htype hcomplex hsequence hrestricted, hnamed]

end

theorem entry_of_build (h : (TypeGraph.build origin roots outer start).result = .ok g)
    {e : String × TypeNode} (he : e ∈ g.elements) :
    (∃ id, e.2 = .object id) ∨
      Building.PointerEntry (Visit.all origin roots outer start) e := by
  obtain ⟨b, hgather, hfinish⟩ := gather_of_build h
  obtain ⟨hsound, _⟩ := Building.gather_spec hgather
  obtain ⟨_, helements, _⟩ := Building.finish_spec hfinish
  rcases helements with heq | ⟨_, heq⟩
  · exact hsound.entries e (heq ▸ he)
  · obtain ⟨entry, _, rfl⟩ := List.mem_map.1 (heq ▸ he)
    exact .inl ⟨entry.2, rfl⟩

/-- The names in a graph that is built. A name with a prefix, in an attribute anywhere inside a
schema, means the name in the namespace that the schema binds the prefix to, whatever the elements
between declare. So it is for the types and references of local elements, the bases of simple
types, the types of global elements, the bases of extensions, and references to groups. -/
theorem keys_of_names (h : (TypeGraph.build origin roots outer start).result = .ok g)
    (hleft : ':' ∉ nsPrefix.toList) (hbase : ':' ∉ base.toList) (hspace : space ≠ "") :
    let visits := Visit.all origin roots outer start
    let binds := fun schema scope => Visit.Binds roots outer start schema scope nsPrefix space
    let name := nsPrefix ++ ":" ++ base
    let key := space ++ ":" ++ base
    (∀ root ∈ roots, .declare root (Scope.ofSchema root outer start) ∈ visits) ∧
    (∀ schema scope, .declare schema scope ∈ visits → binds schema scope →
      (scope.qualify name).value = key ∧
      (Content.namedType scope name).value = Content.typeIn space base ∧
      ∀ groups depth node, node.given? "ref" = some name →
        (Content.group groups depth scope node).result =
          Content.referredGroup groups depth key base) ∧
    (∀ id, ∀ e ∈ (g.object id).members, ∃ schema scope node,
      .declare schema scope ∈ visits ∧ schema.Inside node ∧
      Content.declared? scope node = some (e.1, e.2.map TypeNode.head) ∧
      (binds schema scope →
        (node.given? "ref" = some name → e.2.type = .reference ⟨key, none, none⟩) ∧
        (node.given? "ref" = none → node.given? "type" = some name →
          e.2.type = Content.nodeIn space base) ∧
        (node.given? "ref" = none → node.given? "type" = none →
          node.element? "complexType" = none → node.element? "sequence" = none →
          Content.restrictedBase? node = some name → e.2.type = Content.nodeIn space base))) ∧
    (∀ e ∈ g.elements, (∃ id, e.2 = .object id) ∨ ∃ schema scope node element,
      .declare schema scope ∈ visits ∧ node ∈ schema.children "element" ∧
      node.given? "name" = some element ∧ e.1 = Name.qualified scope.target element ∧
      (binds schema scope → node.given? "type" = some name →
        e.2 = .reference ⟨key, scope.target, some scope.qualified⟩)) ∧
    ∃ b, (Building.gather origin roots outer start).result = .ok b ∧ b.finish.result = .ok g ∧
      ∀ x ∈ b.extensions, ∃ schema scope node written,
        .declare schema scope ∈ visits ∧ schema.Inside node ∧ node.given? "base" = some written ∧
        x.base = (scope.qualify written).value ∧
        (binds schema scope → written = name → x.base = key) := by
  intro visits binds name key
  obtain ⟨_, hroots⟩ := @Visit.within_walked origin roots start _ outer (Nat.le_refl _)
  obtain ⟨b, hgather, hfinish⟩ := gather_of_build h
  obtain ⟨hsound, _⟩ := Building.gather_spec hgather
  have hscope : ∀ {schema scope}, .declare schema scope ∈ visits → binds schema scope →
      scope.namespaces.value? nsPrefix = some space := scope_of_binds
  have hqualify : ∀ {schema scope}, .declare schema scope ∈ visits → binds schema scope →
      (scope.qualify name).value = key := fun hdeclare hbinds =>
    Scope.qualify_of_declared hleft hspace (hscope hdeclare hbinds)
  refine ⟨hroots, fun schema scope hdeclare hbinds => ⟨hqualify hdeclare hbinds,
    Content.namedType_of_declared hleft hbase hspace (hscope hdeclare hbinds),
    fun groups depth node => result_group_of_name hleft hbase hspace (hscope hdeclare hbinds)⟩,
    fun id e he => ?_, fun e he => ?_, b, hgather, hfinish, fun x hx => ?_⟩
  · obtain ⟨scope, node, ⟨schema, hdeclare, hinside⟩, hdeclared⟩ := declares_of_build h he
    exact ⟨schema, scope, node, hdeclare, hinside, hdeclared, fun hbinds =>
      type_of_name hleft hbase hspace (hscope hdeclare hbinds) hdeclared⟩
  · refine (entry_of_build h he).imp id ?_
    rintro ⟨schema, scope, node, element, hdeclare, hnode, hname, _, rfl⟩
    refine ⟨schema, scope, node, element, hdeclare, hnode, hname, rfl, fun hbinds htype => ?_⟩
    simp only [Building.pointer, htype, Noted.value_bind, Noted.value_pure,
      hqualify hdeclare hbinds]
  · obtain ⟨scope, node, written, ⟨schema, hdeclare, hinside⟩, hwritten, hkey⟩ :=
      hsound.extensions x hx
    refine ⟨schema, scope, node, written, hdeclare, hinside, hwritten, hkey.symm, ?_⟩
    rintro hbinds rfl
    rw [← hkey, hqualify hdeclare hbinds]

end TypeGraph

namespace SampleQName

/-- `<schema targetNamespace="t"><element name="x" type="q:B" xmlns:q="inner"/></schema>` -/
def root : Tree := .node [
  ("targetNamespace", .text "t"),
  ("element", .node [("name", .text "x"), ("type", .text "q:B"), ("xmlns:q", .text "inner")])]

def outer : Table String := [("q", "outer")]

theorem built : ∃ g, (TypeGraph.build none [root] outer none).result = .ok g ∧
    g.elements = [("t:x", .reference ⟨"outer:B", some "t", some false⟩)] := by
  have hsome : (TypeGraph.build none [root] outer none).result.toOption.map (·.elements) =
      some [("t:x", .reference ⟨"outer:B", some "t", some false⟩)] := by
    decide +kernel
  obtain ⟨g, hg, helements⟩ := Option.map_eq_some_iff.1 hsome
  exact ⟨g, eq_ok_of_toOption hg, helements⟩

/-- The namespace that an element declares is not the one in which its own type is named. -/
theorem key_ignores_inner_prefix : ∃ g node pointer,
    (TypeGraph.build none [root] outer none).result = .ok g ∧ node ∈ root.children "element" ∧
      node.given? "name" = some "x" ∧ node.given? "type" = some "q:B" ∧
      node.namespaces.value? "q" = some "inner" ∧
      g.elements.value? "t:x" = some (.reference pointer) ∧ pointer.name ≠ "inner:B" := by
  obtain ⟨g, hbuild, helements⟩ := built
  refine ⟨g, .node [("name", .text "x"), ("type", .text "q:B"), ("xmlns:q", .text "inner")],
    ⟨"outer:B", some "t", some false⟩, hbuild, List.mem_singleton.2 rfl, rfl, rfl, rfl, ?_,
    by decide⟩
  rw [helements]
  rfl

theorem keys_of_outer_name : ∃ g,
    (TypeGraph.build none [root] outer none).result = .ok g ∧ ∀ e ∈ g.elements,
      (∃ id, e.2 = .object id) ∨ ∃ scope : Scope,
        e.2 = .reference ⟨"outer:B", scope.target, some scope.qualified⟩ := by
  obtain ⟨g, hbuild, _⟩ := built
  obtain ⟨_, _, _, helements, _⟩ := TypeGraph.keys_of_names hbuild
    (show ':' ∉ "q".toList by decide) (show ':' ∉ "B".toList by decide)
    (show "outer" ≠ "" by decide)
  refine ⟨g, hbuild, fun e he => (helements e he).imp id ?_⟩
  rintro ⟨schema, scope, node, element, hdeclare, hnode, _, _, hkey⟩
  have hvisits : Visit.all none [root] outer none =
      [.enter (Scope.ofSchema root outer none), .declare root (Scope.ofSchema root outer none)] :=
    rfl
  rw [hvisits] at hdeclare
  obtain ⟨rfl, rfl⟩ : schema = root ∧ scope = Scope.ofSchema root outer none := by
    simpa using hdeclare
  obtain rfl := List.mem_singleton.1 hnode
  exact ⟨_, hkey (.inr ⟨rfl, List.mem_singleton.2 rfl, rfl, rfl⟩) rfl⟩

end SampleQName

end SoapComponents
