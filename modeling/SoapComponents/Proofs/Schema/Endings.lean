import SoapComponents.Proofs.Schema.Calls
import SoapComponents.Proofs.Schema.SchemaOrder

/-!
How building ends. Imports are followed once each and inheritance is settled once each, but nothing
keeps a group from being read inside itself: a graph is built only where no group that is read leads
back to itself, and a group that does is one of the reasons for which building fails.
-/

set_option autoImplicit false

namespace SoapComponents

/-- The contents that are read for a graph, with the groups that are known by then: those of named
types, and those of named elements when all schemas are visited. -/
inductive Visit.Reads (visits : List Visit) : Groups → Scope → Tree → Prop
  | type {groups : Groups} {node : Tree} {scope : Scope} :
      (groups, node, scope) ∈ Groups.typesAlong [] (Visit.declared visits) →
      (declaredKey? (node, scope)).isSome → Reads visits groups scope node
  | element {node content : Tree} {scope : Scope} : (node, scope) ∈ Visit.nodes "element" visits →
      (declaredKey? (node, scope)).isSome → Building.content? node = some content →
      Reads visits (Groups.all (Visit.declared visits)) scope content

namespace Building

open Registration

variable {visits : List Visit} {groups : Groups} {b : Building} {failure : Failure}

theorem failure_of_foldlM_read {f : Building → Tree × Scope → Outcome Building}
    {read : Tree × Scope → Except Failure (Option Registration)} {nodes : List (Tree × Scope)}
    (hf : ∀ b, b.groups = groups → ∀ d ∈ nodes, (f b d).result = (read d).map b.registerRead)
    (hb : b.groups = groups) (h : (nodes.foldlM f b).result = .error failure) :
    ∃ d ∈ nodes, read d = .error failure := by
  induction nodes generalizing b with
  | nil => cases h
  | cons d rest ih =>
    rw [List.foldlM_cons, Outcome.result_bind, hf b hb d List.mem_cons_self] at h
    cases hread : read d with
    | error other =>
      rw [hread] at h
      obtain rfl := Except.error.inj h
      exact ⟨d, List.mem_cons_self, hread⟩
    | ok r =>
      rw [hread] at h
      have hgroups := (groups_registerRead b r).trans hb
      obtain ⟨found, hfound, hfailure⟩ :=
        ih (fun b hb d hd => hf b hb d (List.mem_cons_of_mem _ hd)) hgroups h
      exact ⟨found, List.mem_cons_of_mem _ hfound, hfailure⟩

theorem failure_of_visits (h : (visits.foldlM step b).result = .error failure) :
    .fail failure ∈ visits ∨
      ∃ e ∈ b.groups.typesAlong (Visit.declared visits), ofTypeAlong e = .error failure := by
  induction visits generalizing b with
  | nil => cases h
  | cons v rest ih =>
    rw [List.foldlM_cons, Outcome.result_bind] at h
    cases v with
    | enter scope => exact (ih (b := b.enter scope) h).imp (List.mem_cons_of_mem _) id
    | load space location => exact (ih (b := b) h).imp (List.mem_cons_of_mem _) id
    | tell notice => exact (ih (b := b) h).imp (List.mem_cons_of_mem _) id
    | fail other =>
      obtain rfl := Except.error.inj h
      exact .inl List.mem_cons_self
    | declare schema scope =>
      generalize hknown : Table.putAll b.groups (Groups.declared (schema, scope)) = known
      rw [Visit.declared_declare, Groups.typesAlong, hknown]
      cases hstep : (b.step (.declare schema scope)).result with
      | error other =>
        rw [hstep] at h
        obtain rfl := Except.error.inj h
        have htypes : ((declaredNodes "complexType" (schema, scope)).foldlM
            (fun b d => registerType d.2 b d.1) (b.registerGroups schema scope)).result =
              .error other := by
          unfold step at hstep
          rw [Outcome.result_bind] at hstep
          rw [declaredNodes, List.foldlM_map]
          cases htyped : ((schema.children "complexType").foldlM (registerType scope)
              (b.registerGroups schema scope)).result with
          | ok typed => simp [htyped] at hstep
          | error _ => simpa [htyped] using hstep
        obtain ⟨d, hd, hread⟩ := @failure_of_foldlM_read known _ other _ (ofType known)
          _ (fun b hb d _ => by rw [result_registerType_read, hb])
          ((groups_registerGroups b schema scope).trans hknown) htypes
        exact .inr ⟨(known, d), List.mem_append_left _ (List.mem_map_of_mem hd), hread⟩
      | ok typed =>
        rw [hstep] at h
        have hgroups : typed.groups = known := by
          obtain ⟨-, rfl⟩ := (result_step_declare hknown.symm).1 hstep
          exact (groups_foldl _ _).trans ((groups_registerGroups b schema scope).trans hknown)
        refine (ih (b := typed) h).imp (List.mem_cons_of_mem _) ?_
        rintro ⟨e, he, hread⟩
        exact ⟨e, List.mem_append_right _ (hgroups ▸ he), hread⟩

theorem failure_of_type {e : Groups × Tree × Scope}
    (he : e ∈ Groups.typesAlong [] (Visit.declared visits)) (h : ofTypeAlong e = .error failure) :
    ∃ groups scope node, Visit.Reads visits groups scope node ∧
      (Content.complexType groups groups.depthBound scope node).result = .error failure := by
  obtain ⟨known, node, scope⟩ := e
  unfold ofTypeAlong ofType at h
  split at h
  · cases h
  · next key hkey =>
    exact ⟨known, scope, node, .type he (Option.isSome_iff_exists.2 ⟨key, hkey⟩),
      eq_error_of_map h⟩

theorem failure_of_element {d : Tree × Scope} (hd : d ∈ Visit.nodes "element" visits)
    (h : ofElement (Groups.all (Visit.declared visits)) d = .error failure) :
    ∃ groups scope node, Visit.Reads visits groups scope node ∧
      (Content.complexType groups groups.depthBound scope node).result = .error failure := by
  obtain ⟨node, scope⟩ := d
  unfold ofElement at h
  split at h
  · cases h
  · next key hkey =>
    split at h
    · next content hcontent =>
      exact ⟨_, scope, content, .element hd (Option.isSome_iff_exists.2 ⟨key, hkey⟩) hcontent,
        eq_error_of_map h⟩
    · cases h

section

variable {origin : Option Visit.Origin} {roots : List Tree} {outer : Table String}
  {start : Option String}

theorem failure_of_gather (h : (gather origin roots outer start).result = .error failure) :
    .fail failure ∈ Visit.all origin roots outer start ∨
      ∃ groups scope node, Visit.Reads (Visit.all origin roots outer start) groups scope node ∧
        (Content.complexType groups groups.depthBound scope node).result = .error failure := by
  generalize hall : Visit.all origin roots outer start = visits
  unfold gather at h
  rw [Outcome.result_bind, hall] at h
  cases hvisits : (visits.foldlM step ({} : Building)).result with
  | error other =>
    rw [hvisits] at h
    obtain rfl := Except.error.inj h
    refine (failure_of_visits hvisits).imp id ?_
    rintro ⟨e, he, hread⟩
    exact failure_of_type he hread
  | ok b =>
    rw [hvisits] at h
    obtain ⟨-, hvisited⟩ := (foreseen visits {}).made b hvisits
    have hgroups : b.groups = Groups.all (Visit.declared visits) := hvisited.groups
    have helements : b.elements = Visit.nodes "element" visits := hvisited.elements
    obtain ⟨d, hd, hread⟩ := failure_of_foldlM_read
      (fun b hb d _ => by rw [result_registerElement_read, hb]) hgroups h
    exact .inr (failure_of_element (helements ▸ hd) hread)

theorem read_of_gather {b : Building} (h : (gather origin roots outer start).result = .ok b)
    {scope : Scope} {node : Tree}
    (hread : Visit.Reads (Visit.all origin roots outer start) groups scope node) :
    ∃ derived, (Content.complexType groups groups.depthBound scope node).result = .ok derived := by
  obtain ⟨⟨-, htypes⟩, helements⟩ := result_gather_along.1.1 ⟨b, h⟩
  cases hread with
  | type he hname =>
    obtain ⟨r, hr⟩ := htypes _ he
    rcases ofType_cases hr with ⟨hnone, _⟩ | ⟨_, derived, _, hderived, _⟩
    · exact absurd hnone (Option.isSome_iff_ne_none.1 hname)
    · exact ⟨derived, hderived⟩
  | element hd hname hcontent =>
    obtain ⟨r, hr⟩ := helements _ hd
    rcases ofElement_cases hr with ⟨hnone, _⟩ | ⟨_, _, ⟨hnone, _⟩ | ⟨_, derived, hinner, hderived, _⟩⟩
    · exact absurd hnone (Option.isSome_iff_ne_none.1 hname)
    · cases hcontent.symm.trans hnone
    · obtain rfl := Option.some.inj (hcontent.symm.trans hinner)
      exact ⟨derived, hderived⟩

end

end Building

namespace TypeGraph

/-- Building comes to an end with a graph where every content that is read comes to the end of what
it leads to. Otherwise it fails: for stray children, for having nothing to offer, for an import that
cannot be followed at all; or because a content leads to a group that leads back to itself, which no
guard keeps from being read inside itself, so that it goes deeper than any depth. Imports are not
such a case: however they lead back to each other, following them more deeply than the bound allows
would bring nothing more. Nor is it the bound on groups that cuts a content short: more depth than
there are groups makes no difference. -/
theorem build_ends (origin : Option Visit.Origin) (roots : List Tree) (outer : Table String)
    (start : Option String) :
    let visits := Visit.all origin roots outer start
    let result := (TypeGraph.build origin roots outer start).result
    (∀ depth, Visit.depthBound origin roots ≤ depth →
      (Visit.within origin depth roots outer start).1 = visits) ∧
    (∀ groups scope node depth, groups.depthBound ≤ depth →
      (Content.complexType groups depth scope node).result =
        (Content.complexType groups groups.depthBound scope node).result) ∧
    ((∃ g, result = .ok g ∧ ∀ groups scope node, Visit.Reads visits groups scope node →
        Content.Ends groups ⟨.complexType, scope, node⟩) ∨
      (∃ diagnosis, result = .error (.nothingDeclared diagnosis)) ∨
      (∃ name found, result = .error (.strayChildren name found)) ∨
      (∃ failure, result = .error failure ∧ .fail failure ∈ visits) ∨
      ∃ groups scope node, result = .error .tooDeep ∧ Visit.Reads visits groups scope node ∧
        (∀ depth, (Content.complexType groups depth scope node).result = .error .tooDeep) ∧
        Content.Circular groups ⟨.complexType, scope, node⟩) := by
  intro visits result
  refine ⟨fun depth hdepth => by rw [Visit.within_depth outer hdepth]; rfl,
    fun groups scope node depth hdepth => Content.result_complexType_of_depth hdepth, ?_⟩
  cases hgather : (Building.gather origin roots outer start).result with
  | error failure =>
    have hresult : result = .error failure := by
      simp only [result, TypeGraph.build, Outcome.result_bind, hgather]
    rcases Building.failure_of_gather hgather with hfail | ⟨groups, scope, node, hread, hcontent⟩
    · exact .inr (.inr (.inr (.inl ⟨failure, hresult, hfail⟩)))
    · rcases Content.complexType_cases groups scope node with ⟨derived, hok, -⟩ |
        ⟨name, found, hstray⟩ | ⟨hdeep, hcircular⟩
      · cases hok.symm.trans hcontent
      · obtain rfl := Except.error.inj (hstray.symm.trans hcontent)
        exact .inr (.inr (.inl ⟨name, found, hresult⟩))
      · obtain rfl := Except.error.inj ((hdeep _).symm.trans hcontent)
        exact .inr (.inr (.inr (.inr ⟨groups, scope, node, hresult, hread, hdeep, hcircular⟩)))
  | ok b =>
    have hresult : result = if TypeGraph.isEmpty { b.settled with elements := b.offered } then
        .error (.nothingDeclared (diagnose { b.settled with elements := b.offered } roots))
        else .ok { b.settled with elements := b.offered } := by
      simp only [result, TypeGraph.build, Outcome.result_bind, hgather, Building.result_finish]
      split <;> rfl
    split at hresult
    · exact .inr (.inl ⟨_, hresult⟩)
    · refine .inl ⟨_, hresult, fun groups scope node hread => ?_⟩
      obtain ⟨derived, hderived⟩ := Building.read_of_gather hgather hread
      rcases Content.complexType_cases groups scope node with ⟨_, _, hends⟩ |
        ⟨name, found, hstray⟩ | ⟨hdeep, -⟩
      · exact hends
      · cases hstray.symm.trans hderived
      · cases (hdeep _).symm.trans hderived

end TypeGraph

namespace SampleCircle

def reference : Tree := .node [("ref", .text "t:G")]

theorem href : reference.given? "ref" = some "t:G" := rfl

def group : Tree := .node [("name", .text "G"), ("sequence", .node [("group", reference)])]

def type : Tree := .node [("name", .text "T"), ("group", reference)]

def root : Tree := .node [
  ("targetNamespace", .text "t"), ("xmlns:t", .text "t"), ("group", group),
  ("complexType", type)]

def scope : Scope := Scope.ofSchema root [] none

def groups : Groups := [("t:G", group, scope)]

theorem result_body {depth : Nat}
    (h : (Content.group groups depth scope reference).result = .error .tooDeep) :
    (Content.groupBody groups depth scope group).result = .error .tooDeep := by
  have hinner : (Content.particleTags.flatMap group.children).head? =
      some (.node [("group", reference)]) := rfl
  have hreference : (Tree.node [("group", reference)]).children "group" = [reference] := rfl
  have hparticle : (Content.particle groups depth scope (.node [("group", reference)])).result =
      .error .tooDeep := by
    rw [Content.particle_eq, Outcome.result_bind]
    change (((Tree.node [("group", reference)]).children "group").mapM
      (Content.group groups depth scope) >>= _).result = _
    rw [Outcome.result_bind, hreference, List.mapM_cons, Outcome.result_bind, h]
  rw [Content.groupBody_eq, show group.children "element" = [] from rfl, List.mapM_nil, pure_bind]
  simp only [hinner]
  exact hparticle

theorem result_reference (depth : Nat) :
    (Content.group groups depth scope reference).result = .error .tooDeep := by
  have hfind : groups.find? (scope.qualify "t:G").value (Name.localPart "t:G") =
      some ("t:G", group, scope) := rfl
  rw [Content.result_group_of_ref href]
  induction depth with
  | zero => rw [Content.referredGroup_zero hfind]
  | succ depth ih =>
    rw [Content.referredGroup_succ hfind]
    exact result_body (by rw [Content.result_group_of_ref href, ih])

theorem circular : Content.Circular groups ⟨.complexType, scope, type⟩ := by
  have hopens : Content.Calls groups ⟨.group, scope, reference⟩ ⟨.groupBody, scope, group⟩ :=
    .definition href rfl
  have hreference : reference ∈ (Tree.node [("group", reference)]).children "group" :=
    List.mem_singleton.2 rfl
  refine ⟨"t:G", group, scope, rfl, .tail (.single (.contentGroup rfl rfl)) hopens, ?_⟩
  exact .tail (.tail (.single (.bodyParticle rfl rfl)) (.grouped hreference)) hopens

/-- A group that refers to itself is read without end: there is neither a graph, nor is it told what
is wrong with the schema. -/
theorem endless_of_own_reference :
    ¬ Content.Ends groups ⟨.complexType, scope, type⟩ ∧
    (∀ depth, (Content.complexType groups depth scope type).result = .error .tooDeep) ∧
    (TypeGraph.build none [root] [] none).result = .error .tooDeep ∧
      ¬ ((∃ g, (TypeGraph.build none [root] [] none).result = .ok g) ∨
        (∃ name found, (TypeGraph.build none [root] [] none).result =
          .error (.strayChildren name found)) ∨
        ∃ diagnosis, (TypeGraph.build none [root] [] none).result =
          .error (.nothingDeclared diagnosis)) := by
  have hcontent : ∀ depth, (Content.complexType groups depth scope type).result =
      .error .tooDeep := by
    intro depth
    rw [@Content.result_complexType_of_group groups depth scope type reference rfl rfl,
      result_reference]
    rfl
  have htype : Registration.ofType groups (type, scope) = .error .tooDeep := by
    unfold Registration.ofType
    rw [show declaredKey? (type, scope) = some "t:T" from rfl]
    simp only [hcontent]
    rfl
  have hbuild : (TypeGraph.build none [root] [] none).result = .error .tooDeep := by
    have hvisits : Visit.all none [root] [] none = [.enter scope, .declare root scope] := rfl
    have hstep : ((Building.enter {} scope).step (.declare root scope)).result =
        .error .tooDeep := by
      change (List.foldlM (Building.registerType scope) ((Building.enter {} scope).registerGroups
        root scope) [type] >>= _).result = _
      rw [Outcome.result_bind, List.foldlM_cons, Outcome.result_bind,
        Building.result_registerType_read]
      rw [show ((Building.enter {} scope).registerGroups root scope).groups = groups from rfl,
        htype]
      rfl
    have hgather : (Building.gather none [root] [] none).result = .error .tooDeep := by
      rw [Building.gather, Outcome.result_bind, hvisits, List.foldlM_cons, Outcome.result_bind,
        show (Building.step {} (.enter scope)).result = .ok (Building.enter {} scope) from rfl]
      dsimp only
      rw [List.foldlM_cons, Outcome.result_bind, hstep]
    rw [TypeGraph.build, Outcome.result_bind, hgather]
  exact ⟨fun hends => hends.not_circular circular, hcontent, hbuild, by simp [hbuild]⟩

end SampleCircle

end SoapComponents
