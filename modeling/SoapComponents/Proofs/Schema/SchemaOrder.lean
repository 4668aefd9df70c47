import SoapComponents.Proofs.Schema.Pruned
import SoapComponents.Proofs.Schema.Registrations
import SoapComponents.Proofs.Schema.Settled
import SoapComponents.Proofs.Schema.Typed

/-!
The order of schemas. Two lists of schemas that declare the same give the same graph, but for the
numbers of the objects, if no name is declared twice, if every reference names what it means, if no
type extends itself through others, and if each schema refers to groups of its own or of earlier
schemas only. A group of a later schema is not found.
-/

set_option autoImplicit false

namespace SoapComponents

theorem Table.isEmpty_iff_value? {β : Type} (t : Table β) :
    t.isEmpty = true ↔ ∀ key, t.value? key = none := by
  cases t with
  | nil => simp [Table.value?]
  | cons e rest =>
    refine iff_of_false (by simp) fun h => ?_
    have hfirst := h e.1
    simp [Table.value?] at hfirst

namespace Visit

variable {visits : List Visit}

def isReading : Visit → Bool
  | declare _ _ | fail _ => true
  | _ => false

def readings (visits : List Visit) : List Visit := visits.filter isReading

theorem declared_readings (visits : List Visit) : declared (readings visits) = declared visits := by
  rw [declared, readings, List.filterMap_filter, declared]
  congr 1
  funext v
  cases v <;> rfl

theorem fail_mem_readings {failure : Failure} :
    .fail failure ∈ readings visits ↔ .fail failure ∈ visits := by
  simp [readings, isReading]

theorem filter_eachIn {α : Type} {p : Visit → Bool}
    {visit : α → List String → List Visit × List String} {own : α → List Visit} {items : List α}
    (h : ∀ item ∈ items, ∀ seen, (visit item seen).1.filter p = own item) (seen : List String) :
    (eachIn visit items seen).1.filter p = items.flatMap own := by
  induction items generalizing seen with
  | nil => rfl
  | cons item rest ih =>
    simp only [eachIn, List.filter_append, List.flatMap_cons]
    congr 1
    · exact h item List.mem_cons_self seen
    · exact ih (fun item' hitem' => h item' (List.mem_cons_of_mem _ hitem')) _

/-- Where no import is followed, each schema is entered and read once, in the scope that it has
where it stands. -/
theorem effects_all {origin : Option Origin} {roots : List Tree}
    (h : origin = none ∨ ∀ root ∈ roots, root.imports = []) (outer : Table String)
    (start : Option String) : effects (all origin roots outer start) =
      roots.flatMap fun root => [.enter (Scope.ofSchema root outer start),
        .declare root (Scope.ofSchema root outer start)] := by
  have hroot : ∀ depth, ∀ root ∈ roots, ∀ seen,
      effects (schema origin (depth + 1) root outer start seen).1 =
        [.enter (Scope.ofSchema root outer start),
          .declare root (Scope.ofSchema root outer start)] := by
    intro depth root hroot seen
    have himports : effects (eachIn (follow origin (Scope.ofSchema root outer start)
        fun found place seen => schema origin depth found
          (Scope.ofSchema root outer start).namespaces (some place) seen) root.imports
        (entered (Scope.ofSchema root outer start) seen)).1 = [] := by
      rcases h with rfl | himports
      · refine (@filter_eachIn _ hasEffect _ (fun _ => []) _ (fun node _ seen => ?_) _).trans
          (List.flatMap_eq_nil_iff.2 fun _ _ => rfl)
        unfold follow lead
        cases node.given? "schemaLocation" <;> rfl
      · rw [himports root hroot]
        rfl
    simp only [schema, effects_enter, effects_append, himports, effects_declare, effects_nil,
      List.nil_append]
  have hdepth : ∃ depth, depthBound origin roots = depth + 1 := by
    cases origin with
    | none => exact ⟨0, rfl⟩
    | some source => exact ⟨_, rfl⟩
  obtain ⟨depth, hdepth⟩ := hdepth
  rw [all, within, hdepth, effects, filter_eachIn (hroot depth)]

theorem readings_effects (visits : List Visit) : readings (effects visits) = readings visits := by
  rw [readings, effects, List.filter_filter]
  refine List.filter_congr fun v _ => ?_
  cases v <;> rfl

theorem readings_all {origin : Option Origin} {roots : List Tree}
    (h : origin = none ∨ ∀ root ∈ roots, root.imports = []) (outer : Table String)
    (start : Option String) : readings (all origin roots outer start) =
      roots.map fun root => .declare root (Scope.ofSchema root outer start) := by
  rw [← readings_effects, effects_all h, readings, List.filter_flatMap, List.map_eq_flatMap]
  rfl

theorem readings_perm {origin : Option Origin} {roots roots' : List Tree} {outer : Table String}
    {start : Option String} (hperm : roots.Perm roots')
    (h : origin ≠ none → (∃ root ∈ roots, root.imports ≠ []) →
      (readings (all origin roots outer start)).Perm (readings (all origin roots' outer start))) :
    (readings (all origin roots outer start)).Perm (readings (all origin roots' outer start)) := by
  by_cases hfollowed : origin ≠ none ∧ ∃ root ∈ roots, root.imports ≠ []
  · exact h hfollowed.1 hfollowed.2
  · have hnone : origin = none ∨ ∀ root ∈ roots, root.imports = [] := by
      by_contra hcontra
      simp only [not_or, not_forall] at hcontra
      obtain ⟨hsome, root, hroot, himports⟩ := hcontra
      exact hfollowed ⟨hsome, root, hroot, himports⟩
    have hnone' : origin = none ∨ ∀ root ∈ roots', root.imports = [] :=
      hnone.imp_right fun h root hroot => h root (hperm.mem_iff.2 hroot)
    rw [readings_all hnone, readings_all hnone']
    exact hperm.map _

end Visit

structure TypeGraph.Renumbered (σ : Equiv.Perm ObjectId) (g g' : TypeGraph) : Prop where
  elements : ∀ key, g'.elements.value? key = (g.elements.value? key).map (TypeNode.renumber σ)
  complexTypes : ∀ key, g'.complexTypes.value? key = (g.complexTypes.value? key).map σ
  object : ∀ id, g'.object (σ id) = (g.object id).renumber σ

/-- The same graph, but for the numbers of the objects. -/
def TypeGraph.Alike (g g' : TypeGraph) : Prop := ∃ σ, TypeGraph.Renumbered σ g g'

namespace TypeGraph

variable {g g' : TypeGraph} {σ : Equiv.Perm ObjectId}

theorem Renumbered.isEmpty_eq (h : Renumbered σ g g') :
    g'.elements.isEmpty = g.elements.isEmpty ∧
      g'.complexTypes.isEmpty = g.complexTypes.isEmpty := by
  constructor <;> refine Bool.eq_iff_iff.2 ?_ <;>
    simp only [Table.isEmpty_iff_value?, h.elements, h.complexTypes, Option.map_eq_none_iff]

end TypeGraph

namespace Building

open Registration

variable {b b' : Building} {σ : Equiv.Perm ObjectId}

def settled (b : Building) : TypeGraph := (Inheritance.settleAll b.extensions b.graph).value

def offered (b : Building) : Table TypeNode :=
  if b.graph.elements.isEmpty && !b.graph.complexTypes.isEmpty then
    b.graph.complexTypes.map fun e => (e.1, .object e.2)
  else b.graph.elements

theorem result_finish (b : Building) :
    b.finish.result = .ok { b.settled with elements := b.offered } := by
  obtain ⟨helements, htypes⟩ := @Inheritance.entries_settleAll b.extensions b.graph
  unfold finish
  rw [Outcome.result_bind]
  simp only [Outcome.result_liftM, helements, htypes, offered, settled]
  split
  · rfl
  · rw [← helements, ← htypes]
    rfl

theorem Renumbered.finished (h : Renumbered σ b b') (hb : b.Closed) (hb' : b'.Closed)
    (hgrounded : b.Grounded) :
    TypeGraph.Renumbered σ { b.settled with elements := b.offered }
      { b'.settled with elements := b'.offered } := by
  have hentries : TypeGraph.Renumbered σ b.graph b'.graph := ⟨h.elements, h.complexTypes, h.object⟩
  have htypes : b.settled.complexTypes = b.graph.complexTypes :=
    (Inheritance.entries_settleAll b.graph).2
  have htypes' : b'.settled.complexTypes = b'.graph.complexTypes :=
    (Inheritance.entries_settleAll b'.graph).2
  refine ⟨fun key => ?_, fun key => ?_, fun id => h.settled hb hb' hgrounded id⟩
  · simp only [offered, hentries.isEmpty_eq]
    split
    · rw [Table.value?_map, Table.value?_map, h.complexTypes]
      cases b.graph.complexTypes.value? key <;> rfl
    · exact h.elements key
  · simp only [htypes, htypes', h.complexTypes]

end Building

namespace TypeGraph

open Registration

variable {origin : Option Visit.Origin} {roots roots' : List Tree} {outer : Table String}
  {start : Option String} {b : Building}

theorem result_build_of_gather (h : (Building.gather origin roots outer start).result = .ok b) :
    (TypeGraph.build origin roots outer start).result =
      if { b.settled with elements := b.offered }.isEmpty then
        .error (.nothingDeclared (diagnose { b.settled with elements := b.offered } roots))
      else .ok { b.settled with elements := b.offered } := by
  unfold TypeGraph.build
  rw [Outcome.result_bind, h]
  dsimp only
  rw [Outcome.result_bind, b.result_finish]
  dsimp only
  split <;> rfl

theorem result_build_of_failure {failure : Failure}
    (h : (Building.gather origin roots outer start).result = .error failure) :
    (TypeGraph.build origin roots outer start).result = .error failure := by
  unfold TypeGraph.build
  rw [Outcome.result_bind, h]

theorem gather_perm
    (hread : (Visit.readings (Visit.all origin roots outer start)).Perm
      (Visit.readings (Visit.all origin roots' outer start)))
    (honce : DeclaredOnce (Visit.declared (Visit.all origin roots outer start)))
    (hready : Groups.Ready [] (Visit.declared (Visit.all origin roots outer start)))
    (hready' : Groups.Ready [] (Visit.declared (Visit.all origin roots' outer start)))
    (helements : ∀ d ∈ Visit.nodes "element" (Visit.all origin roots outer start),
      (Groups.all (Visit.declared (Visit.all origin roots outer start))).Covers d.2 d.1) :
    ((∃ b, (Building.gather origin roots outer start).result = .ok b) ↔
      ∃ b', (Building.gather origin roots' outer start).result = .ok b') ∧
    ∀ b b', (Building.gather origin roots outer start).result = .ok b →
      (Building.gather origin roots' outer start).result = .ok b' →
        b.Closed ∧ ∃ σ, Building.Renumbered σ b b' := by
  have hdeclared : (Visit.declared (Visit.all origin roots outer start)).Perm
      (Visit.declared (Visit.all origin roots' outer start)) := by
    rw [← Visit.declared_readings, ← Visit.declared_readings (Visit.all origin roots' outer start)]
    exact hread.filterMap _
  have honce' : DeclaredOnce (Visit.declared (Visit.all origin roots' outer start)) :=
    fun tag htag => (hdeclared.flatMap_right _).nodup_iff.1 (honce tag htag)
  obtain ⟨hiff, hgathered⟩ := Building.result_gather honce hready
  obtain ⟨hiff', hgathered'⟩ := Building.result_gather honce' hready'
  generalize Visit.all origin roots outer start = visits at *
  generalize Visit.all origin roots' outer start = visits' at *
  have halong := Groups.along_start hready honce
  have hwithin := Groups.within_all_of_perm hdeclared honce
  have hclosed := Groups.closed_all halong
  -- groups that are declared elsewhere in the list make no difference to what is read
  obtain ⟨htypes, htypesPerm⟩ := list_perm (hdeclared.flatMap_right (declaredNodes "complexType"))
    fun d hd => ofType_alike hwithin hclosed (Groups.covers_all halong hd)
  obtain ⟨hnodes, hnodesPerm⟩ := list_perm (hdeclared.flatMap_right (declaredNodes "element"))
    fun d hd => ofElement_alike hwithin hclosed (helements d hd)
  have hpassable : Building.Passable (Groups.all (Visit.declared visits)) visits ↔
      Building.Passable (Groups.all (Visit.declared visits')) visits' := by
    refine and_congr (forall_congr' fun failure => not_congr ?_) htypes
    rw [← Visit.fail_mem_readings, hread.mem_iff, Visit.fail_mem_readings]
  refine ⟨hiff.trans ((and_congr hpassable hnodes).trans hiff'.symm), fun b b' hb hb' => ?_⟩
  obtain ⟨⟨_, hreadTypes⟩, hreadElements⟩ := hiff.1 ⟨b, hb⟩
  have hsame := hgathered b hb
  have hsame' := hgathered' b' hb'
  rw [List.foldl_append] at hsame hsame'
  -- the types in their order, and then the elements in theirs
  obtain ⟨σ, hσ⟩ := Building.foldl_register_perm htypesPerm
    (nodup_keys_list key_ofType hreadTypes (honce _ (by simp))) (.refl {}) Building.closed_empty
  obtain ⟨τ, hτ⟩ := Building.foldl_register_perm hnodesPerm
    (nodup_keys_list key_ofElement hreadElements (honce _ (by simp))) hσ
    (Building.closed_empty.foldl _)
  exact ⟨hsame.closed ((Building.closed_empty.foldl _).foldl _),
    _, (hsame.symm.trans hτ).trans hsame'⟩

/-- The order of schemas. Where no name is declared twice, the types and groups of each schema refer
to groups of this schema or of earlier ones in both orders, elements refer to groups that are
there, extended types are there and do not extend themselves, and imports, if any are followed, are
read alike, one order gives a graph just when the other does, and the graphs have the same elements
and the same complex types. -/
theorem alike_of_perm (hperm : roots.Perm roots')
    (hread : origin ≠ none → (∃ root ∈ roots, root.imports ≠ []) →
      (Visit.readings (Visit.all origin roots outer start)).Perm
        (Visit.readings (Visit.all origin roots' outer start)))
    (honce : DeclaredOnce (Visit.declared (Visit.all origin roots outer start)))
    (hready : Groups.Ready [] (Visit.declared (Visit.all origin roots outer start)))
    (hready' : Groups.Ready [] (Visit.declared (Visit.all origin roots' outer start)))
    (helements : ∀ d ∈ Visit.nodes "element" (Visit.all origin roots outer start),
      (Groups.all (Visit.declared (Visit.all origin roots outer start))).Covers d.2 d.1)
    (hgrounded : ∀ b, (Building.gather origin roots outer start).result = .ok b → b.Grounded) :
    (∀ g, (TypeGraph.build origin roots outer start).result = .ok g →
      ∃ g', (TypeGraph.build origin roots' outer start).result = .ok g' ∧ g.Alike g') ∧
    ∀ failure, (TypeGraph.build origin roots outer start).result = .error failure →
      ∃ failure', (TypeGraph.build origin roots' outer start).result = .error failure' := by
  obtain ⟨hiff, hgathered⟩ := gather_perm (Visit.readings_perm hperm hread) honce hready hready'
    helements
  cases hb : (Building.gather origin roots outer start).result with
  | error failure =>
    have hbuild := result_build_of_failure hb
    cases hb' : (Building.gather origin roots' outer start).result with
    | error failure' =>
      exact ⟨fun g hg => (by cases hbuild.symm.trans hg),
        fun _ _ => ⟨failure', result_build_of_failure hb'⟩⟩
    | ok b' =>
      obtain ⟨b, hok⟩ := hiff.2 ⟨b', hb'⟩
      cases hb.symm.trans hok
  | ok b =>
    obtain ⟨b', hb'⟩ := hiff.1 ⟨b, hb⟩
    obtain ⟨hclosed, σ, hσ⟩ := hgathered b b' hb hb'
    have halike := hσ.finished hclosed (hσ.closed hclosed) (hgrounded b hb)
    have hempty : TypeGraph.isEmpty { b'.settled with elements := b'.offered } =
        TypeGraph.isEmpty { b.settled with elements := b.offered } := by
      unfold TypeGraph.isEmpty
      rw [halike.isEmpty_eq.1, halike.isEmpty_eq.2]
    rw [result_build_of_gather hb, result_build_of_gather hb', hempty]
    split
    · exact ⟨fun g hg => (by cases hg), fun _ _ => ⟨_, rfl⟩⟩
    · refine ⟨fun g hg => ?_, fun _ hfailure => by cases hfailure⟩
      obtain rfl := Except.ok.inj hg
      exact ⟨_, rfl, σ, halike⟩

end TypeGraph

namespace SampleOrder

open Content

def group : Tree := .node [
  ("name", .text "G"),
  ("sequence", .node [("element", .node [("name", .text "x"), ("type", .text "xs:string")])])]

def grouped : Tree := .node [
  ("name", .text "T"), ("group", .node [("ref", .text "b:G")])]

def user : Tree := .node [
  ("targetNamespace", .text "a"), ("xmlns:b", .text "b"), ("complexType", grouped)]

def owner : Tree := .node [
  ("targetNamespace", .text "b"), ("xmlns:b", .text "b"), ("group", group)]

def userScope : Scope := Scope.ofSchema user [] none

def ownerScope : Scope := Scope.ofSchema owner [] none

def object {τ : Type} (members : List (String × Member τ)) : ObjectType τ where
  members := members
  space := some "a"
  qualified := some false

def member {τ : Type} (type : τ) : Member τ :=
  { type := type, qualified := some false, space := some "b" }

theorem result_grouped (groups : Groups) (depth : Nat) {scope : Scope}
    (hkey : (scope.qualify "b:G").value = "b:G") :
    (complexType groups depth scope grouped).result =
      (referredGroup groups depth "b:G" "G").map fun members => { type := {
        members := members
        space := scope.target
        qualified := some scope.qualified } } := by
  have hread := @result_complexType_of_group groups depth scope grouped
    (.node [("ref", .text "b:G")]) rfl rfl
  have href : (Tree.node [("ref", .text "b:G")]).given? "ref" = some "b:G" := rfl
  rw [result_group_of_ref href, hkey, show Name.localPart "b:G" = "G" by decide] at hread
  exact hread

theorem referredGroup_found : referredGroup [("b:G", group, ownerScope)] 1 "b:G" "G" =
    .ok [("x", member (.primitive "string"))] :=
  @result_groupBody_of_typed _ _ ownerScope group
    (.node [("element", .node [("name", .text "x"), ("type", .text "xs:string")])])
    [("x", member (.primitive "string"))] rfl rfl rfl rfl rfl

def graph (members : List (String × Member TypeNode)) (schemas : List String) : TypeGraph where
  objects := [object members]
  elements := [("a:T", .object 0)]
  complexTypes := [("a:T", 0)]
  namespaces := [("b", "b")]
  schemas := schemas

theorem result_declare_user {b : Building} {derived : Derived Draft}
    (h : (complexType b.groups b.groups.depthBound userScope grouped).result = .ok derived) :
    (b.step (.declare user userScope)).result = .ok
      { b with
        graph := { (Draft.placeObject b.graph derived).1 with
          complexTypes := (Draft.placeObject b.graph derived).1.complexTypes.put "a:T"
            (Draft.placeObject b.graph derived).2.1 }
        extensions := b.extensions ++ (Draft.placeObject b.graph derived).2.2 } := by
  have htypes : user.children "complexType" = [grouped] := rfl
  have hname : grouped.given? "name" = some "T" := rfl
  have hgroups : b.registerGroups user userScope = b := rfl
  unfold Building.step
  rw [Outcome.result_bind, htypes, List.foldlM_cons, Outcome.result_bind, hgroups,
    Building.result_registerType hname h]
  have helements : user.children "element" = [] := rfl
  simp only [List.foldlM_nil, Outcome.result_pure, helements, List.map_nil, List.append_nil]
  rfl

theorem result_build_user_first : (TypeGraph.build none [user, owner] [] none).result =
    .ok (graph [] ["inline:a", "inline:b"]) := by
  have htype : (complexType [] 0 userScope grouped).result = .ok { type := object [] } :=
    result_grouped [] 0 rfl
  have hvisits : Visit.all none [user, owner] [] none = [.enter userScope, .declare user userScope,
      .enter ownerScope, .declare owner ownerScope] := rfl
  have hfold : ((Visit.all none [user, owner] [] none).foldlM Building.step {}).result = .ok
      { graph := { graph [] ["inline:a", "inline:b"] with elements := [] }
        groups := [("b:G", group, ownerScope)] } := by
    rw [hvisits, Building.result_foldlM_schema
      (@result_declare_user (Building.enter {} userScope) _ htype)]
    rfl
  unfold TypeGraph.build Building.gather
  rw [Outcome.result_bind, Outcome.result_bind, hfold]
  rfl

theorem result_build_owner_first : (TypeGraph.build none [owner, user] [] none).result =
    .ok (graph [("x", member (.primitive "string"))] ["inline:b", "inline:a"]) := by
  have htype : (complexType [("b:G", group, ownerScope)] 1 userScope grouped).result =
      .ok { type := object [("x", member (.primitive "string"))] } := by
    rw [result_grouped _ _ rfl, referredGroup_found]
    rfl
  have hvisits : Visit.all none [owner, user] [] none = [.enter ownerScope,
      .declare owner ownerScope, .enter userScope, .declare user userScope] := rfl
  have hfold : ((Visit.all none [owner, user] [] none).foldlM Building.step {}).result = .ok
      { graph := { graph [("x", member (.primitive "string"))] ["inline:b", "inline:a"] with
          elements := [] }
        groups := [("b:G", group, ownerScope)] } := by
    let known : Building :=
      { graph := { namespaces := [("b", "b")], schemas := ["inline:b"] }
        groups := [("b:G", group, ownerScope)] }
    have howner : (Building.step (Building.enter {} ownerScope)
        (.declare owner ownerScope)).result = .ok known := rfl
    rw [hvisits, Building.result_foldlM_schema howner,
      Building.result_foldlM_schema (@result_declare_user (known.enter userScope) _ htype)]
    rfl
  unfold TypeGraph.build Building.gather
  rw [Outcome.result_bind, Outcome.result_bind, hfold]
  rfl

/-- With the group in a later schema the type has no members, with the group in an earlier one it
has the group's. -/
theorem members_differ_by_order :
    DeclaredOnce (Visit.declared (Visit.all none [user, owner] [] none)) ∧
    (∀ d ∈ Visit.nodes "complexType" (Visit.all none [user, owner] [] none),
      (Groups.all (Visit.declared (Visit.all none [user, owner] [] none))).Covers d.2 d.1) ∧
    ∃ g g', (TypeGraph.build none [user, owner] [] none).result = .ok g ∧
      (TypeGraph.build none [owner, user] [] none).result = .ok g' ∧ ¬ g.Alike g' := by
  refine ⟨by decide +kernel, by decide +kernel, _, _, result_build_user_first,
    result_build_owner_first, ?_⟩
  rintro ⟨σ, hσ⟩
  have htype : some 0 = some (σ 0) := hσ.complexTypes "a:T"
  have hobject := hσ.object 0
  rw [← Option.some.inj htype] at hobject
  cases hobject

def extending : Tree := .node [
  ("name", .text "H"),
  ("complexContent", .node [("extension", .node [("base", .text "b:T")])])]

def named : Tree := .node [("name", .text "E"), ("type", .text "a:H")]

def heir : Tree := .node [
  ("targetNamespace", .text "a"), ("xmlns:a", .text "a"), ("xmlns:b", .text "b"),
  ("complexType", extending), ("element", named)]

def base : Tree := .node [
  ("targetNamespace", .text "b"), ("xmlns:b", .text "b"), ("group", group),
  ("complexType", grouped)]

def heirScope : Scope := Scope.ofSchema heir [] none

/-- What the two schemas bring: a type that extends another, this type, and an element. -/
def registrations : List Registration := [
  .type "a:H" {
    type := { space := some "a", qualified := some false, base := some "b:T" }
    extended := some "b:T" },
  .type "b:T" { type := {
    members := [("x", member (.primitive "string"))]
    space := some "b"
    qualified := some false } },
  .pointer "a:E" ⟨"a:H", some "a", some false⟩]

open Registration in
theorem read_declarations :
    let visits := Visit.all none [heir, base] [] none
    let groups := Groups.all (Visit.declared visits)
    Building.Passable groups visits ∧ Readable (ofElement groups) (Visit.nodes "element" visits) ∧
      list (ofType groups) (Visit.nodes "complexType" visits) ++
        list (ofElement groups) (Visit.nodes "element" visits) = registrations := by
  intro visits groups
  have hgroups : groups = [("b:G", group, ownerScope)] := rfl
  have hvisits : visits = [.enter heirScope, .declare heir heirScope, .enter ownerScope,
      .declare base ownerScope] := rfl
  have htypes : Visit.nodes "complexType" visits =
      [(extending, heirScope), (grouped, ownerScope)] := rfl
  have helements : Visit.nodes "element" visits = [(named, heirScope)] := rfl
  have hextending : ofType groups (extending, heirScope) = .ok registrations[0] := by
    have hread : (Content.complexType groups groups.depthBound heirScope extending).result = .ok {
        type := { space := some "a", qualified := some false, base := some "b:T" }
        extended := some "b:T" } := by
      rw [Content.complexType]
      rfl
    have hkey : declaredKey? (extending, heirScope) = some "a:H" := rfl
    simp only [ofType, hkey, hread]
    rfl
  have hgrouped : ofType groups (grouped, ownerScope) = .ok registrations[1] := by
    have hkey : declaredKey? (grouped, ownerScope) = some "b:T" := rfl
    have hbound : groups.depthBound = 1 := congrArg List.length hgroups
    have hread : (Content.complexType groups groups.depthBound ownerScope grouped).result = .ok {
        type := {
          members := [("x", member (.primitive "string"))]
          space := some "b"
          qualified := some false } } := by
      rw [result_grouped groups groups.depthBound rfl, hbound, hgroups, referredGroup_found]
      rfl
    simp only [ofType, hkey, hread]
    rfl
  have hnamed : ofElement groups (named, heirScope) = .ok registrations[2] := rfl
  refine ⟨⟨by simp [hvisits], ?_⟩, ?_, ?_⟩
  · rw [htypes]
    simp [Readable, hextending, hgrouped]
  · rw [helements]
    simp [Readable, hnamed]
  · rw [htypes, helements]
    simp only [list, List.filterMap_cons, hextending, hgrouped, hnamed]
    rfl

theorem declaredOnce : DeclaredOnce (Visit.declared (Visit.all none [heir, base] [] none)) := by
  decide +kernel

theorem ready : Groups.Ready [] (Visit.declared (Visit.all none [heir, base] [] none)) :=
  ⟨by decide +kernel, by decide +kernel, trivial⟩

theorem gathered : (∃ b, (Building.gather none [heir, base] [] none).result = .ok b) ∧
    ∀ b, (Building.gather none [heir, base] [] none).result = .ok b →
      Building.Renumbered (Equiv.refl _) (registrations.foldl Building.register {}) b := by
  obtain ⟨hpassable, hreadable, hregistrations⟩ := read_declarations
  obtain ⟨hok, hsame⟩ := Building.result_gather declaredOnce ready
  exact ⟨hok.2 ⟨hpassable, hreadable⟩, hregistrations ▸ hsame⟩

theorem grounded : (registrations.foldl Building.register {}).Grounded := by
  have hextensions : (registrations.foldl Building.register {}).extensions = [⟨0, "b:T"⟩] := rfl
  have htype :
      (registrations.foldl Building.register {}).graph.complexTypes.value? "b:T" = some 1 := rfl
  refine ⟨fun x hx => ?_, fun id => if id = 0 then 1 else 0, fun x hx id hid => ?_⟩
  · obtain rfl := List.mem_singleton.1 (hextensions ▸ hx)
    exact Table.mem_keys_of_value? htype
  · obtain rfl := List.mem_singleton.1 (hextensions ▸ hx)
    obtain rfl := Option.some.inj (htype.symm.trans hid)
    decide

/-- A type and the type that it extends are in two schemas, and either may come first. -/
theorem alike_of_heir_first : ∃ g g',
    (TypeGraph.build none [heir, base] [] none).result = .ok g ∧
      (TypeGraph.build none [base, heir] [] none).result = .ok g' ∧ g.Alike g' := by
  obtain ⟨⟨b, hb⟩, hsame⟩ := gathered
  obtain ⟨hok, _⟩ := @TypeGraph.alike_of_perm none [heir, base] [base, heir] [] none
    (List.Perm.swap _ _ _) (fun h => absurd rfl h) declaredOnce ready
    ⟨by decide +kernel, by decide +kernel, trivial⟩ (by decide +kernel)
    (fun b hb => (hsame b hb).grounded grounded)
  have hbuild := TypeGraph.result_build_of_gather hb
  split at hbuild
  · next hempty =>
    have htype : b.graph.complexTypes.value? "a:H" = some 0 := (hsame b hb).complexTypes "a:H"
    have htypes : b.settled.complexTypes = b.graph.complexTypes :=
      (Inheritance.entries_settleAll b.graph).2
    simp only [TypeGraph.isEmpty, Bool.and_eq_true, htypes] at hempty
    cases htype.symm.trans ((Table.isEmpty_iff_value? _).1 hempty.2 "a:H")
  · obtain ⟨g', hg', halike⟩ := hok _ hbuild
    exact ⟨_, g', hbuild, hg', halike⟩

end SampleOrder

end SoapComponents
