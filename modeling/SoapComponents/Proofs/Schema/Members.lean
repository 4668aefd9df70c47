import SoapComponents.Proofs.Schema.Contents
import SoapComponents.Proofs.Schema.Typed

/-!
The members of a registered type. At any moment of a run over schemas, a named type that is
registered gets an object whose members are the declarations in its content, each as the schema
means it that it is written in.
-/

set_option autoImplicit false

namespace SoapComponents

namespace Draft

def placedShape (e : String × Member TypeNode) : String × Member TypeHead :=
  (e.1, e.2.map TypeNode.head)

theorem head_place (g : TypeGraph) (draft : Draft) : (place g draft).2.1.head = draft.head := by
  cases draft with
  | primitive name => simp [place, TypeNode.head, head]
  | reference key => simp [place, TypeNode.head, head]
  | object derived => simp [place, TypeNode.head, head]

theorem shapes_placeMembers (g : TypeGraph) (members : List (String × Member Draft)) :
    (placeMembers g members).2.1.map placedShape = members.map Content.shape := by
  induction members generalizing g with
  | nil => simp [placeMembers]
  | cons e rest ih =>
    obtain ⟨key, type, minOccurs, maxOccurs, qualified, space⟩ := e
    simp [placeMembers, ih, placedShape, Content.shape, Member.map, head_place]

theorem members_placeObject (g : TypeGraph) (derived : Derived Draft) :
    ∃ placed, placed.map placedShape = derived.type.members.map Content.shape ∧
      ((placeObject g derived).1.object (placeObject g derived).2.1).members =
        Table.ofAssignments placed := by
  obtain ⟨⟨members, space, qualified, base, attributes⟩, extended⟩ := derived
  refine ⟨(placeMembers g members).2.1, shapes_placeMembers g members, ?_⟩
  simp [placeObject, TypeGraph.addObject, TypeGraph.object]

end Draft

namespace Content

/-- The name that an element declaration makes a member for: its own, or that of the element that it
refers to. -/
def declaredName? (node : Tree) : Option String :=
  match node.given? "ref" with
  | some ref => some (Name.localPart ref)
  | none => node.given? "name"

theorem map_declared? (scope : Scope) (node : Tree) :
    (declared? scope node).map Prod.fst = declaredName? node := by
  unfold declared? declaredName?
  cases node.given? "ref" with
  | some ref => rfl
  | none => cases node.given? "name" <;> rfl

theorem Gives.names {groups : Groups} {start : Scope × Tree}
    {entries : List (String × Member Draft)} (h : Gives groups start entries) (key : String) :
    key ∈ (entries.map shape).map Prod.fst ↔
      ∃ around decl, Occurs groups start around decl ∧ declaredName? decl = some key := by
  rw [List.mem_map]
  constructor
  · rintro ⟨e, he, rfl⟩
    obtain ⟨around, decl, hoccurs, hdeclared⟩ := (h e).1 he
    exact ⟨around, decl, hoccurs, by rw [← map_declared? around, hdeclared]; rfl⟩
  · rintro ⟨around, decl, hoccurs, hname⟩
    rw [← map_declared? around] at hname
    obtain ⟨e, hdeclared, rfl⟩ := Option.map_eq_some_iff.1 hname
    exact ⟨e, (h e).2 ⟨around, decl, hoccurs, hdeclared⟩, rfl⟩

end Content

namespace Building

open Content

/-- The states that a run over visits can come to, also in the middle of a schema. -/
inductive Underway (visits : List Visit) : Building → Prop
  | start : Underway visits {}
  | step {b b' : Building} {v : Visit} : Underway visits b → v ∈ visits →
      (b.step v).result = .ok b' → Underway visits b'
  | groups {b : Building} {schema : Tree} {scope : Scope} : Underway visits b →
      .declare schema scope ∈ visits → Underway visits (b.registerGroups schema scope)
  | type {b b' : Building} {schema node : Tree} {scope : Scope} : Underway visits b →
      .declare schema scope ∈ visits → node ∈ schema.children "complexType" →
      (registerType scope b node).result = .ok b' → Underway visits b'

variable {visits : List Visit} {b : Building} {scope : Scope} {node : Tree}

theorem Underway.sound (h : Underway visits b) : b.Sound visits := by
  induction h with
  | start => exact sound_empty visits
  | step _ hv hstep ih => exact (step_spec ih hv hstep).1
  | groups _ hdeclare ih => exact registerGroups_spec ih hdeclare
  | type _ hdeclare hnode hregister ih =>
    exact (registerType_spec ih (read_of_child hdeclare hnode) hregister).1

theorem Sound.read_of_occurs (hb : b.Sound visits) {start : Scope × Tree}
    (hstart : Visit.Read visits start.1 start.2) {around : Scope} {decl : Tree}
    (h : Occurs b.groups start around decl) : Visit.Read visits around decl := by
  have hpart : ∀ {here there : Scope × Tree}, Part b.groups here there →
      Visit.Read visits here.1 here.2 → Visit.Read visits there.1 there.2 := by
    intro here there hpart hread
    cases hpart with
    | particle hinner =>
      exact holds_of_child read_down hread (child_of_particle hinner)
    | group hinner hbody =>
      cases hbody with
      | own => exact read_down _ _ _ _ hread hinner
      | definition _ hfind =>
        exact hb.groups _ (Table.mem_of_value? (Groups.value?_of_find? hfind))
  have hlast : ∀ last, Relation.ReflTransGen (Part b.groups) start last →
      Visit.Read visits last.1 last.2 := fun last hleads => by
    induction hleads with
    | refl => exact hstart
    | tail _ hlast ih => exact hpart hlast ih
  obtain ⟨holder, hleads, hdecl⟩ := h
  exact read_down _ _ _ _ (hlast _ hleads) hdecl

theorem read_of_model {holder : Tree} (h : Model node holder)
    (hread : Visit.Read visits scope node) : Visit.Read visits scope holder := by
  cases h with
  | plain => exact hread
  | @derived content _ _ hcontent hderivation =>
    have hmem : holder ∈ content.children "extension" ++ content.children "restriction" :=
      hderivation ▸ List.mem_cons_self
    have hcontentRead := read_down _ _ _ _ hread (hcontent ▸ List.mem_cons_self)
    exact (List.mem_append.1 hmem).elim (read_down _ _ _ _ hcontentRead)
      (read_down _ _ _ _ hcontentRead)

section

variable {origin : Option Visit.Origin} {roots : List Tree} {outer : Table String}
  {start : Option String} {schema holder : Tree} {name : String}

/-- A named type is registered with the members that its content declares. Whatever the content is
made of, a particle, a group or a derivation, with particles and groups in it at any depth: the
names of its members are those of the elements that occur in it, and each member is as one of the
elements of its name says, read in the scope of the schema that this element is written in.
Registering fails only for the types inside of these elements. -/
theorem members_of_type
    (hb : Underway (Visit.all origin roots outer start) b)
    (hdeclare : .declare schema scope ∈ Visit.all origin roots outer start)
    (hnode : node ∈ schema.children "complexType") (hname : node.given? "name" = some name)
    (hmodel : Model node holder) (hregular : Regular b.groups (scope, holder))
    (hcircle : ¬ Circular b.groups ⟨.complexType, scope, node⟩) :
    (∃ inner found, (registerType scope b node).result = .error (.strayChildren inner found)) ∨
    ∃ b' id, (registerType scope b node).result = .ok b' ∧
      b'.graph.complexTypes.value? (Name.qualified scope.target name) = some id ∧
      Table.Proper (b'.graph.object id).members ∧
      (∀ key, key ∈ Table.keys (b'.graph.object id).members ↔
        ∃ around decl, Occurs b.groups (scope, holder) around decl ∧
          declaredName? decl = some key) ∧
      ∀ e ∈ (b'.graph.object id).members, ∃ within around decl,
        Occurs b.groups (scope, holder) around decl ∧
        .declare within around ∈ Visit.all origin roots outer start ∧ within.Inside decl ∧
        (∃ outer', around = Scope.ofSchema within outer' around.location) ∧
        declared? around decl = some (e.1, e.2.map TypeNode.head) := by
  have hread := read_of_child hdeclare hnode
  rcases complexType_cases b.groups scope node with ⟨derived, hderived, -⟩ |
    ⟨inner, found, hstray⟩ | ⟨-, hcircular⟩
  · refine .inr ⟨_, (Draft.placeObject b.graph derived).2.1, result_registerType hname hderived,
      by rw [Table.value?_put, if_pos rfl], ?_⟩
    obtain ⟨placed, hplaced, hmembers⟩ := Draft.members_placeObject b.graph derived
    have hgives := complexType_gives hmodel hregular hderived
    change Table.Proper ((Draft.placeObject b.graph derived).1.object _).members ∧
      (∀ key, key ∈ Table.keys ((Draft.placeObject b.graph derived).1.object _).members ↔ _) ∧
      ∀ e ∈ ((Draft.placeObject b.graph derived).1.object _).members, _
    rw [hmembers]
    refine ⟨Table.proper_ofAssignments placed, fun key => ?_, fun e he => ?_⟩
    · have hkeys : Table.keys placed = (derived.type.members.map shape).map Prod.fst := by
        rw [← hplaced, List.map_map]
        rfl
      rw [Table.mem_keys_ofAssignments, hkeys]
      exact hgives.names key
    · have hshape : Draft.placedShape e ∈ derived.type.members.map shape :=
        hplaced ▸ List.mem_map_of_mem (Table.mem_of_mem_ofAssignments he)
      obtain ⟨around, decl, hoccurs, hdeclared⟩ := (hgives _).1 hshape
      obtain ⟨within, hwithin, hinside⟩ :=
        hb.sound.read_of_occurs (read_of_model hmodel hread) hoccurs
      obtain ⟨hwalked, -⟩ := @Visit.within_walked origin roots start _ outer (Nat.le_refl _)
      exact ⟨within, around, decl, hoccurs, hwithin, hinside,
        (hwalked.followed within around hwithin).around, hdeclared⟩
  · refine .inl ⟨inner, found, ?_⟩
    rw [registerType, hname]
    simp only [addType, bind_assoc, Outcome.result_bind, hstray]
  · exact absurd hcircular hcircle

end

end Building

namespace SampleContents

open Content

def groupSequence : Tree := .node [
  ("element", .node [("name", .text "x"), ("type", .text "xs:string")])]

def group : Tree := .node [("name", .text "G"), ("sequence", groupSequence)]

def owner : Tree := .node [
  ("targetNamespace", .text "b"), ("elementFormDefault", .text "qualified"), ("group", group)]

def reference : Tree := .node [("ref", .text "b:G")]

theorem href : reference.given? "ref" = some "b:G" := rfl

def sequence : Tree := .node [
  ("group", reference), ("element", .node [("name", .text "y"), ("type", .text "xs:string")])]

def type : Tree := .node [("name", .text "T"), ("sequence", sequence)]

def user : Tree := .node [
  ("targetNamespace", .text "a"), ("xmlns:b", .text "b"), ("complexType", type)]

def ownerScope : Scope := Scope.ofSchema owner [] none

def userScope : Scope := Scope.ofSchema user [] none

def groups : Groups := [("b:G", group, ownerScope)]

theorem visits : Visit.all none [owner, user] [] none = [.enter ownerScope,
    .declare owner ownerScope, .enter userScope, .declare user userScope] := rfl

def state : Building :=
  (((Building.enter {} ownerScope).registerGroups owner ownerScope).enter userScope).registerGroups
    user userScope

theorem underway : Building.Underway (Visit.all none [owner, user] [] none) state := by
  have hentered : Building.Underway (Visit.all none [owner, user] [] none)
      (Building.enter {} ownerScope) := .step .start (v := .enter ownerScope) (by simp [visits]) rfl
  have hdeclared : Building.Underway (Visit.all none [owner, user] [] none)
      ((Building.enter {} ownerScope).registerGroups owner ownerScope) :=
    hentered.step (v := .declare owner ownerScope) (by simp [visits]) rfl
  exact (hdeclared.step (v := .enter userScope) (by simp [visits]) rfl).groups (by simp [visits])

theorem regular : Regular state.groups (userScope, type) := by
  refine regular_of_places [(userScope, type), (userScope, sequence), (ownerScope, group),
    (ownerScope, groupSequence)] (by simp) ?_ ?_
  · intro place hplace inner hinner
    simp only [List.mem_cons, List.not_mem_nil, or_false] at hplace
    rcases hplace with rfl | rfl | rfl | rfl
    · obtain rfl : inner = sequence := List.mem_singleton.1 hinner
      simp
    · exact absurd hinner List.not_mem_nil
    · obtain rfl : inner = groupSequence := List.mem_singleton.1 hinner
      simp
    · exact absurd hinner List.not_mem_nil
  · intro place hplace inner hinner
    simp only [List.mem_cons, List.not_mem_nil, or_false] at hplace
    rcases hplace with rfl | rfl | rfl | rfl
    · exact absurd hinner List.not_mem_nil
    · obtain rfl : inner = reference := List.mem_singleton.1 hinner
      exact ⟨(ownerScope, group), by simp, .definition href rfl,
        ⟨groupSequence, rfl⟩, rfl, rfl⟩
    · exact absurd hinner List.not_mem_nil
    · exact absurd hinner List.not_mem_nil

/-- The member of an element whose content is text. -/
def member (space : String) (qualified : Bool) : Member Draft :=
  { type := .primitive "string", qualified := some qualified, space := some space }

theorem result_type : (complexType state.groups state.groups.depthBound userScope type).result =
    .ok { type := {
      members := [("x", member "b" true), ("y", member "a" false)]
      space := some "a"
      qualified := some false } } := by
  have hgroup : (Content.group state.groups state.groups.depthBound userScope reference).result =
      .ok [("x", member "b" true)] := by
    rw [result_group_of_ref href]
    exact @result_groupBody_of_typed _ _ ownerScope group groupSequence _ rfl rfl rfl rfl rfl
  have hown : ((sequence.children "element").mapM
      (element state.groups state.groups.depthBound userScope)).result =
      .ok [[("y", member "a" false)]] :=
    @result_elements_of_typed _ _ userScope _ [("y", member "a" false)] rfl
  have hsequence : (particle state.groups state.groups.depthBound userScope sequence).result =
      .ok [("x", member "b" true), ("y", member "a" false)] := by
    have hgrouped : ((sequence.children "group").mapM
        (Content.group state.groups state.groups.depthBound userScope)).result =
          .ok [[("x", member "b" true)]] := by
      rw [show sequence.children "group" = [reference] from rfl, List.mapM_cons,
        Outcome.result_bind, hgroup]
      rfl
    rw [particle_eq, show particleTags.flatMap sequence.children = [] from rfl, List.mapM_nil,
      pure_bind, Outcome.result_bind, hgrouped]
    dsimp only
    rw [Outcome.result_bind, hown]
    rfl
  rw [complexType_eq, show (particleTags.filterMap type.element?).head? = some sequence from rfl]
  simp only [map_eq_pure_bind, Outcome.result_bind, hsequence]
  rfl

/-- The type of one schema has the members that the group of the other one brings, and its own. -/
theorem members_of_user : ∃ b' id,
    (Building.registerType userScope state type).result = .ok b' ∧
      b'.graph.complexTypes.value? "a:T" = some id ∧
      (∀ key, key ∈ Table.keys (b'.graph.object id).members ↔
        ∃ around decl, Occurs state.groups (userScope, type) around decl ∧
          declaredName? decl = some key) ∧
      ∀ e ∈ (b'.graph.object id).members, ∃ within around decl,
        .declare within around ∈ Visit.all none [owner, user] [] none ∧ within.Inside decl ∧
        declared? around decl = some (e.1, e.2.map TypeNode.head) := by
  have hcircle : ¬ Circular state.groups ⟨.complexType, userScope, type⟩ := by
    rcases complexType_cases state.groups userScope type with ⟨_, _, hends⟩ |
      ⟨name, found, hstray⟩ | ⟨hdeep, -⟩
    · exact hends.not_circular
    · cases hstray.symm.trans result_type
    · cases (hdeep _).symm.trans result_type
  have hinner : (particleTags ++ ["group"]).flatMap type.children = [sequence] := rfl
  have hmodel : Model type type := .plain hinner rfl
  have hdeclare : .declare user userScope ∈ Visit.all none [owner, user] [] none := by
    simp [visits]
  have hnode : type ∈ user.children "complexType" := List.mem_singleton.2 rfl
  have hname : type.given? "name" = some "T" := rfl
  rcases Building.members_of_type underway hdeclare hnode hname hmodel regular hcircle with
    ⟨inner, found, hstray⟩ | ⟨b', id, hregister, hid, -, hkeys, hmembers⟩
  · rw [Building.result_registerType hname result_type] at hstray
    cases hstray
  · refine ⟨b', id, hregister, hid, hkeys, fun e he => ?_⟩
    obtain ⟨within, around, decl, -, hdeclare, hinside, -, hdeclared⟩ := hmembers e he
    exact ⟨within, around, decl, hdeclare, hinside, hdeclared⟩

end SampleContents

end SoapComponents
