import SoapComponents.Proofs.Inside
import SoapComponents.Proofs.Schema.Imports
import SoapComponents.Proofs.Schema.Inherited
import SoapComponents.Proofs.Schema.Sources

/-!
What building a graph registers. Each visit keeps what was registered before it; when all visits
are made, every named type and element of a declared schema has its entry, and every member in the
graph is what an element declaration inside a declared schema says.
-/

set_option autoImplicit false

namespace SoapComponents

def Visit.Read (visits : List Visit) (scope : Scope) (node : Tree) : Prop :=
  ∃ schema, .declare schema scope ∈ visits ∧ schema.Inside node

namespace Building

open Content

variable {visits : List Visit} {b b' : Building} {scope : Scope} {node : Tree}

def PointerEntry (visits : List Visit) (e : String × TypeNode) : Prop :=
  ∃ schema scope node name, .declare schema scope ∈ visits ∧ node ∈ schema.children "element" ∧
    node.given? "name" = some name ∧ content? node = none ∧
    e = (Name.qualified scope.target name, .reference (pointer scope node).value)

structure Sound (visits : List Visit) (b : Building) : Prop where
  members : ∀ o ∈ b.graph.objects, ∀ e ∈ o.members, Draft.Kept (Declares (Visit.Read visits)) e
  extensions : ∀ x ∈ b.extensions, NamesBase (Visit.Read visits) x.base
  groups : ∀ e ∈ b.groups, Visit.Read visits e.2.2 e.2.1
  pending : ∀ d ∈ b.elements, ∃ schema, .declare schema d.2 ∈ visits ∧
    d.1 ∈ schema.children "element"
  entries : ∀ e ∈ b.graph.elements, (∃ id, e.2 = .object id) ∨ PointerEntry visits e

/-- Nothing that was registered is lost. -/
structure Keeps (b b' : Building) : Prop where
  complexTypes : b.graph.complexTypes.keys ⊆ b'.graph.complexTypes.keys
  entries : b.graph.elements.keys ⊆ b'.graph.elements.keys
  pending : b.elements ⊆ b'.elements

theorem Keeps.refl (b : Building) : b.Keeps b where
  complexTypes := List.Subset.refl _
  entries := List.Subset.refl _
  pending := List.Subset.refl _

theorem Keeps.trans {b'' : Building} (h : b.Keeps b') (h' : b'.Keeps b'') : b.Keeps b'' where
  complexTypes := List.Subset.trans h.complexTypes h'.complexTypes
  entries := List.Subset.trans h.entries h'.entries
  pending := List.Subset.trans h.pending h'.pending

theorem read_of_child {schema : Tree} {tag : String} (h : .declare schema scope ∈ visits)
    (hnode : node ∈ schema.children tag) : Visit.Read visits scope node :=
  ⟨schema, h, .child .self hnode⟩

theorem read_down : ∀ scope node child tag, Visit.Read visits scope node →
    child ∈ node.children tag → Visit.Read visits scope child :=
  fun _ _ _ _ ⟨schema, hdeclare, hinside⟩ hchild => ⟨schema, hdeclare, .child hinside hchild⟩

theorem addType_spec {id : ObjectId} (hb : b.Sound visits) (hnode : Visit.Read visits scope node)
    (h : (b.addType scope node).result = .ok (b', id)) :
    b'.Sound visits ∧ b'.graph.elements = b.graph.elements ∧
      b'.graph.complexTypes = b.graph.complexTypes ∧ b'.elements = b.elements := by
  unfold addType at h
  obtain ⟨derived, hderived, h⟩ := Outcome.result_bind_eq_ok.1 h
  have hread := isRead_of_complexType read_down hb.groups hnode hderived
  obtain ⟨hgrown, hbases⟩ := Draft.place_spec.2.1 b.graph derived hread
  obtain ⟨rfl, -⟩ := Prod.mk.inj (Except.ok.inj h)
  refine ⟨⟨hgrown.members hb.members, fun x hx => ?_, hb.groups, hb.pending, ?_⟩,
    hgrown.elements, hgrown.complexTypes, rfl⟩
  · exact (List.mem_append.1 hx).elim (hb.extensions x) (hbases x)
  · rw [hgrown.elements]
    exact hb.entries

theorem registerType_spec (hb : b.Sound visits) (hnode : Visit.Read visits scope node)
    (h : (registerType scope b node).result = .ok b') :
    b'.Sound visits ∧ b.Keeps b' ∧ ∀ name, node.given? "name" = some name →
      Name.qualified scope.target name ∈ b'.graph.complexTypes.keys := by
  unfold registerType at h
  split at h
  · next hname =>
    obtain rfl := Except.ok.inj h
    exact ⟨hb, .refl b, by simp [hname]⟩
  · next name hname =>
    obtain ⟨⟨added, id⟩, hadded, h⟩ := Outcome.result_bind_eq_ok.1 h
    obtain ⟨hsound, helements, htypes, hpending⟩ := addType_spec hb hnode hadded
    obtain rfl := Except.ok.inj h
    refine ⟨⟨hsound.members, hsound.extensions, hsound.groups, hsound.pending, hsound.entries⟩,
      ⟨fun k hk => ?_, ?_, ?_⟩, ?_⟩
    · exact Table.mem_keys_put.2 (.inr (htypes ▸ hk))
    · exact fun k hk => helements ▸ hk
    · exact fun d hd => hpending ▸ hd
    · rintro name' hname'
      obtain rfl := Option.some.inj (hname.symm.trans hname')
      exact Table.mem_keys_put.2 (.inl rfl)

theorem registerGroups_spec {schema : Tree} (hb : b.Sound visits)
    (hdeclare : .declare schema scope ∈ visits) : (b.registerGroups schema scope).Sound visits := by
  refine ⟨hb.members, hb.extensions, ?_, hb.pending, hb.entries⟩
  refine List.foldlRecOn (motive := fun groups : Groups => ∀ e ∈ groups,
    Visit.Read visits e.2.2 e.2.1) (schema.children "group") _ hb.groups ?_
  intro groups hgroups node hnode
  split
  · intro e he
    rcases Table.mem_put he with rfl | he
    · exact read_of_child hdeclare hnode
    · exact hgroups e he
  · exact hgroups

/-- One visit: what was registered stays, and a declared schema has its types registered and its
elements noted. -/
theorem step_spec {v : Visit} (hb : b.Sound visits) (hv : v ∈ visits)
    (h : (b.step v).result = .ok b') :
    b'.Sound visits ∧ b.Keeps b' ∧ ∀ schema scope, v = .declare schema scope →
      (∀ node ∈ schema.children "complexType", ∀ name, node.given? "name" = some name →
        Name.qualified scope.target name ∈ b'.graph.complexTypes.keys) ∧
      ∀ node ∈ schema.children "element", (node, scope) ∈ b'.elements := by
  cases v with
  | enter scope =>
    obtain rfl := Except.ok.inj h
    exact ⟨⟨hb.members, hb.extensions, hb.groups, hb.pending, hb.entries⟩,
      ⟨fun _ hk => hk, fun _ hk => hk, fun _ hd => hd⟩, by simp⟩
  | load space location =>
    obtain rfl := Except.ok.inj h
    exact ⟨hb, .refl b, by simp⟩
  | tell notice =>
    obtain rfl := Except.ok.inj h
    exact ⟨hb, .refl b, by simp⟩
  | fail failure => cases h
  | declare schema scope =>
    obtain ⟨typed, htyped, h⟩ := Outcome.result_bind_eq_ok.1 h
    obtain rfl := Except.ok.inj h
    have hgroups := registerGroups_spec hb hv
    -- the types are registered one after another, and none of them takes an entry away
    obtain ⟨hsound, hkeeps, htypes⟩ := Outcome.result_foldlM_spec
      (f := registerType scope) (I := Sound visits) (R := Keeps)
      (Q := fun node b => ∀ name, node.given? "name" = some name →
        Name.qualified scope.target name ∈ b.graph.complexTypes.keys)
      Keeps.refl Keeps.trans (fun hkeeps hname name hn => hkeeps.complexTypes (hname name hn))
      (fun node hnode c c' hc hc' => registerType_spec hc (read_of_child hv hnode) hc')
      hgroups htyped
    refine ⟨⟨hsound.members, hsound.extensions, hsound.groups, fun d hd => ?_, hsound.entries⟩,
      ⟨hkeeps.complexTypes, hkeeps.entries, fun d hd => ?_⟩, ?_⟩
    · rcases List.mem_append.1 hd with hd | hd
      · exact hsound.pending d hd
      · obtain ⟨node, hnode, rfl⟩ := List.mem_map.1 hd
        exact ⟨schema, hv, hnode⟩
    · exact List.mem_append_left _ (hkeeps.pending hd)
    · rintro schema' scope' heq
      obtain ⟨rfl, rfl⟩ := Visit.declare.inj heq
      exact ⟨htypes, fun node hnode => List.mem_append_right _ (List.mem_map_of_mem hnode)⟩

theorem read_of_content {schema content : Tree} (hdeclare : .declare schema scope ∈ visits)
    (hnode : node ∈ schema.children "element") (h : content? node = some content) :
    Visit.Read visits scope content :=
  holds_of_content read_down (read_of_child hdeclare hnode) h

theorem registerElement_spec {d : Tree × Scope} {schema : Tree} (hb : b.Sound visits)
    (hdeclare : .declare schema d.2 ∈ visits) (hnode : d.1 ∈ schema.children "element")
    (h : (b.registerElement d).result = .ok b') :
    b'.Sound visits ∧ b.Keeps b' ∧ ∀ name, d.1.given? "name" = some name →
      Name.qualified d.2.target name ∈ b'.graph.elements.keys := by
  obtain ⟨node, scope⟩ := d
  unfold registerElement at h
  dsimp only at h hdeclare hnode ⊢
  split at h
  · next hname =>
    obtain rfl := Except.ok.inj h
    exact ⟨hb, .refl b, by simp [hname]⟩
  · next name hname =>
    have hregistered : ∀ {g : Table TypeNode} {value : TypeNode} (name' : String),
        node.given? "name" = some name' → Name.qualified scope.target name' ∈
          (g.put (Name.qualified scope.target name) value).keys := by
      rintro g value name' hname'
      obtain rfl := Option.some.inj (hname.symm.trans hname')
      exact Table.mem_keys_put.2 (.inl rfl)
    split at h
    · next content hcontent =>
      obtain ⟨⟨added, id⟩, hadded, h⟩ := Outcome.result_bind_eq_ok.1 h
      obtain ⟨hsound, helements, htypes, hpending⟩ :=
        addType_spec hb (read_of_content hdeclare hnode hcontent) hadded
      obtain rfl := Except.ok.inj h
      refine ⟨⟨hsound.members, hsound.extensions, hsound.groups, hsound.pending, fun e he => ?_⟩,
        ⟨fun k hk => ?_, fun k hk => ?_, fun d hd => hpending ▸ hd⟩, hregistered⟩
      · rcases Table.mem_put he with rfl | he
        · exact .inl ⟨id, rfl⟩
        · exact hsound.entries e he
      · exact Table.mem_keys_putNew.2 (.inr (htypes ▸ hk))
      · exact Table.mem_keys_put.2 (.inr (helements ▸ hk))
    · next hcontent =>
      obtain ⟨target, htarget, h⟩ := Outcome.result_bind_eq_ok.1 h
      obtain rfl := Except.ok.inj htarget
      obtain rfl := Except.ok.inj h
      refine ⟨⟨hb.members, hb.extensions, hb.groups, hb.pending, fun e he => ?_⟩,
        ⟨fun _ hk => hk, fun k hk => ?_, fun _ hd => hd⟩, hregistered⟩
      · rcases Table.mem_put he with rfl | he
        · exact .inr ⟨schema, scope, node, name, hdeclare, hnode, hname, hcontent, rfl⟩
        · exact hb.entries e he
      · exact Table.mem_keys_put.2 (.inr hk)

theorem sound_empty (visits : List Visit) : Sound visits {} where
  members := by simp
  extensions := by simp
  groups := by simp
  pending := by simp
  entries := by simp

theorem gather_spec {origin : Option Visit.Origin} {roots : List Tree} {outer : Table String}
    {start : Option String} (h : (gather origin roots outer start).result = .ok b) :
    b.Sound (Visit.all origin roots outer start) ∧
      ∀ schema scope, .declare schema scope ∈ Visit.all origin roots outer start →
        (∀ node ∈ schema.children "complexType", ∀ name, node.given? "name" = some name →
          Name.qualified scope.target name ∈ b.graph.complexTypes.keys) ∧
        ∀ node ∈ schema.children "element", ∀ name, node.given? "name" = some name →
          Name.qualified scope.target name ∈ b.graph.elements.keys := by
  obtain ⟨visited, hvisited, h⟩ := Outcome.result_bind_eq_ok.1 h
  obtain ⟨hsound, _, hdeclared⟩ := Outcome.result_foldlM_spec
    (f := step) (I := Sound (Visit.all origin roots outer start)) (R := Keeps)
    (Q := fun v b => ∀ schema scope, v = .declare schema scope →
      (∀ node ∈ schema.children "complexType", ∀ name, node.given? "name" = some name →
        Name.qualified scope.target name ∈ b.graph.complexTypes.keys) ∧
      ∀ node ∈ schema.children "element", (node, scope) ∈ b.elements)
    Keeps.refl Keeps.trans
    (fun hkeeps hQ schema scope heq =>
      ⟨fun node hnode name hname =>
          hkeeps.complexTypes ((hQ schema scope heq).1 node hnode name hname),
        fun node hnode => hkeeps.pending ((hQ schema scope heq).2 node hnode)⟩)
    (fun v hv c c' hc hc' => step_spec hc hv hc') (sound_empty _) hvisited
  -- elements wait until all visits are made, and are registered from what these have noted
  obtain ⟨hsound', hkeeps, helements⟩ := Outcome.result_foldlM_spec
    (f := registerElement) (I := Sound (Visit.all origin roots outer start)) (R := Keeps)
    (Q := fun d b => ∀ name, d.1.given? "name" = some name →
      Name.qualified d.2.target name ∈ b.graph.elements.keys)
    Keeps.refl Keeps.trans (fun hkeeps hQ name hname => hkeeps.entries (hQ name hname))
    (fun d hd c c' hc hc' => by
      obtain ⟨schema, hdeclare, hnode⟩ := hsound.pending d hd
      exact registerElement_spec hc hdeclare hnode hc')
    hsound h
  refine ⟨hsound', fun schema scope hdeclare => ?_⟩
  obtain ⟨htypes, hnodes⟩ := hdeclared _ hdeclare schema scope rfl
  exact ⟨fun node hnode name hname => hkeeps.complexTypes (htypes node hnode name hname),
    fun node hnode name hname => helements _ (hnodes node hnode) name hname⟩

theorem finish_spec {g : TypeGraph} (h : b.finish.result = .ok g) :
    g.complexTypes = b.graph.complexTypes ∧
      (g.elements = b.graph.elements ∨ (b.graph.elements = [] ∧
        g.elements = b.graph.complexTypes.map fun e => (e.1, .object e.2))) ∧
      g.objects = (Inheritance.settleAll b.extensions b.graph).value.objects := by
  obtain ⟨helements, htypes⟩ := @Inheritance.entries_settleAll b.extensions b.graph
  unfold finish at h
  obtain ⟨settled, hsettled, h⟩ := Outcome.result_bind_eq_ok.1 h
  obtain rfl := Except.ok.inj hsettled
  dsimp only at h
  split at h
  · next hempty =>
    obtain rfl := Except.ok.inj h
    simp only [Bool.and_eq_true, List.isEmpty_iff] at hempty
    refine ⟨htypes, .inr ⟨helements ▸ hempty.1, ?_⟩, rfl⟩
    exact congrArg (List.map fun e : String × ObjectId => (e.1, TypeNode.object e.2)) htypes
  · obtain rfl := Except.ok.inj h
    exact ⟨htypes, .inl helements, rfl⟩

end Building

theorem TypeGraph.gather_of_build {origin : Option Visit.Origin} {roots : List Tree}
    {outer : Table String} {start : Option String} {g : TypeGraph}
    (h : (TypeGraph.build origin roots outer start).result = .ok g) :
    ∃ b, (Building.gather origin roots outer start).result = .ok b ∧ b.finish.result = .ok g := by
  obtain ⟨b, hb, h⟩ := Outcome.result_bind_eq_ok.1 h
  obtain ⟨g', hg, h⟩ := Outcome.result_bind_eq_ok.1 h
  refine ⟨b, hb, ?_⟩
  split at h
  · cases h
  · obtain rfl := Except.ok.inj h
    exact hg

theorem TypeGraph.declares_of_build {origin : Option Visit.Origin} {roots : List Tree}
    {outer : Table String} {start : Option String} {g : TypeGraph}
    (h : (TypeGraph.build origin roots outer start).result = .ok g) {id : ObjectId}
    {e : String × Member TypeNode} (he : e ∈ (g.object id).members) :
    Content.Declares (Visit.Read (Visit.all origin roots outer start))
      (e.1, e.2.map TypeNode.head) := by
  obtain ⟨b, hb, hg⟩ := gather_of_build h
  obtain ⟨hsound, _⟩ := Building.gather_spec hb
  obtain ⟨_, _, hobjects⟩ := Building.finish_spec hg
  obtain ⟨o, ho, he⟩ := Inheritance.object_mem he
  exact Inheritance.members_settleAll hsound.members o (hobjects ▸ ho) e he

namespace Visit

structure Registers (g : TypeGraph) (schema : Tree) : Prop where
  types : ∀ node ∈ schema.children "complexType", ∀ name, node.given? "name" = some name →
    Name.qualified (schema.attribute? "targetNamespace") name ∈ g.complexTypes.keys
  elements : ∀ node ∈ schema.children "element", ∀ name, node.given? "name" = some name →
    Name.qualified (schema.attribute? "targetNamespace") name ∈ g.elements.keys

theorem registers_of_reached {origin : Option Origin} {roots : List Tree} {outer : Table String}
    {start base : Option String} {g : TypeGraph} {schema : Tree}
    (hbar : ∀ space, Named origin roots start space → '|' ∉ (space.getD "").toList)
    (hown : Own origin roots start)
    (hg : (TypeGraph.build origin roots outer start).result = .ok g)
    (hreached : Reached origin roots start schema base) : Registers g schema := by
  obtain ⟨scope, hdeclare, _, htarget⟩ := @declared_of_reached origin roots start hown hbar
    outer schema base hreached
  obtain ⟨b, hb, hfinish⟩ := TypeGraph.gather_of_build hg
  obtain ⟨_, hregistered⟩ := Building.gather_spec hb
  obtain ⟨htypes, helements, _⟩ := Building.finish_spec hfinish
  obtain ⟨hnamedTypes, hnamedElements⟩ := hregistered schema scope hdeclare
  rw [htarget] at hnamedTypes hnamedElements
  refine ⟨htypes ▸ hnamedTypes, fun node hnode name hname => ?_⟩
  have hkey := hnamedElements node hnode name hname
  rcases helements with heq | ⟨hempty, _⟩
  · exact heq ▸ hkey
  · simp [hempty, Table.keys] at hkey

/-- Following imports is complete and comes to an end. No document is asked for twice on behalf of
one namespace, and the walk never meets the bound on its depth. When the graph is built, it has the
key of every named type and every named element of each schema that the roots lead to, if no
namespace has a bar in it and no import is taken for a root that it does not lead to. -/
theorem imports_complete (source : Origin) (roots : List Tree) (outer : Table String)
    (start : Option String) :
    (loads (all (some source) roots outer start)).Nodup ∧
    (∀ depth, depthBound (some source) roots ≤ depth →
      within (some source) depth roots outer start =
        within (some source) (depthBound (some source) roots) roots outer start) ∧
    ((∀ space, Named (some source) roots start space → '|' ∉ (space.getD "").toList) →
      Own (some source) roots start →
      ∀ g, (TypeGraph.build (some source) roots outer start).result = .ok g →
        ∀ schema base, Reached (some source) roots start schema base →
          (∀ node ∈ schema.children "complexType", ∀ name, node.given? "name" = some name →
            Name.qualified (schema.attribute? "targetNamespace") name ∈ g.complexTypes.keys) ∧
          ∀ node ∈ schema.children "element", ∀ name, node.given? "name" = some name →
            Name.qualified (schema.attribute? "targetNamespace") name ∈ g.elements.keys) := by
  obtain ⟨hwalked, _⟩ := @within_walked (some source) roots start _ outer (Nat.le_refl _)
  refine ⟨hwalked.nodup, fun depth hdepth => within_depth outer hdepth, ?_⟩
  intro hbar hown g hg schema base hreached
  obtain ⟨htypes, helements⟩ := registers_of_reached hbar hown hg hreached
  exact ⟨htypes, helements⟩

end Visit

namespace SampleImport

open Visit

/-- `<schema targetNamespace="b"><include schemaLocation="/b"/><element name="B"/></schema>` -/
def bytes : List UInt8 := [
  60, 115, 99, 104, 101, 109, 97, 32, 116, 97, 114, 103, 101, 116, 78, 97, 109, 101, 115, 112, 97,
  99, 101, 61, 34, 98, 34, 62, 60, 105, 110, 99, 108, 117, 100, 101, 32, 115, 99, 104, 101, 109,
  97, 76, 111, 99, 97, 116, 105, 111, 110, 61, 34, 47, 98, 34, 47, 62, 60, 101, 108, 101, 109,
  101, 110, 116, 32, 110, 97, 109, 101, 61, 34, 66, 34, 47, 62, 60, 47, 115, 99, 104, 101, 109,
  97, 62]

def source : Origin := ⟨[("/b", .file bytes)], 10⟩

def root : Tree := .node [
  ("targetNamespace", .text "a"),
  ("import", .node [("namespace", .text "b"), ("schemaLocation", .text "/b")])]

def barFree (space : Option String) : Bool := !(space.getD "").toList.contains '|'

def namesBarFree (schema : Tree) : Bool :=
  barFree (schema.attribute? "targetNamespace") &&
    schema.imports.all fun inner => barFree (inner.attribute? "namespace")

theorem bar_of_namesBarFree {origin : Option Origin} {roots : List Tree} {start : Option String}
    (hfree : ∀ schema base, Reached origin roots start schema base → namesBarFree schema = true)
    {space : Option String} (h : Named origin roots start space) :
    '|' ∉ (space.getD "").toList := by
  obtain ⟨schema, base, hreached, hspace⟩ := h
  have hfree := hfree schema base hreached
  simp only [namesBarFree, barFree, Bool.and_eq_true, List.all_eq_true, Bool.not_eq_true',
    List.contains_eq_mem, decide_eq_false_iff_not] at hfree
  rcases hspace with rfl | ⟨inner, hinner, rfl⟩
  · exact hfree.1
  · exact hfree.2 inner hinner

theorem held_of_schema? {place : String} {found : Tree} (h : source.schema? place = some found) :
    found ∈ sourceSchemas (.file bytes) ∧ (place = "/b" ∨ Path.normalize place = "/b") := by
  obtain ⟨key, held, remote, hheld, hmem, _, hkey⟩ := key_of_schema? h
  simp only [source, Table.value?] at hheld
  split at hheld
  · next hb =>
    obtain rfl := Option.some.inj hheld
    refine ⟨hmem, ?_⟩
    cases remote
    · exact .inr (hkey.symm.trans hb.symm)
    · exact .inl (hkey.symm.trans hb.symm)
  · cases hheld

theorem namesBarFree_of_reached {schema : Tree} {base : Option String}
    (h : Reached (some source) [root] (some "/a") schema base) : namesBarFree schema = true := by
  cases h with
  | root hroot =>
    obtain rfl := List.mem_singleton.1 hroot
    decide
  | imported _ _ _ hsource _ hfound =>
    obtain rfl := Option.some.inj hsource
    have hall : (sourceSchemas (.file bytes)).all namesBarFree = true := by decide +kernel
    exact List.all_eq_true.1 hall schema (held_of_schema? hfound).1

theorem bar_of_named {space : Option String} (h : Named (some source) [root] (some "/a") space) :
    '|' ∉ (space.getD "").toList :=
  bar_of_namesBarFree (fun _ _ => namesBarFree_of_reached) h

theorem own : Own (some source) [root] (some "/a") := by
  refine own_of_place fun _ place found horigin hstart hfound => ?_
  obtain rfl := Option.some.inj horigin
  obtain rfl := Option.some.inj hstart
  rcases (held_of_schema? hfound).2 with h | h
  · exact absurd h (by decide)
  · exact absurd h (by decide)

/-- The element that is imported is in the graph, and its document is asked for twice: for the
namespace that the import names, and for its own include, which names none. -/
theorem imports_complete_of_cycle : ∃ g,
    (TypeGraph.build (some source) [root] [] (some "/a")).result = .ok g ∧
      "b:B" ∈ g.elements.keys ∧
      loads (all (some source) [root] [] (some "/a")) = [("b", "/b"), ("", "/b")] ∧
      (loads (all (some source) [root] [] (some "/a"))).Nodup := by
  obtain ⟨hloads, _, hcomplete⟩ := imports_complete source [root] [] (some "/a")
  have hkeys := hcomplete (fun _ => bar_of_named) own
  cases hbuild : (TypeGraph.build (some source) [root] [] (some "/a")).result with
  | error failure =>
    have hok : (TypeGraph.build (some source) [root] [] (some "/a")).result.isOk = true := by
      decide +kernel
    simp [hbuild, Except.isOk, Except.toBool] at hok
  | ok g =>
    refine ⟨g, rfl, ?_, by decide +kernel, hloads⟩
    cases hb : source.schema? "/b" with
    | none =>
      have hsome : (source.schema? "/b").isSome = true := by decide +kernel
      simp [hb] at hsome
    | some found =>
      have hreached : Reached (some source) [root] (some "/a") found (some "/b") :=
        .imported (.root (List.mem_singleton.2 rfl)) (List.mem_singleton.2 rfl) rfl rfl rfl hb
      have htyped : (source.schema? "/b").all (fun t =>
          t.attribute? "targetNamespace" == some "b" &&
            (t.children "element").any fun node => node.given? "name" == some "B") = true := by
        decide +kernel
      simp only [hb, Option.all_some, Bool.and_eq_true, List.any_eq_true, beq_iff_eq] at htyped
      obtain ⟨htarget, node, hnode, hname⟩ := htyped
      have hkey := (hkeys g hbuild found _ hreached).2 node hnode "B" hname
      rwa [htarget] at hkey

/-- A schema of the imported namespace that stands where the imported document is. -/
def passing : Tree := .node [
  ("targetNamespace", .text "b"),
  ("import", .node [("namespace", .text "b"), ("schemaLocation", .text "/b")]),
  ("element", .node [("name", .text "E")])]

def leadsToB (schema : Tree) : Bool :=
  schema.imports.all fun inner => inner.given? "schemaLocation" == some "/b"

theorem at_b {schema : Tree} {base : Option String}
    (h : Reached (some source) [passing] (some "/b") schema base) :
    base = some "/b" ∧ namesBarFree schema = true ∧ leadsToB schema = true := by
  have hsources : (sourceSchemas (.file bytes)).all (fun t => namesBarFree t && leadsToB t) =
      true := by decide +kernel
  induction h with
  | root hroot =>
    obtain rfl := List.mem_singleton.1 hroot
    decide
  | imported _ hinner hreference hsource hresolve hfound ih =>
    obtain rfl := Option.some.inj hsource
    obtain ⟨rfl, -, hleads⟩ := ih
    have hwritten := List.all_eq_true.1 hleads _ hinner
    rw [beq_iff_eq, hreference] at hwritten
    obtain rfl := Option.some.inj hwritten
    have hb : Location.resolve (some "/b") "/b" = .ok "/b" := by decide +kernel
    obtain rfl := Except.ok.inj (hresolve.symm.trans hb)
    simpa using List.all_eq_true.1 hsources _ (held_of_schema? hfound).1

/-- The import is taken for the root that it stands in, and what it leads to is not in the graph. -/
theorem import_taken_for_root :
    (∀ space, Named (some source) [passing] (some "/b") space → '|' ∉ (space.getD "").toList) ∧
    (∀ schema base, Reached (some source) [passing] (some "/b") schema base →
      ∀ inner ∈ schema.imports, ∀ reference, inner.given? "schemaLocation" = some reference →
        ∃ place, Location.resolve base reference = .ok place) ∧
    ∃ g found node, (TypeGraph.build (some source) [passing] [] (some "/b")).result = .ok g ∧
      Reached (some source) [passing] (some "/b") found (some "/b") ∧
      node ∈ found.children "element" ∧ node.given? "name" = some "B" ∧
      Name.qualified (found.attribute? "targetNamespace") "B" ∉ g.elements.keys := by
  refine ⟨fun space => bar_of_namesBarFree fun _ _ h => (at_b h).2.1, ?_, ?_⟩
  · intro schema base hreached inner hinner reference hreference
    obtain ⟨rfl, -, hleads⟩ := at_b hreached
    have hwritten := List.all_eq_true.1 hleads inner hinner
    rw [beq_iff_eq, hreference] at hwritten
    obtain rfl := Option.some.inj hwritten
    exact ⟨"/b", by decide +kernel⟩
  · have hbuilt : (TypeGraph.build (some source) [passing] [] (some "/b")).result.toOption.map
        (fun g => g.elements.keys) = some ["b:E"] := by decide +kernel
    have hloaded : (source.schema? "/b").map (fun found => (found.attribute? "targetNamespace",
        (found.children "element").filterMap (·.given? "name"))) = some (some "b", ["B"]) := by
      decide +kernel
    obtain ⟨g, hg, hkeys⟩ := Option.map_eq_some_iff.1 hbuilt
    obtain ⟨found, hfound, hdeclares⟩ := Option.map_eq_some_iff.1 hloaded
    obtain ⟨htarget, hnames⟩ := Prod.mk.inj hdeclares
    obtain ⟨node, hnode, hname⟩ := List.mem_filterMap.1 (hnames ▸ List.mem_singleton.2 rfl)
    have hresolve : Location.resolve (some "/b") "/b" = .ok "/b" := by decide +kernel
    refine ⟨g, found, node, eq_ok_of_toOption hg, ?_, hnode, hname, ?_⟩
    · exact .imported (.root (List.mem_singleton.2 rfl)) (List.mem_singleton.2 rfl) rfl rfl hresolve
        hfound
    · rw [hkeys, htarget]
      decide

end SampleImport

end SoapComponents
