import SoapComponents.Proofs.Reference.Sessions
import SoapComponents.Proofs.Reference.Walking

/-!
The named types that a root leads to. The walk collects the keys under which references find their
objects, and goes into each object once, but it passes over a reference whose key it has collected
already. Where an element and a type share a key, the object behind the one may so be left out, with
all that only it leads to. Apart from that the keys are all that can be reached.
-/

set_option autoImplicit false

namespace SoapComponents.Catalog

def Holds (o : ObjectNode) (id : ObjectId) : Prop := ∃ e ∈ o.members, e.2.type = .object id

/-- A member of the object refers to another object, which is found under a key. -/
def Refers (c : Catalog) (o : ObjectNode) (key : String) (id : ObjectId) : Prop :=
  ∃ e ∈ o.members, ∃ pointer r, e.2.type = .reference pointer ∧
    (c.resolveObject pointer.name).value = some (id, r) ∧ r.key = key

/-- The objects that a root leads to, where a reference that finds an object under a key leads on to
the object that `goes` says. -/
inductive Leads (c : Catalog) (goes : String → ObjectId → ObjectId) (root : ObjectNode) :
    ObjectNode → Prop
  | root : Leads c goes root root
  | held {o : ObjectNode} {id : ObjectId} : Leads c goes root o → Holds o id →
      Leads c goes root (c.graph.object id)
  | referred {o : ObjectNode} {key : String} {id : ObjectId} : Leads c goes root o →
      c.Refers o key id → Leads c goes root (c.graph.object (goes key id))

abbrev LeadsTo (c : Catalog) (root : ObjectNode) : ObjectNode → Prop :=
  c.Leads (fun _ id => id) root

/-- The keys of the named types that a root leads to. -/
def NamedFrom (c : Catalog) (root : ObjectNode) (key : String) : Prop :=
  ∃ o id, c.LeadsTo root o ∧ c.Refers o key id

/-- A key leads on to one object, whichever object a reference finds under it. -/
abbrev LeadsBy (c : Catalog) (chosen : String → ObjectId) (root : ObjectNode) : ObjectNode → Prop :=
  c.Leads (fun key _ => chosen key) root

/-- A reference finds an object under a key that leads on to another one. -/
def PassesOver (c : Catalog) (chosen : String → ObjectId) (root : ObjectNode) (id : ObjectId) :
    Prop :=
  ∃ o key, c.LeadsBy chosen root o ∧ c.Refers o key id ∧ id ≠ chosen key

variable {c : Catalog}

section Leading

variable {chosen : String → ObjectId} {root o last : ObjectNode}

theorem LeadsTo.trans (h : c.LeadsTo root o) (hlast : c.LeadsTo o last) : c.LeadsTo root last := by
  induction hlast with
  | root => exact h
  | held _ hholds ih => exact ih.held hholds
  | referred _ hrefers ih => exact ih.referred hrefers

theorem LeadsBy.leadsTo
    (hchosen : ∀ o key id, c.LeadsBy chosen root o → c.Refers o key id →
      c.LeadsTo root (c.graph.object (chosen key)))
    (h : c.LeadsBy chosen root o) : c.LeadsTo root o := by
  induction h with
  | root => exact .root
  | held _ hholds ih => exact ih.held hholds
  | referred hby hrefers _ => exact hchosen _ _ _ hby hrefers

theorem LeadsTo.leadsBy (h : c.LeadsTo root o) (chosen : String → ObjectId) :
    c.LeadsBy chosen root o ∨
      ∃ id, c.PassesOver chosen root id ∧ c.LeadsTo (c.graph.object id) o := by
  induction h with
  | root => exact .inl .root
  | held _ hholds ih =>
    rcases ih with hby | ⟨id, hpassed, hto⟩
    · exact .inl (hby.held hholds)
    · exact .inr ⟨id, hpassed, hto.held hholds⟩
  | @referred o key id _ hrefers ih =>
    rcases ih with hby | ⟨other, hpassed, hto⟩
    · by_cases hid : id = chosen key
      · rw [hid]
        exact .inl (hby.referred hrefers)
      · exact .inr ⟨id, ⟨o, key, hby, hrefers, hid⟩, .root⟩
    · exact .inr ⟨other, hpassed, hto.referred hrefers⟩

end Leading

theorem stored_of_resolveObject {g : TypeGraph} {ref : String} {id : ObjectId} {r : Resolution}
    (h : (g.catalog.resolveObject ref).value = some (id, r)) :
    g.elements.value? r.key = some (.object id) ∨ g.complexTypes.value? r.key = some id := by
  unfold resolveObject at h
  simp only [Noted.value_bind] at h
  split at h
  · next r' hresolve =>
    obtain ⟨id', htarget, heq⟩ := Option.map_eq_some_iff.1 h
    obtain ⟨rfl, rfl⟩ := Prod.mk.inj heq
    refine (Session.settled_of_resolve hresolve).1 id' ?_
    cases hcase : r'.target with
    | primitive name => simp [hcase, Target.object?] at htarget
    | object other =>
      rw [hcase] at htarget
      exact congrArg _ (Option.some.inj htarget)
  · cases h

/-- Where no key is that of an element with an object of its own and of another type besides, all
references that find an object under a key find the same. -/
theorem Refers.unique {g : TypeGraph}
    (hapart : ∀ key id other, g.elements.value? key = some (.object id) →
      g.complexTypes.value? key = some other → id = other)
    {o o' : ObjectNode} {key : String} {id id' : ObjectId} (h : g.catalog.Refers o key id)
    (h' : g.catalog.Refers o' key id') : id = id' := by
  have hstored : ∀ {o id}, g.catalog.Refers o key id →
      g.elements.value? key = some (.object id) ∨ g.complexTypes.value? key = some id := by
    rintro o id ⟨e, -, pointer, r, -, hsome, rfl⟩
    exact stored_of_resolveObject hsome
  rcases hstored h with helement | htype
  · rcases hstored h' with helement' | htype'
    · exact TypeNode.object.inj (Option.some.inj (helement.symm.trans helement'))
    · exact hapart key id id' helement htype'
  · rcases hstored h' with helement' | htype'
    · exact (hapart key id' id helement' htype).symm
    · exact Option.some.inj (htype.symm.trans htype')

section Collecting

variable {root : Root} {o : ObjectNode} {last : Reached} {picks : Table ObjectId}

def picked (picks : Table ObjectId) (key : String) : ObjectId := (picks.value? key).getD 0

theorem Walks.picked_eq (h : c.Walks root.node.members ⟨[], root.visited⟩ last picks)
    {pick : String × ObjectId} (hpick : pick ∈ picks) : picked picks pick.1 = pick.2 := by
  have hkeys : last.keys = picks.keys := by rw [h.keys, List.append_nil]
  have hproper : picks.Proper := by
    rw [Table.Proper, ← hkeys]
    exact h.nodup List.nodup_nil
  rw [picked, Table.value?_of_mem hproper hpick, Option.getD_some]

theorem Walks.picked_of_mem (h : c.Walks root.node.members ⟨[], root.visited⟩ last picks)
    {key : String} (hkey : key ∈ last.keys) : (key, picked picks key) ∈ picks := by
  rw [h.keys, List.append_nil] at hkey
  obtain ⟨pick, hpick, rfl⟩ := List.mem_map.1 hkey
  rw [h.picked_eq hpick]
  exact hpick

theorem Walks.refers (h : c.Walks root.node.members ⟨[], root.visited⟩ last picks)
    (goes : String → ObjectId → ObjectId)
    (hgoes : ∀ pick ∈ picks, goes pick.1 pick.2 = pick.2) {key : String} (hkey : key ∈ last.keys) :
    ∃ o, c.Leads goes root.node o ∧ c.Refers o key (picked picks key) := by
  have heach : ∀ o, c.Leads goes root.node o → ∀ e ∈ o.members,
      c.Each (fun id => c.Leads goes root.node (c.graph.object id))
        (fun key id => ∃ o, c.Leads goes root.node o ∧ c.Refers o key id) e.2 := by
    intro o ho e he
    refine ⟨fun id htype => ho.held ⟨e, he, htype⟩, fun pointer id resolution htype hsome => ?_⟩
    exact ⟨o, ho, e, he, pointer, resolution, htype, hsome, rfl⟩
  refine h.sound _ _ (fun id hid => heach _ hid) ?_ (heach _ .root) _ (h.picked_of_mem hkey)
  rintro pick hpick ⟨o, ho, hrefers⟩
  exact hgoes pick hpick ▸ ho.referred hrefers

theorem Walks.done (h : c.Walks root.node.members ⟨[], root.visited⟩ last picks)
    (hroot : ∀ id, root.id = some id → root.node = c.graph.object id)
    (ho : c.LeadsBy (picked picks) root.node o) : ∀ e ∈ o.members, c.Done last e.2 := by
  have hentered : ∀ id, c.Entered last id → ∀ e ∈ (c.graph.object id).members, c.Done last e.2 := by
    intro id hid e he
    rcases hid with hnone | hid
    · rw [hnone] at he
      cases he
    · rcases h.inside id hid with hstart | hinside
      · have hsame := hroot id (by simpa [Root.visited] using hstart)
        exact h.seen e (hsame ▸ he)
      · exact hinside e he
  induction ho with
  | root => exact h.seen
  | held _ hholds ih =>
    obtain ⟨e, he, htype⟩ := hholds
    exact hentered _ ((ih e he).1 _ htype)
  | referred _ hrefers ih =>
    obtain ⟨e, he, pointer, resolution, htype, hsome, rfl⟩ := hrefers
    exact hentered _ (h.entered _ (h.picked_of_mem ((ih e he).2 _ _ _ htype hsome)))

theorem Walks.mem_keys (h : c.Walks root.node.members ⟨[], root.visited⟩ last picks)
    (hroot : ∀ id, root.id = some id → root.node = c.graph.object id) {key : String} {id : ObjectId}
    (ho : c.LeadsBy (picked picks) root.node o) (hrefers : c.Refers o key id) :
    key ∈ last.keys := by
  obtain ⟨e, he, pointer, resolution, htype, hsome, rfl⟩ := hrefers
  exact (h.done hroot ho e he).2 _ _ _ htype hsome

theorem Walks.leadsTo (h : c.Walks root.node.members ⟨[], root.visited⟩ last picks)
    (hroot : ∀ id, root.id = some id → root.node = c.graph.object id)
    (ho : c.LeadsBy (picked picks) root.node o) : c.LeadsTo root.node o := by
  refine LeadsBy.leadsTo (fun o key id hby hrefers => ?_) ho
  obtain ⟨o', ho', hrefers'⟩ := h.refers (fun _ id => id) (fun _ _ => rfl)
    (h.mem_keys hroot hby hrefers)
  exact ho'.referred hrefers'

theorem Walks.complete_iff (h : c.Walks root.node.members ⟨[], root.visited⟩ last picks)
    (hroot : ∀ id, root.id = some id → root.node = c.graph.object id) :
    (∀ key, key ∈ last.keys ↔ c.NamedFrom root.node key) ↔
      ∀ id, c.PassesOver (picked picks) root.node id →
        ∀ key, c.NamedFrom (c.graph.object id) key → key ∈ last.keys := by
  constructor
  · rintro hall id ⟨o, key, hby, hrefers, -⟩ key' ⟨o', id', hto, hrefers'⟩
    have hroute : c.LeadsTo root.node (c.graph.object id) := (h.leadsTo hroot hby).referred hrefers
    exact (hall key').2 ⟨o', id', hroute.trans hto, hrefers'⟩
  · intro hpassed key
    constructor
    · intro hkey
      obtain ⟨o, ho, hrefers⟩ := h.refers (fun _ id => id) (fun _ _ => rfl) hkey
      exact ⟨o, _, ho, hrefers⟩
    · rintro ⟨o, id, hto, hrefers⟩
      rcases hto.leadsBy (picked picks) with hby | ⟨other, hother, hto'⟩
      · exact h.mem_keys hroot hby hrefers
      · exact hpassed other hother key ⟨o, id, hto', hrefers⟩

end Collecting

/-- The keys that are collected from a root, whatever circles the graph has. Calls that may be
nested deeper than there are objects are never cut off. Every key is that of a named type that the
root leads to, and the keys are all that are reached where each key stands for one of the objects
that are found under it. So they are all named types that the root leads to just when no object that
is passed over, being another one of a key that has been collected, leads to a key that is missing.
That is so wherever no element with an object of its own shares its key with another type. -/
theorem keys_of_reach (g : TypeGraph) (root : Root)
    (hroot : ∀ id, root.id = some id → root.node = g.object id) :
    let c := g.catalog
    let keys := (c.reach root []).value
    (∀ depth, g.objects.length < depth →
      ∃ last, (c.reachWithin depth ⟨[], root.visited⟩ root.node.members).Ends last
        (c.reach root []).notices ∧ last.keys = keys) ∧
    keys.Nodup ∧
    (∀ key ∈ keys, c.NamedFrom root.node key) ∧
    (∃ chosen : String → ObjectId,
      (∀ key ∈ keys, ∃ o, c.LeadsBy chosen root.node o ∧ c.Refers o key (chosen key)) ∧
      (∀ o key id, c.LeadsBy chosen root.node o → c.Refers o key id → key ∈ keys) ∧
      ((∀ key, key ∈ keys ↔ c.NamedFrom root.node key) ↔
        ∀ id, c.PassesOver chosen root.node id →
          ∀ key, c.NamedFrom (c.graph.object id) key → key ∈ keys)) ∧
    ((∀ key id other, g.elements.value? key = some (.object id) →
        g.complexTypes.value? key = some other → id = other) →
      ∀ key, key ∈ keys ↔ c.NamedFrom root.node key) := by
  intro c keys
  obtain ⟨picks, hwalk⟩ := c.exists_walk root.node.members ⟨[], root.visited⟩
  have hroot' : ∀ id, root.id = some id → root.node = c.graph.object id := hroot
  have hrefers : ∀ key ∈ keys,
      ∃ o, c.LeadsBy (picked picks) root.node o ∧ c.Refers o key (picked picks key) :=
    fun key hkey => hwalk.refers _ (fun pick hpick => hwalk.picked_eq hpick) hkey
  refine ⟨fun depth hdepth => ?_, hwalk.nodup List.nodup_nil, fun key hkey => ?_,
    ⟨picked picks, hrefers, fun o key id hby => hwalk.mem_keys hroot' hby,
      hwalk.complete_iff hroot'⟩, fun hapart => ?_⟩
  · have hunvisited : c.graph.unvisited root.visited ≤ g.objects.length :=
      Nat.le_trans List.countP_le_length (by rw [List.length_range]; exact Nat.le_refl _)
    refine ⟨_, ?_, rfl⟩
    rw [reach, Noted.notices_bind, Noted.notices_pure, List.append_nil]
    exact ends_reachWithin (.inr (Nat.lt_of_le_of_lt hunvisited hdepth))
  · obtain ⟨o, ho, hfound⟩ := hwalk.refers (fun _ id => id) (fun _ _ => rfl) hkey
    exact ⟨o, _, ho, hfound⟩
  · refine (hwalk.complete_iff hroot').2 ?_
    rintro id ⟨o, key, hby, hfound, hne⟩
    obtain ⟨o', -, hfound'⟩ := hrefers key (hwalk.mem_keys hroot' hby hfound)
    exact absurd (hfound.unique hapart hfound') hne

namespace SampleCircle

/-- A type with a member of the same type. -/
def graph : TypeGraph where
  objects := [{ members := [("next", { type := .reference { name := "urn:t:Node" } }),
      ("leaf", { type := .reference { name := "urn:t:Leaf" } })] },
    { members := [("text", { type := .primitive "string" })] }]
  complexTypes := [("urn:t:Node", 0), ("urn:t:Leaf", 1)]

def root : Root := .ofId graph 0

theorem keys_of_circle :
    (∀ id, root.id = some id → root.node = graph.object id) ∧
      ∀ key, key ∈ ["urn:t:Leaf", "urn:t:Node"] ↔ graph.catalog.NamedFrom root.node key := by
  have hroot : ∀ id, root.id = some id → root.node = graph.object id := by
    rintro _ ⟨⟩
    rfl
  obtain ⟨hends, -, -, -, hexact⟩ := keys_of_reach graph root hroot
  obtain ⟨last, hlast, hkeys⟩ := hends 3 (by decide)
  have hwithin : (graph.catalog.reachWithin 3 ⟨[], root.visited⟩ root.node.members).Ends
      ⟨["urn:t:Leaf", "urn:t:Node"], [1, 0]⟩ [] := rfl
  obtain rfl := hwithin.unique hlast
  refine ⟨hroot, fun key => ?_⟩
  rw [← hexact nofun key, ← hkeys]

end SampleCircle

namespace SampleKeys

def text : Member TypeNode := { type := .primitive "string" }

def pointing (name : String) : Member TypeNode := { type := .reference { name := name } }

/-- The element `K` has an object of its own that leads to `Z`. Another element points at the type
`K`, which is collected first. -/
def graph : TypeGraph where
  objects := [{ members := [("W", pointing "urn:t:W"), ("K", pointing "urn:t:K")] },
    { members := [("z", pointing "urn:t:Z")] }, { members := [("plain", text)] },
    { members := [("leaf", text)] }]
  elements := [("urn:t:K", .object 1), ("urn:t:W", .reference { name := "urn:t:K" }),
    ("urn:t:Root", .object 0)]
  complexTypes := [("urn:t:Z", 3), ("urn:t:K", 2)]

def root : Root := .ofId graph 0

theorem keys_root : (graph.catalog.reach root []).value = ["urn:t:K"] := by
  have hends : (graph.catalog.reachWithin 5 ⟨[], root.visited⟩ root.node.members).Ends _ _ :=
    ends_reachWithin (.inr (by decide))
  have hwithin : (graph.catalog.reachWithin 5 ⟨[], root.visited⟩ root.node.members).Ends
      ⟨["urn:t:K"], [2, 0]⟩ [] := rfl
  exact congrArg Reached.keys (hends.unique hwithin)

/-- The type behind the element is missing. -/
theorem type_not_collected :
    graph.catalog.NamedFrom root.node "urn:t:Z" ∧
      "urn:t:Z" ∉ (graph.catalog.reach root []).value := by
  have helement : graph.catalog.Refers root.node "urn:t:K" 1 :=
    ⟨("K", pointing "urn:t:K"), List.mem_cons_of_mem _ List.mem_cons_self, _,
      ⟨.object 1, "urn:t:K", none, false⟩, rfl, rfl, rfl⟩
  have htype : graph.catalog.Refers (graph.catalog.graph.object 1) "urn:t:Z" 3 :=
    ⟨("z", pointing "urn:t:Z"), List.mem_cons_self, _,
      ⟨.object 3, "urn:t:Z", none, false⟩, rfl, rfl, rfl⟩
  refine ⟨⟨_, 3, Leads.root.referred helement, htype⟩, ?_⟩
  rw [keys_root]
  decide

end SampleKeys

end SoapComponents.Catalog
