import Mathlib.Data.List.Nodup
import SoapComponents.Interface.Collection
import SoapComponents.Proofs.Markup.Fields
import SoapComponents.Proofs.Outcome

/-!
The interfaces that are collected for a root. Each name has one, and a field whose type is an
interface has one that is collected too, or an alias of the root stands for it.
-/

set_option autoImplicit false

namespace SoapComponents

def FieldType.interface? : FieldType → Option String
  | .interface name => some name
  | _ => none

def Interface.uses (i : Interface) : List String := i.fields.filterMap (·.type.interface?)

/-- The interfaces have different names, each made from the name of something, and none uses one
that is not among them. -/
structure Interface.Closed (found : List Interface) : Prop where
  nodup : (found.map (·.name)).Nodup
  named : ∀ i ∈ found, ∃ source, i.name = Name.pascal source
  uses : ∀ i ∈ found, ∀ name ∈ i.uses, name ∈ found.map (·.name)

theorem Interface.closed_nil : Closed [] := ⟨List.nodup_nil, by simp, by simp⟩

theorem Interface.nodup_names {found : List Interface} {i : Interface}
    (h : (found.map (·.name)).Nodup) (hnew : i.name ∉ found.map (·.name)) :
    ((found ++ [i]).map (·.name)).Nodup := by
  rw [List.map_append, List.nodup_append]
  refine ⟨h, List.nodup_singleton _, ?_⟩
  rintro _ ho _ hsame rfl
  rw [List.mem_singleton.1 hsame] at ho
  exact hnew ho

namespace Catalog

variable {c : Catalog}

def needs (c : Catalog) (members : List (String × Member TypeNode)) : List String :=
  members.filterMap fun e => (c.fieldType e.1 e.2.type).value.interface?

theorem uses_fields (c : Catalog) (name : String) (o : ObjectNode) :
    Interface.uses ⟨name, (c.fields o).value⟩ = c.needs o.members := by
  simp only [Interface.uses, needs, value_fields, List.filterMap_map]
  exact List.filterMap_congr fun e _ => congrArg (·.type.interface?) (c.value_field e.1 e.2)

theorem name_nested? (c : Catalog) (key : String) (type : TypeNode) :
    (c.nested? key type).value.map (·.name) = (c.fieldType key type).value.interface? := by
  cases type with
  | primitive name => rfl
  | object id =>
    simp only [nested?, fieldType, Noted.value_pure, ObjectType.leafHost?]
    split <;> rfl
  | reference pointer =>
    simp only [nested?, fieldType, resolveObject, Noted.value_bind]
    cases (c.resolve pointer.name).value with
    | none => rfl
    | some r =>
      obtain ⟨target, key, wrapper, circular⟩ := r
      cases target with
      | primitive name => rfl
      | object id =>
        simp only [Noted.value_pure, Target.object?, Option.map_some, ObjectType.leafHost?]
        split <;> rfl

theorem pascal_of_nested? {key : String} {type : TypeNode} {n : NestedObject}
    (h : (c.nested? key type).value = some n) : ∃ source, n.name = Name.pascal source := by
  unfold nested? at h
  split at h
  · cases h
  · rw [Noted.value_pure] at h
    split at h
    · cases h
    · obtain rfl := Option.some.inj h
      exact ⟨key, rfl⟩
  · rw [Noted.value_bind] at h
    split at h
    · cases h
    · rw [Noted.value_pure] at h
      split at h
      · cases h
      · obtain rfl := Option.some.inj h
        exact ⟨_, rfl⟩

/-- What collecting for some members does: it adds interfaces, of names that have none, so that
the members have what they need, and so have all interfaces that are added. -/
structure Collected (c : Catalog) (members : List (String × Member TypeNode))
    (found result : List Interface) : Prop where
  grows : found <+: result
  nodup : (found.map (·.name)).Nodup → (result.map (·.name)).Nodup
  needs : ∀ name ∈ c.needs members, name ∈ result.map (·.name)
  added : ∀ i ∈ result, i ∈ found ∨ (∃ source, i.name = Name.pascal source) ∧
    ∀ name ∈ i.uses, name ∈ result.map (·.name)

section Collecting

variable {key : String} {m : Member TypeNode} {rest : List (String × Member TypeNode)}
  {found result : List Interface}

theorem Collected.cons (h : Collected c rest found result)
    (hname : ∀ name, (c.fieldType key m.type).value.interface? = some name →
      name ∈ result.map (·.name)) : Collected c ((key, m) :: rest) found result := by
  refine ⟨h.grows, h.nodup, fun name hn => ?_, h.added⟩
  obtain ⟨e, he, heq⟩ := List.mem_filterMap.1 hn
  rcases List.mem_cons.1 he with rfl | he
  · exact hname name heq
  · exact h.needs name (List.mem_filterMap.2 ⟨e, he, heq⟩)

theorem Collected.of_new {o : ObjectNode} {name : String}
    (h : Collected c (o.members ++ rest) (found ++ [⟨name, (c.fields o).value⟩]) result)
    (hnew : name ∉ found.map (·.name)) (hnamed : ∃ source, name = Name.pascal source) :
    Collected c rest found result ∧ name ∈ result.map (·.name) ∧
      ∀ needed ∈ c.needs o.members, needed ∈ result.map (·.name) := by
  have happend : c.needs (o.members ++ rest) = c.needs o.members ++ c.needs rest :=
    List.filterMap_append
  have hneeds := h.needs
  rw [happend] at hneeds
  have hmembers : ∀ needed ∈ c.needs o.members, needed ∈ result.map (·.name) :=
    fun needed hn => hneeds needed (List.mem_append_left _ hn)
  refine ⟨⟨(List.prefix_append _ _).trans h.grows,
    fun hnodup => h.nodup (Interface.nodup_names hnodup hnew),
    fun needed hn => hneeds needed (List.mem_append_right _ hn), ?_⟩,
    (h.grows.map _).subset (by simp), hmembers⟩
  intro i hi
  rcases h.added i hi with hold | hadded
  · rcases List.mem_append.1 hold with hold | hown
    · exact .inl hold
    · obtain rfl := List.mem_singleton.1 hown
      rw [uses_fields]
      exact .inr ⟨hnamed, hmembers⟩
  · exact .inr hadded

end Collecting

theorem collect_spec (c : Catalog) (o : ObjectNode) (pending : List (String × Member TypeNode))
    (found : List Interface) (known : ∀ e ∈ pending, e ∈ c.graph.membersBeside o) :
    Collected c pending found (c.collect o pending found known).value := by
  induction pending, found, known using collect.induct c o with
  | case1 found known _ =>
    rw [collect]
    exact ⟨List.prefix_rfl, id, by simp [Catalog.needs], fun i hi => .inl hi⟩
  | case2 found key m rest known later notices hn _ ih =>
    have hname := c.name_nested? key m.type
    rw [hn] at hname
    rw [collect]
    split
    · exact Collected.cons ih fun name heq => by simp [← hname] at heq
    · next hn' => simp [hn] at hn'
  | case3 found key m rest known later n notices hn hf _ ih =>
    have hname := c.name_nested? key m.type
    rw [hn] at hname
    rw [collect]
    split
    · next hn' => simp [hn] at hn'
    · next n' notices' hn' =>
      obtain ⟨rfl, rfl⟩ : n = n' ∧ notices = notices' := by simpa [hn] using hn'
      rw [dif_pos hf]
      refine Collected.cons ih fun name heq => ?_
      obtain rfl := Option.some.inj (hname.trans heq)
      exact ((Collected.grows ih).map _).subset hf
  | case4 found key m rest known later n notices hn hf _ ih =>
    have hname := c.name_nested? key m.type
    rw [hn] at hname
    rw [collect]
    split
    · next hn' => simp [hn] at hn'
    · next n' notices' hn' =>
      obtain ⟨rfl, rfl⟩ : n = n' ∧ notices = notices' := by simpa [hn] using hn'
      rw [dif_neg hf]
      obtain ⟨hrest, hmem, _⟩ := Collected.of_new (ih (c.fields (c.graph.object n.id)).value) hf
        (pascal_of_nested? (by rw [hn]))
      refine Collected.cons hrest fun name heq => ?_
      obtain rfl := Option.some.inj (hname.trans heq)
      exact hmem

theorem Collected.closed {members : List (String × Member TypeNode)} {found result : List Interface}
    (h : Collected c members found result) (hfound : Interface.Closed found) :
    Interface.Closed result := by
  refine ⟨h.nodup hfound.nodup, fun i hi => ?_, fun i hi name hn => ?_⟩
  · rcases h.added i hi with hold | ⟨hnamed, _⟩
    · exact hfound.named i hold
    · exact hnamed
  · rcases h.added i hi with hold | ⟨_, hadded⟩
    · exact (h.grows.map _).subset (hfound.uses i hold name hn)
    · exact hadded name hn

theorem collectAll_spec (c : Catalog) (o : ObjectNode) (found : List Interface) :
    Collected c o.members found (c.collectAll o found).value :=
  c.collect_spec o o.members found _

theorem addInterface_spec (c : Catalog) (source : String) (o : ObjectNode)
    {found : List Interface} (h : Interface.Closed found) :
    let name := Name.pascal source
    let result := (c.addInterface name o found).value
    Interface.Closed result ∧ found <+: result ∧ name ∈ result.map (·.name) ∧
      (name ∉ found.map (·.name) → ∀ needed ∈ c.needs o.members, needed ∈ result.map (·.name)) := by
  intro name
  unfold addInterface
  split
  · next hold => exact ⟨h, List.prefix_rfl, hold, fun hnew => absurd hold hnew⟩
  · next hnew =>
    have hall := c.collectAll_spec o (found ++ [⟨name, (c.fields o).value⟩])
    rw [← List.append_nil o.members] at hall
    obtain ⟨hadded, hmem, hneeds⟩ := hall.of_new hnew ⟨source, rfl⟩
    exact ⟨hadded.closed h, hadded.grows, hmem, fun _ => hneeds⟩

theorem collect_of_needs_nil {o : ObjectNode} {pending : List (String × Member TypeNode)}
    {found : List Interface} {known : ∀ e ∈ pending, e ∈ c.graph.membersBeside o}
    (h : c.needs pending = []) : (c.collect o pending found known).value = found := by
  induction pending with
  | nil =>
    rw [collect]
    rfl
  | cons e rest ih =>
    obtain ⟨key, m⟩ := e
    have hname := c.name_nested? key m.type
    rw [needs, List.filterMap_cons] at h
    split at h
    · next hnone =>
      rw [collect]
      split
      · exact ih h
      · next hn => simp [hn, hnone] at hname
    · cases h

theorem addInterface_of_needs_nil {name : String} {o : ObjectNode} {found : List Interface}
    (hnew : name ∉ found.map (·.name)) (h : c.needs o.members = []) :
    (c.addInterface name o found).value = found ++ [⟨name, (c.fields o).value⟩] := by
  unfold addInterface
  rw [if_neg hnew]
  exact collect_of_needs_nil h

/-- The names of the aliases that a root has for the types of its props. -/
def aliasNames (c : Catalog) (root : Root) : List String :=
  (c.typeAliases (c.expand root).value.node).value.map (·.name)

theorem pascal_of_typeAliases {o : ObjectNode} {found : TypeAlias}
    (h : found ∈ (c.typeAliases o).value) : ∃ source, found.name = Name.pascal source := by
  unfold typeAliases at h
  simp only [Noted.value_bind, Noted.value_pure, Noted.value_mapM] at h
  obtain ⟨made, hmade, rfl⟩ := List.mem_filterMap.1 h
  obtain ⟨e, _, he⟩ := List.mem_map.1 hmade
  obtain ⟨_, _, rfl⟩ := Option.map_eq_some_iff.1 he
  exact ⟨e.1, rfl⟩

theorem not_visited_of_payloads (c : Catalog) (o : ObjectNode) (visited : List ObjectId) :
    ∀ p ∈ (c.payloads o visited).value, p.id ∉ visited := by
  induction o, visited using payloads.induct c with
  | case1 o visited notices h =>
    rw [payloads_of_next_none (by simp [next?, h])]
    exact fun _ hp => absurd hp List.not_mem_nil
  | case2 o visited payload notices h hvisited =>
    rw [payloads_of_next_none (by simp [next?, h, Option.filter, hvisited])]
    exact fun _ hp => absurd hp List.not_mem_nil
  | case3 o visited payload notices h hvisited ih =>
    rw [payloads_of_next (p := payload) (by simp [next?, h, Option.filter, hvisited])]
    refine List.forall_mem_cons.2 ⟨hvisited, fun p hp hv => ?_⟩
    exact ih p hp (List.mem_cons_of_mem _ hv)

theorem expand_eq_self {root : Root} (h : (c.expand root).value.id = root.id) :
    (c.expand root).value = root := by
  unfold expand at h ⊢
  rw [Noted.value_bind] at h ⊢
  cases hlast : (c.payloads root.node root.visited).value.getLast? with
  | none => rfl
  | some p =>
    rw [hlast] at h
    have hid : some p.id = root.id := h
    refine absurd ?_ (c.not_visited_of_payloads _ _ p (List.mem_of_getLast? hlast))
    rw [Root.visited, ← hid]
    exact List.mem_singleton.2 rfl

theorem expand_of_next_none {root : Root} (h : c.next? root.node root.visited = none) :
    (c.expand root).value = root := by
  rw [expand, Noted.value_bind, payloads_of_next_none h]
  rfl

def addNamed (c : Catalog) (found : List Interface) (key : String) : Noted (List Interface) :=
  match c.graph.complexTypes.value? key with
  | some id => c.addInterface (Name.pascal key) (c.graph.object id) found
  | none => pure found

theorem addNamed_spec (c : Catalog) (key : String) {found : List Interface}
    (h : Interface.Closed found) :
    Interface.Closed (c.addNamed found key).value ∧ found <+: (c.addNamed found key).value := by
  unfold addNamed
  split
  · next id _ =>
    obtain ⟨hclosed, hgrows, _⟩ := c.addInterface_spec key (c.graph.object id) h
    exact ⟨hclosed, hgrows⟩
  · exact ⟨h, List.prefix_rfl⟩

/-- All interfaces that are collected for a root and its payload, those among them that an alias
stands for. -/
def collected (c : Catalog) (name : String) (root payload : Root) (reachable : List String) :
    Noted (List Interface) := do
  let found ← c.addInterface (Name.pascal name) root.node []
  let found ← reachable.foldlM c.addNamed found
  if payload.id = root.id then pure found else c.collectAll payload.node found

theorem shapes_eq (c : Catalog) (name : String) (root : Root) (reachable : List String)
    (propsName : Option String) :
    c.shapes name root reachable propsName = do
      let payload ← c.expand root
      let fields ← c.fields payload.node
      let found ← c.collected name root payload reachable
      let aliases ← c.typeAliases payload.node
      let kept := found.filter fun i => i.name ∉ aliases.map (·.name)
      Noted.tell (.flattened name fields.length kept.length)
      return ⟨⟨(Name.given? propsName).getD (Name.pascal name ++ "Props"), fields⟩, kept⟩ := by
  simp only [shapes, collected, bind_assoc]
  refine bind_congr fun payload => bind_congr fun fields => bind_congr fun _ =>
    bind_congr fun _ => ?_
  by_cases hid : payload.id = root.id
  · simp only [if_pos hid]
  · simp only [if_neg hid]

theorem value_shapes (c : Catalog) (name : String) (root : Root) (reachable : List String)
    (propsName : Option String) :
    (c.shapes name root reachable propsName).value =
      ⟨⟨(Name.given? propsName).getD (Name.pascal name ++ "Props"),
          (c.fields (c.expand root).value.node).value⟩,
        (c.collected name root (c.expand root).value reachable).value.filter fun i =>
          i.name ∉ c.aliasNames root⟩ := by
  rw [shapes_eq]
  rfl

theorem collected_spec (c : Catalog) (name : String) (root : Root) (reachable : List String) :
    let found := (c.collected name root (c.expand root).value reachable).value
    Interface.Closed found ∧ Name.pascal name ∈ found.map (·.name) ∧
      ∀ needed ∈ c.needs (c.expand root).value.node.members, needed ∈ found.map (·.name) := by
  obtain ⟨hclosed, _, hmem, hneeds⟩ :=
    c.addInterface_spec name root.node Interface.closed_nil
  have hneeds := hneeds (by simp)
  unfold collected
  simp only [Noted.value_bind]
  generalize (c.addInterface (Name.pascal name) root.node []).value = first at hclosed hmem hneeds ⊢
  obtain ⟨hmany, hgrows⟩ := Noted.value_foldlM_keeps
    (P := fun found => Interface.Closed found ∧ first <+: found) (f := c.addNamed) (l := reachable)
    (fun key _ found hfound => by
      obtain ⟨hnext, hmore⟩ := c.addNamed_spec key hfound.1
      exact ⟨hnext, hfound.2.trans hmore⟩)
    ⟨hclosed, List.prefix_rfl⟩
  have hsub := (hgrows.map (·.name)).subset
  split
  · next hid =>
    rw [expand_eq_self hid]
    exact ⟨hmany, hsub hmem, fun needed hn => hsub (hneeds needed hn)⟩
  · have hall := c.collectAll_spec (c.expand root).value.node
      (reachable.foldlM c.addNamed first).value
    exact ⟨hall.closed hmany, (hall.grows.map _).subset (hsub hmem), hall.needs⟩

/-- The interfaces of a root have different names, none of them that of an alias; what the props or
an interface use is one of them or an alias. -/
theorem shapes_spec (c : Catalog) (name : String) (root : Root) (reachable : List String)
    (propsName : Option String) :
    let s := (c.shapes name root reachable propsName).value
    (s.interfaces.map (·.name)).Nodup ∧
      (∀ i ∈ s.interfaces, ∃ source, i.name = Name.pascal source) ∧
      (∀ i ∈ s.interfaces, i.name ∉ c.aliasNames root) ∧
      ∀ i ∈ s.props :: s.interfaces, ∀ used ∈ i.uses,
        used ∈ s.interfaces.map (·.name) ∨ used ∈ c.aliasNames root := by
  obtain ⟨hclosed, _, hneeds⟩ := c.collected_spec name root reachable
  rw [value_shapes]
  dsimp only at hclosed hneeds ⊢
  generalize (c.collected name root (c.expand root).value reachable).value = found at hclosed hneeds
  have hkept : ∀ used ∈ found.map (·.name),
      used ∈ (found.filter fun i => i.name ∉ c.aliasNames root).map (·.name) ∨
        used ∈ c.aliasNames root := by
    intro used hused
    obtain ⟨i, hi, rfl⟩ := List.mem_map.1 hused
    by_cases halias : i.name ∈ c.aliasNames root
    · exact .inr halias
    · exact .inl (List.mem_map_of_mem (List.mem_filter.2 ⟨hi, by simpa using halias⟩))
  refine ⟨hclosed.nodup.sublist (List.filter_sublist.map _),
    fun i hi => hclosed.named i (List.mem_of_mem_filter hi), ?_, ?_⟩
  · intro i hi
    simpa using (List.mem_filter.1 hi).2
  · refine List.forall_mem_cons.2 ⟨fun used hused => ?_, fun i hi used hused => ?_⟩
    · rw [uses_fields] at hused
      exact hkept used (hneeds used hused)
    · exact hkept used (hclosed.uses i (List.mem_of_mem_filter hi) used hused)

end Catalog

end SoapComponents
