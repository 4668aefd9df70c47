import SoapComponents.Proofs.Interface.Gathering

/-!
The shapes of a root as a whole. The walk that makes them ends; every type that a field names is
declared, or stands for a built-in type, or could not be found. And where objects of the same name
have different fields, this is told of the objects that members hold themselves, and of no others.
-/

set_option autoImplicit false

namespace SoapComponents

/-- The type of a field is text of some kind, an interface, a name that stands for a built-in type,
or the name that is used where a reference leads nowhere. -/
inductive Field.Meant (c : Catalog) (root : Root) (declared : List String) : Field → Prop
  | host {name : String} {type : HostType} {modifier : Modifier} :
      Meant c root declared ⟨name, .host type, modifier⟩
  | declared {name used : String} {modifier : Modifier} : used ∈ declared →
      Meant c root declared ⟨name, .interface used, modifier⟩
  | aliased {name used : String} {modifier : Modifier} : used ∈ c.aliasNames root →
      Meant c root declared ⟨name, .interface used, modifier⟩
  | unresolved {key : String} {m : Member TypeNode} {pointer : Reference} :
      (key, m) ∈ c.graph.membersBeside root.node → m.type = .reference pointer →
      (c.resolve pointer.name).value = none →
      Meant c root declared ⟨Name.camel key, .unresolved (Name.pascal key), m.modifier⟩

namespace Catalog

variable {c : Catalog}

theorem unresolved_of_fieldType {key name : String} {type : TypeNode}
    (h : (c.fieldType key type).value = .unresolved name) :
    ∃ pointer, type = .reference pointer ∧ (c.resolve pointer.name).value = none ∧
      name = Name.pascal key := by
  cases type with
  | primitive name => cases h
  | object id =>
    simp only [fieldType, Noted.value_pure] at h
    split at h <;> cases h
  | reference pointer =>
    simp only [fieldType, Noted.value_bind] at h
    cases hr : (c.resolve pointer.name).value with
    | none =>
      rw [hr] at h
      exact ⟨pointer, rfl, hr, (FieldType.unresolved.inj h).symm⟩
    | some r =>
      simp only [hr, Noted.value_pure] at h
      split at h
      · cases h
      · split at h <;> cases h

theorem meant_of_fields {root : Root} {o : ObjectNode} {declared : List String}
    (howned : c.Owns root.node o)
    (huses : ∀ name ∈ c.needs o.members, name ∈ declared ∨ name ∈ c.aliasNames root) :
    ∀ f ∈ (c.fields o).value, f.Meant c root declared := by
  intro f hf
  rw [value_fields] at hf
  obtain ⟨⟨key, m⟩, he, rfl⟩ := List.mem_map.1 hf
  rw [value_field]
  cases htype : (c.fieldType key m.type).value with
  | host type => exact .host
  | interface used =>
    rcases huses used (List.mem_filterMap.2 ⟨(key, m), he, by rw [htype]; rfl⟩) with hmem | hmem
    · exact .declared hmem
    · exact .aliased hmem
  | unresolved name =>
    obtain ⟨pointer, hpointer, hnone, rfl⟩ := unresolved_of_fieldType htype
    exact .unresolved (howned.members _ he) hpointer hnone

/-- The shapes of a root, whatever the graph, the names of types to begin with, and the name of the
root. A reference is followed to its end, with a lookup for every element and one more at most. The
walk in nested calls ends, as soon as these may be nested deeper than there are objects and names,
and comes to the same shapes; all that it meets has an interface, unless an alias stands for it. The
names of interfaces are different. And every field, of the props and of the interfaces, is of a host
type, of an interface that is there or that an alias stands for, or of the name that is used for a
reference that leads nowhere. -/
theorem shapes_end_closed (c : Catalog) (name : String) (root : Root) (reachable : List String)
    (propsName : Option String) :
    let shapes := c.shapes name root reachable propsName
    let declared := shapes.value.interfaces.map (·.name)
    (∀ (s : Session) (ref : String), s.Remembers →
      (s.resolve c ref).1 = (c.resolve ref).value ∧
        (s.resolve c ref).2.made.length ≤ s.made.length + (c.graph.elements.length + 1)) ∧
    (∃ met : List Meeting,
      (∀ depth, c.graph.objects.length < depth → (c.interfaceNames root.node).length < depth →
        (c.shapesWithin depth name root reachable propsName).Ends (shapes.value, met)
          shapes.notices) ∧
      ∀ n ∈ met, n.name ∈ declared ∨ n.name ∈ c.aliasNames root) ∧
    declared.Nodup ∧
    ∀ i ∈ shapes.value.props :: shapes.value.interfaces, ∀ f ∈ i.fields,
      f.Meant c root declared := by
  intro shapes declared
  obtain ⟨g, hsound, hfound, hends⟩ := c.ends_shapesWithin name root reachable propsName
  obtain ⟨hnodup, -, -, huses⟩ := c.shapes_spec name root reachable propsName
  have hvalue : shapes.value = _ := c.value_shapes name root reachable propsName
  rw [← hfound] at hvalue
  refine ⟨fun s ref hs => Session.resolve_ends c hs ref,
    ⟨g.met, hends, fun n hn => ?_⟩, hnodup, fun i hi => ?_⟩
  · obtain ⟨i, hi, hname⟩ := List.mem_map.1 (hsound.each n hn)
    by_cases halias : n.name ∈ c.aliasNames root
    · exact .inr halias
    · refine .inl (List.mem_map.2 ⟨i, ?_, hname⟩)
      rw [hvalue]
      exact List.mem_filter.2 ⟨hi, by simpa [hname] using halias⟩
  · obtain ⟨o, howned, hfields⟩ : ∃ o, c.Owns root.node o ∧ i.fields = (c.fields o).value := by
      rcases List.mem_cons.1 hi with rfl | hi
      · exact ⟨_, c.owns_expand root, by rw [hvalue]⟩
      · rw [hvalue] at hi
        obtain ⟨n, hfind, hfields⟩ := hsound.first i (List.mem_of_mem_filter hi)
        exact ⟨n.node, hsound.own n (List.mem_of_find?_eq_some hfind), hfields⟩
    have hneeds : i.uses = c.needs o.members := by
      rw [← c.uses_fields i.name o, ← hfields]
    rw [hfields]
    exact meant_of_fields howned (hneeds ▸ huses i hi)

/-- Where two objects of the same name have different fields, the walk of a root tells of it just
when one that a member holds itself has other fields than the first object of its name, which is
the one that the interface describes. So it is told whenever the two are both held by members
themselves, and never of named types alone. -/
theorem shapes_tell_differing (c : Catalog) (name : String) (root : Root)
    (reachable : List String) (propsName : Option String) :
    let shapes := c.shapes name root reachable propsName
    let texts := fun n : Meeting => (c.fields n.node).value.map Field.texts
    ∃ met : List Meeting,
      (∀ depth, c.graph.objects.length < depth → (c.interfaceNames root.node).length < depth →
        (c.shapesWithin depth name root reachable propsName).Ends (shapes.value, met)
          shapes.notices) ∧
      (∀ shared, .shapesDiffer shared ∈ shapes.notices ↔
        ∃ n ∈ met, n.isInline = true ∧ n.name = shared ∧
          ∃ first, met.find? (·.name == shared) = some first ∧ texts first ≠ texts n) ∧
      ∀ a ∈ met, ∀ b ∈ met, a.isInline = true → b.isInline = true → a.name = b.name →
        texts a ≠ texts b → .shapesDiffer a.name ∈ shapes.notices := by
  intro shapes texts
  obtain ⟨g, hsound, -, hends⟩ := c.ends_shapesWithin name root reachable propsName
  have htold : ∀ shared, .shapesDiffer shared ∈ shapes.notices ↔
      ∃ n ∈ g.met, n.isInline = true ∧ n.name = shared ∧
        ∃ first, g.met.find? (·.name == shared) = some first ∧ texts first ≠ texts n := by
    intro shared
    rw [hsound.told]
    exact exists_congr fun n => and_congr_right fun _ => and_congr_right fun _ =>
      and_congr_right fun _ => hsound.exists_first_iff
  refine ⟨g.met, hends, htold, fun a ha b hb hainline hbinline hname hdiffer => ?_⟩
  obtain ⟨first, hfirst⟩ : ∃ first, g.met.find? (·.name == a.name) = some first :=
    Option.isSome_iff_exists.1 (List.find?_isSome.2 ⟨a, ha, by simp⟩)
  rw [htold]
  -- the first one of the name differs from one of the two
  by_cases hsame : texts first = texts a
  · exact ⟨b, hb, hbinline, hname.symm, first, hfirst, hsame ▸ hdiffer⟩
  · exact ⟨a, ha, hainline, rfl, first, hfirst, hsame⟩

end Catalog

namespace SampleItems

def text : Member TypeNode := { type := .primitive "string" }

def item (space : String) : Member TypeNode := { type := .reference { name := space ++ ":Item" } }

/-- The types of two members have the same local name, in two namespaces. -/
def graph : TypeGraph where
  objects := [
    { members := [("p", item "urn:a"), ("q", item "urn:b")] },
    { members := [("x", text)] },
    { members := [("y", text)] }]
  elements := [("urn:r:Root", .object 0)]
  complexTypes := [("urn:a:Item", 1), ("urn:b:Item", 2)]

def root : Root := .ofId graph 0

def firstItem : Meeting := ⟨"Item", graph.object 1, false⟩

def secondItem : Meeting := ⟨"Item", graph.object 2, false⟩

def shapes : Noted Shapes := graph.catalog.shapes "urn:r:Root" root [] none

/-- The walk meets both, which have different fields, and nothing is told of them. -/
theorem items_untold :
    (graph.catalog.shapesWithin 20 "urn:r:Root" root [] none).Ends
      (shapes.value, [⟨"Root", root.node, false⟩, firstItem, secondItem]) shapes.notices ∧
    firstItem.name = secondItem.name ∧
    (graph.catalog.fields firstItem.node).value.map Field.texts ≠
      (graph.catalog.fields secondItem.node).value.map Field.texts ∧
    .shapesDiffer firstItem.name ∉ shapes.notices := by
  obtain ⟨value, hrun⟩ : ∃ value,
      (graph.catalog.shapesWithin 20 "urn:r:Root" root [] none).Ends
        (value, [⟨"Root", root.node, false⟩, firstItem, secondItem])
        [.flattened "urn:r:Root" 2 2] := ⟨_, rfl⟩
  obtain ⟨g, -, -, hends⟩ := graph.catalog.ends_shapesWithin "urn:r:Root" root [] none
  obtain ⟨hvalue, hnotices⟩ :=
    Noted.mk.inj ((hends 20 (by decide) (by decide +kernel)).symm.trans hrun)
  obtain ⟨hshapes, -⟩ := Prod.mk.inj (Option.some.inj hvalue)
  have htold : shapes.notices = [.flattened "urn:r:Root" 2 2] := hnotices
  refine ⟨?_, rfl, by decide +kernel, by simp [htold]⟩
  rw [htold, show shapes.value = value from hshapes]
  exact hrun

end SampleItems

end SoapComponents
