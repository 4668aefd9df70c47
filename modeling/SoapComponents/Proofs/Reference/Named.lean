import SoapComponents.Reference.Root

/-!
What the name of a type means. Elements and types have their names apart from each other, but a
reference does not say which of them it names, and an element of exactly that name is found first.
-/

set_option autoImplicit false

namespace SoapComponents.Catalog

variable {c : Catalog} {key : String} {id : ObjectId}

theorem lookup_element {node : TypeNode} (h : c.graph.elements.value? key = some node) :
    c.lookup key false [] = some { entry := ⟨.elements, key⟩, node := node } := by
  simp [lookup, exactly?, searchOrder, entryAt?, TypeGraph.entries, h]

theorem lookup_type (h : c.graph.elements.value? key = none)
    (htype : c.graph.complexTypes.value? key = some id) :
    c.lookup key false [] = some { entry := ⟨.complexTypes, key⟩, node := .object id } := by
  have helements : c.entryAt? key [] .elements = none := by
    simp [entryAt?, TypeGraph.entries, h]
  have htypes : c.entryAt? key [] .complexTypes =
      some { entry := ⟨.complexTypes, key⟩, node := .object id } := by
    simp [entryAt?, value?_typeEntries, htype]
  simp [lookup, exactly?, searchOrder, helements, htypes]

theorem lookup_type_behind {seen : List EntryName} (hseen : ⟨.complexTypes, key⟩ ∉ seen)
    (htype : c.graph.complexTypes.value? key = some id) :
    c.lookup key true seen = some { entry := ⟨.complexTypes, key⟩, node := .object id } := by
  have htypes : c.entryAt? key seen .complexTypes =
      some { entry := ⟨.complexTypes, key⟩, node := .object id } := by
    simp [entryAt?, value?_typeEntries, htype, hseen]
  simp [lookup, exactly?, searchOrder, htypes]

/-- The object that a name means, and whether it is found by going in a circle. -/
inductive Means (c : Catalog) (key : String) : ObjectId → Bool → Prop
  | type {id : ObjectId} : c.graph.elements.value? key = none →
      c.graph.complexTypes.value? key = some id → Means c key id false
  | element {id : ObjectId} : c.graph.elements.value? key = some (.object id) → Means c key id false
  /-- The element of the name has a named type. The way to it is a circle if their local names are
  the same. -/
  | pointed {id : ObjectId} {pointer : Reference} :
      c.graph.elements.value? key = some (.reference pointer) →
      Name.isBuiltIn pointer.name = false → c.graph.complexTypes.value? pointer.name = some id →
      Means c key id (Name.localPart pointer.name == Name.localPart key)

theorem value_unwrap {target name : String} {wrapper : Option Reference}
    (h : c.graph.complexTypes.value? target = some id) :
    (c.unwrap target name wrapper).value =
      some { target := .object id, key := target, wrapper := wrapper, circular := true } := by
  have hkey : c.unwrapKey? target name = some target := by
    simp [unwrapKey?, Table.holds, h]
  unfold unwrap
  simp [hkey, h]

theorem Means.resolve {circular : Bool} (h : c.Means key id circular)
    (hkey : Name.isBuiltIn key = false) :
    ∃ r, (c.resolve key).value = some r ∧ r.target = .object id ∧ r.circular = circular := by
  rw [resolve_eq, hkey, if_neg Bool.false_ne_true]
  cases h with
  | type helement htype =>
    refine ⟨⟨.object id, key, none, false⟩, ?_, rfl, rfl⟩
    rw [follow_of_found (lookup_type helement htype)]
    rfl
  | element helement =>
    refine ⟨⟨.object id, key, none, false⟩, ?_, rfl, rfl⟩
    rw [follow_of_found (lookup_element helement)]
    rfl
  | @pointed pointer helement hbuiltIn htype =>
    rw [follow_of_found (lookup_element helement)]
    by_cases hcircle : Name.localPart pointer.name = Name.localPart key
    · refine ⟨⟨.object id, pointer.name, some pointer, true⟩, ?_, rfl, by simp [hcircle]⟩
      simp [Finder.goOn, Found.onward, hbuiltIn, hcircle, finder, value_unwrap htype]
    · refine ⟨⟨.object id, pointer.name, some pointer, false⟩, ?_, rfl, by simp [hcircle]⟩
      have hbehind : c.lookup pointer.name true [⟨.elements, key⟩] =
          some { entry := ⟨.complexTypes, pointer.name⟩, node := .object id } :=
        lookup_type_behind (by simp) htype
      simp only [Finder.goOn, Found.onward, hbuiltIn, hcircle, Bool.false_eq_true, if_false,
        Option.none_or]
      rw [follow_of_found hbehind]
      rfl

end SoapComponents.Catalog
