import SoapComponents.Proofs.Schema.Registered
import SoapComponents.Proofs.Tags
import SoapComponents.Service.Basic

/-!
Service descriptions that are loaded. A document has one root, so that a description is no schema;
no import is then taken for a schema inside of it.
-/

set_option autoImplicit false

namespace SoapComponents

theorem Visit.Origin.single_of_document {source : Visit.Origin} {place : String} {tree : Tree}
    (h : (source.document place).result = .ok tree) : ∃ root, tree = .node [root] := by
  obtain ⟨bytes, _, h⟩ := Outcome.result_bind_eq_ok.1 h
  rw [Outcome.result_ofExcept] at h
  unfold Tree.parse at h
  split at h
  · cases h
  · cases h
  · cases h
  · split at h
    · next events _ tree' htree =>
      obtain ⟨root, _, rfl⟩ := Option.map_eq_some_iff.1 htree
      exact ⟨root, (Except.ok.inj h).symm⟩
    · cases h

theorem Tree.element?_single {root : String × Tree} {tag other : String} {found : Tree}
    (htag : IsTag tag) (hother : IsTag other) (hne : tag ≠ other)
    (h : (node [root]).element? tag = some found) : (node [root]).element? other = none := by
  have hkey : matchesTag root.1 tag = true := by
    by_contra hkey
    simp [element?, children, entries, hkey] at h
  have hnone : ¬ matchesTag root.1 other = true := fun h' => hne (tag_unique htag hother hkey h')
  simp [element?, children, entries, hnone]

theorem Visit.Origin.schemaless_of_definitions {source : Visit.Origin} {place : String}
    {tree definitions : Tree} (h : (source.document place).result = .ok tree)
    (hdefinitions : tree.element? "definitions" = some definitions) :
    tree.element? "schema" = none := by
  obtain ⟨root, rfl⟩ := single_of_document h
  exact Tree.element?_single (by decide) (by decide) (by decide) hdefinitions

namespace Service

theorem result_load (library : Library) (timeout : Int) (location : String) :
    (load library timeout location).result =
      match ((⟨library, timeout⟩ : Visit.Origin).document location).result with
      | .error failure => .error failure
      | .ok tree =>
        match tree.element? "definitions" with
        | none => .error (.noDefinitions location)
        | some definitions =>
          (TypeGraph.build (some ⟨library, timeout⟩) (schemas definitions) definitions.namespaces
            (some location)).result.map fun graph => ⟨definitions, definitions.namespaces, graph⟩ := by
  unfold load Visit.Origin.document
  simp only [Outcome.result_bind, Outcome.result_tell, Outcome.result_ofExcept]
  cases (library.load timeout location).result with
  | error failure => rfl
  | ok bytes =>
    dsimp only
    cases Tree.parse bytes with
    | error failure => rfl
    | ok tree =>
      dsimp only
      cases tree.element? "definitions" with
      | none => rfl
      | some definitions =>
        simp only [Outcome.result_bind]
        cases (TypeGraph.build (some ⟨library, timeout⟩) (schemas definitions)
          definitions.namespaces (some location)).result <;> rfl

/-- The schemas in a service description are built from where there is no schema, so that no import
is taken for one of them, and all that they lead to is registered. -/
theorem registers_of_load {library : Library} {timeout : Int} {location : String}
    {service : Service} (h : (load library timeout location).result = .ok service)
    (hbar : ∀ space, Visit.Named (some ⟨library, timeout⟩) (schemas service.definitions)
      (some location) space → '|' ∉ (space.getD "").toList)
    {schema : Tree} {base : Option String} (hreached : Visit.Reached (some ⟨library, timeout⟩)
      (schemas service.definitions) (some location) schema base) :
    Visit.Registers service.graph schema := by
  rw [result_load] at h
  cases hdocument : ((⟨library, timeout⟩ : Visit.Origin).document location).result with
  | error failure => simp [hdocument] at h
  | ok tree =>
    cases hdefinitions : tree.element? "definitions" with
    | none => simp [hdocument, hdefinitions] at h
    | some definitions =>
      simp only [hdocument, hdefinitions] at h
      obtain ⟨graph, hgraph, rfl⟩ := eq_ok_of_map h
      refine Visit.registers_of_reached hbar (Visit.own_of_place ?_) hgraph hreached
      rintro source place found hsource hplace hfound
      obtain rfl := Option.some.inj hsource
      obtain rfl := Option.some.inj hplace
      have hnone := Visit.Origin.schemaless_of_definitions hdocument hdefinitions
      simp only [Visit.Origin.schema?, hdocument, hnone] at hfound
      cases hfound

end Service

end SoapComponents
