import SoapComponents.Proofs.Schema.Readers
import SoapComponents.Schema.Build

/-!
Complex types that are sequences of elements with named types, or refer to a group that is one: what
they are read as, and what is registered for them.
-/

set_option autoImplicit false

namespace SoapComponents

namespace Content
variable {groups : Groups} {depth : Nat} {scope : Scope} {node : Tree}

def typedMember? (scope : Scope) (node : Tree) : Option (String × Member Draft) :=
  match node.given? "ref", node.given? "name", node.given? "type" with
  | none, some name, some written => some (name, {
      type := (namedType scope written).value
      minOccurs := givenOccurs node "minOccurs"
      maxOccurs := givenOccurs node "maxOccurs"
      qualified := some (isQualified scope node)
      space := scope.target })
  | _, _, _ => none

theorem result_element_of_typed {e : String × Member Draft} (h : typedMember? scope node = some e) :
    (element groups depth scope node).result = .ok [e] := by
  unfold typedMember? at h
  split at h
  · next name written href hname htype =>
    obtain rfl := Option.some.inj h
    rw [element]
    simp only [href, hname]
    rw [elementType]
    simp only [htype]
    rfl
  · cases h

theorem result_elements_of_typed {nodes : List Tree} {entries : List (String × Member Draft)}
    (h : nodes.map (typedMember? scope) = entries.map some) :
    (nodes.mapM (element groups depth scope)).result = .ok (entries.map fun e => [e]) := by
  induction nodes generalizing entries with
  | nil =>
    obtain rfl : entries = [] := by simpa using h
    rfl
  | cons node rest ih =>
    cases entries with
    | nil => simp at h
    | cons e more =>
      obtain ⟨hnode, hrest⟩ := List.cons.inj h
      rw [List.mapM_cons, Outcome.result_bind, result_element_of_typed hnode]
      dsimp only
      rw [Outcome.result_bind, ih hrest]
      rfl

theorem result_particle_of_typed {entries : List (String × Member Draft)}
    (hnested : particleTags.flatMap node.children = []) (hgroups : node.children "group" = [])
    (helements : (node.children "element").map (typedMember? scope) = entries.map some) :
    (particle groups depth scope node).result = .ok entries := by
  simp only [particle_eq, hnested, hgroups, Outcome.result_bind, List.mapM_nil,
    Outcome.result_pure, result_elements_of_typed helements]
  simp [← List.flatMap_def]

theorem result_complexType_of_typed {inner : Tree} {entries : List (String × Member Draft)}
    (hinner : node.element? "sequence" = some inner)
    (hnested : particleTags.flatMap inner.children = []) (hgroups : inner.children "group" = [])
    (helements : (inner.children "element").map (typedMember? scope) = entries.map some) :
    (complexType groups depth scope node).result = .ok { type := {
      members := entries
      space := scope.target
      qualified := some scope.qualified
      attributes := attributes node } } := by
  have hfirst : (particleTags.filterMap node.element?).head? = some inner := by
    simp [particleTags, hinner]
  simp only [complexType_eq, hfirst, map_eq_pure_bind, Outcome.result_bind,
    result_particle_of_typed hnested hgroups helements]
  rfl

theorem result_groupBody_of_typed {inner : Tree} {entries : List (String × Member Draft)}
    (hown : node.children "element" = [])
    (hinner : (particleTags.flatMap node.children).head? = some inner)
    (hnested : particleTags.flatMap inner.children = []) (hgroups : inner.children "group" = [])
    (helements : (inner.children "element").map (typedMember? scope) = entries.map some) :
    (groupBody groups depth scope node).result = .ok entries := by
  rw [groupBody_eq, hown, List.mapM_nil, pure_bind]
  simp only [hinner]
  exact result_particle_of_typed hnested hgroups helements

theorem result_complexType_of_group {inner : Tree}
    (hparticle : particleTags.filterMap node.element? = [])
    (hgroup : node.element? "group" = some inner) :
    (complexType groups depth scope node).result =
      (group groups depth scope inner).result.map fun members => { type := {
        members := members
        space := scope.target
        qualified := some scope.qualified
        attributes := attributes node } } := by
  simp only [complexType_eq, hparticle, List.head?_nil, hgroup, map_eq_pure_bind,
    Outcome.result_bind]
  cases (group groups depth scope inner).result <;> rfl

end Content

theorem Building.result_registerType {b : Building} {scope : Scope} {node : Tree} {name : String}
    {derived : Derived Draft} (hname : node.given? "name" = some name)
    (h : (Content.complexType b.groups b.groups.depthBound scope node).result = .ok derived) :
    (registerType scope b node).result = .ok
      { b with
        graph := { (Draft.placeObject b.graph derived).1 with
          complexTypes := (Draft.placeObject b.graph derived).1.complexTypes.put
            (Name.qualified scope.target name) (Draft.placeObject b.graph derived).2.1 }
        extensions := b.extensions ++ (Draft.placeObject b.graph derived).2.2 } := by
  unfold registerType addType
  simp only [hname, Outcome.result_bind, h]
  rfl

theorem Building.result_foldlM_schema {b b' : Building} {schema : Tree} {scope : Scope}
    {rest : List Visit} (h : (step (b.enter scope) (.declare schema scope)).result = .ok b') :
    ((.enter scope :: .declare schema scope :: rest).foldlM step b).result =
      (rest.foldlM step b').result := by
  rw [List.foldlM_cons, Outcome.result_bind]
  show (List.foldlM step (b.enter scope) _).result = _
  rw [List.foldlM_cons, Outcome.result_bind, h]

end SoapComponents
