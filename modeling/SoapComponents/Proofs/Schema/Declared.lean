import SoapComponents.Proofs.Schema.Placement
import SoapComponents.Proofs.Schema.Readers
import SoapComponents.Schema.Build

/-!
What an element declaration is read as. It gives the member that it declares, and if the type of
this is an object then that is what the content of the declaration is read as.
-/

set_option autoImplicit false

namespace SoapComponents.Content

def headOf (scope : Scope) (node : Tree) : TypeHead :=
  match node.given? "type" with
  | some name => (namedType scope name).value.head
  | none =>
    if (node.element? "complexType").isSome || (node.element? "sequence").isSome then .object
    else (simpleType scope node).value.head

/-- The member that an element declaration stands for. One that refers to a global element is
always qualified, in the namespace that the reference names. -/
def declared? (scope : Scope) (node : Tree) : Option (String × Member TypeHead) :=
  match node.given? "ref" with
  | some ref =>
    let key := (scope.qualify ref).value
    some (Name.localPart ref, {
      type := .reference ⟨key, none, none⟩
      minOccurs := (node.given? "minOccurs").getD "1"
      maxOccurs := (node.given? "maxOccurs").getD "1"
      qualified := some true
      space := (Name.space? key).or scope.target })
  | none =>
    (node.given? "name").map fun name => (name, {
      type := headOf scope node
      minOccurs := (node.given? "minOccurs").getD "1"
      maxOccurs := (node.given? "maxOccurs").getD "1"
      qualified := some (isQualified scope node)
      space := scope.target })

def shape (e : String × Member Draft) : String × Member TypeHead := (e.1, e.2.map Draft.head)

variable {groups : Groups} {depth : Nat} {scope : Scope} {node : Tree}

theorem head_of_elementType {draft : Draft}
    (h : (elementType groups depth scope node).result = .ok draft) :
    draft.head = headOf scope node := by
  rw [elementType_eq] at h
  unfold headOf
  cases hname : node.given? "type" with
  | some name =>
    simp only [hname] at h
    obtain rfl := Except.ok.inj h
    rfl
  | none =>
    simp only [hname] at h
    dsimp only
    split at h
    · next inner hinner =>
      obtain ⟨derived, _, h⟩ := Outcome.result_bind_eq_ok.1 h
      obtain rfl := Except.ok.inj h
      simp [hinner, Draft.head]
    · next hinner =>
      split at h
      · next hsequence =>
        obtain ⟨derived, _, h⟩ := Outcome.result_bind_eq_ok.1 h
        obtain rfl := Except.ok.inj h
        simp [hsequence, Draft.head]
      · next hsequence =>
        obtain rfl := Except.ok.inj h
        simp [hinner, hsequence]

theorem shapes_of_element {entries : List (String × Member Draft)}
    (h : (element groups depth scope node).result = .ok entries) :
    entries.map shape = (declared? scope node).toList := by
  rw [element] at h
  rw [declared?]
  cases href : node.given? "ref" with
  | some ref =>
    rw [href] at h
    obtain rfl := Except.ok.inj h
    rfl
  | none =>
    rw [href] at h
    cases hname : node.given? "name" with
    | none =>
      simp only [hname] at h
      obtain rfl := Except.ok.inj h
      rfl
    | some name =>
      simp only [hname] at h
      obtain ⟨draft, hdraft, h⟩ := Outcome.result_bind_eq_ok.1 h
      obtain rfl := Except.ok.inj h
      simp [shape, Member.map, head_of_elementType hdraft, givenOccurs]

theorem declared_of_element {e : String × Member Draft}
    (h : (element groups depth scope node).result = .ok [e]) :
    declared? scope node = some (shape e) := by
  have hshape := shapes_of_element h
  cases hdeclared : declared? scope node with
  | none => simp [hdeclared] at hshape
  | some found => simpa [hdeclared] using hshape.symm

theorem self_or_child_of_content {inner : Tree} (h : Building.content? node = some inner) :
    inner = node ∨ Child node inner := by
  rcases Option.or_eq_some_iff.1 h with h | ⟨_, h⟩
  · exact .inr (child_of_element? h)
  · split at h
    · exact .inl (Option.some.inj h).symm
    · cases h

theorem namedType_ne_object (name : String) (derived : Derived Draft) :
    (namedType scope name).value ≠ .object derived := by
  simp only [namedType, Noted.value_bind, Noted.value_pure]
  split <;> simp

theorem simpleType_ne_object (derived : Derived Draft) :
    (simpleType scope node).value ≠ .object derived := by
  unfold simpleType
  split
  · split
    · exact namedType_ne_object _ derived
    · simp
  · simp

theorem content_of_elementType {derived : Derived Draft}
    (h : (elementType groups depth scope node).result = .ok (.object derived)) :
    ∃ inner, Building.content? node = some inner ∧
      (complexType groups depth scope inner).result = .ok derived := by
  rw [elementType_eq] at h
  unfold Building.content?
  split at h
  · exact absurd (Except.ok.inj h) (namedType_ne_object _ derived)
  · next htype =>
    split at h
    · next inner hinner =>
      obtain ⟨found, hfound, h⟩ := Outcome.result_bind_eq_ok.1 h
      obtain rfl := Draft.object.inj (Except.ok.inj h)
      exact ⟨inner, by simp [hinner], hfound⟩
    · next hinner =>
      split at h
      · next hsequence =>
        obtain ⟨found, hfound, h⟩ := Outcome.result_bind_eq_ok.1 h
        obtain rfl := Draft.object.inj (Except.ok.inj h)
        exact ⟨node, by simp [hinner, htype, hsequence], hfound⟩
      · exact absurd (Except.ok.inj h) (simpleType_ne_object derived)

theorem content_of_element {e : String × Member Draft} {derived : Derived Draft}
    (h : (element groups depth scope node).result = .ok [e]) (htype : e.2.type = .object derived) :
    ∃ inner, Building.content? node = some inner ∧
      (complexType groups depth scope inner).result = .ok derived := by
  rw [element] at h
  split at h
  · obtain ⟨rfl, -⟩ := List.cons.inj (Except.ok.inj h)
    cases htype
  · split at h
    · cases h
    · obtain ⟨draft, hdraft, h⟩ := Outcome.result_bind_eq_ok.1 h
      obtain ⟨rfl, -⟩ := List.cons.inj (Except.ok.inj h)
      obtain rfl : draft = .object derived := htype
      exact content_of_elementType hdraft

end SoapComponents.Content
