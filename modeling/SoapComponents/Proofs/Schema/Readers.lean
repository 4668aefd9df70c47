import SoapComponents.Proofs.Outcome
import SoapComponents.Proofs.Table
import SoapComponents.Schema.Content

/-!
The readers of contents, one by one. Each is equal to what it reads at the children of its node, at
the groups that are referred to, and at the node itself in another role. What holds of all readings
is proved from smaller ones, and from those inside a group, which have less depth left.
-/

set_option autoImplicit false

namespace SoapComponents

theorem Groups.value?_of_find? {groups : Groups} {key base : String} {e : String × Tree × Scope}
    (h : groups.find? key base = some e) : groups.value? e.1 = some e.2 := by
  unfold Groups.find? at h
  split at h
  · next found hfound =>
    obtain rfl := Option.some.inj h
    exact hfound
  · exact Table.value?_of_find? (fun key => Name.localPart key == base) h

theorem Groups.mem_keys_of_find? {groups : Groups} {key base : String} {e : String × Tree × Scope}
    (h : groups.find? key base = some e) : e.1 ∈ Table.keys groups :=
  Table.mem_keys_of_value? (value?_of_find? h)

namespace Content

def derivation? (content : Tree) : Option Tree :=
  (content.element? "extension").or (content.element? "restriction")

def Child (node inner : Tree) : Prop := ∃ tag, inner ∈ node.children tag

section

variable {node inner : Tree}

theorem Child.weight_lt (h : Child node inner) : inner.weight < node.weight := by
  obtain ⟨tag, h⟩ := h
  exact Tree.weight_of_mem_children h

theorem child_of_element? {tag : String} (h : node.element? tag = some inner) : Child node inner :=
  ⟨tag, List.mem_of_mem_head? h⟩

theorem child_of_particle (h : inner ∈ particleTags.flatMap node.children) : Child node inner := by
  obtain ⟨tag, _, h⟩ := List.mem_flatMap.1 h
  exact ⟨tag, h⟩

theorem child_of_first (h : (particleTags.filterMap node.element?).head? = some inner) :
    Child node inner := by
  obtain ⟨tag, _, h⟩ := List.mem_filterMap.1 (List.mem_of_mem_head? h)
  exact child_of_element? h

theorem child_of_derivation {content derivation : Tree}
    (h : derivation? content = some derivation) : Child content derivation := by
  rcases Option.or_eq_some_iff.1 h with h | ⟨_, h⟩ <;> exact child_of_element? h

end

/-- An object type of the members that are read at a node. -/
def plainType (scope : Scope) (node : Tree) (members : List (String × Member Draft)) :
    Derived Draft := {
  type := {
    members := members
    space := scope.target
    qualified := some scope.qualified
    attributes := attributes node } }

def derivedType (scope : Scope) (node derivation : Tree) (members : List (String × Member Draft))
    (extended : Option String) : Derived Draft := {
  type := {
    members := members
    space := scope.target
    qualified := some scope.qualified
    base := derivation.given? "base"
    attributes := Table.putAll (attributes node) (attributes derivation) }
  extended := extended }

def simpleMembers (groups : Groups) (depth : Nat) (scope : Scope) (derivation : Tree) :
    Outcome (List (String × Member Draft)) :=
  match derivation.element? "sequence" with
  | some inner => particle groups depth scope inner
  | none => pure []

def simpleContent (groups : Groups) (depth : Nat) (scope : Scope) (node content : Tree) :
    Outcome (Derived Draft) :=
  match derivation? content with
  | none => pure (plainType scope node [])
  | some derivation => do
    let members ← simpleMembers groups depth scope derivation
    pure (derivedType scope node derivation members none)

def complexContent (groups : Groups) (depth : Nat) (scope : Scope) (node content : Tree) :
    Outcome (Derived Draft) :=
  match derivation? content with
  | none => pure (plainType scope node [])
  | some derivation => do
    let extended ← extendedType scope content derivation
    let nested ← (particleTags.flatMap derivation.children).mapM (particle groups depth scope)
    let grouped ← (derivation.children "group").mapM (group groups depth scope)
    pure (derivedType scope node derivation (nested.flatten ++ grouped.flatten) extended)

def contentless (scope : Scope) (node : Tree) : Outcome (Derived Draft) :=
  match strayKeys node with
  | [] => pure (plainType scope node [])
  | stray => throw (.strayChildren ((node.given? "name").getD "(anonymous)") stray)

theorem complexType_eq (groups : Groups) (depth : Nat) (scope : Scope) (node : Tree) :
    complexType groups depth scope node =
      match (particleTags.filterMap node.element?).head? with
      | some inner => plainType scope node <$> particle groups depth scope inner
      | none =>
      match node.element? "group" with
      | some inner => plainType scope node <$> group groups depth scope inner
      | none =>
      match node.element? "simpleContent" with
      | some content => simpleContent groups depth scope node content
      | none =>
      match node.element? "complexContent" with
      | some content => complexContent groups depth scope node content
      | none => contentless scope node := by
  rw [complexType]
  dsimp only
  split
  · next h => simp only [h]; rfl
  · next h =>
    simp only [h]
    split
    · next h => simp only [h]; rfl
    · next h =>
      simp only [h]
      split
      · next h =>
        simp only [h, simpleContent, derivation?]
        split
        · next h => simp only [h]; rfl
        · next h =>
          simp only [h, simpleMembers]
          split
          · next h => simp only [h]; rfl
          · next h => simp only [h]; rfl
      · next h =>
        simp only [h]
        split
        · next h =>
          simp only [h, complexContent, derivation?]
          split
          · next h => simp only [h]; rfl
          · next h =>
            simp only [h, Outcome.mapM_attach _ (particle groups depth scope),
              Outcome.mapM_attach _ (group groups depth scope)]
            rfl
        · next h =>
          simp only [h]
          rfl

theorem groupBody_eq (groups : Groups) (depth : Nat) (scope : Scope) (node : Tree) :
    groupBody groups depth scope node = (do
      let own ← (node.children "element").mapM (element groups depth scope)
      if !own.isEmpty then pure own.flatten
      else match (particleTags.flatMap node.children).head? with
        | some inner => particle groups depth scope inner
        | none => pure []) := by
  rw [groupBody]
  simp only [Outcome.mapM_attach _ (element groups depth scope)]
  congr 1
  funext own
  split
  · rfl
  · split <;> next h => simp only [h]

theorem elementType_eq (groups : Groups) (depth : Nat) (scope : Scope) (node : Tree) :
    elementType groups depth scope node =
      match node.given? "type" with
      | some name => liftM (namedType scope name)
      | none =>
      match node.element? "complexType" with
      | some inner => Draft.object <$> complexType groups depth scope inner
      | none =>
        if (node.element? "sequence").isSome then
          Draft.object <$> complexType groups depth scope node
        else liftM (simpleType scope node) := by
  rw [elementType]
  cases node.given? "type" with
  | some name => rfl
  | none =>
    dsimp only
    split <;> next h => simp only [h]; rfl

theorem particle_eq (groups : Groups) (depth : Nat) (scope : Scope) (node : Tree) :
    particle groups depth scope node = (do
      let nested ← (particleTags.flatMap node.children).mapM (particle groups depth scope)
      let grouped ← (node.children "group").mapM (group groups depth scope)
      let own ← (node.children "element").mapM (element groups depth scope)
      pure (nested.flatten ++ grouped.flatten ++ own.flatten)) := by
  rw [particle]
  simp only [Outcome.mapM_attach _ (particle groups depth scope),
    Outcome.mapM_attach _ (group groups depth scope),
    Outcome.mapM_attach _ (element groups depth scope)]

def referredGroup (groups : Groups) (depth : Nat) (key base : String) :
    Except Failure (List (String × Member Draft)) :=
  match groups.find? key base with
  | none => .ok []
  | some (_, definition, around) =>
    match depth with
    | 0 => .error .tooDeep
    | depth + 1 => (groupBody groups depth around definition).result

section

variable {groups : Groups} {depth : Nat} {scope : Scope} {node : Tree}

theorem referredGroup_of_none {key base : String} (h : groups.find? key base = none) :
    referredGroup groups depth key base = .ok [] := by
  rw [referredGroup, h]

theorem referredGroup_zero {key base : String} {e : String × Tree × Scope}
    (h : groups.find? key base = some e) :
    referredGroup groups 0 key base = .error .tooDeep := by
  rw [referredGroup, h]

theorem referredGroup_succ {key base : String} {e : String × Tree × Scope}
    (h : groups.find? key base = some e) :
    referredGroup groups (depth + 1) key base =
      (groupBody groups depth e.2.2 e.2.1).result := by
  rw [referredGroup, h]

theorem cases_of_referredGroup {key base : String} {entries : List (String × Member Draft)}
    (h : referredGroup groups depth key base = .ok entries) :
    (groups.find? key base = none ∧ entries = []) ∨
      ∃ e less, groups.find? key base = some e ∧ depth = less + 1 ∧
        (groupBody groups less e.2.2 e.2.1).result = .ok entries := by
  cases hfind : groups.find? key base with
  | none =>
    rw [referredGroup_of_none hfind] at h
    exact .inl ⟨rfl, (Except.ok.inj h).symm⟩
  | some e =>
    cases depth with
    | zero =>
      rw [referredGroup_zero hfind] at h
      cases h
    | succ less =>
      rw [referredGroup_succ hfind] at h
      exact .inr ⟨e, less, rfl, rfl, h⟩

theorem group_of_refless (h : node.given? "ref" = none) :
    group groups depth scope node = groupBody groups depth scope node := by
  rw [group]
  split
  · rfl
  · next ref hsome => cases h.symm.trans hsome

theorem result_group_of_ref {ref : String} (href : node.given? "ref" = some ref) :
    (group groups depth scope node).result =
      referredGroup groups depth (scope.qualify ref).value (Name.localPart ref) := by
  rw [group, referredGroup]
  split
  · next hnone => simp [href] at hnone
  · next other hother =>
    obtain rfl := Option.some.inj (href.symm.trans hother)
    rw [Outcome.result_bind, Outcome.result_liftM]
    dsimp only
    cases groups.find? (scope.qualify ref).value (Name.localPart ref) with
    | none => rfl
    | some e => cases depth <;> rfl

end

inductive Role where
  | particle
  | group
  | groupBody
  | element
  | elementType
  | complexType

/-- The reading of a node, in the scope of the schema that it is in. -/
structure Call where
  role : Role
  scope : Scope
  node : Tree

def Role.rank : Role → Nat
  | particle | groupBody | complexType => 0
  | group | elementType => 1
  | element => 2

def Call.size (c : Call) : Nat := 3 * c.node.weight + c.role.rank

/-- What holds of a reading if it holds of all smaller ones, and of all that have less depth left,
holds of all. -/
theorem induction_on_size {α : Type} (size : α → Nat) {M : Nat → α → Prop}
    (step : ∀ depth a, (∀ a', size a' < size a → M depth a') →
      (∀ less < depth, ∀ a', M less a') → M depth a)
    (depth : Nat) (a : α) : M depth a := by
  -- depth goes down where a group is opened; as long as none is, nodes get smaller
  induction depth using Nat.strongRecOn generalizing a with
  | _ depth ihdepth =>
    induction hw : size a using Nat.strongRecOn generalizing a with
    | _ w ihw =>
      subst hw
      exact step depth a (fun a' hsize => ihw (size a') hsize a' rfl) ihdepth

theorem Call.size_lt_of_weight {c c' : Call} (h : c'.node.weight < c.node.weight) :
    c'.size < c.size := by
  have hrank : c'.role.rank ≤ 2 := by cases c'.role <;> decide
  simp only [size]
  omega

end Content

end SoapComponents
