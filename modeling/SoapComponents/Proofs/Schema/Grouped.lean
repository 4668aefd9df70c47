import SoapComponents.Proofs.Schema.Depth
import SoapComponents.Proofs.Schema.Readings

/-!
References to groups. Where every group that a type leads to is known by its exact name, more
groups, or the same in another order, make no difference to how the type is read; nor does another
scope in which the names that are written mean the same.
-/

set_option autoImplicit false

namespace SoapComponents

namespace Tree

mutual

def groupReferences : Tree → List String
  | text _ => []
  | node entries => groupReferencesIn entries
  | many items => groupReferencesAmong items

def groupReferencesIn : List (String × Tree) → List String
  | [] => []
  | (key, t) :: rest =>
    (if matchesTag key "group" then (t.items.filterMap asElement?).filterMap (·.given? "ref")
      else []) ++ (groupReferences t ++ groupReferencesIn rest)

def groupReferencesAmong : List Tree → List String
  | [] => []
  | t :: rest => groupReferences t ++ groupReferencesAmong rest

end

variable {t inner : Tree} {tag : String}

theorem subset_groupReferencesIn {entries : List (String × Tree)} {e : String × Tree}
    (h : e ∈ entries) : e.2.groupReferences ⊆ groupReferencesIn entries := by
  induction entries with
  | nil => cases h
  | cons first rest ih =>
    obtain ⟨key, t⟩ := first
    simp only [groupReferencesIn]
    rcases List.mem_cons.1 h with rfl | h
    · exact List.Subset.trans (List.subset_append_left _ _) (List.subset_append_right _ _)
    · exact List.Subset.trans (ih h)
        (List.Subset.trans (List.subset_append_right _ _) (List.subset_append_right _ _))

theorem subset_groupReferencesAmong {items : List Tree} (h : t ∈ items) :
    t.groupReferences ⊆ groupReferencesAmong items := by
  induction items with
  | nil => cases h
  | cons first rest ih =>
    simp only [groupReferencesAmong]
    rcases List.mem_cons.1 h with rfl | h
    · exact List.subset_append_left _ _
    · exact List.Subset.trans (ih h) (List.subset_append_right _ _)

theorem groupReferences_of_mem_items (h : inner ∈ t.items) :
    inner.groupReferences ⊆ t.groupReferences := by
  cases t with
  | many items => exact subset_groupReferencesAmong h
  | text _ => exact List.mem_singleton.1 h ▸ List.Subset.refl _
  | node _ => exact List.mem_singleton.1 h ▸ List.Subset.refl _

theorem groupReferences_asElement? (h : t.asElement? = some inner) :
    inner.groupReferences ⊆ t.groupReferences := by
  unfold asElement? at h
  split at h
  · exact Option.some.inj h ▸ List.Subset.refl _
  · obtain rfl := Option.some.inj h
    simp [groupReferences, groupReferencesIn]
  · cases h

theorem groupReferences_of_mem_children (h : inner ∈ t.children tag) :
    inner.groupReferences ⊆ t.groupReferences := by
  obtain ⟨e, he, hinner⟩ := List.mem_flatMap.1 h
  split at hinner
  · obtain ⟨value, hvalue, helement⟩ := List.mem_filterMap.1 hinner
    cases t with
    | node entries =>
      exact List.Subset.trans (groupReferences_asElement? helement)
        (List.Subset.trans (groupReferences_of_mem_items hvalue) (subset_groupReferencesIn he))
    | text _ => cases he
    | many _ => cases he
  · cases hinner

theorem mem_groupReferences {ref : String} (h : inner ∈ t.children "group")
    (href : inner.given? "ref" = some ref) : ref ∈ t.groupReferences := by
  obtain ⟨e, he, hinner⟩ := List.mem_flatMap.1 h
  have hin : ∀ entries : List (String × Tree), e ∈ entries → ref ∈ groupReferencesIn entries := by
    intro entries hmem
    induction entries with
    | nil => cases hmem
    | cons first rest ih =>
      simp only [groupReferencesIn, List.mem_append]
      rcases List.mem_cons.1 hmem with rfl | hmem
      · refine .inl ?_
        split at hinner
        · next hmatches =>
          rw [if_pos hmatches]
          exact List.mem_filterMap.2 ⟨inner, hinner, href⟩
        · cases hinner
      · exact .inr (.inr (ih hmem))
  cases t with
  | node entries => exact hin entries he
  | text _ => cases he
  | many _ => cases he

end Tree

namespace Groups

/-- Every group that is referred to inside a node is known by its exact name. -/
def Covers (groups : Groups) (scope : Scope) (t : Tree) : Prop :=
  ∀ ref ∈ t.groupReferences, (scope.qualify ref).value ∈ Table.keys groups

def Closed (groups : Groups) : Prop := ∀ e ∈ groups, groups.Covers e.2.2 e.2.1

/-- The groups are known to others as they are. -/
def Within (groups others : Groups) : Prop :=
  ∀ key found, groups.value? key = some found → others.value? key = some found

variable {groups others : Groups} {scope : Scope} {t inner : Tree}

theorem Covers.of_subset (h : groups.Covers scope t)
    (hsub : inner.groupReferences ⊆ t.groupReferences) : groups.Covers scope inner :=
  fun ref href => h ref (hsub href)

theorem Within.keys_subset (h : groups.Within others) : Table.keys groups ⊆ Table.keys others := by
  intro key hkey
  obtain ⟨found, hfound⟩ := Option.isSome_iff_exists.1 (Table.holds_iff_mem_keys.2 hkey)
  exact Table.mem_keys_of_value? (h key found hfound)

theorem Covers.mono (h : groups.Covers scope t) (hwithin : groups.Within others) :
    others.Covers scope t :=
  fun ref href => hwithin.keys_subset (h ref href)

theorem find?_of_value? {key base : String} {found : Tree × Scope}
    (h : groups.value? key = some found) : groups.find? key base = some (key, found) := by
  simp [find?, h]

end Groups

def Tree.Writes (t : Tree) (written : String) : Prop :=
  ∃ node, t.Inside node ∧ ∃ name ∈ Content.namingAttributes, node.given? name = some written

def Scope.MeansAlike (scope scope' : Scope) (t : Tree) : Prop :=
  ∀ written, t.Writes written → (scope'.qualify written).value = (scope.qualify written).value

theorem Tree.Writes.of_child {t inner : Tree} {tag written : String}
    (hinner : inner ∈ t.children tag) (h : inner.Writes written) : t.Writes written := by
  obtain ⟨node, hnode, hwritten⟩ := h
  exact ⟨node, hnode.of_child hinner, hwritten⟩

theorem Tree.writes_of_given {t : Tree} {name written : String}
    (hname : name ∈ Content.namingAttributes) (h : t.given? name = some written) :
    t.Writes written := ⟨t, .self, name, hname, h⟩

def Tree.namesAll (p : String → Bool) (node : Tree) : Bool :=
  Content.namingAttributes.all fun name => (node.given? name).all p

theorem Tree.of_writes {t : Tree} {p : String → Bool} {written : String}
    (h : t.everywhere (Tree.namesAll p) = true) (hwritten : t.Writes written) :
    p written = true := by
  obtain ⟨node, hinside, name, hname, hgiven⟩ := hwritten
  have hnode := Tree.everywhere_of_inside h hinside
  cases node with
  | text _ => cases hgiven
  | many _ => cases hgiven
  | node entries =>
    have hnames := List.all_eq_true.1 (Bool.and_eq_true_iff.1 hnode).1 name hname
    simpa [hgiven] using hnames

theorem Scope.MeansAlike.of_child {scope scope' : Scope} {t inner : Tree} {tag : String}
    (h : scope.MeansAlike scope' t) (hinner : inner ∈ t.children tag) :
    scope.MeansAlike scope' inner :=
  fun written hwritten => h written (hwritten.of_child hinner)

namespace Content

variable {groups others : Groups} {depth : Nat} {scope scope' : Scope} {node : Tree}

/-- A node whose groups are covered, and the same node in a scope where its names mean the same. -/
structure Covered (groups : Groups) (d d' : Tree × Scope) : Prop where
  tree : d'.1 = d.1
  target : d'.2.target = d.2.target
  qualified : d'.2.qualified = d.2.qualified
  names : d.2.MeansAlike d'.2 d.1
  covers : groups.Covers d.2 d.1

def KnownAlike (groups others : Groups) : Prop :=
  ∀ key found, groups.value? key = some found →
    ∃ found', others.value? key = some found' ∧ Covered groups found found'

theorem covered_refl {d : Tree × Scope} (h : groups.Covers d.2 d.1) : Covered groups d d :=
  ⟨rfl, rfl, rfl, fun _ _ => rfl, h⟩

theorem Covered.child {d d' : Tree × Scope} (h : Covered groups d d') {tag : String} {c : Tree}
    (hc : c ∈ d.1.children tag) : Covered groups (c, d.2) (c, d'.2) :=
  ⟨rfl, h.target, h.qualified, h.names.of_child hc,
    h.covers.of_subset (Tree.groupReferences_of_mem_children hc)⟩

theorem knownAlike_of_within (hwithin : groups.Within others) (hclosed : groups.Closed) :
    KnownAlike groups others := fun key found hfound =>
  ⟨found, hwithin key found hfound, covered_refl (hclosed _ (Table.mem_of_value? hfound))⟩

theorem simulates_covered (hknown : KnownAlike groups others) :
    Simulates id groups others (Covered groups) := by
  rintro ⟨t, scope⟩ ⟨t', scope'⟩ h
  obtain rfl : t' = t := h.tree
  refine ⟨h.target, h.qualified, fun _ _ => rfl, fun name hname => ?_,
    fun tag _ => List.forall₂_same.2 fun c hc => h.child hc, List.forall₂_same.2 fun c hc => ?_,
    (List.map_id _).symm⟩
  · dsimp only
    cases hgiven : t'.given? name with
    | none => exact .none
    | some written =>
      exact .some ⟨rfl, h.names written (Tree.writes_of_given hname hgiven), rfl⟩
  · refine ⟨h.child hc, fun ref ref' href href' => ?_⟩
    obtain rfl := Option.some.inj (href.symm.trans href')
    have hwritten : t'.Writes ref :=
      (Tree.writes_of_given (by simp [namingAttributes]) href).of_child hc
    obtain ⟨found, hfound⟩ := Option.isSome_iff_exists.1 (Table.holds_iff_mem_keys.2
      (h.covers ref (Tree.mem_groupReferences hc href)))
    obtain ⟨found', hfound', hcovered⟩ := hknown _ found hfound
    rw [← h.names ref hwritten] at hfound'
    rw [Groups.find?_of_value? hfound, Groups.find?_of_value? hfound']
    exact .some ⟨h.names ref hwritten, hcovered⟩

theorem result_complexType_covered (hknown : KnownAlike groups others) {d d' : Tree × Scope}
    (h : Covered groups d d') :
    (complexType others others.depthBound d'.2 d'.1).result =
      (complexType groups groups.depthBound d.2 d.1).result := by
  have hroom := Nat.le_max_left groups.depthBound others.depthBound
  have hroom' := Nat.le_max_right groups.depthBound others.depthBound
  rw [← result_complexType_of_depth hroom, ← result_complexType_of_depth hroom']
  exact result_complexType_eq (simulates_covered hknown) _ h

end Content

end SoapComponents
