import SoapComponents.Reference.Session

/-!
Following references in a session. Whatever it was used for before, as long as the local names that
it remembers are right, a chain comes to what the catalog says that it comes to; and since every
entry on it is an element, and none comes twice, that takes a lookup for every element and one more
at most.
-/

set_option autoImplicit false

namespace SoapComponents

namespace Session

/-- The local names that a session remembers are right. -/
def Remembers (s : Session) : Prop :=
  ∀ name base, s.splits.value? name = some base → base = Name.localPart name

variable {s : Session}

theorem Remembers.empty : Remembers {} := fun _ _ h => by cases h

theorem Remembers.split (h : s.Remembers) (name : String) :
    ∃ splits, s.split name = (Name.localPart name, { s with splits := splits }) ∧
      Remembers { s with splits := splits } := by
  unfold Session.split
  split
  · next base hbase =>
    obtain rfl := h _ _ hbase
    exact ⟨s.splits, rfl, h⟩
  · refine ⟨_, rfl, fun other base hbase => ?_⟩
    rw [Table.value?_put] at hbase
    split at hbase
    · next heq =>
      subst heq
      exact (Option.some.inj hbase).symm
    · exact h _ _ hbase

theorem report_keeps (s : Session) (ref base : String) (rivals : List String) :
    (s.report ref base rivals).splits = s.splits ∧ (s.report ref base rivals).made = s.made := by
  unfold report
  split <;> exact ⟨rfl, rfl⟩

theorem Remembers.lookup (h : s.Remembers) (c : Catalog) (q : Query) :
    ∃ s', s.lookup c q = (c.lookup q.ref q.preferTypes q.excluded, s') ∧ s'.Remembers ∧
      s'.made = s.made ++ [q] := by
  have hlookup : c.lookup q.ref q.preferTypes q.excluded =
      (c.exactly? q).or (c.byName? q (Name.localPart q.ref)) := rfl
  rw [hlookup, Session.lookup]
  cases c.exactly? q with
  | some found => exact ⟨_, rfl, h, rfl⟩
  | none =>
    obtain ⟨splits, hsplit, hs⟩ := h.split q.ref
    simp only [hsplit, Option.none_or]
    cases c.byName? q (Name.localPart q.ref) with
    | none => exact ⟨_, rfl, hs, rfl⟩
    | some found =>
      obtain ⟨hsplits, hmade⟩ := report_keeps ({ s with splits := splits }.note q) q.ref
        (Name.localPart q.ref) found.rivals
      refine ⟨_, rfl, ?_, hmade⟩
      unfold Remembers
      rw [hsplits]
      exact hs

/-- What holds of a session whose local names are right, and stays true however a catalog is used
in it. -/
structure Kept (c : Catalog) (P : Session → Prop) : Prop where
  remembers : ∀ s, P s → s.Remembers
  split : ∀ s name, P s → P (s.split name).2
  lookup : ∀ s q, P s → P (s.lookup c q).2
  unwrap : ∀ s target name wrapper, P s → P (s.hear (c.unwrap target name wrapper)).2

theorem kept_remembers (c : Catalog) : Kept c Remembers where
  remembers _ h := h
  split s name h := by
    obtain ⟨splits, hsplit, hs⟩ := h.split name
    rw [hsplit]
    exact hs
  lookup s q h := by
    obtain ⟨s', hlookup, hs, -⟩ := h.lookup c q
    rw [hlookup]
    exact hs
  unwrap _ _ _ _ h := h

variable {c : Catalog} {P : Session → Prop}

theorem Kept.finds (hkept : Kept c P) (h : P s) (q : Query) :
    ∃ s', s.lookup c q = (c.lookup q.ref q.preferTypes q.excluded, s') ∧ P s' ∧
      s'.made.length = s.made.length + 1 := by
  obtain ⟨s', hlookup, -, hmade⟩ := (hkept.remembers s h).lookup c q
  have hs := hkept.lookup s q h
  rw [hlookup] at hs
  exact ⟨s', hlookup, hs, by simp [hmade]⟩

/-- A chain is followed to the end to which the catalog follows it: each of the lookups but the last
one finds an element that was not on it. -/
theorem Kept.follow (hkept : Kept c P) (h : P s) (origin : String) (q : Query)
    (wrapper : Option Reference) :
    ∃ s', s.follow c origin q wrapper = ((c.finder.follow origin q wrapper).value, s') ∧ P s' ∧
      s'.made.length ≤ s.made.length + (remaining c.elementEntries q.excluded + 1) := by
  refine c.follow_induction origin (motive := fun q wrapper x => ∀ s : Session, P s →
    ∃ s', s.follow c origin q wrapper = (x.value, s') ∧ P s' ∧
      s'.made.length ≤ s.made.length + (remaining c.elementEntries q.excluded + 1))
    ?missing ?found q wrapper s h
  case missing =>
    intro q wrapper hnone s h
    obtain ⟨s₁, hlookup, hs, hcount⟩ := hkept.finds h q
    exact ⟨s₁, follow_of_none (hlookup.trans (by rw [hnone])), hs, by omega⟩
  case found =>
    intro q wrapper found hfound ih s h
    obtain ⟨s₁, hlookup, hs, hcount⟩ := hkept.finds h q
    rw [follow_of_found (hlookup.trans (by rw [hfound])), Noted.value_bind]
    unfold Finder.goOn
    cases hnext : found.onward origin wrapper with
    | ends r => exact ⟨s₁, rfl, hs, by omega⟩
    | circle pointer => exact ⟨_, rfl, hkept.unwrap s₁ _ _ _ hs, by dsimp only [hear]; omega⟩
    | next pointer =>
      have hfinds := Catalog.finds_of_lookup hfound
      -- what was found is an element that was not on the chain, so fewer are left for the rest
      have hless := remaining_cons_lt
        (Catalog.mem_elementEntries hfinds (Found.leads hnext).1) hfinds.unseen
      obtain ⟨s₂, hfollow, hs₂, hrest⟩ := ih pointer hnext s₁ hs
      exact ⟨s₂, hfollow, hs₂, by dsimp only at hrest; omega⟩

theorem Kept.resolve (hkept : Kept c P) (h : P s) (ref : String) :
    ∃ s', s.resolve c ref = ((c.resolve ref).value, s') ∧ P s' ∧
      s'.made.length ≤ s.made.length + (c.graph.elements.length + 1) := by
  obtain ⟨splits, hsplit, -⟩ := (hkept.remembers s h).split ref
  have hs := hkept.split s ref h
  rw [hsplit] at hs
  rw [resolve_eq, hsplit, Catalog.resolve_eq]
  dsimp only
  split
  · exact ⟨_, rfl, hs, Nat.le_add_right _ _⟩
  · obtain ⟨s', hfollow, hs', hcount⟩ := hkept.follow hs (Name.localPart ref) ⟨ref, false, []⟩ none
    have hlength : remaining c.elementEntries [] ≤ c.graph.elements.length :=
      Nat.le_trans List.countP_le_length (by simp [Catalog.elementEntries, Table.keys])
    exact ⟨s', hfollow, hs', by dsimp only at hcount; omega⟩

theorem resolve_ends (c : Catalog) (hs : s.Remembers) (ref : String) :
    (s.resolve c ref).1 = (c.resolve ref).value ∧
      (s.resolve c ref).2.made.length ≤ s.made.length + (c.graph.elements.length + 1) := by
  obtain ⟨s', hresolve, -, hcount⟩ := (kept_remembers c).resolve hs ref
  rw [hresolve]
  exact ⟨rfl, hcount⟩

end Session

end SoapComponents
