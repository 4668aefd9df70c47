import SoapComponents.Proofs.Table
import SoapComponents.Reference.Session

/-!
Looking up references, by the index and by going through all entries. The index of local names has
the keys of a graph in their order, so a lookup finds what a scan finds; and a session, whatever it
was used for before, finds what the catalog finds, and tells once of each local name that several
entries share.
-/

set_option autoImplicit false

namespace SoapComponents

theorem NameIndex.value?_ofKeys (keys : List String) (base : String) :
    (Table.value? (ofKeys keys) base).getD [] =
      keys.filter fun key => Name.localPart key == base := by
  have hfold : ∀ index : NameIndex,
      (Table.value? (keys.foldl (fun index key => index.put (Name.localPart key)
          ((index.value? (Name.localPart key)).getD [] ++ [key])) index) base).getD [] =
        (Table.value? index base).getD [] ++ keys.filter fun key => Name.localPart key == base := by
    induction keys with
    | nil => simp
    | cons key rest ih =>
      intro index
      rw [List.foldl_cons, ih, Table.value?_put]
      by_cases hbase : Name.localPart key = base
      · simp [hbase]
      · simp [hbase, Ne.symm hbase]
  simpa [ofKeys, Table.value?] using hfold []

def Found.pair (found : Found) : EntryName × TypeNode := (found.entry, found.node)

namespace TypeGraph

def candidates (g : TypeGraph) (base : String) (excluded : List EntryName) (kind : EntryKind) :
    List String :=
  (g.entries kind).keys.filter fun key => Name.localPart key == base && ⟨kind, key⟩ ∉ excluded

def HasExact (g : TypeGraph) (q : Query) : Prop :=
  (q.ref ∈ g.elements.keys ∧ ⟨.elements, q.ref⟩ ∉ q.excluded) ∨
    (q.ref ∈ g.complexTypes.keys ∧ ⟨.complexTypes, q.ref⟩ ∉ q.excluded)

instance (g : TypeGraph) (q : Query) : Decidable (g.HasExact q) :=
  inferInstanceAs (Decidable (_ ∨ _))

/-- What a search by local name has to choose from: the entries of the first kind that has any. A
name that an entry has exactly is not searched for. -/
def choices (g : TypeGraph) (q : Query) : List String :=
  let elements := g.candidates (Name.localPart q.ref) q.excluded .elements
  let types := g.candidates (Name.localPart q.ref) q.excluded .complexTypes
  if g.HasExact q then []
  else if q.preferTypes then (if types = [] then elements else types)
  else if elements = [] then types else elements

def Ambiguous (g : TypeGraph) (q : Query) : Prop := 1 < (g.choices q).length

instance (g : TypeGraph) (q : Query) : Decidable (g.Ambiguous q) :=
  inferInstanceAs (Decidable (_ < _))

def first? (g : TypeGraph) (p : String → Bool) (excluded : List EntryName) (kind : EntryKind) :
    Option (EntryName × TypeNode) :=
  (List.find? (fun e => p e.1 && ⟨kind, e.1⟩ ∉ excluded) (g.entries kind)).map fun e =>
    (⟨kind, e.1⟩, e.2)

variable {g : TypeGraph} {q : Query}

theorem findSome?_searchOrder {α : Type} (preferTypes : Bool) (f : EntryKind → Option α) :
    (searchOrder preferTypes).findSome? f =
      if preferTypes then (f .complexTypes).or (f .elements)
      else (f .elements).or (f .complexTypes) := by
  cases preferTypes with
  | false =>
    rw [searchOrder, if_neg Bool.false_ne_true, List.findSome?_cons, List.findSome?_singleton]
    cases f .elements <;> rfl
  | true =>
    rw [searchOrder, if_pos rfl, List.findSome?_cons, List.findSome?_singleton]
    cases f .complexTypes <;> rfl

theorem scan_eq (g : TypeGraph) (ref : String) (preferTypes : Bool) (excluded : List EntryName) :
    g.scan ref preferTypes excluded =
      ((searchOrder preferTypes).findSome? (g.first? (· == ref) excluded)).or
        ((searchOrder preferTypes).findSome?
          (g.first? (Name.localPart · == Name.localPart ref) excluded)) := by
  rw [findSome?_searchOrder, findSome?_searchOrder]
  rfl

theorem keys_types (g : TypeGraph) : (g.entries .complexTypes).keys = g.complexTypes.keys := by
  simp [entries, Table.keys]

theorem named_catalog (g : TypeGraph) (kind : EntryKind) (base : String) :
    g.catalog.named kind base =
      (g.entries kind).keys.filter fun key => Name.localPart key == base := by
  cases kind with
  | elements => exact NameIndex.value?_ofKeys _ base
  | complexTypes =>
    rw [keys_types]
    exact NameIndex.value?_ofKeys _ base

theorem map_entryAt? (g : TypeGraph) (ref : String) (excluded : List EntryName)
    (kind : EntryKind) :
    (g.catalog.entryAt? ref excluded kind).map Found.pair = g.first? (· == ref) excluded kind := by
  have hfind : List.find? (fun e => e.1 == ref && ⟨kind, e.1⟩ ∉ excluded) (g.entries kind) =
      if ⟨kind, ref⟩ ∈ excluded then none else ((g.entries kind).value? ref).map (ref, ·) := by
    rw [← Table.find?_key]
    split
    · next hexcluded =>
      refine List.find?_eq_none.2 fun e _ => ?_
      simp only [Bool.and_eq_true, beq_iff_eq, decide_eq_true_eq, not_and, not_not]
      exact fun heq => heq ▸ hexcluded
    · next hexcluded =>
      congr 1
      funext e
      by_cases heq : e.1 = ref <;> simp [heq, hexcluded]
  have hgraph : (g.catalog.graph.entries kind).value? ref = (g.entries kind).value? ref := rfl
  rw [first?, hfind, Catalog.entryAt?, hgraph]
  cases (g.entries kind).value? ref with
  | none => simp
  | some node => by_cases hexcluded : ⟨kind, ref⟩ ∈ excluded <;> simp [hexcluded, Found.pair]

theorem entryAt?_isSome (g : TypeGraph) (ref : String) (excluded : List EntryName)
    (kind : EntryKind) : (g.catalog.entryAt? ref excluded kind).isSome = true ↔
      ref ∈ (g.entries kind).keys ∧ ⟨kind, ref⟩ ∉ excluded := by
  have hgraph : (g.catalog.graph.entries kind).value? ref = (g.entries kind).value? ref := rfl
  rw [Catalog.entryAt?, hgraph, ← Table.holds_iff_mem_keys, Table.holds]
  cases (g.entries kind).value? ref with
  | none => simp
  | some node => by_cases hexcluded : ⟨kind, ref⟩ ∈ excluded <;> simp [hexcluded]

theorem filter_named (g : TypeGraph) (base : String) (excluded : List EntryName)
    (kind : EntryKind) :
    (g.catalog.named kind base).filter (fun key => ⟨kind, key⟩ ∉ excluded) =
      g.candidates base excluded kind := by
  rw [named_catalog, List.filter_filter, candidates]
  simp only [Bool.and_comm]

/-- What a search by local name finds of one kind: the first candidate, with all candidates for
rivals if there is more than one. -/
theorem named?_eq (g : TypeGraph) (base : String) (excluded : List EntryName) (kind : EntryKind) :
    (g.catalog.named? base excluded kind).map Found.pair =
        g.first? (Name.localPart · == base) excluded kind ∧
      (g.catalog.named? base excluded kind).map Found.rivals =
        match g.candidates base excluded kind with
        | [] => none
        | [_] => some []
        | several => some several := by
  have hhead := Table.head?_filter_keys (g.entries kind)
    fun key => Name.localPart key == base && ⟨kind, key⟩ ∉ excluded
  have hgraph : ∀ key, (g.catalog.graph.entries kind).value? key = (g.entries kind).value? key :=
    fun _ => rfl
  unfold Catalog.named? first?
  rw [filter_named]
  rw [← candidates] at hhead
  cases hkeys : g.candidates base excluded kind with
  | nil =>
    rw [hkeys, List.head?_nil] at hhead
    rw [Option.map_eq_none_iff.1 hhead.symm]
    exact ⟨rfl, rfl⟩
  | cons key others =>
    rw [hkeys, List.head?_cons] at hhead
    obtain ⟨e, he, rfl⟩ := Option.map_eq_some_iff.1 hhead.symm
    have hvalue := Table.value?_of_find?
      (fun key => Name.localPart key == base && ⟨kind, key⟩ ∉ excluded) he
    rw [he]
    simp only [hgraph, hvalue, Option.map_some]
    refine ⟨rfl, ?_⟩
    cases others <;> rfl

theorem exactly?_eq_none : g.catalog.exactly? q = none ↔ ¬ g.HasExact q := by
  have hkind : ∀ kind, g.catalog.entryAt? q.ref q.excluded kind = none ↔
      ¬ (q.ref ∈ (g.entries kind).keys ∧ ⟨kind, q.ref⟩ ∉ q.excluded) := fun kind => by
    rw [← entryAt?_isSome, Option.isSome_iff_ne_none, not_not]
  have helements := hkind .elements
  have htypes := hkind .complexTypes
  rw [keys_types] at htypes
  rw [Catalog.exactly?, findSome?_searchOrder, HasExact, not_or]
  change _ ↔ ¬ (q.ref ∈ (g.entries .elements).keys ∧ _) ∧ _
  rw [← helements, ← htypes]
  split <;> simp [Option.or_eq_none_iff, and_comm]

theorem rivals_or (g : TypeGraph) (base : String) (excluded : List EntryName) (kind : EntryKind)
    {other : Option Found} {others : List String}
    (hother : other.elim [] Found.rivals = if 1 < others.length then others else []) :
    let own := g.candidates base excluded kind
    let chosen := if own = [] then others else own
    ((g.catalog.named? base excluded kind).or other).elim [] Found.rivals =
      if 1 < chosen.length then chosen else [] := by
  have hrivals := (named?_eq g base excluded kind).2
  cases hown : g.candidates base excluded kind with
  | nil =>
    rw [hown] at hrivals
    rw [Option.map_eq_none_iff.1 hrivals]
    exact hother
  | cons key rest =>
    rw [hown] at hrivals
    cases rest with
    | nil =>
      obtain ⟨found, hfound, hnone⟩ := Option.map_eq_some_iff.1 hrivals
      simp [hfound, hnone]
    | cons second more =>
      obtain ⟨found, hfound, hall⟩ := Option.map_eq_some_iff.1 hrivals
      simp [hfound, hall]

theorem rivals_eq (h : ¬ g.HasExact q) :
    (g.catalog.byName? q (Name.localPart q.ref)).elim [] Found.rivals =
      if g.Ambiguous q then g.choices q else [] := by
  have hlast : ∀ kind,
      (g.catalog.named? (Name.localPart q.ref) q.excluded kind).elim [] Found.rivals =
        if 1 < (g.candidates (Name.localPart q.ref) q.excluded kind).length then
          g.candidates (Name.localPart q.ref) q.excluded kind
        else [] := by
    intro kind
    have hnone := @rivals_or g (Name.localPart q.ref) q.excluded kind none [] rfl
    dsimp only at hnone
    rw [Option.or_none] at hnone
    rw [hnone]
    by_cases hown : g.candidates (Name.localPart q.ref) q.excluded kind = [] <;> simp [hown]
  rw [Catalog.byName?, findSome?_searchOrder]
  simp only [Ambiguous, choices, if_neg h]
  split
  · exact g.rivals_or _ _ _ (hlast .elements)
  · exact g.rivals_or _ _ _ (hlast .complexTypes)

theorem lookup_pair (g : TypeGraph) (q : Query) :
    (g.catalog.lookup q.ref q.preferTypes q.excluded).map Found.pair =
      g.scan q.ref q.preferTypes q.excluded := by
  rw [scan_eq, Catalog.lookup, Option.map_or, Catalog.exactly?, Catalog.byName?,
    List.map_findSome?, List.map_findSome?]
  congr 2
  · funext kind
    exact map_entryAt? g q.ref q.excluded kind
  · funext kind
    exact (named?_eq g (Name.localPart q.ref) q.excluded kind).1

/-- What is told of a lookup that is made after others: that several entries share the local name,
if it is searched for and this was not the outcome of a search for the same name before. -/
def warning (g : TypeGraph) (earlier : List Query) (q : Query) : List Notice :=
  if g.Ambiguous q ∧
      ∀ p ∈ earlier, g.Ambiguous p → Name.localPart p.ref ≠ Name.localPart q.ref then
    [.ambiguous q.ref (Name.localPart q.ref) (g.choices q)]
  else []

/-- What is told of lookups that are made one after the other. -/
def warnings (g : TypeGraph) (earlier : List Query) : List Query → List Notice
  | [] => []
  | q :: rest => g.warning earlier q ++ g.warnings (earlier ++ [q]) rest

theorem warnings_append (g : TypeGraph) (earlier made more : List Query) :
    g.warnings earlier (made ++ more) =
      g.warnings earlier made ++ g.warnings (earlier ++ made) more := by
  induction made generalizing earlier with
  | nil => simp [warnings]
  | cons q rest ih => simp [warnings, ih]

end TypeGraph

/-- The local name of which a notice tells that several entries share it. -/
def Notice.sharedName? : Notice → Option String
  | ambiguous _ name _ => some name
  | _ => none

namespace TypeGraph

theorem warnings_nodup (g : TypeGraph) (earlier made : List Query) :
    ((g.warnings earlier made).filterMap Notice.sharedName?).Nodup ∧
      ∀ name ∈ (g.warnings earlier made).filterMap Notice.sharedName?,
        ∀ p ∈ earlier, g.Ambiguous p → Name.localPart p.ref ≠ name := by
  induction made generalizing earlier with
  | nil => simp [warnings]
  | cons q rest ih =>
    obtain ⟨hnodup, hnew⟩ := ih (earlier ++ [q])
    have hrest : ∀ name ∈ (g.warnings (earlier ++ [q]) rest).filterMap Notice.sharedName?,
        ∀ p ∈ earlier, g.Ambiguous p → Name.localPart p.ref ≠ name :=
      fun name hname p hp => hnew name hname p (List.mem_append_left _ hp)
    rw [warnings, List.filterMap_append, warning]
    split
    · next hfirst =>
      have hq : Name.localPart q.ref ∉
          (g.warnings (earlier ++ [q]) rest).filterMap Notice.sharedName? :=
        fun hname => hnew _ hname q (List.mem_append_right _ List.mem_cons_self) hfirst.1 rfl
      refine ⟨List.nodup_cons.2 ⟨hq, hnodup⟩, fun name hname => ?_⟩
      rcases List.mem_cons.1 hname with rfl | hname
      · exact hfirst.2
      · exact hrest name hname
    · exact ⟨hnodup, hrest⟩

end TypeGraph

end SoapComponents
