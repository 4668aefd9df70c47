import SoapComponents.Proofs.Reference.Chains
import SoapComponents.Proofs.Reference.Lookups

/-!
A catalog in use finds what it finds when it is used for the first time: what a session remembers is
never wrong, so nothing depends on it but how often something is told. Every use comes to an end,
also where elements point at each other in a circle, since no entry is found twice on one chain.
-/

set_option autoImplicit false

namespace SoapComponents

namespace Session

/-- What a session remembers is right: the local names of the names that were cut, and those of
which it was told that several entries share them. -/
structure Sound (g : TypeGraph) (s : Session) : Prop where
  remembers : s.Remembers
  reported : ∀ base,
    base ∈ s.reported ↔ ∃ q ∈ s.made, g.Ambiguous q ∧ Name.localPart q.ref = base
  told : s.log.filter (·.sharedName?.isSome) = g.warnings [] s.made

variable {g : TypeGraph} {s : Session}

theorem Sound.empty (g : TypeGraph) : Sound g {} where
  remembers := Remembers.empty
  reported _ := by simp
  told := rfl

theorem Sound.cut (h : Sound g s) {splits : Table String}
    (hs : Remembers { s with splits := splits }) : Sound g { s with splits := splits } :=
  ⟨hs, h.reported, h.told⟩

theorem Remembers.index (h : s.Remembers) (keys : List String) :
    ∃ splits, s.index keys = (NameIndex.ofKeys keys, { s with splits := splits }) ∧
      Remembers { s with splits := splits } := by
  have hfold : ∀ (index : NameIndex) (s : Session), s.Remembers → ∃ splits,
      keys.foldl addKey (index, s) =
        (keys.foldl (fun index key => index.put (Name.localPart key)
          ((index.value? (Name.localPart key)).getD [] ++ [key])) index,
          { s with splits := splits }) ∧
        Remembers { s with splits := splits } := by
    induction keys with
    | nil => exact fun index s h => ⟨s.splits, rfl, h⟩
    | cons key rest ih =>
      intro index s h
      obtain ⟨splits, hsplit, hs⟩ := h.split key
      simp only [List.foldl_cons, addKey, hsplit]
      exact ih _ _ hs
  exact hfold [] s h

theorem Remembers.catalog (h : s.Remembers) (g : TypeGraph) :
    ∃ splits, s.catalog g = (g.catalog, { s with splits := splits }) ∧
      Remembers { s with splits := splits } := by
  obtain ⟨elementSplits, helements, hs⟩ := h.index g.elements.keys
  obtain ⟨typeSplits, htypes, hs⟩ := hs.index g.complexTypes.keys
  refine ⟨typeSplits, ?_, hs⟩
  rw [Session.catalog, helements]
  simp only
  rw [htypes]
  rfl

theorem Sound.warning (h : Sound g s) (q : Query) :
    g.warning s.made q =
      if g.Ambiguous q ∧ Name.localPart q.ref ∉ s.reported then
        [.ambiguous q.ref (Name.localPart q.ref) (g.choices q)]
      else [] := by
  simp only [TypeGraph.warning, h.reported, not_exists, not_and, ne_eq]

theorem Sound.make (h : Sound g s) {q : Query} {s' : Session} (hsplits : s'.splits = s.splits)
    (hmade : s'.made = s.made ++ [q]) (hlog : s'.log = s.log ++ g.warning s.made q)
    (hreported : ∀ base, base ∈ s'.reported ↔
      base ∈ s.reported ∨ g.Ambiguous q ∧ Name.localPart q.ref = base) : Sound g s' where
  remembers name base hbase := h.remembers name base (hsplits ▸ hbase)
  reported base := by
    rw [hreported, h.reported, hmade]
    simp only [List.mem_append, List.mem_singleton, or_and_right, exists_or, exists_eq_left]
  told := by
    have hshared : (g.warning s.made q).filter (·.sharedName?.isSome) = g.warning s.made q := by
      unfold TypeGraph.warning
      split <;> rfl
    rw [hlog, List.filter_append, h.told, hshared, hmade, TypeGraph.warnings_append]
    simp [TypeGraph.warnings]

theorem Sound.report (h : Sound g s) (q : Query) :
    let s' := (s.note q).report q.ref (Name.localPart q.ref)
      (if g.Ambiguous q then g.choices q else [])
    Sound g s' ∧ s'.made = s.made ++ [q] ∧ s'.log = s.log ++ g.warning s.made q := by
  intro s'
  have hspec : s'.splits = s.splits ∧ s'.made = s.made ++ [q] ∧
      s'.log = s.log ++ g.warning s.made q ∧
      ∀ base, base ∈ s'.reported ↔
        base ∈ s.reported ∨ g.Ambiguous q ∧ Name.localPart q.ref = base := by
    rw [h.warning]
    by_cases hambiguous : g.Ambiguous q
    · have hchoices : g.choices q ≠ [] := List.ne_nil_of_length_pos (Nat.lt_of_succ_lt hambiguous)
      by_cases hbase : Name.localPart q.ref ∈ s.reported
      · have hs' : s' = s.note q := by simp [s', Session.report, hbase]
        refine hs' ▸ ⟨rfl, rfl, by simp [hbase], fun base => ⟨.inl, ?_⟩⟩
        rintro (hmem | ⟨-, rfl⟩)
        · exact hmem
        · exact hbase
      · have hs' : s' = { s with
            made := s.made ++ [q]
            reported := Name.localPart q.ref :: s.reported
            log := s.log ++ [.ambiguous q.ref (Name.localPart q.ref) (g.choices q)] } := by
          simp [s', Session.report, hbase, hambiguous, hchoices]
        refine hs' ▸ ⟨rfl, rfl, by simp [hbase, hambiguous], fun base => ?_⟩
        simp only [List.mem_cons, hambiguous, true_and]
        rw [or_comm, eq_comm]
    · have hs' : s' = s.note q := by simp [s', Session.report, hambiguous]
      exact hs' ▸ ⟨rfl, rfl, by simp [hambiguous], by simp [hambiguous]⟩
  obtain ⟨hsplits, hmade, hlog, hreported⟩ := hspec
  exact ⟨h.make hsplits hmade hlog hreported, hmade, hlog⟩

theorem Sound.lookup (h : Sound g s) (q : Query) :
    Sound g (s.lookup g.catalog q).2 ∧ (s.lookup g.catalog q).2.made = s.made ++ [q] ∧
      (s.lookup g.catalog q).2.log = s.log ++ g.warning s.made q := by
  rw [Session.lookup]
  cases hexact : g.catalog.exactly? q with
  | some found =>
    have hhas : g.HasExact q := by
      by_contra hnot
      cases hexact.symm.trans (TypeGraph.exactly?_eq_none.2 hnot)
    have hambiguous : ¬ g.Ambiguous q := by
      simp [TypeGraph.Ambiguous, TypeGraph.choices, hhas]
    have hwarning : g.warning s.made q = [] := if_neg fun hfirst => hambiguous hfirst.1
    refine ⟨h.make rfl rfl ?_ ?_, rfl, ?_⟩ <;> simp [hwarning, hambiguous]
  | none =>
    have hrivals := TypeGraph.rivals_eq (TypeGraph.exactly?_eq_none.1 hexact)
    obtain ⟨splits, hsplit, hs⟩ := h.remembers.split q.ref
    have hreport := (h.cut hs).report q
    rw [← hrivals] at hreport
    simp only [hsplit]
    cases hnamed : g.catalog.byName? q (Name.localPart q.ref) with
    | some found =>
      rw [hnamed] at hreport
      exact hreport
    | none =>
      rw [hnamed] at hreport
      exact hreport

theorem Sound.unwrap (h : Sound g s) (c : Catalog) (target name : String)
    (wrapper : Option Reference) : Sound g (s.hear (c.unwrap target name wrapper)).2 := by
  refine ⟨h.remembers, h.reported, ?_⟩
  have hnotices : (c.unwrap target name wrapper).notices.filter (·.sharedName?.isSome) = [] := by
    unfold Catalog.unwrap
    split <;> rfl
  change (s.log ++ _).filter _ = _
  rw [List.filter_append, hnotices, List.append_nil, h.told]
  rfl

theorem kept_sound (g : TypeGraph) : Kept g.catalog (Sound g) where
  remembers _ h := h.remembers
  split s name h := by
    obtain ⟨splits, hsplit, hs⟩ := h.remembers.split name
    rw [hsplit]
    exact h.cut hs
  lookup _ q h := (h.lookup q).1
  unwrap _ target name wrapper h := h.unwrap g.catalog target name wrapper

/-- The pointers of the elements that a reference is followed through, where it began with the local
name `origin`. A chain goes on behind an element that points neither at a built-in type nor at a
name that is `origin` in turn. -/
inductive OnChain (g : TypeGraph) (origin : String) : Query → Reference → Prop
  | here {q : Query} {entry : EntryName} {pointer : Reference} :
      g.scan q.ref q.preferTypes q.excluded = some (entry, .reference pointer) →
      OnChain g origin q pointer
  | next {q : Query} {entry : EntryName} {pointer later : Reference} :
      g.scan q.ref q.preferTypes q.excluded = some (entry, .reference pointer) →
      Name.isBuiltIn pointer.name = false → Name.localPart pointer.name ≠ origin →
      OnChain g origin ⟨pointer.name, true, entry :: q.excluded⟩ later → OnChain g origin q later

/-- What a reference comes to is stored under the key that comes with it; and it is found by going
in a circle only where an element on the way points at the name that the chain began with. -/
def Settled (g : TypeGraph) (origin : String) (q : Query) (r : Resolution) : Prop :=
  (∀ id, r.target = .object id →
      g.elements.value? r.key = some (.object id) ∨ g.complexTypes.value? r.key = some id) ∧
    (r.circular = true →
      (∃ pointer, OnChain g origin q pointer ∧ Name.localPart pointer.name = origin) ∧
        ∃ id, r.target = .object id ∧ g.complexTypes.value? r.key = some id)

theorem settled_primitive (origin : String) (q : Query) (name key : String)
    (wrapper : Option Reference) :
    Settled g origin q { target := .primitive name, key := key, wrapper := wrapper } :=
  ⟨fun _ hid => Target.noConfusion hid, fun hcircular => absurd hcircular Bool.false_ne_true⟩

theorem settled_of_unwrap {origin target name : String} {q : Query} {wrapper : Option Reference}
    {r : Resolution} {pointer : Reference} (hpointer : OnChain g origin q pointer)
    (horigin : Name.localPart pointer.name = origin)
    (h : (g.catalog.unwrap target name wrapper).value = some r) : Settled g origin q r := by
  unfold Catalog.unwrap at h
  split at h
  · cases h
  · next key _ =>
    simp only [Noted.value_bind, Noted.value_pure] at h
    obtain ⟨id, hid, rfl⟩ := Option.map_eq_some_iff.1 h
    refine ⟨fun id' hid' => ?_, fun _ => ⟨⟨pointer, hpointer, horigin⟩, id, rfl, hid⟩⟩
    obtain rfl := Target.object.inj hid'
    exact .inr hid

theorem settled_of_follow {origin : String} {q : Query} {wrapper : Option Reference}
    {r : Resolution} (h : (g.catalog.finder.follow origin q wrapper).value = some r) :
    Settled g origin q r := by
  refine g.catalog.follow_induction origin
    (motive := fun q _ x => x.value = some r → Settled g origin q r) ?missing ?found q wrapper h
  case missing =>
    intro q wrapper hnone h
    cases h
  case found =>
    intro q wrapper found hfound ih h
    have hscan := g.lookup_pair q
    rw [hfound, Option.map_some, Found.pair] at hscan
    rw [Noted.value_bind, Finder.goOn] at h
    split at h
    · next r' hends =>
      obtain rfl := Option.some.inj h
      obtain ⟨hkey, hcircular, hobject⟩ := Found.leads hends
      refine ⟨fun id hid => ?_, fun hcircle => by simp [hcircular] at hcircle⟩
      have hvalue := (Catalog.finds_of_lookup hfound).value
      rw [hobject id hid, ← hkey] at hvalue
      cases hkind : found.entry.kind with
      | elements =>
        rw [hkind] at hvalue
        exact .inl hvalue
      | complexTypes =>
        rw [hkind, Catalog.value?_typeEntries] at hvalue
        obtain ⟨_, htype, heq⟩ := Option.map_eq_some_iff.1 hvalue
        exact .inr (TypeNode.object.inj heq ▸ htype)
    · next pointer hcircle =>
      obtain ⟨hnode, horigin⟩ := Found.leads hcircle
      rw [hnode] at hscan
      exact settled_of_unwrap (.here hscan.symm) horigin h
    · next pointer hnext =>
      obtain ⟨hnode, hbuiltIn, horigin⟩ := Found.leads hnext
      rw [hnode] at hscan
      obtain ⟨hobject, hcircle⟩ := ih pointer hnext h
      refine ⟨hobject, fun hcircular => ?_⟩
      obtain ⟨⟨later, hlater, heq⟩, hid⟩ := hcircle hcircular
      exact ⟨⟨later, .next hscan.symm hbuiltIn horigin hlater, heq⟩, hid⟩

theorem settled_of_resolve {ref : String} {r : Resolution}
    (h : (g.catalog.resolve ref).value = some r) :
    Settled g (Name.localPart ref) ⟨ref, false, []⟩ r := by
  rw [Catalog.resolve_eq] at h
  split at h
  · obtain rfl := Option.some.inj h
    exact settled_primitive _ _ _ _ _
  · exact settled_of_follow h

theorem Kept.call {c : Catalog} {P : Session → Prop} (hkept : Kept c P) (h : P s) (x : Call) :
    P (Session.call c s x) := by
  cases x with
  | split name => exact hkept.split s name h
  | lookup q => exact hkept.lookup s q h
  | resolve ref =>
    obtain ⟨s', hresolve, hs, -⟩ := hkept.resolve h ref
    rw [Session.call, hresolve]
    exact hs

theorem run_sound (g : TypeGraph) (earlier : List String) (calls : List Call) :
    ∃ s, Session.run g earlier calls = (g.catalog, s) ∧ Sound g s := by
  have hearlier : Sound g (earlier.foldl (fun s name => (s.split name).2) {}) :=
    List.foldlRecOn earlier _ (Sound.empty g) fun s h name _ => (kept_sound g).split s name h
  obtain ⟨splits, hcatalog, hs⟩ := hearlier.remembers.catalog g
  refine ⟨_, by rw [Session.run, hcatalog], ?_⟩
  exact List.foldlRecOn calls _ (hearlier.cut hs) fun s h x _ => (kept_sound g).call h x

/-- Looking up by the index is looking at all entries one after the other, whatever a session was
used for before: an entry of exactly the name is taken first, and then the first one with the local
name. Of a local name that several entries share it is told once, when a search for it first has
more than one entry to choose from. -/
theorem lookup_eq_scan (g : TypeGraph) (earlier : List String) (calls : List Call) :
    ∃ s, Session.run g earlier calls = (g.catalog, s) ∧
      (∀ q, (s.lookup g.catalog q).1.map Found.pair = g.scan q.ref q.preferTypes q.excluded ∧
        (s.lookup g.catalog q).2.made = s.made ++ [q] ∧
        (s.lookup g.catalog q).2.log = s.log ++ g.warning s.made q) ∧
      s.log.filter (·.sharedName?.isSome) = g.warnings [] s.made ∧
      (s.log.filterMap Notice.sharedName?).Nodup := by
  obtain ⟨s, hrun, hs⟩ := run_sound g earlier calls
  refine ⟨s, hrun, fun q => ?_, hs.told, ?_⟩
  · obtain ⟨s', hlookup, -, -⟩ := hs.remembers.lookup g.catalog q
    obtain ⟨-, hmade, hlog⟩ := hs.lookup q
    exact ⟨by rw [hlookup, g.lookup_pair q], hmade, hlog⟩
  · have hfilter : s.log.filterMap Notice.sharedName? =
        (s.log.filter (·.sharedName?.isSome)).filterMap Notice.sharedName? := by
      rw [List.filterMap_filter]
      congr 1
      funext notice
      cases notice <;> rfl
    rw [hfilter, hs.told]
    exact (g.warnings_nodup [] s.made).1

/-- Following a reference ends with a built-in type or an object or nothing, after a lookup for
every element and one more at most, and comes to the same whatever a session was used for before. -/
theorem resolve_settled (g : TypeGraph) (earlier : List String) (calls : List Call) (ref : String) :
    ∃ s, Session.run g earlier calls = (g.catalog, s) ∧
      (s.resolve g.catalog ref).1 = (g.catalog.resolve ref).value ∧
      (s.resolve g.catalog ref).2.made.length ≤ s.made.length + (g.elements.length + 1) ∧
      ∀ r, (s.resolve g.catalog ref).1 = some r →
        Settled g (Name.localPart ref) ⟨ref, false, []⟩ r := by
  obtain ⟨s, hrun, hs⟩ := run_sound g earlier calls
  obtain ⟨s', hresolve, -, hcount⟩ := (kept_sound g).resolve hs ref
  refine ⟨s, hrun, ?_⟩
  rw [hresolve]
  exact ⟨rfl, hcount, fun r hr => settled_of_resolve hr⟩

end Session

end SoapComponents
