import Mathlib.Data.List.Nodup
import SoapComponents.Proofs.Prefix.Runs
import SoapComponents.Proofs.Table

/-!
Maps of namespaces: what they list, and what they bind with the prefixes of a run at hand. A map
that is backed by the prefixes of a run binds nothing but what these do, so it never meets a prefix
with two namespaces.
-/

set_option autoImplicit false

namespace SoapComponents

namespace NamespaceMap

def pairs (m : NamespaceMap) : List (String × String) := m.tags.flatMap fun e => e.2.map (e.1, ·)

structure WellListed (m : NamespaceMap) : Prop where
  proper : m.tags.Proper
  nodup : ∀ {r tags}, m.tags.value? r = some tags → tags.Nodup

theorem wellListed_of_tags_nil {m : NamespaceMap} (h : m.tags = []) : m.WellListed :=
  ⟨by simp [h, Table.Proper, Table.keys], by simp [h, Table.value?]⟩

theorem mem_pairs {m : NamespaceMap} (h : m.WellListed) {r tag : String} :
    (r, tag) ∈ m.pairs ↔ tag ∈ (m.tags.value? r).getD [] := by
  unfold pairs
  constructor
  · intro hm
    obtain ⟨e, he, hp⟩ := List.mem_flatMap.1 hm
    obtain ⟨t, ht, heq⟩ := List.mem_map.1 hp
    obtain ⟨rfl, rfl⟩ := Prod.mk.inj heq
    simpa [Table.value?_of_mem h.proper he] using ht
  · intro hm
    cases hv : m.tags.value? r with
    | none => simp [hv] at hm
    | some tags =>
      rw [hv, Option.getD_some] at hm
      exact List.mem_flatMap.2 ⟨_, Table.mem_of_value? hv, List.mem_map_of_mem hm⟩

theorem nodup_pairs {m : NamespaceMap} (h : m.WellListed) : m.pairs.Nodup := by
  unfold pairs
  refine List.nodup_flatMap.2 ⟨?_, ?_⟩
  · intro e he
    have hn := h.nodup (Table.value?_of_mem h.proper he)
    exact hn.map fun _ _ heq => (Prod.mk.inj heq).2
  · refine (List.pairwise_map.1 h.proper).imp ?_
    intro e f hne x hx hy
    obtain ⟨_, _, rfl⟩ := List.mem_map.1 hx
    obtain ⟨_, _, heq⟩ := List.mem_map.1 hy
    exact hne (Prod.mk.inj heq).1.symm

theorem value?_addTag (m : NamespaceMap) (r tag q : String) :
    (m.addTag r tag).tags.value? q =
      if q = r then
        some (if tag ∈ (m.tags.value? r).getD [] then (m.tags.value? r).getD []
          else (m.tags.value? r).getD [] ++ [tag])
      else m.tags.value? q :=
  Table.value?_put _ _ _ _

theorem WellListed.addTag {m : NamespaceMap} (h : m.WellListed) (r tag : String) :
    (m.addTag r tag).WellListed := by
  have hold : ((m.tags.value? r).getD []).Nodup := by
    cases hv : m.tags.value? r with
    | none => exact List.nodup_nil
    | some tags => exact h.nodup hv
  refine ⟨h.proper.put _ _, ?_⟩
  intro q tags hq
  rw [value?_addTag] at hq
  split at hq
  · obtain rfl := Option.some.inj hq
    split
    · exact hold
    · next hn =>
      refine List.nodup_append.2 ⟨hold, by simp, ?_⟩
      intro a ha b hb hab
      obtain rfl := List.mem_singleton.1 hb
      exact hn (hab ▸ ha)
  · exact h.nodup hq

theorem mem_pairs_addTag {m : NamespaceMap} (h : m.WellListed) {r tag : String}
    {e : String × String} : e ∈ (m.addTag r tag).pairs ↔ e = (r, tag) ∨ e ∈ m.pairs := by
  obtain ⟨q, t⟩ := e
  rw [mem_pairs (h.addTag r tag), mem_pairs h, value?_addTag, Prod.mk.injEq]
  by_cases hq : q = r
  · subst q
    simp only [if_true, Option.getD_some, true_and]
    split
    · next hm =>
      constructor
      · exact .inr
      · rintro (rfl | ht)
        · exact hm
        · exact ht
    · simp only [List.mem_append, List.mem_singleton]
      exact or_comm
  · simp [hq]

theorem WellListed.foldl_addTag {m : NamespaceMap} (h : m.WellListed)
    (es : List (String × String)) : (es.foldl (fun m e => m.addTag e.1 e.2) m).WellListed := by
  induction es generalizing m with
  | nil => exact h
  | cons e rest ih => exact ih (h.addTag e.1 e.2)

theorem mem_pairs_foldl_addTag {m : NamespaceMap} (h : m.WellListed)
    {es : List (String × String)} {e : String × String} :
    e ∈ (es.foldl (fun m e => m.addTag e.1 e.2) m).pairs ↔ e ∈ es ∨ e ∈ m.pairs := by
  induction es generalizing m with
  | nil => simp
  | cons first rest ih =>
    rw [List.foldl_cons, ih (h.addTag first.1 first.2), mem_pairs_addTag h, List.mem_cons]
    exact or_left_comm.trans or_assoc.symm

theorem foldl_addTag_keeps (es : List (String × String)) (m : NamespaceMap) :
    (es.foldl (fun m e => m.addTag e.1 e.2) m).spaces = m.spaces ∧
      (es.foldl (fun m e => m.addTag e.1 e.2) m).types = m.types ∧
      (es.foldl (fun m e => m.addTag e.1 e.2) m).basePrefix = m.basePrefix := by
  induction es generalizing m with
  | nil => exact ⟨rfl, rfl, rfl⟩
  | cons e rest ih => exact ih (m.addTag e.1 e.2)

theorem mem_keys_foldl_addTag {es : List (String × String)} {m : NamespaceMap} {r : String}
    (h : r ∈ (es.foldl (fun m e => m.addTag e.1 e.2) m).tags.keys) :
    r ∈ es.map Prod.fst ∨ r ∈ m.tags.keys := by
  induction es generalizing m with
  | nil => exact .inr h
  | cons e rest ih =>
    rcases ih h with hr | hr
    · exact .inl (List.mem_cons_of_mem _ hr)
    · rcases Table.mem_keys_put.1 hr with rfl | hr
      · exact .inl (by simp)
      · exact .inr hr

/-- Everything that the map says of a prefix is so in the run. No namespace in it is empty. -/
structure Backed (m : NamespaceMap) (p : Prefixes) : Prop where
  spaces : ∀ {r space}, m.spaces.value? r = some space →
    space ≠ "" ∧ p.bySpace.value? space = some r
  types : ∀ {key bound}, m.types.value? key = some bound →
    bound.space ≠ "" ∧ p.bySpace.value? bound.space = some bound.tagPrefix
  base : ∃ space, space ≠ "" ∧ p.bySpace.value? space = some m.basePrefix

theorem Backed.mono {m : NamespaceMap} {p q : Prefixes} (h : m.Backed p) (hpq : p.Extends q) :
    m.Backed q := by
  obtain ⟨space, hne, hs⟩ := h.base
  exact ⟨fun hr => ⟨(h.spaces hr).1, hpq.bySpace (h.spaces hr).2⟩,
    fun hk => ⟨(h.types hk).1, hpq.bySpace (h.types hk).2⟩, ⟨space, hne, hpq.bySpace hs⟩⟩

/-- Nothing that `m` says of a prefix or of a name is otherwise in `n`. -/
structure Extends (m n : NamespaceMap) : Prop where
  spaces : ∀ {r space}, m.spaces.value? r = some space → n.spaces.value? r = some space
  types : ∀ {key bound}, m.types.value? key = some bound → n.types.value? key = some bound
  base : n.basePrefix = m.basePrefix

theorem Extends.refl (m : NamespaceMap) : m.Extends m := ⟨id, id, rfl⟩

theorem Extends.trans {m n o : NamespaceMap} (hn : m.Extends n) (ho : n.Extends o) : m.Extends o :=
  ⟨fun h => ho.spaces (hn.spaces h), fun h => ho.types (hn.types h), ho.base.trans hn.base⟩

theorem Backed.register {m : NamespaceMap} {p : Prefixes} (h : m.Backed p) (hp : p.Sound)
    {r space : String} (hne : space ≠ "") (hr : p.bySpace.value? space = some r) :
    ∃ n, m.register r space = .ok n ∧ n.Backed p ∧ m.Extends n := by
  unfold NamespaceMap.register
  cases hv : m.spaces.value? r with
  | some old =>
    have hold : old = space := hp.space_unique (h.spaces hv).2 hr
    exact ⟨m, by simp [hold], h, .refl m⟩
  | none =>
    refine ⟨_, rfl, ⟨?_, h.types, h.base⟩, ⟨?_, id, rfl⟩⟩
    · intro q s hq
      rw [Table.value?_put] at hq
      split at hq
      · next heq =>
        obtain rfl := Option.some.inj hq
        exact ⟨hne, heq ▸ hr⟩
      · exact h.spaces hq
    · intro q s hq
      rw [Table.value?_put]
      split
      · next heq =>
        subst q
        simp [hv] at hq
      · exact hq

theorem types_register {m n : NamespaceMap} {r space : String} (h : m.register r space = .ok n) :
    n.types = m.types := by
  unfold register at h
  split at h
  · split at h
    · obtain rfl := Except.ok.inj h
      rfl
    · simp at h
  · obtain rfl := Except.ok.inj h
    rfl

theorem bindAll_of_holds {p : Prefixes} {m : NamespaceMap} {rs : List String}
    (h : ∀ r ∈ rs, m.spaces.holds r = true) : bindAll p m rs = .ok m := by
  induction rs with
  | nil => rfl
  | cons r rest ih =>
    simp only [bindAll, h r (by simp), if_true]
    exact ih fun q hq => h q (List.mem_cons_of_mem _ hq)

theorem foldl_tags_eq (tags : Table (List String)) (m : NamespaceMap) :
    tags.foldl (fun m e => e.2.foldl (fun m tag => m.addTag e.1 tag) m) m =
      (tags.flatMap fun e => e.2.map (e.1, ·)).foldl (fun m e => m.addTag e.1 e.2) m := by
  rw [List.foldl_flatMap]
  simp only [List.foldl_map]

section Merge

variable (m other : NamespaceMap)

def joined : NamespaceMap :=
  other.pairs.foldl (fun m e => m.addTag e.1 e.2)
    { m with spaces := Table.putAllNew m.spaces other.spaces }

theorem merge_eq :
    m.merge other =
      { m.joined other with types := Table.putAllNew (m.joined other).types other.types } := by
  unfold merge joined pairs
  rw [← foldl_tags_eq]

theorem spaces_merge (r : String) :
    (m.merge other).spaces.value? r = (m.spaces.value? r).or (other.spaces.value? r) := by
  rw [merge_eq]
  show (m.joined other).spaces.value? r = _
  rw [joined, (foldl_addTag_keeps _ _).1, Table.value?_putAllNew]

theorem types_merge (key : String) :
    (m.merge other).types.value? key = (m.types.value? key).or (other.types.value? key) := by
  rw [merge_eq]
  show (Table.putAllNew (m.joined other).types other.types).value? key = _
  rw [Table.value?_putAllNew, joined, (foldl_addTag_keeps _ _).2.1]

theorem basePrefix_merge : (m.merge other).basePrefix = m.basePrefix := by
  rw [merge_eq]
  exact (foldl_addTag_keeps _ _).2.2

theorem extends_merge : m.Extends (m.merge other) := by
  refine ⟨?_, ?_, basePrefix_merge m other⟩
  · intro r space hr
    rw [spaces_merge, hr, Option.some_or]
  · intro key bound hk
    rw [types_merge, hk, Option.some_or]

end Merge

variable {m other : NamespaceMap}

theorem WellListed.merge (h : m.WellListed) (other : NamespaceMap) :
    (m.merge other).WellListed := by
  have hspaces : ({ m with spaces := Table.putAllNew m.spaces other.spaces } :
      NamespaceMap).WellListed := ⟨h.proper, h.nodup⟩
  have hjoined := hspaces.foldl_addTag other.pairs
  rw [merge_eq]
  exact ⟨hjoined.proper, hjoined.nodup⟩

theorem mem_pairs_merge (h : m.WellListed) {e : String × String} :
    e ∈ (m.merge other).pairs ↔ e ∈ other.pairs ∨ e ∈ m.pairs := by
  have hspaces : ({ m with spaces := Table.putAllNew m.spaces other.spaces } :
      NamespaceMap).WellListed := ⟨h.proper, h.nodup⟩
  rw [merge_eq]
  exact mem_pairs_foldl_addTag hspaces

theorem Backed.merge {p : Prefixes} (h : m.Backed p) (ho : other.Backed p) :
    (m.merge other).Backed p := by
  refine ⟨?_, ?_, ?_⟩
  · intro r space hr
    rw [spaces_merge] at hr
    rcases Option.or_eq_some_iff.1 hr with hr | ⟨_, hr⟩
    · exact h.spaces hr
    · exact ho.spaces hr
  · intro key bound hk
    rw [types_merge] at hk
    rcases Option.or_eq_some_iff.1 hk with hk | ⟨_, hk⟩
    · exact h.types hk
    · exact ho.types hk
  · rw [basePrefix_merge]
    exact h.base

/-- `n` came of `m` by merging other maps into it, all of them of the same run. -/
structure Absorbed (m n : NamespaceMap) (p : Prefixes) : Prop where
  grows : m.Extends n
  pairs : ∀ e ∈ m.pairs, e ∈ n.pairs
  wellListed : n.WellListed
  backed : n.Backed p

theorem Absorbed.refl {m : NamespaceMap} {p : Prefixes} (hl : m.WellListed) (hb : m.Backed p) :
    m.Absorbed m p := ⟨.refl m, fun _ h => h, hl, hb⟩

theorem Absorbed.trans {l m n : NamespaceMap} {p q : Prefixes} (h : l.Absorbed m p)
    (h' : m.Absorbed n q) : l.Absorbed n q :=
  ⟨h.grows.trans h'.grows, fun e he => h'.pairs e (h.pairs e he), h'.wellListed, h'.backed⟩

theorem absorbed_merge {p : Prefixes} (hl : m.WellListed) (hm : m.Backed p)
    (ho : other.Backed p) : m.Absorbed (m.merge other) p :=
  ⟨extends_merge m other, fun _ he => (mem_pairs_merge hl).2 (.inr he), hl.merge other, hm.merge ho⟩

end NamespaceMap

end SoapComponents
