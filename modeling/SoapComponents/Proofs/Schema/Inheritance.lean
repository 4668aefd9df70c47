import Mathlib.Data.Finset.Card
import Mathlib.Data.Finset.Filter
import Mathlib.Logic.Relation
import SoapComponents.Proofs.Schema.Settled

/-!
What types inherit. Where no type extends itself, directly or through others, every object ends
with what its base ends with before its own, whatever order the extensions come in. With circles
too, every object keeps what it has.
-/

set_option autoImplicit false

namespace SoapComponents

namespace Table

variable {β : Type}

/-- A table followed by what it lacks of another: the entries of that one under other keys, in their
order, each key once. -/
def Followed (t u result : Table β) : Prop :=
  ∃ more : Table β, result = t ++ more ∧ more.Sublist u ∧ more.Proper ∧
    ∀ key, key ∈ more.keys ↔ key ∈ u.keys ∧ key ∉ t.keys

theorem followed_putAllNew (t u : Table β) : Followed t u (putAllNew t u) := by
  induction u generalizing t with
  | nil => exact ⟨[], by simp [putAllNew], .slnil, by simp [Proper, keys], by simp [keys]⟩
  | cons e rest ih =>
    obtain ⟨key, value⟩ := e
    have hcons : putAllNew t ((key, value) :: rest) = putAllNew (t.putNew key value) rest := rfl
    rw [hcons, putNew]
    split
    · next hkey =>
      obtain ⟨more, hmore, hsub, hproper, hkeys⟩ := ih t
      refine ⟨more, hmore, hsub.cons _, hproper, fun k => (hkeys k).trans ?_⟩
      rw [holds_iff_mem_keys] at hkey
      have hne : k ∉ t.keys → k ≠ key := fun hk heq => hk (heq ▸ hkey)
      simp only [keys, List.map_cons, List.mem_cons] at *
      exact and_congr_left fun hk => (or_iff_right (hne hk)).symm
    · next hkey =>
      obtain ⟨more, hmore, hsub, hproper, hkeys⟩ := ih (t ++ [(key, value)])
      have hmem : ∀ k, k ∈ more.keys ↔ k ∈ keys rest ∧ k ∉ t.keys ∧ k ≠ key := fun k =>
        (hkeys k).trans (by simp [keys])
      refine ⟨(key, value) :: more, by simp [hmore], hsub.cons_cons _,
        List.nodup_cons.2 ⟨fun hself => ((hmem key).1 hself).2.2 rfl, hproper⟩, fun k => ?_⟩
      rw [holds_iff_mem_keys] at hkey
      have hcons : ∀ l : Table β, k ∈ keys ((key, value) :: l) ↔ k = key ∨ k ∈ l.keys := fun l =>
        List.mem_cons
      rw [hcons, hcons, hmem]
      by_cases hk : k = key
      · subst hk
        simp [hkey]
      · simp [hk]

end Table

namespace Inheritance

variable {extensions : List Extension} {g : TypeGraph}

/-- Extensions of objects of a graph, each of which extends one type. -/
structure Pending (extensions : List Extension) (g : TypeGraph) : Prop where
  placed : ∀ x ∈ extensions, x.id < g.objects.length
  once : (extensions.map Extension.id).Nodup

/-- An object and the one that it extends, if that is found. -/
def Extends (extensions : List Extension) (g : TypeGraph) (id baseId : ObjectId) : Prop :=
  ∃ x ∈ extensions, x.id = id ∧ base? g x.base = some baseId

/-- No object extends itself, directly or through others. -/
def Circleless (extensions : List Extension) (g : TypeGraph) : Prop :=
  ∀ id, ¬ Relation.TransGen (Extends extensions g) id id

/-- What becomes of an object that extends another one. -/
structure Inherits (base own result : ObjectNode) : Prop where
  members : result.members =
    base.members.filter (fun m => !Table.holds own.members m.1) ++ own.members
  attributes : Table.Followed own.attributes base.attributes result.attributes
  space : result.space = own.space
  qualified : result.qualified = own.qualified
  written : result.base = own.base

/-- What an object has is still there, as the last of its members and the first of its
attributes. -/
structure Keeps (own result : ObjectNode) : Prop where
  members : own.members <:+ result.members
  attributes : own.attributes <+: result.attributes

theorem inherits_inherit (base own : ObjectNode) : Inherits base own (inherit base own) :=
  ⟨rfl, Table.followed_putAllNew _ _, rfl, rfl, rfl⟩

theorem Keeps.refl (own : ObjectNode) : Keeps own own := ⟨List.suffix_refl _, List.prefix_refl _⟩

theorem Keeps.inherit {own result : ObjectNode} (h : Keeps own result) (base : ObjectNode) :
    Keeps own (inherit base result) := by
  refine ⟨h.members.trans (List.suffix_append _ _), h.attributes.trans ?_⟩
  obtain ⟨more, hmore, -⟩ := Table.followed_putAllNew result.attributes base.attributes
  exact ⟨more, hmore.symm⟩

theorem object_setObject_cases (g : TypeGraph) (id other : ObjectId) (o : ObjectNode) :
    (g.setObject id o).object other = g.object other ∨
      other = id ∧ (g.setObject id o).object other = o := by
  by_cases hlt : id < g.objects.length
  · have hobject := g.object_setObject o hlt other
    by_cases heq : other = id
    · exact .inr ⟨heq, hobject.trans (if_pos heq)⟩
    · exact .inl (hobject.trans (if_neg heq))
  · have hsame : g.setObject id o = g := by
      simp [TypeGraph.setObject, List.set_eq_of_length_le (Nat.le_of_not_lt hlt)]
    exact .inl (congrArg (·.object other) hsame)

theorem keeps_settleAll (extensions : List Extension) (g : TypeGraph) (id : ObjectId) :
    Keeps (g.object id) ((settleAll extensions g).value.object id) := by
  have hkept : KeptByInheriting fun g' => Keeps (g.object id) (g'.object id) := by
    intro g' baseId other hg'
    rcases object_setObject_cases g' other id (inherit (g'.object baseId) (g'.object other))
      with hsame | ⟨rfl, hnew⟩
    · rw [hsame]
      exact hg'
    · rw [hnew]
      exact hg'.inherit _
  exact settleAll_keeps hkept (.refl _)

open Classical in
noncomputable def rank (extensions : List Extension) (g : TypeGraph) (id : ObjectId) : Nat :=
  ((extensions.filterMap (base? g ·.base)).toFinset.filter
    (Relation.TransGen (Extends extensions g) id)).card

theorem rank_lt (h : Circleless extensions g) {id baseId : ObjectId}
    (hextends : Extends extensions g id baseId) :
    rank extensions g baseId < rank extensions g id := by
  classical
  have ⟨x, hx, _, hbase⟩ := hextends
  have hmem : baseId ∈ (extensions.filterMap (base? g ·.base)).toFinset :=
    List.mem_toFinset.2 (List.mem_filterMap.2 ⟨x, hx, hbase⟩)
  -- what the base extends, the object extends too, and besides it the base, which does not
  refine Finset.card_lt_card ((Finset.ssubset_iff_of_subset fun other hother => ?_).2
    ⟨baseId, Finset.mem_filter.2 ⟨hmem, .single hextends⟩,
      fun hself => h baseId (Finset.mem_filter.1 hself).2⟩)
  obtain ⟨hother, hpath⟩ := Finset.mem_filter.1 hother
  exact Finset.mem_filter.2 ⟨hother, .head hextends hpath⟩

theorem Pending.ranked (h : Pending extensions g) (hcircleless : Circleless extensions g) :
    Ranked (fun _ => True) extensions g (rank extensions g) :=
  ⟨h.placed, h.once, fun x hx _ _ hbase => ⟨trivial, rank_lt hcircleless ⟨x, hx, rfl, hbase⟩⟩⟩

theorem unextended_settleAll (h : Pending extensions g) (hcircleless : Circleless extensions g)
    {id : ObjectId} (hid : ∀ baseId, ¬ Extends extensions g id baseId) :
    (settleAll extensions g).value.object id = g.object id := by
  obtain ⟨hextends, hrest⟩ := settleAll_ranked (h.ranked hcircleless)
  by_cases hpending : ∃ x ∈ extensions, x.id = id
  · obtain ⟨x, hx, rfl⟩ := hpending
    have hnone : base? g x.base = none :=
      Option.eq_none_iff_forall_not_mem.2 fun baseId hbase => hid baseId ⟨x, hx, rfl, hbase⟩
    rw [hextends x hx trivial, inherited, hnone]
  · exact hrest id trivial fun x hx heq => hpending ⟨x, hx, heq⟩

theorem objects_settleAll (extensions : List Extension) (g : TypeGraph) :
    (settleAll extensions g).value =
        { g with objects := (settleAll extensions g).value.objects } ∧
      (settleAll extensions g).value.objects.length = g.objects.length := by
  have hkept : KeptByInheriting fun g' => g' = { g with objects := g'.objects } ∧
      g'.objects.length = g.objects.length := by
    rintro g' baseId id ⟨hrest, hlength⟩
    refine ⟨?_, by simpa [TypeGraph.setObject] using hlength⟩
    rw [hrest]
    rfl
  exact settleAll_keeps hkept ⟨rfl, rfl⟩

theorem settleAll_perm (h : Pending extensions g) (hcircleless : Circleless extensions g)
    {extensions' : List Extension} (hperm : extensions.Perm extensions') :
    (settleAll extensions' g).value = (settleAll extensions g).value := by
  have hsame : ∀ o : ObjectNode, o.renumber (Equiv.refl ObjectId) = o := fun o => by
    simp [ObjectType.renumber, Member.map]
  have hcarried : Carried (Equiv.refl _) (fun _ => True) extensions extensions' g g :=
    ⟨fun id _ => (hsame _).symm, fun x hx _ => hperm.mem_iff.1 hx,
      fun x hx _ => ⟨x, hperm.mem_iff.2 hx, rfl⟩, fun _ _ _ => Option.map_id'.symm⟩
  have hobject : ∀ id, (settleAll extensions' g).value.object id =
      (settleAll extensions g).value.object id := fun id => by
    have hsettled := hcarried.settled (h.ranked hcircleless)
      (fun x hx => h.placed x (hperm.mem_iff.2 hx)) ((hperm.map _).nodup_iff.1 h.once) id trivial
    rwa [hsame] at hsettled
  obtain ⟨hrest, hlength⟩ := objects_settleAll extensions g
  obtain ⟨hrest', hlength'⟩ := objects_settleAll extensions' g
  have hobjects : (settleAll extensions' g).value.objects =
      (settleAll extensions g).value.objects := by
    refine List.ext_getElem (hlength'.trans hlength.symm) fun i hi hi' => ?_
    simpa [TypeGraph.object, hi, hi'] using hobject i
  rw [hrest, hrest', hobjects]

/-- What types inherit. Where none extends itself, each that extends a type which is found ends with
the members that this one ends with and that it does not declare itself, before its own, and after
its own attributes those that it lacks; all others stay as they are, and the order in which the
extensions come makes no difference. Circles or not, every object keeps its members and
attributes. -/
theorem settleAll_inherits (extensions : List Extension) (g : TypeGraph) :
    (Pending extensions g → Circleless extensions g →
      (∀ x ∈ extensions, ∀ baseId, base? g x.base = some baseId →
        Inherits ((settleAll extensions g).value.object baseId) (g.object x.id)
          ((settleAll extensions g).value.object x.id)) ∧
      (∀ id, (∀ baseId, ¬ Extends extensions g id baseId) →
        (settleAll extensions g).value.object id = g.object id) ∧
      ∀ extensions', extensions.Perm extensions' →
        (settleAll extensions' g).value = (settleAll extensions g).value) ∧
    ∀ id, Keeps (g.object id) ((settleAll extensions g).value.object id) := by
  refine ⟨fun hpending hcircleless => ⟨fun x hx baseId hbase => ?_,
    fun id hid => unextended_settleAll hpending hcircleless hid,
    fun _ hperm => settleAll_perm hpending hcircleless hperm⟩, keeps_settleAll extensions g⟩
  have hinherited := (settleAll_ranked (hpending.ranked hcircleless)).1 x hx trivial
  rw [inherited, hbase] at hinherited
  rw [hinherited]
  exact inherits_inherit _ _

end Inheritance

theorem Building.Closed.pending {b : Building} (h : b.Closed) :
    Inheritance.Pending b.extensions b.graph := ⟨h.extending, h.once⟩

namespace SampleHeirs

open Inheritance

def member : Member TypeNode := { type := .primitive "string" }

def graph : TypeGraph where
  objects := [
    { members := [("a", member), ("k", member)], attributes := [("x", "string"), ("y", "string")] },
    { members := [("b", member)] },
    { members := [("k", member), ("c", member)], attributes := [("y", "int")] }]
  complexTypes := [("A", 0), ("B", 1), ("C", 2)]

/-- The type that comes first extends the other one that waits. -/
def extensions : List Extension := [⟨2, "B"⟩, ⟨1, "n:A"⟩]

theorem base_lt {id baseId : ObjectId} (h : Extends extensions graph id baseId) : baseId < id := by
  obtain ⟨x, hx, rfl, hbase⟩ := h
  rcases List.mem_cons.1 hx with rfl | hx
  · obtain rfl := Option.some.inj ((show base? graph "B" = some 1 by decide).symm.trans hbase)
    decide
  · obtain rfl := List.mem_singleton.1 hx
    obtain rfl := Option.some.inj ((show base? graph "n:A" = some 0 by decide).symm.trans hbase)
    decide

theorem circleless : Circleless extensions graph := by
  have hpath : ∀ {id other}, Relation.TransGen (Extends extensions graph) id other → other < id := by
    intro id other h
    induction h with
    | single h => exact base_lt h
    | tail _ h ih => exact Nat.lt_trans (base_lt h) ih
  exact fun id h => Nat.lt_irrefl id (hpath h)

/-- The last type has the members of the first before those of the second, but for the one that it
declares itself, and whichever extension comes first. -/
theorem settled_heirs :
    Pending extensions graph ∧ Circleless extensions graph ∧
      ((settleAll extensions graph).value.object 2).members.map Prod.fst = ["a", "b", "k", "c"] ∧
      Table.Followed [("y", "int")] ((settleAll extensions graph).value.object 1).attributes
        ((settleAll extensions graph).value.object 2).attributes ∧
      (settleAll extensions.reverse graph).value = (settleAll extensions graph).value ∧
      Keeps (graph.object 2) ((settleAll extensions graph).value.object 2) := by
  have hpending : Pending extensions graph := ⟨by decide, by decide⟩
  obtain ⟨hcomputes, hkeeps⟩ := settleAll_inherits extensions graph
  obtain ⟨hinherits, hrest, hperm⟩ := hcomputes hpending circleless
  have hfirst := hrest 0 fun _ h => Nat.not_lt_zero _ (base_lt h)
  have hsecond := hinherits ⟨1, "n:A"⟩ (by decide) 0 (by decide)
  have hthird := hinherits ⟨2, "B"⟩ (by decide) 1 (by decide)
  refine ⟨hpending, circleless, ?_, hthird.attributes,
    hperm _ (List.reverse_perm _).symm, hkeeps 2⟩
  rw [hthird.members, hsecond.members, hfirst]
  rfl

end SampleHeirs

end SoapComponents
