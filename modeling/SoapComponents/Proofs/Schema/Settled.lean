import SoapComponents.Proofs.Schema.Inherited
import SoapComponents.Proofs.Schema.Reordered

/-!
Inheritance without circles. Where no type extends itself through others, every object that
extends a type ends with what the type ends with before its own, in whatever order the extensions
are settled. This holds of a part of a graph whatever the rest extends, so other numbers for the
objects, and other objects around them, make no difference to what they inherit.
-/

set_option autoImplicit false

namespace SoapComponents

theorem TypeGraph.object_setObject (g : TypeGraph) {id : ObjectId} (o : ObjectNode)
    (h : id < g.objects.length) (other : ObjectId) :
    (g.setObject id o).object other = if other = id then o else g.object other := by
  simp only [object, setObject, List.getD_eq_getElem?_getD, List.getElem?_set]
  by_cases hid : id = other
  · subst hid
    simp [h]
  · simp [hid, Ne.symm hid]

namespace Inheritance

variable {part : ObjectId → Prop} {extensions : List Extension} {g : TypeGraph}
  {rank : ObjectId → Nat}

/-- What a list of extensions asks of a part of a graph: each object extends one type at most, and
from an object of the part to the one that it extends, which is of the part too, a rank falls. -/
structure Ranked (part : ObjectId → Prop) (extensions : List Extension) (g : TypeGraph)
    (rank : ObjectId → Nat) : Prop where
  placed : ∀ x ∈ extensions, x.id < g.objects.length
  once : (extensions.map Extension.id).Nodup
  falls : ∀ x ∈ extensions, part x.id → ∀ baseId, base? g x.base = some baseId →
    part baseId ∧ rank baseId < rank x.id

def inherited (g : TypeGraph) (after : ObjectId → ObjectNode) (x : Extension) : ObjectNode :=
  match base? g x.base with
  | none => g.object x.id
  | some baseId => inherit (after baseId) (g.object x.id)

/-- A state on the way: in the part, what is settled has what it inherits, from an object that
changes no more, and the rest is as it was. -/
structure Partly (part : ObjectId → Prop) (extensions : List Extension) (g : TypeGraph)
    (s : State) : Prop where
  length : s.graph.objects.length = g.objects.length
  complexTypes : s.graph.complexTypes = g.complexTypes
  pending : ∀ id ∈ s.settled, ∃ x ∈ extensions, x.id = id
  untouched : ∀ id, part id → id ∉ s.settled → s.graph.object id = g.object id
  done : ∀ x ∈ extensions, part x.id → x.id ∈ s.settled →
    s.graph.object x.id = inherited g s.graph.object x
  bases : ∀ x ∈ extensions, part x.id → x.id ∈ s.settled → ∀ y ∈ extensions,
    base? g x.base = some y.id → y.id ∈ s.settled

/-- More is settled on behalf of an object; if that is of the part, nothing of a higher rank. -/
structure Further (part : ObjectId → Prop) (rank : ObjectId → Nat) (owner : ObjectId)
    (s s' : State) : Prop where
  keeps : s.settled ⊆ s'.settled
  bounded : part owner → ∀ id ∈ s'.settled, id ∈ s.settled ∨ rank id ≤ rank owner

variable {s s' s'' : State} {owner : ObjectId}

theorem Further.refl (part : ObjectId → Prop) (rank : ObjectId → Nat) (owner : ObjectId)
    (s : State) : Further part rank owner s s where
  keeps := List.Subset.refl _
  bounded _ _ h := .inl h

theorem Further.trans (h : Further part rank owner s s') (h' : Further part rank owner s' s'') :
    Further part rank owner s s'' where
  keeps := List.Subset.trans h.keeps h'.keeps
  bounded howner id hid := (h'.bounded howner id hid).elim (h.bounded howner id) .inr

theorem Partly.base_eq (h : Partly part extensions g s) (key : String) :
    base? s.graph key = base? g key := by
  unfold base?
  rw [h.complexTypes]

theorem partly_start (part : ObjectId → Prop) (extensions : List Extension) (g : TypeGraph) :
    Partly part extensions g { graph := g } where
  length := rfl
  complexTypes := rfl
  pending := by simp
  untouched _ _ _ := rfl
  done := by simp
  bases := by simp

theorem Partly.mark (hranked : Ranked part extensions g rank) (h : Partly part extensions g s)
    {x : Extension} (hx : x ∈ extensions) (hnew : part x.id → x.id ∉ s.settled)
    (hbase : part x.id → ∀ y ∈ extensions, base? g x.base = some y.id → y.id ∈ s.settled)
    {after : TypeGraph} (hlength : after.objects.length = s.graph.objects.length)
    (htypes : after.complexTypes = s.graph.complexTypes)
    (hobject : ∀ id, part id → after.object id =
      if id = x.id then inherited g s.graph.object x else s.graph.object id) :
    Partly part extensions g (State.mark { s with graph := after } x.id) := by
  have hsame : ∀ y ∈ extensions, y.id = x.id → y = x := fun y hy hid =>
    List.inj_on_of_nodup_map hranked.once hy hx hid
  -- neither the base of this extension nor that of a settled one is changed
  have hinherited : ∀ y ∈ extensions, part y.id → base? g y.base ≠ some x.id →
      inherited g after.object y = inherited g s.graph.object y := by
    intro y hy hpart hne
    unfold inherited
    cases hbaseId : base? g y.base with
    | none => rfl
    | some baseId =>
      have hid : baseId ≠ x.id := fun heq => hne (heq ▸ hbaseId)
      simp only [hobject baseId (hranked.falls y hy hpart baseId hbaseId).1, if_neg hid]
  refine ⟨hlength.trans h.length, htypes.trans h.complexTypes, ?_, ?_, ?_, ?_⟩
  · intro id hid
    rcases List.mem_cons.1 hid with rfl | hid
    · exact ⟨x, hx, rfl⟩
    · exact h.pending id hid
  · intro id hpart hid
    have hne : id ≠ x.id := fun heq => hid (heq ▸ List.mem_cons_self)
    exact (hobject id hpart).trans ((if_neg hne).trans
      (h.untouched id hpart fun hmem => hid (List.mem_cons_of_mem _ hmem)))
  · intro y hy hpart hid
    refine (hobject y.id hpart).trans ?_
    by_cases heq : y.id = x.id
    · obtain rfl := hsame y hy heq
      rw [if_pos rfl]
      exact (hinherited y hy hpart fun hself =>
        absurd (hranked.falls y hy hpart _ hself).2 (Nat.lt_irrefl _)).symm
    · have hsettled := (List.mem_cons.1 hid).resolve_left heq
      rw [if_neg heq, h.done y hy hpart hsettled]
      exact (hinherited y hy hpart fun hself => hnew (hranked.falls y hy hpart _ hself).1
        (h.bases y hy hpart hsettled x hx hself)).symm
  · intro y hy hpart hid z hz hbaseId
    refine List.mem_cons_of_mem _ ?_
    rcases List.mem_cons.1 hid with heq | hsettled
    · obtain rfl := hsame y hy heq
      exact hbase hpart z hz hbaseId
    · exact h.bases y hy hpart hsettled z hz hbaseId

theorem Further.mark {id : ObjectId} (h : Further part rank owner s s')
    (hle : rank id ≤ rank owner) (after : TypeGraph) :
    Further part rank owner s (State.mark { s' with graph := after } id) where
  keeps := List.Subset.trans h.keeps (List.subset_cons_self _ _)
  bounded howner other hother := by
    rcases List.mem_cons.1 hother with rfl | hother
    · exact .inr hle
    · exact h.bounded howner other hother

theorem waits_partly {chain : List String} {baseId : ObjectId} (hs : Partly part extensions g s)
    (hsettle : ∀ s (inner : { e // e ∈ extensions }), inner.1.id = baseId →
      Partly part extensions g s →
        Partly part extensions g (settle extensions chain inner s).value ∧
          Further part rank inner.1.id s (settle extensions chain inner s).value ∧
          inner.1.id ∈ (settle extensions chain inner s).value.settled) :
    let waited := (extensions.attach.foldlM (fun s inner =>
      if inner.1.id = baseId then settle extensions chain inner s else pure s) s).value
    Partly part extensions g waited ∧ Further part rank baseId s waited ∧
      ∀ y ∈ extensions, y.id = baseId → y.id ∈ waited.settled := by
  obtain ⟨hpartly, hfurther, hwaited⟩ := Noted.value_foldlM_spec
    (f := fun s (inner : { e // e ∈ extensions }) =>
      if inner.1.id = baseId then settle extensions chain inner s else pure s)
    (I := Partly part extensions g) (R := Further part rank baseId)
    (Q := fun inner s => inner.1.id = baseId → inner.1.id ∈ s.settled)
    (Further.refl part rank _) Further.trans (fun hfurther hQ hid => hfurther.keeps (hQ hid))
    (l := extensions.attach) (b := s) (fun inner _ s hs => by
      split
      · next hid =>
        obtain ⟨hpartly, hfurther, hmem⟩ := hsettle s inner hid hs
        rw [hid] at hfurther
        exact ⟨hpartly, hfurther, fun _ => hmem⟩
      · next hid => exact ⟨hs, .refl _ _ _ _, fun h => absurd h hid⟩) hs
  exact ⟨hpartly, hfurther, fun y hy => hwaited ⟨y, hy⟩ (List.mem_attach _ _)⟩

theorem Partly.inherit (hranked : Ranked part extensions g rank) {x : Extension}
    {baseId : ObjectId} (hx : x ∈ extensions) (hsettled : x.id ∉ s.settled)
    (hbase : base? g x.base = some baseId) (h : Partly part extensions g s')
    (hfurther : Further part rank baseId s s')
    (hwaited : ∀ y ∈ extensions, y.id = baseId → y.id ∈ s'.settled) :
    let after := s'.graph.setObject x.id (inherit (s'.graph.object baseId) (s'.graph.object x.id))
    Partly part extensions g (State.mark { s' with graph := after } x.id) ∧
      Further part rank x.id s (State.mark { s' with graph := after } x.id) := by
  have hfalls := fun hpart => hranked.falls x hx hpart baseId hbase
  have hnew : part x.id → x.id ∉ s'.settled := fun hpart hmem =>
    (hfurther.bounded (hfalls hpart).1 _ hmem).elim hsettled fun hle =>
      Nat.not_lt.2 hle (hfalls hpart).2
  have hplaced : x.id < s'.graph.objects.length := h.length ▸ hranked.placed x hx
  refine ⟨h.mark hranked hx hnew (fun _ y hy hid => ?_) ?_ rfl fun id hpart => ?_,
    Further.mark ⟨hfurther.keeps, fun hpart id hid => ?_⟩ (Nat.le_refl _) _⟩
  · obtain rfl := Option.some.inj (hbase.symm.trans hid)
    exact hwaited y hy rfl
  · simp [TypeGraph.setObject]
  · rw [s'.graph.object_setObject _ hplaced]
    split
    · next hid =>
      subst hid
      simp only [inherited, hbase, h.untouched _ hpart (hnew hpart)]
    · rfl
  · exact (hfurther.bounded (hfalls hpart).1 id hid).imp_right fun hle =>
      Nat.le_of_lt (Nat.lt_of_le_of_lt hle (hfalls hpart).2)

/-- One extension with all that it waits for. Of the bases on the way to an object of the part, those
of the part have a higher rank, so the circle that the walk looks for is not there. -/
theorem settle_partly (hranked : Ranked part extensions g rank) (chain : List String)
    (e : { e // e ∈ extensions }) (s : State) (hs : Partly part extensions g s)
    (hchain : ∀ key ∈ chain, ∀ id, base? g key = some id → part id →
      part e.1.id ∧ rank e.1.id ≤ rank id) :
    Partly part extensions g (settle extensions chain e s).value ∧
      Further part rank e.1.id s (settle extensions chain e s).value ∧
      e.1.id ∈ (settle extensions chain e s).value.settled := by
  induction chain, e, s using settle.induct extensions with
  | case1 chain e s hsettled =>
    rw [settle, if_pos hsettled]
    exact ⟨hs, .refl _ _ _ _, hsettled⟩
  | case2 chain e s hsettled hbase =>
    rw [settle, if_neg hsettled]
    simp only [hbase]
    rw [hs.base_eq] at hbase
    refine ⟨hs.mark hranked e.2 (fun _ => hsettled) (by simp [hbase]) rfl rfl fun id hpart => ?_,
      (Further.refl _ _ _ s).mark (Nat.le_refl _) _, List.mem_cons_self⟩
    split
    · next hid =>
      subst hid
      simp only [inherited, hbase, hs.untouched _ hpart hsettled]
    · rfl
  | case3 chain e s hsettled baseId hbase hcircle =>
    rw [settle, if_neg hsettled]
    simp only [hbase, if_pos hcircle]
    rw [hs.base_eq] at hbase
    have hapart : ¬ part e.1.id := fun hpart => by
      obtain ⟨hbasePart, hlt⟩ := hranked.falls e.1 e.2 hpart baseId hbase
      exact absurd (hchain _ hcircle baseId hbase hbasePart).2 (Nat.not_le.2 hlt)
    refine ⟨hs.mark hranked e.2 (fun hpart => absurd hpart hapart)
      (fun hpart => absurd hpart hapart) rfl rfl fun id hpart => ?_,
      (Further.refl _ _ _ s).mark (Nat.le_refl _) _, List.mem_cons_self⟩
    have hid : id ≠ e.1.id := fun hid => hapart (hid ▸ hpart)
    rw [if_neg hid]
  | case4 chain e s hsettled baseId hbase hcircle ih =>
    rw [settle, if_neg hsettled]
    simp only [hbase, if_neg hcircle]
    rw [Noted.value_bind]
    rw [hs.base_eq] at hbase
    obtain ⟨hpartly, hfurther, hwaited⟩ := waits_partly hs fun s inner hid hs =>
      ih s inner hs fun key hkey id hkeyId hpart => by
        rw [hid]
        rcases List.mem_cons.1 hkey with rfl | hkey
        · obtain rfl := Option.some.inj (hbase.symm.trans hkeyId)
          exact ⟨hpart, Nat.le_refl _⟩
        · obtain ⟨howner, hle⟩ := hchain key hkey id hkeyId hpart
          obtain ⟨hbasePart, hlt⟩ := hranked.falls e.1 e.2 howner baseId hbase
          exact ⟨hbasePart, Nat.le_of_lt (Nat.lt_of_lt_of_le hlt hle)⟩
    obtain ⟨hmarked, hmore⟩ := hpartly.inherit hranked e.2 hsettled hbase hfurther hwaited
    exact ⟨hmarked, hmore, List.mem_cons_self⟩

/-- When all is settled, each object of the part that extends a type has what this one ends with
before its own, and the others of the part are as they were. -/
theorem settleAll_ranked (hranked : Ranked part extensions g rank) :
    (∀ x ∈ extensions, part x.id → (settleAll extensions g).value.object x.id =
      inherited g (settleAll extensions g).value.object x) ∧
    ∀ id, part id → (∀ x ∈ extensions, x.id ≠ id) →
      (settleAll extensions g).value.object id = g.object id := by
  obtain ⟨hpartly, _, hall⟩ := Noted.value_foldlM_spec
    (f := fun s (e : { e // e ∈ extensions }) => settle extensions [] e s)
    (I := Partly part extensions g) (R := fun s s' => s.settled ⊆ s'.settled)
    (Q := fun e s => e.1.id ∈ s.settled) (fun s => List.Subset.refl _) List.Subset.trans
    (fun hsub hmem => hsub hmem) (l := extensions.attach) (b := { graph := g })
    (fun e _ s hs => by
      obtain ⟨hpartly, hfurther, hmem⟩ := settle_partly hranked [] e s hs (by simp)
      exact ⟨hpartly, hfurther.keeps, hmem⟩) (partly_start part extensions g)
  refine ⟨fun x hx hpart => hpartly.done x hx hpart (hall ⟨x, hx⟩ (List.mem_attach _ _)),
    fun id hpart hid => hpartly.untouched id hpart fun hmem => ?_⟩
  obtain ⟨x, hx, heq⟩ := hpartly.pending id hmem
  exact hid x hx heq

theorem base?_of_value? {key : String} {id : ObjectId} (h : g.complexTypes.value? key = some id) :
    base? g key = some id := by
  simp [base?, h]

theorem renumber_inherit (σ : ObjectId → ObjectId) (base own : ObjectNode) :
    (inherit base own).renumber σ = inherit (base.renumber σ) (own.renumber σ) := by
  have hholds : ∀ (t : Table (Member TypeNode)) (key : String),
      Table.holds (t.map fun e => (e.1, e.2.map (TypeNode.renumber σ))) key = t.holds key := by
    intro t key
    rw [Bool.eq_iff_iff, Table.holds_iff_mem_keys, Table.holds_iff_mem_keys]
    simp [Table.keys]
  simp only [inherit, ObjectType.renumber, List.map_append, List.filter_map, Function.comp_def,
    hholds]

/-- A part of a graph, with what its objects extend, is in another graph under other numbers. -/
structure Carried (σ : Equiv.Perm ObjectId) (part : ObjectId → Prop)
    (extensions extensions' : List Extension) (g g' : TypeGraph) : Prop where
  object : ∀ id, part id → g'.object (σ id) = (g.object id).renumber σ
  extending : ∀ x ∈ extensions, part x.id → x.renumber σ ∈ extensions'
  extended : ∀ x' ∈ extensions', part (σ.symm x'.id) → ∃ x ∈ extensions, x.renumber σ = x'
  bases : ∀ x ∈ extensions, part x.id → base? g' x.base = (base? g x.base).map σ

section

variable {σ : Equiv.Perm ObjectId} {extensions' : List Extension} {g' : TypeGraph}
  (h : Carried σ part extensions extensions' g g') (hranked : Ranked part extensions g rank)
  (hplaced : ∀ x ∈ extensions', x.id < g'.objects.length)
  (honce : (extensions'.map Extension.id).Nodup)

include h hranked hplaced honce

theorem Carried.ranked :
    Ranked (fun id => part (σ.symm id)) extensions' g' fun id => rank (σ.symm id) := by
  refine ⟨hplaced, honce, fun x' hx' hpart baseId' hbaseId' => ?_⟩
  obtain ⟨x, hx, rfl⟩ := h.extended x' hx' hpart
  simp only [Extension.renumber, Equiv.symm_apply_apply] at hpart hbaseId' ⊢
  obtain ⟨baseId, hbaseId, rfl⟩ :=
    Option.map_eq_some_iff.1 ((h.bases x hx hpart).symm.trans hbaseId')
  simpa using hranked.falls x hx hpart baseId hbaseId

theorem Carried.settled (id : ObjectId) (hid : part id) :
    (settleAll extensions' g').value.object (σ id) =
      ((settleAll extensions g).value.object id).renumber σ := by
  obtain ⟨hextends, hrest⟩ := settleAll_ranked hranked
  obtain ⟨hextends', hrest'⟩ := settleAll_ranked (h.ranked hranked hplaced honce)
  have hback : ∀ id, part id → part (σ.symm (σ id)) := fun id hid => by
    rwa [Equiv.symm_apply_apply]
  -- from an object to the one that it extends the rank falls
  induction hn : rank id using Nat.strongRecOn generalizing id with
  | _ n ih =>
    subst hn
    by_cases hextension : ∃ x ∈ extensions, x.id = id
    · obtain ⟨x, hx, rfl⟩ := hextension
      have hold := hextends x hx hid
      have hnew := hextends' _ (h.extending x hx hid) (hback x.id hid)
      simp only [inherited, Extension.renumber, h.bases x hx hid] at hold hnew
      cases hbaseId : base? g x.base with
      | none =>
        simp only [hbaseId, Option.map_none] at hold hnew
        rw [hnew, hold, h.object x.id hid]
      | some baseId =>
        simp only [hbaseId, Option.map_some] at hold hnew
        obtain ⟨hbasePart, hlt⟩ := hranked.falls x hx hid baseId hbaseId
        rw [hnew, hold, renumber_inherit, h.object x.id hid, ih _ hlt baseId hbasePart rfl]
    · have hnone : ∀ x ∈ extensions, x.id ≠ id := fun x hx heq => hextension ⟨x, hx, heq⟩
      rw [hrest id hid hnone, hrest' (σ id) (hback id hid) fun x' hx' heq => ?_, h.object id hid]
      obtain ⟨x, hx, rfl⟩ := h.extended x' hx' (heq ▸ hback id hid)
      exact hnone x hx (σ.injective heq)

end

end Inheritance

namespace Building

open Inheritance

variable {b b' : Building} {σ : Equiv.Perm ObjectId}

/-- Every type that is extended is there by its exact name, and none extends itself, directly or
through others. -/
structure Grounded (b : Building) : Prop where
  named : ∀ x ∈ b.extensions, x.base ∈ b.graph.complexTypes.keys
  circleless : ∃ rank : ObjectId → Nat, ∀ x ∈ b.extensions, ∀ id,
    b.graph.complexTypes.value? x.base = some id → rank id < rank x.id

theorem Grounded.base (h : b.Grounded) {x : Extension} (hx : x ∈ b.extensions) :
    ∃ id, b.graph.complexTypes.value? x.base = some id :=
  Option.isSome_iff_exists.1 (Table.holds_iff_mem_keys.2 (h.named x hx))

theorem Grounded.ranked (h : b.Grounded) (hb : b.Closed) :
    ∃ rank, Ranked (fun _ => True) b.extensions b.graph rank := by
  obtain ⟨rank, hrank⟩ := h.circleless
  refine ⟨rank, hb.extending, hb.once, fun x hx _ id hid => ⟨trivial, ?_⟩⟩
  obtain ⟨baseId, hbaseId⟩ := h.base hx
  obtain rfl := Option.some.inj ((base?_of_value? hbaseId).symm.trans hid)
  exact hrank x hx _ hbaseId

theorem Renumbered.grounded (hσ : Renumbered σ b b') (h : b.Grounded) : b'.Grounded := by
  have hextension : ∀ x' ∈ b'.extensions, ∃ x ∈ b.extensions, x.renumber σ = x' := fun x' hx' =>
    List.mem_map.1 (hσ.extensions.mem_iff.1 hx')
  obtain ⟨rank, hrank⟩ := h.circleless
  refine ⟨fun x' hx' => ?_, rank ∘ σ.symm, fun x' hx' id hid => ?_⟩
  · obtain ⟨x, hx, rfl⟩ := hextension x' hx'
    obtain ⟨id, hid⟩ := h.base hx
    exact Table.mem_keys_of_value? ((hσ.complexTypes x.base).trans (congrArg (Option.map σ) hid))
  · obtain ⟨x, hx, rfl⟩ := hextension x' hx'
    obtain ⟨baseId, hbaseId, rfl⟩ :=
      Option.map_eq_some_iff.1 ((hσ.complexTypes x.base).symm.trans hid)
    simpa [Extension.renumber] using hrank x hx baseId hbaseId

theorem Renumbered.settled (hσ : Renumbered σ b b') (hb : b.Closed) (hb' : b'.Closed)
    (h : b.Grounded) (id : ObjectId) :
    (settleAll b'.extensions b'.graph).value.object (σ id) =
      ((settleAll b.extensions b.graph).value.object id).renumber σ := by
  obtain ⟨rank, hranked⟩ := h.ranked hb
  have hcarried : Carried σ (fun _ => True) b.extensions b'.extensions b.graph b'.graph := by
    refine ⟨fun id _ => hσ.object id,
      fun x hx _ => hσ.extensions.mem_iff.2 (List.mem_map_of_mem hx),
      fun x' hx' _ => List.mem_map.1 (hσ.extensions.mem_iff.1 hx'), fun x hx _ => ?_⟩
    obtain ⟨baseId, hbaseId⟩ := h.base hx
    rw [base?_of_value? hbaseId,
      base?_of_value? ((hσ.complexTypes x.base).trans (congrArg (Option.map σ) hbaseId))]
    rfl
  exact hcarried.settled hranked hb'.extending hb'.once id trivial

end Building

end SoapComponents
