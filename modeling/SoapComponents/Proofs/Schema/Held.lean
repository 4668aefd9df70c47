import SoapComponents.Proofs.Schema.SchemaOrder

/-!
A part of a graph in another graph. The entries under some names and all objects that they lead to
can be the same in two graphs, but for their numbers. Registering other names leaves a part as it
is, and so does settling inheritance where the part extends nothing outside of it.
-/

set_option autoImplicit false

namespace SoapComponents

namespace TypeGraph

variable {names : List String} {g g' : TypeGraph} {σ : Equiv.Perm ObjectId}

inductive Reaches (names : List String) (g : TypeGraph) : ObjectId → Prop
  | element {key : String} {id : ObjectId} : key ∈ names →
      g.elements.value? key = some (.object id) → Reaches names g id
  | complexType {key : String} {id : ObjectId} : key ∈ names →
      g.complexTypes.value? key = some id → Reaches names g id
  | member {id inner : ObjectId} {e : String × Member TypeNode} : Reaches names g id →
      e ∈ (g.object id).members → e.2.type = .object inner → Reaches names g inner

/-- Under some names the same entries, and from there on the same objects, which have other
numbers. -/
structure RenumberedAt (names : List String) (σ : Equiv.Perm ObjectId) (g g' : TypeGraph) :
    Prop where
  elements : ∀ key ∈ names, g'.elements.value? key =
    (g.elements.value? key).map (TypeNode.renumber σ)
  complexTypes : ∀ key ∈ names, g'.complexTypes.value? key = (g.complexTypes.value? key).map σ
  object : ∀ id, g.Reaches names id → g'.object (σ id) = (g.object id).renumber σ

/-- Under some names the same, but for the numbers of the objects. -/
def AlikeAt (names : List String) (g g' : TypeGraph) : Prop := ∃ σ, RenumberedAt names σ g g'

/-- The first objects of a graph, `n` of them, are in another graph, with all entries under some
names. -/
structure Held (names : List String) (n : Nat) (σ : Equiv.Perm ObjectId) (g g' : TypeGraph) :
    Prop where
  elements : ∀ key ∈ names, g'.elements.value? key =
    (g.elements.value? key).map (TypeNode.renumber σ)
  complexTypes : ∀ key ∈ names, g'.complexTypes.value? key = (g.complexTypes.value? key).map σ
  object : ∀ id < n, g'.object (σ id) = (g.object id).renumber σ

/-- The entries and the first `n` objects of a graph refer to these objects only. -/
structure Rooted (n : Nat) (g : TypeGraph) : Prop where
  elements : ∀ key type, g.elements.value? key = some type → type.Below n
  complexTypes : ∀ key id, g.complexTypes.value? key = some id → id < n
  objects : ∀ id < n, (g.object id).Below n

theorem Held.reaches {n : Nat} (h : Held names n σ g g') (hg : g.Rooted n) {id : ObjectId}
    (hid : g'.Reaches names id) : σ.symm id < n := by
  induction hid with
  | element hkey hvalue =>
    obtain ⟨type, htype, heq⟩ := Option.map_eq_some_iff.1 ((h.elements _ hkey).symm.trans hvalue)
    have hbelow := hg.elements _ type htype
    cases type with
    | object id =>
      obtain rfl := TypeNode.object.inj heq
      rwa [Equiv.symm_apply_apply]
    | primitive _ => cases heq
    | reference _ => cases heq
  | complexType hkey hvalue =>
    obtain ⟨id, hid, rfl⟩ :=
      Option.map_eq_some_iff.1 ((h.complexTypes _ hkey).symm.trans hvalue)
    rw [Equiv.symm_apply_apply]
    exact hg.complexTypes _ id hid
  | member _ he htype ih =>
    have hobject := h.object _ ih
    rw [Equiv.apply_symm_apply] at hobject
    rw [hobject] at he
    obtain ⟨own, hown, rfl⟩ := List.mem_map.1 he
    have hbelow := hg.objects _ ih own hown
    dsimp only [Member.map] at htype
    cases hinner : own.2.type with
    | object id =>
      rw [hinner] at htype hbelow
      obtain rfl := TypeNode.object.inj htype
      rwa [Equiv.symm_apply_apply]
    | primitive _ => rw [hinner] at htype; cases htype
    | reference _ => rw [hinner] at htype; cases htype

theorem Held.alikeAt {n : Nat} {part : TypeGraph} {τ : Equiv.Perm ObjectId} (hpart : part.Rooted n)
    (h : Held names n σ part g) (h' : Held names n τ part g') : AlikeAt names g g' := by
  refine ⟨σ.symm.trans τ, fun key hkey => ?_, fun key hkey => ?_, fun id hid => ?_⟩
  · rw [h'.elements key hkey, h.elements key hkey, Option.map_map]
    congr 1
    funext type
    simp [Function.comp_def]
  · rw [h'.complexTypes key hkey, h.complexTypes key hkey, Option.map_map]
    congr 1
    funext id
    simp
  · have hlt := h.reaches hpart hid
    have hobject := h.object _ hlt
    rw [Equiv.apply_symm_apply] at hobject
    rw [Equiv.trans_apply, h'.object _ hlt, hobject, ObjectType.renumber_renumber]
    congr 1
    funext other
    simp

end TypeGraph

namespace Building

open Inheritance

variable {names : List String} {b b' b'' : Building} {σ τ : Equiv.Perm ObjectId}
  {r : Registration}

/-- A building is in another one: its entries under some names, its objects, and what they
extend. -/
structure Holds (names : List String) (σ : Equiv.Perm ObjectId) (b b' : Building) : Prop
    extends TypeGraph.Held names b.size σ b.graph b'.graph where
  lt : ∀ id < b.size, σ id < b'.size
  extending : ∀ x ∈ b.extensions, x.renumber σ ∈ b'.extensions
  extended : ∀ x' ∈ b'.extensions, σ.symm x'.id < b.size → ∃ x ∈ b.extensions, x.renumber σ = x'

theorem Renumbered.holds (h : Renumbered σ b b') (names : List String) : Holds names σ b b' where
  elements key _ := h.elements key
  complexTypes key _ := h.complexTypes key
  object id _ := h.object id
  lt _ hid := h.size ▸ h.lt hid
  extending _ hx := h.extensions.mem_iff.2 (List.mem_map_of_mem hx)
  extended _ hx' _ := List.mem_map.1 (h.extensions.mem_iff.1 hx')

theorem Holds.trans (h : Holds names σ b b') (h' : Holds names τ b' b'') :
    Holds names (σ.trans τ) b b'' where
  elements key hkey := by
    rw [h'.elements key hkey, h.elements key hkey, Option.map_map]
    congr 1
    funext type
    exact type.renumber_renumber
  complexTypes key hkey := by
    rw [h'.complexTypes key hkey, h.complexTypes key hkey, Option.map_map]
    rfl
  object id hid := by
    rw [Equiv.trans_apply, h'.object _ (h.lt id hid), h.object id hid,
      ObjectType.renumber_renumber]
    rfl
  lt id hid := h'.lt _ (h.lt id hid)
  extending x hx := h'.extending _ (h.extending x hx)
  extended x'' hx'' hid := by
    have hlt := h.lt _ hid
    rw [Equiv.symm_trans_apply, Equiv.apply_symm_apply] at hlt
    obtain ⟨x', hx', rfl⟩ := h'.extended x'' hx'' hlt
    rw [Equiv.symm_trans_apply, Extension.renumber, Equiv.symm_apply_apply] at hid
    obtain ⟨x, hx, rfl⟩ := h.extended x' hx' hid
    exact ⟨x, hx, rfl⟩

theorem holds_register (b : Building) (hkey : r.key ∉ names) :
    Holds names (Equiv.refl _) b (b.register r) := by
  obtain ⟨block, root, -, hadds⟩ := exists_adds r
  have hb := hadds b
  have hne : ∀ key ∈ names, key ≠ r.key := fun key hmem heq => hkey (heq ▸ hmem)
  have hsame := Renumbered.refl b
  refine ⟨⟨fun key hmem => ?_, fun key hmem => ?_, fun id hid => ?_⟩, fun id hid => ?_,
    fun x hx => ?_, fun x' hx' hid => ?_⟩
  · rw [hb.elements, if_neg (hne key hmem)]
    exact hsame.elements key
  · rw [hb.complexTypes, if_neg (hne key hmem)]
    exact hsame.complexTypes key
  · rw [Equiv.refl_apply, hb.object, if_pos hid]
    exact hsame.object id
  · rw [hb.size]
    exact Nat.lt_add_right _ hid
  · rw [hb.extensions]
    exact List.mem_append_left _ hx
  · rw [hb.extensions] at hx'
    rcases List.mem_append.1 hx' with hx' | hx'
    · exact ⟨x', hx', rfl⟩
    · obtain ⟨y, -, rfl⟩ := List.mem_map.1 hx'
      exact absurd hid (Nat.not_lt.2 (Nat.le_add_right _ _))

theorem holds_foldl {l : List Registration} (hkeys : ∀ r ∈ l, r.key ∉ names) (b : Building) :
    ∃ σ, Holds names σ b (l.foldl register b) := by
  induction l generalizing b with
  | nil => exact ⟨_, (Renumbered.refl b).holds names⟩
  | cons r rest ih =>
    obtain ⟨σ, hσ⟩ := ih (fun s hs => hkeys s (List.mem_cons_of_mem _ hs)) (b.register r)
    exact ⟨_, (holds_register b (hkeys r List.mem_cons_self)).trans hσ⟩

/-- Among some names the types of a building inherit from each other only: each type that is
extended is there by its exact name, or else none of the names has its local name; and none extends
itself, directly or through others. -/
structure GroundedAmong (names : List String) (b : Building) : Prop where
  named : ∀ x ∈ b.extensions, x.base ∈ b.graph.complexTypes.keys ∨
    ∀ key ∈ names, Name.localPart key ≠ Name.localPart x.base
  circleless : ∃ rank : ObjectId → Nat, ∀ x ∈ b.extensions, ∀ id,
    b.graph.complexTypes.value? x.base = some id → rank id < rank x.id

theorem base?_eq_none {g : TypeGraph} {base : String}
    (h : ∀ key ∈ g.complexTypes.keys, Name.localPart key ≠ Name.localPart base) :
    base? g base = none := by
  unfold base?
  cases hvalue : g.complexTypes.value? base with
  | some id => exact absurd rfl (h base (Table.mem_keys_of_value? hvalue))
  | none =>
    rw [Option.map_eq_none_iff, List.find?_eq_none]
    exact fun e he => by simpa using h e.1 (List.mem_map_of_mem he)

section

variable (h : Holds names σ b b') (hb : b.Closed) (hb' : b'.Closed)
  (hnames : b.graph.complexTypes.keys ⊆ names) {others : List String}
  (hothers : b'.graph.complexTypes.keys ⊆ others) (hgrounded : b.GroundedAmong others)

include h hnames hothers hgrounded

theorem Holds.bases {x : Extension} (hx : x ∈ b.extensions) :
    base? b.graph x.base = b.graph.complexTypes.value? x.base ∧
      base? b'.graph x.base = (base? b.graph x.base).map σ := by
  rcases hgrounded.named x hx with hkey | hnone
  · obtain ⟨id, hid⟩ := Option.isSome_iff_exists.1 (Table.holds_iff_mem_keys.2 hkey)
    have hid' := (h.complexTypes _ (hnames hkey)).trans (congrArg (Option.map σ) hid)
    rw [base?_of_value? hid, base?_of_value? hid', hid]
    exact ⟨rfl, rfl⟩
  · have hsub : b.graph.complexTypes.keys ⊆ others := by
      intro key hkey
      obtain ⟨id, hid⟩ := Option.isSome_iff_exists.1 (Table.holds_iff_mem_keys.2 hkey)
      exact hothers (Table.mem_keys_of_value?
        ((h.complexTypes _ (hnames hkey)).trans (congrArg (Option.map σ) hid)))
    have hmissing := @base?_eq_none b.graph x.base fun key hkey => hnone key (hsub hkey)
    rw [hmissing, base?_eq_none fun key hkey => hnone key (hothers hkey)]
    refine ⟨?_, rfl⟩
    cases hvalue : b.graph.complexTypes.value? x.base with
    | none => rfl
    | some id => cases hmissing.symm.trans (base?_of_value? hvalue)

include hb hb'

theorem Holds.settled (id : ObjectId) (hid : id < b.size) :
    b'.settled.object (σ id) = (b.settled.object id).renumber σ := by
  have hbases := fun {x} => @Holds.bases names b b' σ h hnames others hothers hgrounded x
  obtain ⟨rank, hrank⟩ := hgrounded.circleless
  have hranked : Ranked (· < b.size) b.extensions b.graph rank := by
    refine ⟨hb.extending, hb.once, fun x hx _ baseId hbaseId => ?_⟩
    rw [(hbases hx).1] at hbaseId
    exact ⟨hb.complexTypes _ _ hbaseId, hrank x hx baseId hbaseId⟩
  have hcarried : Carried σ (· < b.size) b.extensions b'.extensions b.graph b'.graph :=
    ⟨h.object, fun x hx _ => h.extending x hx, h.extended, fun x hx _ => (hbases hx).2⟩
  exact hcarried.settled hranked hb'.extending hb'.once id hid

theorem Holds.settled_held : TypeGraph.Held names b.size σ b.settled b'.settled := by
  obtain ⟨helements, htypes⟩ := @entries_settleAll b.extensions b.graph
  obtain ⟨helements', htypes'⟩ := @entries_settleAll b'.extensions b'.graph
  refine ⟨fun key hkey => ?_, fun key hkey => ?_,
    h.settled hb hb' hnames hothers hgrounded⟩
  · rw [Building.settled, helements', Building.settled, helements]
    exact h.elements key hkey
  · rw [Building.settled, htypes', Building.settled, htypes]
    exact h.complexTypes key hkey

end

theorem Closed.settled (h : b.Closed) : b.settled.Rooted b.size := by
  obtain ⟨helements, htypes⟩ := @entries_settleAll b.extensions b.graph
  refine ⟨fun key type htype => ?_, fun key id hid => ?_, fun id _ e he => ?_⟩
  · rw [Building.settled, helements] at htype
    exact h.elements key type htype
  · rw [Building.settled, htypes] at hid
    exact h.complexTypes key id hid
  · obtain ⟨o, ho, he⟩ := object_mem he
    refine @members_settleAll b.extensions (fun e => e.2.type.Below b.size) b.graph ?_ o ho e he
    intro o ho e he
    obtain ⟨i, hi, rfl⟩ := List.getElem_of_mem ho
    have hobject : b.graph.object i = b.graph.objects[i] := by
      simp [TypeGraph.object, hi]
    exact h.objects i e (hobject ▸ he)

end Building

end SoapComponents
