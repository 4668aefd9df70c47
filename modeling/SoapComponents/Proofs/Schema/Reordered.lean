import Mathlib.Data.List.GetD
import Mathlib.Logic.Equiv.Defs
import SoapComponents.Proofs.Schema.Blocks
import SoapComponents.Schema.Build

/-!
Registrations in another order. What declarations with different names bring into a graph can come
in any order: the objects get other numbers, and nothing else is different.
-/

set_option autoImplicit false

namespace SoapComponents

inductive Registration where
  | type (key : String) (derived : Derived Draft)
  | content (key : String) (derived : Derived Draft)
  | pointer (key : String) (target : Reference)

namespace Registration

def key : Registration → String
  | type key _ | content key _ | pointer key _ => key

/-- The element of the name, when the object of the registration has the number `id`. -/
def element (id : ObjectId) (old : Option TypeNode) : Registration → Option TypeNode
  | type _ _ => old
  | content _ _ => some (.object id)
  | pointer _ target => some (.reference target)

/-- The complex type of the name; one that is there stays when an element comes. -/
def complexType (id : ObjectId) (old : Option ObjectId) : Registration → Option ObjectId
  | type _ _ => some id
  | content _ _ => old.or (some id)
  | pointer _ _ => old

variable {σ : ObjectId → ObjectId}

theorem map_element (r : Registration) (id : ObjectId) (old : Option TypeNode) :
    (r.element id old).map (TypeNode.renumber σ) =
      r.element (σ id) (old.map (TypeNode.renumber σ)) := by
  cases r <;> rfl

theorem map_complexType (r : Registration) (id : ObjectId) (old : Option ObjectId) :
    (r.complexType id old).map σ = r.complexType (σ id) (old.map σ) := by
  cases r with
  | content _ _ => cases old <;> rfl
  | type _ _ => rfl
  | pointer _ _ => rfl

theorem element_below {r : Registration} {id n : Nat} {old : Option TypeNode}
    (hid : id < n ∨ ∃ key target, r = .pointer key target) (hold : ∀ type ∈ old, type.Below n) :
    ∀ type ∈ r.element id old, type.Below n := by
  intro type htype
  cases r with
  | type _ _ => exact hold type htype
  | content _ _ =>
    obtain rfl := Option.some.inj htype
    exact hid.resolve_right (by simp)
  | pointer _ _ =>
    obtain rfl := Option.some.inj htype
    trivial

theorem complexType_lt {r : Registration} {id n : Nat} {old : Option ObjectId}
    (hid : id < n ∨ ∃ key target, r = .pointer key target) (hold : ∀ id ∈ old, id < n) :
    ∀ other ∈ r.complexType id old, other < n := by
  intro other hother
  cases r with
  | type _ _ =>
    obtain rfl := Option.some.inj hother
    exact hid.resolve_right (by simp)
  | content _ _ =>
    rcases Option.or_eq_some_iff.1 hother with hother | ⟨_, hother⟩
    · exact hold other hother
    · obtain rfl := Option.some.inj hother
      exact hid.resolve_right (by simp)
  | pointer _ _ => exact hold other hother

end Registration

namespace Building

def register (b : Building) : Registration → Building
  | .type key derived =>
    let (graph, id, extensions) := Draft.placeObject b.graph derived
    { b with
      graph := { graph with complexTypes := graph.complexTypes.put key id }
      extensions := b.extensions ++ extensions }
  | .content key derived =>
    let (graph, id, extensions) := Draft.placeObject b.graph derived
    { b with
      graph := { graph with
        elements := graph.elements.put key (.object id)
        complexTypes := graph.complexTypes.putNew key id }
      extensions := b.extensions ++ extensions }
  | .pointer key target =>
    { b with graph := { b.graph with elements := b.graph.elements.put key (.reference target) } }

abbrev size (b : Building) : Nat := b.graph.objects.length

/-- A registration puts a block of objects after those that are there, and gives its name one of
them. -/
structure Adds (r : Registration) (block : Block) (root : ObjectId) (b : Building) : Prop where
  objects : (b.register r).graph.objects = (block.into b.graph).objects
  extensions : (b.register r).extensions = b.extensions ++ block.extensionsFrom b.size
  elements : ∀ key, (b.register r).graph.elements.value? key =
    if key = r.key then r.element (b.size + root) (b.graph.elements.value? key)
    else b.graph.elements.value? key
  complexTypes : ∀ key, (b.register r).graph.complexTypes.value? key =
    if key = r.key then r.complexType (b.size + root) (b.graph.complexTypes.value? key)
    else b.graph.complexTypes.value? key

theorem exists_adds (r : Registration) : ∃ (block : Block) (root : ObjectId),
    (root < block.objects.length ∨ ∃ key target, r = .pointer key target) ∧
      ∀ b, Adds r block root b := by
  cases r with
  | type key derived =>
    obtain ⟨block, root, hroot, hplace⟩ := Draft.exists_block.2.1 {} derived
    refine ⟨block, root, .inl hroot, fun b => ?_⟩
    constructor <;> simp only [register, hplace]
    · exact fun k => (ite_self _).symm
    · exact Table.value?_put _ key _
  | content key derived =>
    obtain ⟨block, root, hroot, hplace⟩ := Draft.exists_block.2.1 {} derived
    refine ⟨block, root, .inl hroot, fun b => ?_⟩
    constructor <;> simp only [register, hplace]
    · exact Table.value?_put _ key _
    · intro k
      rw [Table.value?_putNew]
      by_cases hk : k = key <;> simp [Registration.complexType, Registration.key, hk, Block.into]
  | pointer key target =>
    refine ⟨.empty, 0, .inr ⟨key, target, rfl⟩, fun b => ?_⟩
    constructor
    · simp [register, Block.into, Block.empty, Block.objectsFrom]
    · simp [register, Block.empty, Block.extensionsFrom]
    · exact Table.value?_put _ key _
    · exact fun k => (ite_self _).symm

structure Closed (b : Building) : Prop where
  objects : ∀ id, (b.graph.object id).Below b.size
  elements : ∀ key type, b.graph.elements.value? key = some type → type.Below b.size
  complexTypes : ∀ key id, b.graph.complexTypes.value? key = some id → id < b.size
  extending : ∀ x ∈ b.extensions, x.id < b.size
  once : (b.extensions.map Extension.id).Nodup

structure Renumbered (σ : Equiv.Perm ObjectId) (b b' : Building) : Prop where
  size : b'.size = b.size
  fixed : ∀ id, b.size ≤ id → σ id = id
  object : ∀ id, b'.graph.object (σ id) = (b.graph.object id).renumber σ
  elements : ∀ key, b'.graph.elements.value? key =
    (b.graph.elements.value? key).map (TypeNode.renumber σ)
  complexTypes : ∀ key, b'.graph.complexTypes.value? key = (b.graph.complexTypes.value? key).map σ
  extensions : b'.extensions.Perm (b.extensions.map (Extension.renumber σ))

end Building

theorem Block.object_into (block : Block) (g : TypeGraph) (id : ObjectId) :
    (block.into g).object id = if id < g.objects.length then g.object id
      else (block.objects.getD (id - g.objects.length) {}).renumber (g.objects.length + ·) := by
  unfold TypeGraph.object Block.into Block.objectsFrom
  dsimp only
  split
  · next hlt => rw [List.getD_append _ _ _ _ hlt]
  · next hge =>
    rw [List.getD_append_right _ _ _ _ (Nat.le_of_not_lt hge)]
    simp only [List.getD_eq_getElem?_getD, List.getElem?_map]
    cases block.objects[id - g.objects.length]? <;> rfl

theorem Block.map_extensionsFrom {σ : ObjectId → ObjectId} {n m : Nat} (block : Block)
    (hσ : ∀ i < block.objects.length, σ (n + i) = m + i) :
    (block.extensionsFrom n).map (Extension.renumber σ) = block.extensionsFrom m := by
  simp only [extensionsFrom, List.map_map]
  exact List.map_congr_left fun x hx => by
    simp [Extension.renumber, hσ x.id (block.extending x hx)]

theorem Block.closed_getD (block : Block) (id : ObjectId) :
    (block.objects.getD id {}).Below block.objects.length := by
  rw [List.getD_eq_getElem?_getD]
  cases h : block.objects[id]? with
  | none => exact fun e he => by cases he
  | some o => exact block.closed o (List.mem_of_getElem? h)

namespace Building

variable {b b' b'' : Building} {r s : Registration} {σ τ : Equiv.Perm ObjectId}

theorem Adds.object {block : Block} {root : ObjectId} (h : Adds r block root b) (id : ObjectId) :
    (b.register r).graph.object id = if id < b.size then b.graph.object id
      else (block.objects.getD (id - b.size) {}).renumber (b.size + ·) := by
  have := block.object_into b.graph id
  unfold TypeGraph.object at this ⊢
  rw [h.objects, this]

theorem Adds.size {block : Block} {root : ObjectId} (h : Adds r block root b) :
    (b.register r).size = b.size + block.objects.length := by
  rw [Building.size, h.objects, block.length_into]

theorem Closed.register (h : b.Closed) (r : Registration) : (b.register r).Closed := by
  obtain ⟨block, root, hroot, hadds⟩ := exists_adds r
  have hb := hadds b
  have hle : b.size ≤ b.size + block.objects.length := Nat.le_add_right _ _
  have hnew := hroot.imp_left (Nat.add_lt_add_left · b.size)
  constructor
  · intro id
    rw [hb.object, hb.size]
    split
    · exact (h.objects id).mono hle
    · exact (block.closed_getD _).renumber fun id hid => Nat.add_lt_add_left hid _
  · intro key type htype
    have hold : ∀ type ∈ b.graph.elements.value? key, type.Below _ := fun type htype =>
      (h.elements key type htype).mono hle
    rw [hb.elements] at htype
    rw [hb.size]
    split at htype
    · exact Registration.element_below hnew hold type htype
    · exact hold type htype
  · intro key id hid
    have hold : ∀ id ∈ b.graph.complexTypes.value? key, id < _ := fun id hid =>
      Nat.lt_of_lt_of_le (h.complexTypes key id hid) hle
    rw [hb.complexTypes] at hid
    rw [hb.size]
    split at hid
    · exact Registration.complexType_lt hnew hold id hid
    · exact hold id hid
  · intro x hx
    rw [hb.extensions] at hx
    rw [hb.size]
    rcases List.mem_append.1 hx with hx | hx
    · exact Nat.lt_of_lt_of_le (h.extending x hx) hle
    · obtain ⟨x', hx', rfl⟩ := List.mem_map.1 hx
      exact Nat.add_lt_add_left (block.extending x' hx') _
  · rw [hb.extensions]
    exact Extension.nodup_append_renumber h.once h.extending block.once

section

variable {σ : ObjectId → ObjectId} (h : b.Closed) (hσ : ∀ id < b.size, σ id = id)

include h hσ

theorem Closed.map_element (key : String) :
    (b.graph.elements.value? key).map (TypeNode.renumber σ) = b.graph.elements.value? key := by
  cases hvalue : b.graph.elements.value? key with
  | none => rfl
  | some type =>
    have hid : type.renumber σ = type.renumber id :=
      TypeNode.renumber_congr (h.elements key type hvalue) hσ
    rw [Option.map_some, hid, TypeNode.renumber_id]

theorem Closed.map_complexType (key : String) : (b.graph.complexTypes.value? key).map σ =
    b.graph.complexTypes.value? key := by
  cases hvalue : b.graph.complexTypes.value? key with
  | none => rfl
  | some id => rw [Option.map_some, hσ id (h.complexTypes key id hvalue)]

theorem Closed.map_extensions : b.extensions.map (Extension.renumber σ) = b.extensions := by
  refine (List.map_congr_left fun x hx => ?_).trans (List.map_id _)
  rw [Extension.renumber, hσ x.id (h.extending x hx)]
  rfl

end

theorem closed_empty : Closed {} where
  objects id e he := by simp [TypeGraph.object] at he
  elements key type h := by cases h
  complexTypes key id h := by cases h
  extending := by simp
  once := by simp

theorem Renumbered.refl (b : Building) : Renumbered (Equiv.refl _) b b where
  size := rfl
  fixed _ _ := rfl
  object id := by simp [ObjectType.renumber, Member.map]
  elements key := by
    have hid : TypeNode.renumber (Equiv.refl ObjectId) = id := funext TypeNode.renumber_id
    rw [hid, Option.map_id_fun, id]
  complexTypes key := by simp
  extensions := List.Perm.of_eq (List.map_id _).symm

theorem Renumbered.trans (h : Renumbered σ b b') (h' : Renumbered τ b' b'') :
    Renumbered (σ.trans τ) b b'' where
  size := h'.size.trans h.size
  fixed id hid := by
    have hσ := h.fixed id hid
    rw [Equiv.trans_apply, hσ, h'.fixed id (h.size ▸ hid)]
  object id := by
    rw [Equiv.trans_apply, h'.object, h.object, ObjectType.renumber_renumber]
    rfl
  elements key := by
    rw [h'.elements, h.elements, Option.map_map]
    congr 1
    funext type
    exact type.renumber_renumber
  complexTypes key := by
    rw [h'.complexTypes, h.complexTypes, Option.map_map]
    rfl
  extensions := by
    refine h'.extensions.trans ((h.extensions.map _).trans (List.Perm.of_eq ?_))
    rw [List.map_map]
    rfl

theorem Renumbered.lt (h : Renumbered σ b b') {id : ObjectId} (hid : id < b.size) :
    σ id < b.size := by
  refine Nat.lt_of_not_le fun hle => ?_
  have heq := σ.injective (h.fixed _ hle)
  rw [heq] at hle
  exact Nat.not_lt.2 hle hid

theorem Renumbered.symm (h : Renumbered σ b b') : Renumbered σ.symm b' b where
  size := h.size.symm
  fixed id hid := (Equiv.symm_apply_eq σ).2 (h.fixed id (h.size ▸ hid)).symm
  object id := by
    have hobject := h.object (σ.symm id)
    rw [Equiv.apply_symm_apply] at hobject
    rw [hobject, ObjectType.renumber_renumber, Equiv.symm_comp_self]
    simp [ObjectType.renumber, Member.map]
  elements key := by
    rw [h.elements, Option.map_map]
    have hid : TypeNode.renumber σ.symm ∘ TypeNode.renumber σ = id := by
      funext type
      simp
    rw [hid, Option.map_id_fun, id]
  complexTypes key := by
    rw [h.complexTypes, Option.map_map, Equiv.symm_comp_self, Option.map_id_fun, id]
  extensions := by
    refine ((h.extensions.map (Extension.renumber σ.symm)).trans (List.Perm.of_eq ?_)).symm
    rw [List.map_map]
    refine (List.map_congr_left fun x _ => ?_).trans (List.map_id _)
    simp [Extension.renumber]

theorem Renumbered.closed (h : Renumbered σ b b') (hb : b.Closed) : b'.Closed := by
  have hlt : ∀ id < b.size, σ id < b'.size := fun id hid => h.size ▸ h.lt hid
  constructor
  · intro id
    have hobject := h.object (σ.symm id)
    rw [Equiv.apply_symm_apply] at hobject
    exact hobject ▸ (hb.objects _).renumber hlt
  · intro key type htype
    obtain ⟨old, hold, rfl⟩ := Option.map_eq_some_iff.1 ((h.elements key).symm.trans htype)
    exact (hb.elements key old hold).renumber hlt
  · intro key id hid
    obtain ⟨old, hold, rfl⟩ := Option.map_eq_some_iff.1 ((h.complexTypes key).symm.trans hid)
    exact hlt old (hb.complexTypes key old hold)
  · intro x' hx'
    obtain ⟨x, hx, rfl⟩ := List.mem_map.1 (h.extensions.mem_iff.1 hx')
    exact hlt x.id (hb.extending x hx)
  · refine ((h.extensions.map Extension.id).nodup_iff).2 ?_
    have hids := hb.once.map σ.injective
    rw [List.map_map] at hids ⊢
    exact hids

theorem Renumbered.register (h : Renumbered σ b b') (r : Registration) :
    Renumbered σ (b.register r) (b'.register r) := by
  obtain ⟨block, root, _, hadds⟩ := exists_adds r
  have hb := hadds b
  have hb' := hadds b'
  -- new numbers are the same in both
  have hnew : (σ : ObjectId → ObjectId) ∘ (b.size + ·) = (b.size + ·) :=
    funext fun id => h.fixed _ (Nat.le_add_right _ _)
  constructor
  · rw [hb.size, hb'.size, h.size]
  · intro id hid
    rw [hb.size] at hid
    exact h.fixed id (Nat.le_trans (Nat.le_add_right _ _) hid)
  · intro id
    rw [hb.object, hb'.object, h.size]
    by_cases hid : id < b.size
    · rw [if_pos hid, if_pos (h.lt hid), h.object]
    · rw [h.fixed id (Nat.le_of_not_lt hid), if_neg hid, if_neg hid,
        ObjectType.renumber_renumber, hnew]
  · intro key
    rw [hb.elements, hb'.elements, h.elements, h.size]
    split
    · rw [r.map_element, h.fixed _ (Nat.le_add_right _ root)]
    · rfl
  · intro key
    rw [hb.complexTypes, hb'.complexTypes, h.complexTypes, h.size]
    split
    · rw [r.map_complexType, h.fixed _ (Nat.le_add_right _ root)]
    · rfl
  · rw [hb.extensions, hb'.extensions, List.map_append, h.size]
    refine h.extensions.append (List.Perm.of_eq ?_)
    exact (block.map_extensionsFrom fun i _ => congrFun hnew i).symm

theorem Renumbered.foldl (h : Renumbered σ b b') (l : List Registration) :
    Renumbered σ (l.foldl Building.register b) (l.foldl Building.register b') := by
  induction l generalizing b b' with
  | nil => exact h
  | cons r rest ih => exact ih (h.register r)

theorem Closed.foldl (h : b.Closed) (l : List Registration) :
    (l.foldl Building.register b).Closed := by
  induction l generalizing b with
  | nil => exact h
  | cons r rest ih => exact ih (h.register r)

def exchange (n k l : Nat) : Equiv.Perm Nat where
  toFun i := if i < n then i else if i < n + k then i + l else if i < n + k + l then i - k else i
  invFun i := if i < n then i else if i < n + l then i + k else if i < n + l + k then i - l else i
  left_inv i := by
    dsimp only
    split_ifs <;> omega
  right_inv i := by
    dsimp only
    split_ifs <;> omega

section

variable {n k l i : Nat}

theorem exchange_of_lt (h : i < n) : exchange n k l i = i := if_pos h

theorem exchange_first (h : i < k) : exchange n k l (n + i) = n + l + i := by
  simp only [exchange, Equiv.coe_fn_mk]
  split_ifs <;> omega

theorem exchange_second (h : i < l) : exchange n k l (n + k + i) = n + i := by
  simp only [exchange, Equiv.coe_fn_mk]
  split_ifs <;> omega

theorem exchange_of_le (h : n + k + l ≤ i) : exchange n k l i = i := by
  simp only [exchange, Equiv.coe_fn_mk]
  split_ifs <;> omega

end

theorem object_register_register {first second : Block} {root root' : ObjectId}
    (hr : Adds r first root b) (hs : Adds s second root' (b.register r)) :
    (∀ id < b.size, ((b.register r).register s).graph.object id = b.graph.object id) ∧
    (∀ i < first.objects.length, ((b.register r).register s).graph.object (b.size + i) =
      (first.objects.getD i {}).renumber (b.size + ·)) ∧
    ∀ i, ((b.register r).register s).graph.object (b.size + first.objects.length + i) =
      (second.objects.getD i {}).renumber (b.size + first.objects.length + ·) := by
  refine ⟨fun id hid => ?_, fun i hi => ?_, fun i => ?_⟩
  · rw [hs.object, hr.object, hr.size, if_pos (Nat.lt_add_right _ hid), if_pos hid]
  · rw [hs.object, hr.object, hr.size, if_pos (Nat.add_lt_add_left hi _),
      if_neg (Nat.not_lt.2 (Nat.le_add_right _ _)), Nat.add_sub_cancel_left]
  · rw [hs.object, hr.size, if_neg (Nat.not_lt.2 (Nat.le_add_right _ _)), Nat.add_sub_cancel_left]

theorem object_exchange {first second : Block} {root root' : ObjectId} (hb : b.Closed)
    (hr : Adds r first root b) (hrs : Adds s second root' (b.register r))
    (hs : Adds s second root' b) (hsr : Adds r first root (b.register s)) (id : ObjectId) :
    ((b.register s).register r).graph.object
        (exchange b.size first.objects.length second.objects.length id) =
      (((b.register r).register s).graph.object id).renumber
        (exchange b.size first.objects.length second.objects.length) := by
  obtain ⟨hold, hold₁, hold₂⟩ := object_register_register hr hrs
  obtain ⟨hnew, hnew₂, hnew₁⟩ := object_register_register hs hsr
  rcases Nat.lt_or_ge id b.size with hlt | hge
  · -- an object from before refers to none of the new ones
    rw [exchange_of_lt hlt, hold id hlt, hnew id hlt,
      ObjectType.renumber_eq_self (hb.objects id) fun _ => exchange_of_lt]
  obtain ⟨i, rfl⟩ := Nat.exists_eq_add_of_le hge
  rcases Nat.lt_or_ge i first.objects.length with hi | hi
  · rw [exchange_first hi, hold₁ i hi, hnew₁, ObjectType.renumber_renumber]
    exact (ObjectType.renumber_congr (first.closed_getD i) fun _ => exchange_first).symm
  obtain ⟨j, rfl⟩ := Nat.exists_eq_add_of_le hi
  rw [← Nat.add_assoc]
  rcases Nat.lt_or_ge j second.objects.length with hj | hj
  · rw [exchange_second hj, hold₂, hnew₂ j hj, ObjectType.renumber_renumber]
    exact (ObjectType.renumber_congr (second.closed_getD j) fun _ => exchange_second).symm
  · -- numbers that are in use in neither
    obtain ⟨l, rfl⟩ := Nat.exists_eq_add_of_le hj
    have hfixed := @exchange_of_le b.size first.objects.length second.objects.length
      (b.size + first.objects.length + (second.objects.length + l)) (by omega)
    have hswap : b.size + first.objects.length + (second.objects.length + l) =
        b.size + second.objects.length + (first.objects.length + l) := by omega
    rw [hfixed, hold₂, hswap, hnew₁, List.getD_eq_default _ _ (Nat.le_add_right _ _),
      List.getD_eq_default _ _ (Nat.le_add_right _ _)]
    rfl

theorem moved_entries {block : Block} {root n m : Nat} {σ : ObjectId → ObjectId}
    (hroot : root < block.objects.length ∨ ∃ key target, r = .pointer key target)
    (hσ : ∀ i < block.objects.length, σ (n + i) = m + i) :
    (∀ old, old.map (TypeNode.renumber σ) = old →
      (r.element (n + root) old).map (TypeNode.renumber σ) = r.element (m + root) old) ∧
    ∀ old, old.map σ = old → (r.complexType (n + root) old).map σ =
      r.complexType (m + root) old := by
  rcases hroot with hroot | ⟨_, _, rfl⟩
  · refine ⟨fun old hold => ?_, fun old hold => ?_⟩
    · rw [r.map_element, hσ root hroot, hold]
    · rw [r.map_complexType, hσ root hroot, hold]
  · exact ⟨fun _ _ => rfl, fun _ hold => hold⟩

theorem entry_comm {α : Type} {f : α → α} {old : Option α} {first first' second second' :
    Option α → Option α} {k k' : String} (hne : k ≠ k') (hold : old.map f = old)
    (hfirst : ∀ old, old.map f = old → (first old).map f = first' old)
    (hsecond : ∀ old, old.map f = old → (second old).map f = second' old) (key : String) :
    (if key = k then first' (if key = k' then second' old else old)
      else if key = k' then second' old else old) =
    (if key = k' then second (if key = k then first old else old)
      else if key = k then first old else old).map f := by
  by_cases hk : key = k
  · have hk' : key ≠ k' := hk ▸ hne
    rw [if_pos hk, if_neg hk', if_neg hk', if_pos hk, hfirst old hold]
  · rw [if_neg hk, if_neg hk]
    split
    · exact (hsecond old hold).symm
    · exact hold.symm

theorem register_comm (hb : b.Closed) (hkey : r.key ≠ s.key) :
    ∃ σ, Renumbered σ ((b.register r).register s) ((b.register s).register r) := by
  obtain ⟨first, root, hroot, hadds⟩ := exists_adds r
  obtain ⟨second, root', hroot', hadds'⟩ := exists_adds s
  have hr := hadds b
  have hrs := hadds' (b.register r)
  have hs := hadds' b
  have hsr := hadds (b.register s)
  let σ := exchange b.size first.objects.length second.objects.length
  have hkeep : ∀ id < b.size, σ id = id := fun _ => exchange_of_lt
  have hfirst : ∀ i < first.objects.length, σ (b.size + i) = b.size + second.objects.length + i :=
    fun _ => exchange_first
  have hsecond : ∀ i < second.objects.length,
      σ (b.size + first.objects.length + i) = b.size + i := fun _ => exchange_second
  obtain ⟨helement, htype⟩ := moved_entries hroot hfirst
  obtain ⟨helement', htype'⟩ := moved_entries hroot' hsecond
  refine ⟨σ, ?size, ?fixed, object_exchange hb hr hrs hs hsr, ?elements, ?complexTypes,
    ?extensions⟩
  case size =>
    rw [hrs.size, hr.size, hsr.size, hs.size]
    omega
  case fixed =>
    intro id hid
    rw [hrs.size, hr.size] at hid
    exact exchange_of_le hid
  case elements =>
    intro key
    rw [hrs.elements, hr.elements, hsr.elements, hs.elements, hr.size, hs.size]
    exact entry_comm hkey (hb.map_element hkeep key) helement helement' key
  case complexTypes =>
    intro key
    rw [hrs.complexTypes, hr.complexTypes, hsr.complexTypes, hs.complexTypes, hr.size, hs.size]
    exact entry_comm hkey (hb.map_complexType hkeep key) htype htype' key
  case extensions =>
    rw [hrs.extensions, hr.extensions, hsr.extensions, hs.extensions, hr.size, hs.size,
      List.map_append, List.map_append, hb.map_extensions hkeep, first.map_extensionsFrom hfirst,
      second.map_extensionsFrom hsecond, List.append_assoc, List.append_assoc]
    exact List.perm_append_comm.append_left _

theorem foldl_register_perm {l l' : List Registration} (hperm : l.Perm l')
    (hkeys : (l.map Registration.key).Nodup) (h : Renumbered σ b b') (hb : b.Closed) :
    ∃ σ', Renumbered σ' (l.foldl register b) (l'.foldl register b') := by
  induction hperm generalizing σ b b' with
  | nil => exact ⟨σ, h⟩
  | cons r _ ih => exact ih (List.nodup_cons.1 hkeys).2 (h.register r) (hb.register r)
  | swap r s rest =>
    have hne : s.key ≠ r.key := by
      have hnew := (List.nodup_cons.1 hkeys).1
      exact fun heq => hnew (heq ▸ List.mem_cons_self)
    obtain ⟨ρ, hρ⟩ := register_comm hb hne
    exact ⟨_, (hρ.trans ((h.register r).register s)).foldl rest⟩
  | trans hfirst _ ih ih' =>
    obtain ⟨ρ, hρ⟩ := ih hkeys (Renumbered.refl b) hb
    obtain ⟨τ, hτ⟩ := ih' ((hfirst.map _).nodup_iff.1 hkeys) h hb
    exact ⟨_, hρ.trans hτ⟩

/-- A registration comes before those of other names. -/
theorem foldl_register_front {l : List Registration} (hb : b.Closed)
    (hkeys : ∀ s ∈ l, s.key ≠ r.key) :
    ∃ σ, Renumbered σ ((l ++ [r]).foldl register b) ((r :: l).foldl register b) := by
  induction l generalizing b with
  | nil => exact ⟨_, .refl _⟩
  | cons s rest ih =>
    obtain ⟨τ, hτ⟩ := ih (hb.register s) fun s' hs' => hkeys s' (List.mem_cons_of_mem _ hs')
    obtain ⟨ρ, hρ⟩ := register_comm hb (hkeys s List.mem_cons_self)
    exact ⟨_, hτ.trans (hρ.foldl rest)⟩

theorem foldl_register_partition (hb : b.Closed) (p : String → Bool) (l : List Registration) :
    ∃ σ, Renumbered σ (l.foldl register b)
      ((l.filter (fun r => p r.key) ++ l.filter fun r => !p r.key).foldl register b) := by
  induction l generalizing b with
  | nil => exact ⟨_, .refl b⟩
  | cons r rest ih =>
    obtain ⟨σ, hσ⟩ := ih (hb.register r)
    cases hr : p r.key with
    | true =>
      simp only [List.filter_cons, hr, if_true, Bool.not_true, Bool.false_eq_true, if_false]
      exact ⟨σ, hσ⟩
    | false =>
      simp only [List.filter_cons, hr, Bool.false_eq_true, if_false, Bool.not_false, if_true]
      -- those of the names come before this one too
      obtain ⟨τ, hτ⟩ := @foldl_register_front b r (rest.filter fun r => p r.key) hb
        fun s hs heq => by simp [← heq, (List.mem_filter.1 hs).2] at hr
      rw [List.foldl_append] at hσ
      rw [List.append_cons, List.foldl_append]
      exact ⟨_, hσ.trans (hτ.symm.foldl _)⟩

end Building

end SoapComponents
