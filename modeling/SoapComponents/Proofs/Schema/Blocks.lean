import SoapComponents.Proofs.Schema.Placement

/-!
Objects by their numbers. A draft comes into every graph as the same block of objects, whose
numbers start where the graph ended, and a block refers to no object outside itself.
-/

set_option autoImplicit false

namespace SoapComponents

variable {σ τ : ObjectId → ObjectId} {n m : Nat}

namespace TypeNode

def renumber (σ : ObjectId → ObjectId) : TypeNode → TypeNode
  | primitive name => .primitive name
  | reference pointer => .reference pointer
  | object id => .object (σ id)

def Below (n : Nat) : TypeNode → Prop
  | object id => id < n
  | _ => True

theorem Below.mono {type : TypeNode} (h : type.Below n) (hle : n ≤ m) : type.Below m := by
  cases type with
  | object id => exact Nat.lt_of_lt_of_le h hle
  | primitive _ => trivial
  | reference _ => trivial

theorem Below.renumber {type : TypeNode} (h : type.Below n) (hσ : ∀ id < n, σ id < m) :
    (type.renumber σ).Below m := by
  cases type with
  | object id => exact hσ id h
  | primitive _ => trivial
  | reference _ => trivial

theorem renumber_congr {type : TypeNode} (h : type.Below n) (hσ : ∀ id < n, σ id = τ id) :
    type.renumber σ = type.renumber τ := by
  cases type with
  | object id => exact congrArg TypeNode.object (hσ id h)
  | primitive _ => rfl
  | reference _ => rfl

@[simp] theorem renumber_renumber (type : TypeNode) :
    (type.renumber τ).renumber σ = type.renumber (σ ∘ τ) := by
  cases type <;> rfl

@[simp] theorem renumber_id (type : TypeNode) : type.renumber id = type := by
  cases type <;> rfl

end TypeNode

namespace ObjectType

def renumber (σ : ObjectId → ObjectId) (o : ObjectType TypeNode) : ObjectType TypeNode :=
  { o with members := o.members.map fun e => (e.1, e.2.map (TypeNode.renumber σ)) }

def Below (n : Nat) (o : ObjectType TypeNode) : Prop := ∀ e ∈ o.members, e.2.type.Below n

theorem Below.mono {o : ObjectType TypeNode} (h : o.Below n) (hle : n ≤ m) : o.Below m :=
  fun e he => (h e he).mono hle

theorem Below.renumber {o : ObjectType TypeNode} (h : o.Below n) (hσ : ∀ id < n, σ id < m) :
    (o.renumber σ).Below m := by
  intro e he
  obtain ⟨e', he', rfl⟩ := List.mem_map.1 he
  exact (h e' he').renumber hσ

theorem renumber_congr {o : ObjectType TypeNode} (h : o.Below n) (hσ : ∀ id < n, σ id = τ id) :
    o.renumber σ = o.renumber τ := by
  have hmembers : (o.members.map fun e => (e.1, e.2.map (TypeNode.renumber σ))) =
      o.members.map fun e => (e.1, e.2.map (TypeNode.renumber τ)) :=
    List.map_congr_left fun e he => by
      simp only [Member.map, TypeNode.renumber_congr (h e he) hσ]
  simp only [renumber, hmembers]

@[simp] theorem renumber_renumber (o : ObjectType TypeNode) :
    (o.renumber τ).renumber σ = o.renumber (σ ∘ τ) := by
  simp [renumber, Member.map, Function.comp_def]

theorem renumber_eq_self {o : ObjectType TypeNode} (h : o.Below n) (hσ : ∀ id < n, σ id = id) :
    o.renumber σ = o := by
  have hid : o.renumber σ = o.renumber id := renumber_congr h hσ
  rw [hid]
  simp [renumber, Member.map]

end ObjectType

namespace Extension

def renumber (σ : ObjectId → ObjectId) (x : Extension) : Extension := { x with id := σ x.id }

theorem nodup_append_renumber {xs ys : List Extension} (hxs : (xs.map Extension.id).Nodup)
    (hlt : ∀ x ∈ xs, x.id < n) (hys : (ys.map Extension.id).Nodup) :
    ((xs ++ ys.map (renumber (n + ·))).map Extension.id).Nodup := by
  rw [List.map_append]
  refine List.nodup_append.2 ⟨hxs, ?_, ?_⟩
  · have hmoved := hys.map (f := (n + ·)) fun _ _ => Nat.add_left_cancel
    rw [List.map_map] at hmoved ⊢
    exact hmoved
  · intro id hid id' hid' heq
    obtain ⟨x, hx, rfl⟩ := List.mem_map.1 hid
    obtain ⟨y, hy, rfl⟩ := List.mem_map.1 hid'
    obtain ⟨y, -, rfl⟩ := List.mem_map.1 hy
    exact absurd (heq ▸ hlt x hx) (Nat.not_lt.2 (Nat.le_add_right _ _))

end Extension

structure Block where
  objects : List ObjectNode
  extensions : List Extension
  closed : ∀ o ∈ objects, o.Below objects.length
  extending : ∀ x ∈ extensions, x.id < objects.length
  once : (extensions.map Extension.id).Nodup

namespace Block

def objectsFrom (b : Block) (n : Nat) : List ObjectNode :=
  b.objects.map (ObjectType.renumber (n + ·))

def extensionsFrom (b : Block) (n : Nat) : List Extension :=
  b.extensions.map (Extension.renumber (n + ·))

def into (b : Block) (g : TypeGraph) : TypeGraph :=
  { g with objects := g.objects ++ b.objectsFrom g.objects.length }

def empty : Block where
  objects := []
  extensions := []
  closed := by simp
  extending := by simp
  once := by simp

def append (b c : Block) : Block where
  objects := b.objects ++ c.objectsFrom b.objects.length
  extensions := b.extensions ++ c.extensionsFrom b.objects.length
  closed := by
    intro o ho
    simp only [objectsFrom, List.length_append, List.length_map]
    rcases List.mem_append.1 ho with ho | ho
    · exact (b.closed o ho).mono (Nat.le_add_right _ _)
    · obtain ⟨o', ho', rfl⟩ := List.mem_map.1 ho
      exact (c.closed o' ho').renumber fun id hid => Nat.add_lt_add_left hid _
  extending := by
    intro x hx
    simp only [objectsFrom, List.length_append, List.length_map]
    rcases List.mem_append.1 hx with hx | hx
    · exact Nat.lt_add_right _ (b.extending x hx)
    · obtain ⟨x', hx', rfl⟩ := List.mem_map.1 hx
      exact Nat.add_lt_add_left (c.extending x' hx') _
  once := Extension.nodup_append_renumber b.once b.extending c.once

def add (b : Block) (o : ObjectNode) (extended : Option String) (h : o.Below b.objects.length) :
    Block where
  objects := b.objects ++ [o]
  extensions := (extended.map (Extension.mk b.objects.length)).toList ++ b.extensions
  closed := by
    intro o' ho'
    simp only [List.length_append]
    refine ObjectType.Below.mono ?_ (Nat.le_add_right _ _)
    rcases List.mem_append.1 ho' with ho' | ho'
    · exact b.closed o' ho'
    · exact List.mem_singleton.1 ho' ▸ h
  extending := by
    intro x hx
    simp only [List.length_append, List.length_singleton]
    rcases List.mem_append.1 hx with hx | hx
    · obtain ⟨key, rfl, rfl⟩ :
          ∃ key, extended = some key ∧ Extension.mk b.objects.length key = x := by
        simpa using hx
      exact Nat.lt_succ_self _
    · exact Nat.lt_succ_of_lt (b.extending x hx)
  once := by
    cases extended with
    | none => exact b.once
    | some key =>
      refine List.nodup_cons.2 ⟨fun hmem => ?_, b.once⟩
      obtain ⟨x, hx, hid⟩ := List.mem_map.1 hmem
      exact absurd (hid ▸ b.extending x hx) (Nat.lt_irrefl _)

theorem length_into (b : Block) (g : TypeGraph) :
    (b.into g).objects.length = g.objects.length + b.objects.length := by
  simp [into, objectsFrom]

theorem into_append (b c : Block) (g : TypeGraph) : (b.append c).into g = c.into (b.into g) := by
  simp [into, append, objectsFrom, Function.comp_def, Nat.add_assoc]

theorem extensionsFrom_append (b c : Block) (n : Nat) :
    (b.append c).extensionsFrom n =
      b.extensionsFrom n ++ c.extensionsFrom (n + b.objects.length) := by
  simp [extensionsFrom, append, Function.comp_def, Extension.renumber, Nat.add_assoc]

end Block

namespace Draft

theorem block_placeObject {members : List (String × Member Draft)} {b : Block}
    {placed : List (String × Member TypeNode)}
    (hplaced : ∀ e ∈ placed, e.2.type.Below b.objects.length)
    (hplace : ∀ g, placeMembers g members =
      (b.into g, placed.map fun e => (e.1, e.2.map (TypeNode.renumber (g.objects.length + ·))),
        b.extensionsFrom g.objects.length))
    (space : Option String) (qualified : Option Bool) (base : Option String)
    (attributes : List (String × String)) (extended : Option String) :
    ∃ (b : Block) (root : ObjectId), root < b.objects.length ∧
      ∀ g, placeObject g ⟨⟨members, space, qualified, base, attributes⟩, extended⟩ =
        (b.into g, g.objects.length + root, b.extensionsFrom g.objects.length) := by
  let o : ObjectNode := ⟨Table.ofAssignments placed, space, qualified, base, attributes⟩
  have ho : o.Below b.objects.length := fun e he => hplaced e (Table.mem_of_mem_ofAssignments he)
  refine ⟨b.add o extended ho, b.objects.length, by simp [Block.add], fun g => ?_⟩
  have hobject : ObjectType.mk (Table.ofAssignments
      (placed.map fun e => (e.1, e.2.map (TypeNode.renumber (g.objects.length + ·)))))
      space qualified base attributes = o.renumber (g.objects.length + ·) := by
    simp only [ObjectType.renumber, o, Table.map_ofAssignments]
  simp only [placeObject, hplace, hobject, TypeGraph.addObject, Prod.mk.injEq]
  refine ⟨?_, b.length_into g, ?_⟩
  · simp [Block.into, Block.add, Block.objectsFrom]
  · rw [b.length_into g]
    cases extended <;> simp [Block.extensionsFrom, Block.add, Extension.renumber]

theorem block_placeMembers {member : Member Draft} {rest : List (String × Member Draft)}
    {b c : Block} {node : TypeNode} {placed : List (String × Member TypeNode)}
    (hnode : node.Below b.objects.length)
    (hplaced : ∀ e ∈ placed, e.2.type.Below c.objects.length)
    (hplace : ∀ g, place g member.type = (b.into g, node.renumber (g.objects.length + ·),
      b.extensionsFrom g.objects.length))
    (hrest : ∀ g, placeMembers g rest =
      (c.into g, placed.map fun e => (e.1, e.2.map (TypeNode.renumber (g.objects.length + ·))),
        c.extensionsFrom g.objects.length)) (key : String) :
    ∃ (b : Block) (placed : List (String × Member TypeNode)),
      (∀ e ∈ placed, e.2.type.Below b.objects.length) ∧
      ∀ g, placeMembers g ((key, member) :: rest) =
        (b.into g, placed.map fun e => (e.1, e.2.map (TypeNode.renumber (g.objects.length + ·))),
          b.extensionsFrom g.objects.length) := by
  have hlength : (b.append c).objects.length = b.objects.length + c.objects.length := by
    simp [Block.append, Block.objectsFrom]
  refine ⟨b.append c, (key, { member with type := node }) ::
    placed.map fun e => (e.1, e.2.map (TypeNode.renumber (b.objects.length + ·))), ?_, ?_⟩
  · rw [hlength]
    intro e he
    rcases List.mem_cons.1 he with rfl | he
    · exact hnode.mono (Nat.le_add_right _ _)
    · obtain ⟨e', he', rfl⟩ := List.mem_map.1 he
      exact (hplaced e' he').renumber fun id hid => Nat.add_lt_add_left hid _
  · intro g
    simp only [placeMembers, hplace, hrest, b.length_into g, Block.into_append,
      Block.extensionsFrom_append]
    simp [Member.map, Function.comp_def, Nat.add_assoc]

theorem exists_block :
    (∀ (_ : TypeGraph) (draft : Draft), ∃ (b : Block) (type : TypeNode),
      type.Below b.objects.length ∧ ∀ g, place g draft =
        (b.into g, type.renumber (g.objects.length + ·), b.extensionsFrom g.objects.length)) ∧
    (∀ (_ : TypeGraph) (derived : Derived Draft), ∃ (b : Block) (root : ObjectId),
      root < b.objects.length ∧ ∀ g, placeObject g derived =
        (b.into g, g.objects.length + root, b.extensionsFrom g.objects.length)) ∧
    ∀ (_ : TypeGraph) (members : List (String × Member Draft)),
      ∃ (b : Block) (placed : List (String × Member TypeNode)),
      (∀ e ∈ placed, e.2.type.Below b.objects.length) ∧ ∀ g, placeMembers g members =
        (b.into g, placed.map fun e => (e.1, e.2.map (TypeNode.renumber (g.objects.length + ·))),
          b.extensionsFrom g.objects.length) := by
  refine place.mutual_induct _ _ _ ?primitive ?reference ?object ?derived ?nil ?cons
  case primitive =>
    intro _ name
    exact ⟨.empty, .primitive name, trivial, fun g => by
      simp [place, Block.into, Block.empty, Block.objectsFrom, Block.extensionsFrom,
        TypeNode.renumber]⟩
  case reference =>
    intro _ key
    exact ⟨.empty, .reference ⟨key, none, none⟩, trivial, fun g => by
      simp [place, Block.into, Block.empty, Block.objectsFrom, Block.extensionsFrom,
        TypeNode.renumber]⟩
  case object =>
    intro _ derived _ _ _ _ ih
    obtain ⟨b, root, hroot, hplace⟩ := ih
    exact ⟨b, .object root, hroot, fun g => by simp [place, hplace, TypeNode.renumber]⟩
  case derived =>
    intro _ members space qualified base attributes extended _ _ _ _ _ _ _ ih
    obtain ⟨b, placed, hplaced, hplace⟩ := ih
    exact block_placeObject hplaced hplace space qualified base attributes extended
  case nil =>
    intro _
    exact ⟨.empty, [], by simp, fun g => by
      simp [placeMembers, Block.into, Block.empty, Block.objectsFrom, Block.extensionsFrom]⟩
  case cons =>
    intro _ key type minOccurs maxOccurs qualified space rest _ _ _ _ _ _ _ _ ihtype ihrest
    obtain ⟨b, node, hnode, hplace⟩ := ihtype
    obtain ⟨c, placed, hplaced, hrest⟩ := ihrest
    exact block_placeMembers hnode hplaced hplace hrest key

end Draft

end SoapComponents
