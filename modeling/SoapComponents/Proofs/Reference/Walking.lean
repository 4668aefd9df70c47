import SoapComponents.Proofs.Bounded
import SoapComponents.Reference.Reach

/-!
The walk that collects the named types of a root, step by step. It looks at one member at a time,
and goes into each object once. What it has looked at in the end, and by which ways it came there,
is the account of a walk; and the walk is that of nested calls, which go no deeper than there are
objects.
-/

set_option autoImplicit false

namespace SoapComponents.Catalog

variable {c : Catalog}

def enter (c : Catalog) (r : Reached) (id : ObjectId) :
    List (String × Member TypeNode) × Reached :=
  if (c.graph.object id).members = [] ∨ id ∈ r.visited then ([], r)
  else ((c.graph.object id).members, { r with visited := id :: r.visited })

def look (c : Catalog) (r : Reached) (m : Member TypeNode) :
    Noted (List (String × Member TypeNode) × Reached) :=
  match m.type with
  | .primitive _ => return ([], r)
  | .object id => return c.enter r id
  | .reference pointer => do
    match ← c.resolveObject pointer.name with
    | none => return ([], r)
    | some (id, resolution) =>
      if resolution.key ∈ r.keys then return ([], r)
      else return c.enter { r with keys := resolution.key :: r.keys } id

/-- What is said of the object that a member holds, and of the object that it refers to with the key
under which that is found. -/
def Each (c : Catalog) (held : ObjectId → Prop) (found : String → ObjectId → Prop)
    (m : Member TypeNode) : Prop :=
  (∀ id, m.type = .object id → held id) ∧
    ∀ pointer id resolution, m.type = .reference pointer →
      (c.resolveObject pointer.name).value = some (id, resolution) → found resolution.key id

def Entered (c : Catalog) (r : Reached) (id : ObjectId) : Prop :=
  (c.graph.object id).members = [] ∨ id ∈ r.visited

/-- A member has been looked at: the object that it holds is gone into, and the key of the object
that it refers to is collected. -/
def Done (c : Catalog) (r : Reached) : Member TypeNode → Prop :=
  c.Each (c.Entered r) fun key _ => key ∈ r.keys

theorem enter_cases (c : Catalog) (r : Reached) (id : ObjectId) :
    (c.Entered r id ∧ c.enter r id = ([], r)) ∨
      ((c.graph.object id).members ≠ [] ∧ id ∉ r.visited ∧
        c.enter r id = ((c.graph.object id).members, { r with visited := id :: r.visited })) := by
  unfold enter Entered
  split
  · next h => exact .inl ⟨h, rfl⟩
  · next h =>
    rw [not_or] at h
    exact .inr ⟨h.1, h.2, rfl⟩

/-- All that one member can do: nothing, or go into the object that it holds, or collect a new key
and go into the object that it refers to. -/
theorem look_cases (c : Catalog) (r : Reached) (m : Member TypeNode) :
    (c.Done r m ∧ (c.look r m).value = ([], r)) ∨
    (∃ id, m.type = .object id ∧ (c.look r m).value = c.enter r id) ∨
    (∃ pointer id resolution, m.type = .reference pointer ∧
      (c.resolveObject pointer.name).value = some (id, resolution) ∧ resolution.key ∉ r.keys ∧
      (c.look r m).value = c.enter { r with keys := resolution.key :: r.keys } id) := by
  unfold look Done Each
  cases htype : m.type with
  | primitive name => exact .inl ⟨⟨by simp, by simp⟩, rfl⟩
  | object id => exact .inr (.inl ⟨id, rfl, rfl⟩)
  | reference pointer =>
    simp only [Noted.value_bind]
    cases hfound : (c.resolveObject pointer.name).value with
    | none =>
      refine .inl ⟨⟨by simp, ?_⟩, rfl⟩
      rintro _ id resolution ⟨⟩ hsome
      simp [hfound] at hsome
    | some found =>
      obtain ⟨id, resolution⟩ := found
      by_cases hkey : resolution.key ∈ r.keys
      · refine .inl ⟨⟨by simp, ?_⟩, by simp [hkey]⟩
        rintro _ id' resolution' ⟨⟩ hsome
        rw [hfound] at hsome
        obtain ⟨-, rfl⟩ := Prod.mk.inj (Option.some.inj hsome)
        exact hkey
      · exact .inr (.inr ⟨pointer, id, resolution, rfl, hfound, hkey, by simp [hkey]⟩)

theorem reachFrom_enter (c : Catalog) (rest : List (String × Member TypeNode)) (r : Reached)
    (id : ObjectId) :
    c.reachFrom ((c.enter r id).1 ++ rest) (c.enter r id).2 =
      if (c.graph.object id).members = [] then c.reachFrom rest r
      else if id ∈ r.visited then c.reachFrom rest r
      else c.reachFrom ((c.graph.object id).members ++ rest)
        { r with visited := id :: r.visited } := by
  rcases c.enter_cases r id with ⟨hentered, heq⟩ | ⟨hmembers, hvisited, heq⟩
  · rw [heq]
    rcases hentered with h | h
    · rw [if_pos h, List.nil_append]
    · rw [if_pos h, ite_self, List.nil_append]
  · rw [heq, if_neg hmembers, if_neg hvisited]

theorem reachFrom_cons (c : Catalog) (e : String × Member TypeNode)
    (rest : List (String × Member TypeNode)) (r : Reached) :
    c.reachFrom (e :: rest) r = c.look r e.2 >>= fun s => c.reachFrom (s.1 ++ rest) s.2 := by
  rw [reachFrom]
  unfold look
  cases htype : e.2.type with
  | primitive name => rfl
  | object id => exact (c.reachFrom_enter rest r id).symm
  | reference pointer =>
    rw [bind_assoc]
    show Noted.andThen (Noted.tellAll (c.resolveObject pointer.name).notices) _ =
      Noted.andThen (Noted.tellAll (c.resolveObject pointer.name).notices) fun _ => _
    congr 1
    funext _
    cases (c.resolveObject pointer.name).value with
    | none => rfl
    | some found =>
      by_cases hkey : found.2.key ∈ r.keys
      · simp only [if_pos hkey]
        rfl
      · simp only [if_neg hkey]
        exact (c.reachFrom_enter rest _ found.1).symm

theorem reachFrom_induction {motive : List (String × Member TypeNode) → Reached → Prop}
    (nil : ∀ r, motive [] r)
    (cons : ∀ e rest r, motive ((c.look r e.2).value.1 ++ rest) (c.look r e.2).value.2 →
      motive (e :: rest) r)
    (pending : List (String × Member TypeNode)) (r : Reached) : motive pending r := by
  induction pending, r using reachFrom.induct c with
  | case1 r => exact nil r
  | case2 r key m rest name htype ih => exact cons _ _ _ (by simpa [look, htype] using ih)
  | case3 r key m rest id htype hmembers ih =>
    exact cons _ _ _ (by simpa [look, htype, enter, hmembers] using ih)
  | case4 r key m rest id htype hmembers hvisited ih =>
    exact cons _ _ _ (by simpa [look, htype, enter, hvisited] using ih)
  | case5 r key m rest id htype hmembers hvisited ih =>
    exact cons _ _ _ (by simpa [look, htype, enter, hmembers, hvisited] using ih)
  | case6 r key m rest pointer htype ih ihKey ihObject =>
    refine cons _ _ _ ?_
    rcases c.look_cases r m with ⟨-, hlook⟩ | ⟨id, hobject, -⟩ | ⟨_, id, resolution, -, -, -, hlook⟩
    · rw [hlook]
      exact ih
    · cases htype.symm.trans hobject
    · rw [hlook]
      rcases c.enter_cases { r with keys := resolution.key :: r.keys } id with
        ⟨-, henter⟩ | ⟨hmembers, hvisited, henter⟩
      · rw [henter]
        exact ihKey resolution
      · rw [henter]
        exact ihObject id resolution hmembers hvisited

theorem reachFrom_append (c : Catalog) (pending rest : List (String × Member TypeNode))
    (r : Reached) :
    c.reachFrom (pending ++ rest) r = c.reachFrom pending r >>= c.reachFrom rest := by
  induction pending, r using reachFrom_induction (c := c) with
  | nil r =>
    rw [reachFrom, pure_bind]
    rfl
  | cons e pending r ih =>
    rw [List.cons_append, reachFrom_cons, reachFrom_cons, bind_assoc]
    show Noted.andThen _ _ = Noted.andThen _ _
    unfold Noted.andThen
    dsimp only
    rw [← List.append_assoc, ih]

/-- What a walk over pending members comes to. `picks` has the new keys, each with the object that
was found under it when it was collected. What is pending has been looked at, and so have the
members of all objects that were gone into; and what is kept along held objects and along picks is
true of all picks, if it is true of what is pending. -/
structure Walks (c : Catalog) (pending : List (String × Member TypeNode)) (r last : Reached)
    (picks : Table ObjectId) : Prop where
  keys : last.keys = picks.keys ++ r.keys
  nodup : r.keys.Nodup → last.keys.Nodup
  visited : r.visited ⊆ last.visited
  seen : ∀ e ∈ pending, c.Done last e.2
  inside : ∀ id ∈ last.visited, id ∈ r.visited ∨
    ∀ e ∈ (c.graph.object id).members, c.Done last e.2
  entered : ∀ pick ∈ picks, c.Entered last pick.2
  sound : ∀ (held : ObjectId → Prop) (found : String → ObjectId → Prop),
    (∀ id, held id → ∀ e ∈ (c.graph.object id).members, c.Each held found e.2) →
    (∀ pick ∈ picks, found pick.1 pick.2 → held pick.2) →
    (∀ e ∈ pending, c.Each held found e.2) → ∀ pick ∈ picks, found pick.1 pick.2

section Walking

variable {pending rest : List (String × Member TypeNode)} {r r' last : Reached} {id : ObjectId}
  {key key' : String} {m m' : Member TypeNode} {picks : Table ObjectId}

theorem Each.imp {held held' : ObjectId → Prop} {found found' : String → ObjectId → Prop}
    (h : c.Each held found m) (hheld : ∀ id, held id → held' id)
    (hfound : ∀ key id, found key id → found' key id) : c.Each held' found' m :=
  ⟨fun id htype => hheld id (h.1 id htype), fun pointer id resolution htype hsome =>
    hfound _ _ (h.2 pointer id resolution htype hsome)⟩

theorem Each.of_held {held : ObjectId → Prop} {found : String → ObjectId → Prop}
    (htype : m.type = .object id) (h : held id) : c.Each held found m := by
  refine ⟨fun id' htype' => ?_, fun _ _ _ htype' => ?_⟩
  · obtain rfl := TypeNode.object.inj (htype.symm.trans htype')
    exact h
  · cases htype.symm.trans htype'

theorem Each.of_found {held : ObjectId → Prop} {found : String → ObjectId → Prop}
    {pointer : Reference} {resolution : Resolution} (htype : m.type = .reference pointer)
    (hsome : (c.resolveObject pointer.name).value = some (id, resolution))
    (h : found resolution.key id) : c.Each held found m := by
  refine ⟨fun _ htype' => ?_, fun pointer' id' resolution' htype' hsome' => ?_⟩
  · cases htype.symm.trans htype'
  · obtain rfl := TypeNode.reference.inj (htype.symm.trans htype')
    obtain ⟨rfl, rfl⟩ := Prod.mk.inj (Option.some.inj (hsome.symm.trans hsome'))
    exact h

theorem Entered.mono (h : c.Entered r id) (hvisited : r.visited ⊆ r'.visited) : c.Entered r' id :=
  h.imp_right fun hid => hvisited hid

theorem Done.mono (h : c.Done r m) (hkeys : r.keys ⊆ r'.keys) (hvisited : r.visited ⊆ r'.visited) :
    c.Done r' m :=
  h.imp (fun _ hid => hid.mono hvisited) fun _ _ hkey => hkeys hkey

namespace Walks

theorem nil (r : Reached) : c.Walks [] r r [] where
  keys := rfl
  nodup h := h
  visited := List.Subset.refl _
  seen := nofun
  inside _ hid := .inl hid
  entered := nofun
  sound _ _ _ _ _ := nofun

theorem keys_subset (h : c.Walks pending r last picks) : r.keys ⊆ last.keys := by
  rw [h.keys]
  exact List.subset_append_right _ _

theorem skip (h : c.Walks rest r last picks) (hdone : c.Done r m) :
    c.Walks ((key, m) :: rest) r last picks where
  keys := h.keys
  nodup := h.nodup
  visited := h.visited
  seen e he := by
    rcases List.mem_cons.1 he with rfl | he
    · exact hdone.mono h.keys_subset h.visited
    · exact h.seen e he
  inside := h.inside
  entered := h.entered
  sound held found hinside hpicks hpending :=
    h.sound held found hinside hpicks fun e he => hpending e (List.mem_cons_of_mem _ he)

theorem hold (htype : m.type = .object id)
    (h : c.Walks ((c.enter r id).1 ++ rest) (c.enter r id).2 last picks) :
    c.Walks ((key, m) :: rest) r last picks := by
  rcases c.enter_cases r id with ⟨hentered, henter⟩ | ⟨hmembers, hvisited, henter⟩
  · rw [henter] at h
    exact h.skip (.of_held htype hentered)
  · rw [henter] at h
    have hmem : id ∈ last.visited := h.visited List.mem_cons_self
    refine ⟨h.keys, h.nodup, fun id hid => h.visited (List.mem_cons_of_mem _ hid), ?_, ?_,
      h.entered, ?_⟩
    · intro e he
      rcases List.mem_cons.1 he with rfl | he
      · exact .of_held htype (.inr hmem)
      · exact h.seen e (List.mem_append_right _ he)
    · intro id' hid'
      rcases h.inside id' hid' with hold | hinside
      · rcases List.mem_cons.1 hold with rfl | hold
        · exact .inr fun e he => h.seen e (List.mem_append_left _ he)
        · exact .inl hold
      · exact .inr hinside
    · intro held found hinside hpicks hpending
      refine h.sound held found hinside hpicks fun e he => ?_
      rcases List.mem_append.1 he with he | he
      · exact hinside id ((hpending _ List.mem_cons_self).1 id htype) e he
      · exact hpending e (List.mem_cons_of_mem _ he)

theorem pick {pointer : Reference} {resolution : Resolution} (htype : m.type = .reference pointer)
    (hsome : (c.resolveObject pointer.name).value = some (id, resolution))
    (hnew : resolution.key ∉ r.keys) (htype' : m'.type = .object id)
    (h : c.Walks ((key', m') :: rest) { r with keys := resolution.key :: r.keys } last picks) :
    c.Walks ((key, m) :: rest) r last (picks ++ [(resolution.key, id)]) where
  keys := by
    rw [h.keys]
    simp [Table.keys]
  nodup hnodup := h.nodup (List.nodup_cons.2 ⟨hnew, hnodup⟩)
  visited := h.visited
  seen e he := by
    rcases List.mem_cons.1 he with rfl | he
    · exact .of_found htype hsome (h.keys_subset List.mem_cons_self)
    · exact h.seen e (List.mem_cons_of_mem _ he)
  inside := h.inside
  entered p hp := by
    rcases List.mem_append.1 hp with hp | hp
    · exact h.entered p hp
    · obtain rfl := List.mem_singleton.1 hp
      exact (h.seen _ List.mem_cons_self).1 id htype'
  sound held found hinside hpicks hpending := by
    have hfound : found resolution.key id := (hpending _ List.mem_cons_self).2 _ _ _ htype hsome
    have hheld : held id := hpicks _ (List.mem_append_right _ List.mem_cons_self) hfound
    have hearlier := h.sound held found hinside
      (fun p hp => hpicks p (List.mem_append_left _ hp)) fun e he => by
        rcases List.mem_cons.1 he with rfl | he
        · exact .of_held htype' hheld
        · exact hpending e (List.mem_cons_of_mem _ he)
    intro p hp
    rcases List.mem_append.1 hp with hp | hp
    · exact hearlier p hp
    · obtain rfl := List.mem_singleton.1 hp
      exact hfound

end Walks

theorem exists_walk (c : Catalog) (pending : List (String × Member TypeNode)) (r : Reached) :
    ∃ picks, c.Walks pending r (c.reachFrom pending r).value picks := by
  induction pending, r using reachFrom_induction (c := c) with
  | nil r =>
    rw [reachFrom]
    exact ⟨[], .nil r⟩
  | cons e rest r ih =>
    obtain ⟨picks, h⟩ := ih
    rw [reachFrom_cons, Noted.value_bind]
    rcases c.look_cases r e.2 with ⟨hdone, hlook⟩ | ⟨id, htype, hlook⟩ |
      ⟨pointer, id, resolution, htype, hsome, hnew, hlook⟩
    · rw [hlook] at h ⊢
      exact ⟨picks, h.skip hdone⟩
    · rw [hlook] at h ⊢
      exact ⟨picks, h.hold htype⟩
    · rw [hlook] at h ⊢
      let holding : Member TypeNode := { type := .object id }
      have hhold : c.Walks ((e.1, holding) :: rest) { r with keys := resolution.key :: r.keys } _
          picks := h.hold rfl
      exact ⟨_, hhold.pick htype hsome hnew rfl⟩

/-- Goes through members, into the objects that they lead to in calls that are nested as deep as a
number says. -/
def reachWithin (c : Catalog) :
    Nat → Reached → List (String × Member TypeNode) → Bounded Reached
  | 0, r, [] => return r
  | 0, _, _ :: _ => failure
  | depth + 1, r, members => members.foldlM (fun r e => do
      let next ← .of (c.look r e.2)
      c.reachWithin depth next.2 next.1) r

theorem look_unvisited (c : Catalog) (r : Reached) (m : Member TypeNode) :
    r.visited ⊆ (c.look r m).value.2.visited ∧
      ((c.look r m).value.1 = [] ∨
        c.graph.unvisited (c.look r m).value.2.visited < c.graph.unvisited r.visited) := by
  have hobject : ∀ (r' : Reached) (id : ObjectId), r'.visited = r.visited →
      r.visited ⊆ (c.enter r' id).2.visited ∧ ((c.enter r' id).1 = [] ∨
        c.graph.unvisited (c.enter r' id).2.visited < c.graph.unvisited r.visited) := by
    intro r' id hsame
    rcases c.enter_cases r' id with ⟨-, henter⟩ | ⟨hmembers, hvisited, henter⟩
    · rw [henter]
      exact ⟨hsame ▸ List.Subset.refl _, .inl rfl⟩
    · rw [henter]
      rw [hsame] at hvisited ⊢
      exact ⟨List.subset_cons_self _ _, .inr (TypeGraph.unvisited_cons_lt hmembers hvisited)⟩
  rcases c.look_cases r m with ⟨-, hlook⟩ | ⟨id, -, hlook⟩ | ⟨_, id, resolution, -, -, -, hlook⟩
  · rw [hlook]
    exact ⟨List.Subset.refl _, .inl rfl⟩
  · rw [hlook]
    exact hobject r id rfl
  · rw [hlook]
    exact hobject _ id rfl

theorem ends_reachWithin {depth : Nat} {members : List (String × Member TypeNode)} {r : Reached}
    (h : members = [] ∨ c.graph.unvisited r.visited < depth) :
    (c.reachWithin depth r members).Ends (c.reachFrom members r).value
      (c.reachFrom members r).notices := by
  induction depth generalizing members r with
  | zero =>
    obtain rfl := h.resolve_right (Nat.not_lt_zero _)
    rw [reachFrom]
    exact Bounded.ends_pure r
  | succ depth ih =>
    rw [reachWithin]
    induction members generalizing r with
    | nil =>
      rw [reachFrom]
      exact Bounded.ends_pure r
    | cons e rest ihRest =>
      have hlt := h.resolve_left (List.cons_ne_nil e rest)
      obtain ⟨hsubset, hnext⟩ := c.look_unvisited r e.2
      have hinner := ih (hnext.imp_right fun hless =>
        Nat.lt_of_lt_of_le hless (Nat.le_of_lt_succ hlt))
      obtain ⟨picks, hwalk⟩ := c.exists_walk (c.look r e.2).value.1 (c.look r e.2).value.2
      have hrest := ihRest (.inr (Nat.lt_of_le_of_lt
        (remaining_mono (List.Subset.trans hsubset hwalk.visited)) hlt))
      rw [List.foldlM_cons, reachFrom_cons, Noted.value_bind, Noted.notices_bind,
        reachFrom_append, Noted.value_bind, Noted.notices_bind, ← List.append_assoc]
      exact ((Bounded.ends_of _).bind hinner).bind hrest

end Walking

end SoapComponents.Catalog
