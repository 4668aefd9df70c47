import SoapComponents.Reference.Lookup
import SoapComponents.Remaining

/-!
Following references to the type that they mean. An element that only points at a type is
followed; a chain of such elements ends with an object, a built-in type, or nothing. Where an
element points at its own name, the complex type of that name is meant.
-/

set_option autoImplicit false

namespace SoapComponents

inductive Target where
  | primitive (name : String)
  | object (id : ObjectId)
  deriving DecidableEq, Repr

def Target.toNode : Target → TypeNode
  | primitive name => .primitive name
  | object id => .object id

def Target.object? : Target → Option ObjectId
  | object id => some id
  | primitive _ => none

structure Resolution where
  target : Target
  key : String
  wrapper : Option Reference := none
  circular : Bool := false

namespace Catalog

/-- The key of the complex type of a name that an element of the same name points at. -/
def unwrapKey? (c : Catalog) (target name : String) : Option String :=
  if c.graph.complexTypes.holds target then some target
  else (c.named .complexTypes name).head?

def unwrap (c : Catalog) (target name : String) (wrapper : Option Reference) :
    Noted (Option Resolution) :=
  match c.unwrapKey? target name with
  | none => do
    Noted.tell (.loopWithoutType name)
    return none
  | some key => do
    Noted.tell (.loopUnwrapped name key)
    return (c.graph.complexTypes.value? key).map fun id =>
      { target := .object id, key := key, wrapper := wrapper, circular := true }

/-- The elements, each of which a chain of references may go through once. -/
def elementEntries (c : Catalog) : List EntryName := c.graph.elements.keys.map (⟨.elements, ·⟩)

theorem mem_elementEntries {c : Catalog} {excluded : List EntryName} {found : Found}
    {pointer : Reference} (h : c.Finds excluded found) (hnode : found.node = .reference pointer) :
    found.entry ∈ c.elementEntries := by
  obtain ⟨⟨kind, key⟩, node, rivals⟩ := found
  obtain rfl : node = .reference pointer := hnode
  have hvalue := h.value
  cases kind with
  | elements => exact List.mem_map_of_mem (Table.mem_keys_of_value? hvalue)
  | complexTypes =>
    dsimp only at hvalue
    rw [value?_typeEntries] at hvalue
    obtain ⟨_, _, hobject⟩ := Option.map_eq_some_iff.1 hvalue
    cases hobject

end Catalog

/-- Where a chain of elements goes from an entry. -/
inductive Onward where
  | ends (r : Resolution)
  /-- An element that points at the name that the chain began with. -/
  | circle (pointer : Reference)
  | next (pointer : Reference)

/-- Where a chain goes from an entry that was found on it. `wrapper` is its first element. -/
def Found.onward (found : Found) (origin : String) (wrapper : Option Reference) : Onward :=
  match found.node with
  | .primitive name =>
    .ends { target := .primitive name, key := found.entry.key, wrapper := wrapper }
  | .object id => .ends { target := .object id, key := found.entry.key, wrapper := wrapper }
  | .reference pointer =>
    let base := Name.localPart pointer.name
    if Name.isBuiltIn pointer.name then
      .ends
        { target := .primitive base, key := found.entry.key, wrapper := wrapper.or (some pointer) }
    else if base = origin then .circle pointer
    else .next pointer

namespace Found

/-- What an entry is, by where a chain that began with the local name `origin` goes from it. -/
def Leads (found : Found) (origin : String) : Onward → Prop
  | .ends r =>
    r.key = found.entry.key ∧ r.circular = false ∧
      ∀ id, r.target = .object id → found.node = .object id
  | .circle pointer => found.node = .reference pointer ∧ Name.localPart pointer.name = origin
  | .next pointer =>
    found.node = .reference pointer ∧ Name.isBuiltIn pointer.name = false ∧
      Name.localPart pointer.name ≠ origin

theorem leads {found : Found} {origin : String} {wrapper : Option Reference} {onward : Onward}
    (h : found.onward origin wrapper = onward) : found.Leads origin onward := by
  subst h
  obtain ⟨entry, node, rivals⟩ := found
  cases node with
  | primitive name => exact ⟨rfl, rfl, fun id hid => by cases hid⟩
  | object id => exact ⟨rfl, rfl, fun id hid => by rw [Target.object.inj hid]⟩
  | reference pointer =>
    unfold Found.onward
    dsimp only
    split
    · exact ⟨rfl, rfl, fun id hid => by cases hid⟩
    · next hbuiltIn =>
      split
      · next horigin => exact ⟨rfl, horigin⟩
      · next horigin => exact ⟨rfl, by simpa using hbuiltIn, horigin⟩

end Found

/-- The ways in which a chain of references makes use of a catalog: how names are cut, how entries
are found, and what becomes of what is told. -/
structure Finder (m : Type → Type) (c : Catalog) where
  cut : String → m String
  find : (q : Query) → m (Option { found : Found // c.Finds q.excluded found })
  lift : {α : Type} → Noted α → m α

namespace Finder

variable {m : Type → Type} [Monad m] {c : Catalog}

/-- Follows a chain of elements for as long as there is one. The entries on it so far are excluded
from what is looked for, so that none is found twice. -/
@[semireducible] def follow (f : Finder m c) (origin : String) (q : Query)
    (wrapper : Option Reference) : m (Option Resolution) := do
  match ← f.find q with
  | none => return none
  | some ⟨found, _⟩ =>
    match _ : found.onward origin wrapper with
    | .ends r => return some r
    | .circle pointer => f.lift (c.unwrap pointer.name origin (wrapper.or (some pointer)))
    | .next pointer =>
      f.follow origin ⟨pointer.name, true, found.entry :: q.excluded⟩ (wrapper.or (some pointer))
termination_by remaining c.elementEntries q.excluded
decreasing_by
  have hfound : c.Finds q.excluded found := ‹_›
  have hnext : found.onward origin wrapper = .next pointer := ‹_›
  exact remaining_cons_lt (Catalog.mem_elementEntries hfound (Found.leads hnext).1) hfound.unseen

def resolve (f : Finder m c) (ref : String) : m (Option Resolution) := do
  let base ← f.cut ref
  if Name.isBuiltIn ref then return some { target := .primitive base, key := ref }
  else f.follow base ⟨ref, false, []⟩ none

def goOn (f : Finder m c) (origin : String) (q : Query) (wrapper : Option Reference)
    (found : Found) : m (Option Resolution) :=
  match found.onward origin wrapper with
  | .ends r => return some r
  | .circle pointer => f.lift (c.unwrap pointer.name origin (wrapper.or (some pointer)))
  | .next pointer =>
    f.follow origin ⟨pointer.name, true, found.entry :: q.excluded⟩ (wrapper.or (some pointer))

theorem follow_eq (f : Finder m c) (origin : String) (q : Query) (wrapper : Option Reference) :
    f.follow origin q wrapper =
      f.find q >>= fun x =>
        match x with
        | none => return none
        | some found => f.goOn origin q wrapper found.1 := by
  rw [follow]
  congr 1
  funext x
  cases x with
  | none => rfl
  | some found =>
    dsimp only [goOn]
    split <;> simp only [*]

end Finder

namespace Catalog

def finder (c : Catalog) : Finder Noted c where
  cut name := return Name.localPart name
  find q := do
    match hfound : c.lookup q.ref q.preferTypes q.excluded with
    | none => return none
    | some found =>
      Noted.tellAll (found.notices q.ref)
      return some ⟨found, finds_of_lookup hfound⟩
  lift x := x

def resolve (c : Catalog) (ref : String) : Noted (Option Resolution) := c.finder.resolve ref

def resolveObject (c : Catalog) (ref : String) : Noted (Option (ObjectId × Resolution)) := do
  match ← c.resolve ref with
  | some r => return r.target.object?.map (·, r)
  | none => return none

section

variable {c : Catalog} {origin : String} {q : Query} {wrapper : Option Reference}

theorem resolve_eq (c : Catalog) (ref : String) :
    c.resolve ref =
      if Name.isBuiltIn ref then return some { target := .primitive (Name.localPart ref), key := ref }
      else c.finder.follow (Name.localPart ref) ⟨ref, false, []⟩ none := rfl

theorem follow_of_none (h : c.lookup q.ref q.preferTypes q.excluded = none) :
    c.finder.follow origin q wrapper = pure none := by
  rw [Finder.follow_eq]
  simp only [finder]
  split
  · rfl
  · next hfound => cases hfound.symm.trans h

theorem follow_of_found {found : Found}
    (h : c.lookup q.ref q.preferTypes q.excluded = some found) :
    c.finder.follow origin q wrapper =
      Noted.tellAll (found.notices q.ref) >>= fun _ => c.finder.goOn origin q wrapper found := by
  rw [Finder.follow_eq]
  simp only [finder]
  split
  · next hnone => cases hnone.symm.trans h
  · next other hother =>
    obtain rfl := Option.some.inj (hother.symm.trans h)
    rw [bind_assoc]
    rfl

/-- Induction along a chain of references: every entry on it is an element that was not on it
before, so that fewer are left for the rest. -/
theorem follow_induction (c : Catalog) (origin : String)
    {motive : Query → Option Reference → Noted (Option Resolution) → Prop}
    (missing : ∀ q wrapper, c.lookup q.ref q.preferTypes q.excluded = none →
      motive q wrapper (pure none))
    (found : ∀ q wrapper found, c.lookup q.ref q.preferTypes q.excluded = some found →
      (∀ pointer, found.onward origin wrapper = .next pointer →
        let rest : Query := ⟨pointer.name, true, found.entry :: q.excluded⟩
        motive rest (wrapper.or (some pointer))
          (c.finder.follow origin rest (wrapper.or (some pointer)))) →
      motive q wrapper (Noted.tellAll (found.notices q.ref) >>= fun _ =>
        c.finder.goOn origin q wrapper found))
    (q : Query) (wrapper : Option Reference) :
    motive q wrapper (c.finder.follow origin q wrapper) := by
  induction hleft : remaining c.elementEntries q.excluded using Nat.strongRecOn
    generalizing q wrapper with
  | ind left ih =>
    cases hfound : c.lookup q.ref q.preferTypes q.excluded with
    | none =>
      rw [follow_of_none hfound]
      exact missing q wrapper hfound
    | some entry =>
      rw [follow_of_found hfound]
      refine found q wrapper entry hfound fun pointer hnext => ih _ ?_ _ _ rfl
      have hfinds := finds_of_lookup hfound
      exact hleft ▸ remaining_cons_lt
        (mem_elementEntries hfinds (Found.leads hnext).1) hfinds.unseen

end

def entryKeys (c : Catalog) : List String := c.graph.elements.keys ++ c.graph.complexTypes.keys

theorem mem_entryKeys_of_entries {c : Catalog} {kind : EntryKind} {key : String} {node : TypeNode}
    (h : (c.graph.entries kind).value? key = some node) : key ∈ c.entryKeys := by
  have hk := Table.mem_keys_of_value? h
  cases kind
  · exact List.mem_append_left _ hk
  · refine List.mem_append_right _ ?_
    simpa [TypeGraph.entries, Table.keys] using hk

theorem key_of_lookup {c : Catalog} {ref : String} {preferTypes : Bool}
    {excluded : List EntryName} {found : Found} (h : c.lookup ref preferTypes excluded = some found) :
    found.entry.key ∈ c.entryKeys :=
  mem_entryKeys_of_entries (finds_of_lookup h).value

theorem key_of_unwrap {c : Catalog} {target name : String} {wrapper : Option Reference}
    {r : Resolution} (h : (c.unwrap target name wrapper).value = some r) : r.key ∈ c.entryKeys := by
  unfold unwrap at h
  split at h
  · simp at h
  · simp only [Noted.value_bind, Noted.value_pure] at h
    obtain ⟨id, hv, rfl⟩ := Option.map_eq_some_iff.1 h
    exact List.mem_append_right _ (Table.mem_keys_of_value? hv)

theorem key_of_follow {c : Catalog} {origin : String} {q : Query} {wrapper : Option Reference}
    {r : Resolution} (h : (c.finder.follow origin q wrapper).value = some r) :
    r.key ∈ c.entryKeys := by
  refine c.follow_induction origin (motive := fun _ _ x => x.value = some r → r.key ∈ c.entryKeys)
    ?missing ?found q wrapper h
  case missing =>
    intro q wrapper hnone h
    cases h
  case found =>
    intro q wrapper found hfound ih h
    rw [Noted.value_bind, Finder.goOn] at h
    split at h
    · next r' hends =>
      obtain rfl := Option.some.inj h
      exact (Found.leads hends).1 ▸ key_of_lookup hfound
    · exact key_of_unwrap h
    · next hnext => exact ih _ hnext h

theorem key_of_resolveObject {c : Catalog} {ref : String} {id : ObjectId} {r : Resolution}
    (h : (c.resolveObject ref).value = some (id, r)) : r.key ∈ c.entryKeys := by
  unfold resolveObject at h
  simp only [Noted.value_bind] at h
  split at h
  · next r' hr =>
    obtain ⟨id', ho, he⟩ := Option.map_eq_some_iff.1 h
    obtain ⟨rfl, rfl⟩ := Prod.mk.inj he
    rw [resolve_eq] at hr
    split at hr
    · simp only [Noted.value_pure] at hr
      obtain rfl := Option.some.inj hr
      simp [Target.object?] at ho
    · exact key_of_follow hr
  · simp at h

end Catalog

end SoapComponents
