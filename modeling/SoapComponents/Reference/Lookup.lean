import SoapComponents.Noted
import SoapComponents.TypeGraph.Basic

/-!
Finding the entry that a reference names. An entry of exactly that name is taken first; failing
that, the first one with the same local name, so that a type used from a namespace other than its
own is still found. `lookup` finds entries by an index of local names; `scan` says the same by
going through all entries.
-/

set_option autoImplicit false

namespace SoapComponents

inductive EntryKind where
  | elements
  | complexTypes
  deriving DecidableEq, Repr

structure EntryName where
  kind : EntryKind
  key : String
  deriving DecidableEq, Repr

structure Query where
  ref : String
  preferTypes : Bool := false
  excluded : List EntryName := []
  deriving DecidableEq

/-- An entry that was found. `rivals` lists all entries that have its local name, when it was
found by that alone and there are several. -/
structure Found where
  entry : EntryName
  node : TypeNode
  rivals : List String := []

namespace TypeGraph

def entries (g : TypeGraph) : EntryKind → Table TypeNode
  | .elements => g.elements
  | .complexTypes => g.complexTypes.map fun e => (e.1, .object e.2)

end TypeGraph

/-- The kinds in the order in which they are searched. -/
def searchOrder (preferTypes : Bool) : List EntryKind :=
  if preferTypes then [.complexTypes, .elements] else [.elements, .complexTypes]

abbrev NameIndex := Table (List String)

def NameIndex.ofKeys (keys : List String) : NameIndex :=
  keys.foldl (fun index key =>
    let base := Name.localPart key
    index.put base ((index.value? base).getD [] ++ [key])) []

/-- A type graph with the indexes of its entries. -/
structure Catalog where
  graph : TypeGraph
  elementNames : NameIndex
  typeNames : NameIndex

def TypeGraph.catalog (g : TypeGraph) : Catalog where
  graph := g
  elementNames := NameIndex.ofKeys g.elements.keys
  typeNames := NameIndex.ofKeys g.complexTypes.keys

namespace Catalog

theorem value?_typeEntries (g : TypeGraph) (key : String) :
    (g.entries .complexTypes).value? key = (g.complexTypes.value? key).map .object := by
  unfold TypeGraph.entries
  induction g.complexTypes with
  | nil => rfl
  | cons e rest ih =>
    simp only [List.map_cons, Table.value?]
    split
    · rfl
    · exact ih

def named (c : Catalog) (kind : EntryKind) (base : String) : List String :=
  ((match kind with
    | .elements => c.elementNames
    | .complexTypes => c.typeNames).value? base).getD []

def entryAt? (c : Catalog) (ref : String) (excluded : List EntryName) (kind : EntryKind) :
    Option Found :=
  match (c.graph.entries kind).value? ref with
  | some node => if ⟨kind, ref⟩ ∈ excluded then none else some { entry := ⟨kind, ref⟩, node := node }
  | none => none

def named? (c : Catalog) (base : String) (excluded : List EntryName) (kind : EntryKind) :
    Option Found :=
  match (c.named kind base).filter fun key => ⟨kind, key⟩ ∉ excluded with
  | [] => none
  | key :: others =>
    ((c.graph.entries kind).value? key).map fun node =>
      { entry := ⟨kind, key⟩, node := node, rivals := if others.isEmpty then [] else key :: others }

def exactly? (c : Catalog) (q : Query) : Option Found :=
  (searchOrder q.preferTypes).findSome? (c.entryAt? q.ref q.excluded)

/-- The first entry with a local name, of the first kind that has any. -/
def byName? (c : Catalog) (q : Query) (base : String) : Option Found :=
  (searchOrder q.preferTypes).findSome? (c.named? base q.excluded)

/-- The entry that a reference names, by the index. -/
def lookup (c : Catalog) (ref : String) (preferTypes : Bool) (excluded : List EntryName) :
    Option Found :=
  let q : Query := ⟨ref, preferTypes, excluded⟩
  (c.exactly? q).or (c.byName? q (Name.localPart ref))

structure Finds (c : Catalog) (excluded : List EntryName) (found : Found) : Prop where
  unseen : found.entry ∉ excluded
  value : (c.graph.entries found.entry.kind).value? found.entry.key = some found.node

section

variable {c : Catalog} {ref base : String} {excluded : List EntryName} {kind : EntryKind}
  {found : Found}

theorem finds_of_entryAt? (h : c.entryAt? ref excluded kind = some found) :
    c.Finds excluded found := by
  unfold entryAt? at h
  split at h
  · next node hnode =>
    split at h
    · cases h
    · next hexcluded =>
      obtain rfl := Option.some.inj h
      exact ⟨hexcluded, hnode⟩
  · cases h

theorem finds_of_named? (h : c.named? base excluded kind = some found) :
    c.Finds excluded found := by
  unfold named? at h
  split at h
  · cases h
  · next key others hkeys =>
    obtain ⟨node, hnode, rfl⟩ := Option.map_eq_some_iff.1 h
    have hkey : key ∈ (c.named kind base).filter fun key => ⟨kind, key⟩ ∉ excluded :=
      hkeys ▸ List.mem_cons_self
    exact ⟨by simpa using (List.mem_filter.1 hkey).2, hnode⟩

theorem finds_of_exactly? {q : Query} (h : c.exactly? q = some found) :
    c.Finds q.excluded found := by
  obtain ⟨kind, -, hkind⟩ := List.exists_of_findSome?_eq_some h
  exact finds_of_entryAt? hkind

theorem finds_of_byName? {q : Query} (h : c.byName? q base = some found) :
    c.Finds q.excluded found := by
  obtain ⟨kind, -, hkind⟩ := List.exists_of_findSome?_eq_some h
  exact finds_of_named? hkind

theorem finds_of_lookup {preferTypes : Bool} (h : c.lookup ref preferTypes excluded = some found) :
    c.Finds excluded found := by
  rcases Option.or_eq_some_iff.1 h with h | ⟨-, h⟩
  · exact finds_of_exactly? h
  · exact finds_of_byName? h

end

end Catalog

def Found.notices (f : Found) (ref : String) : List Notice :=
  if f.rivals.isEmpty then [] else [.ambiguous ref (Name.localPart ref) f.rivals]

/-- The entry that a reference names, by going through all entries. -/
def TypeGraph.scan (g : TypeGraph) (ref : String) (preferTypes : Bool)
    (excluded : List EntryName) : Option (EntryName × TypeNode) :=
  let first (p : String → Bool) (kind : EntryKind) : Option (EntryName × TypeNode) :=
    (List.find? (fun e => p e.1 && ⟨kind, e.1⟩ ∉ excluded) (g.entries kind)).map fun e =>
      (⟨kind, e.1⟩, e.2)
  let search (p : String → Bool) : Option (EntryName × TypeNode) :=
    if preferTypes then (first p .complexTypes).or (first p .elements)
    else (first p .elements).or (first p .complexTypes)
  (search (· == ref)).or (search (Name.localPart · == Name.localPart ref))

end SoapComponents
