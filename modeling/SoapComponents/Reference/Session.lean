import SoapComponents.Reference.Resolution

/-!
A catalog in use. Names that are cut at their last colon are remembered, in a memory that others use
as well, and so are the local names of which it was told that several entries share them: of each it
is told once. A session also keeps account of the lookups that are made and of what is told.
-/

set_option autoImplicit false

namespace SoapComponents

structure Session where
  splits : Table String := []
  /-- Local names of which it was told that several entries share them. -/
  reported : List String := []
  made : List Query := []
  log : List Notice := []

namespace Session

def split (s : Session) (name : String) : String × Session :=
  match s.splits.value? name with
  | some base => (base, s)
  | none => (Name.localPart name, { s with splits := s.splits.put name (Name.localPart name) })

def addKey (x : NameIndex × Session) (key : String) : NameIndex × Session :=
  let (base, s) := x.2.split key
  (x.1.put base ((x.1.value? base).getD [] ++ [key]), s)

def index (s : Session) (keys : List String) : NameIndex × Session := keys.foldl addKey ([], s)

def catalog (s : Session) (g : TypeGraph) : Catalog × Session :=
  let (elementNames, s) := s.index g.elements.keys
  let (typeNames, s) := s.index g.complexTypes.keys
  (⟨g, elementNames, typeNames⟩, s)

def report (s : Session) (ref base : String) (rivals : List String) : Session :=
  if rivals = [] ∨ base ∈ s.reported then s
  else
    { s with
      reported := base :: s.reported
      log := s.log ++ [.ambiguous ref base rivals] }

def note (s : Session) (q : Query) : Session := { s with made := s.made ++ [q] }

@[simp] theorem splits_note (s : Session) (q : Query) : (s.note q).splits = s.splits := rfl

@[simp] theorem reported_note (s : Session) (q : Query) : (s.note q).reported = s.reported := rfl

@[simp] theorem made_note (s : Session) (q : Query) : (s.note q).made = s.made ++ [q] := rfl

@[simp] theorem log_note (s : Session) (q : Query) : (s.note q).log = s.log := rfl

def lookup (s : Session) (c : Catalog) (q : Query) : Option Found × Session :=
  match c.exactly? q with
  | some found => (some found, s.note q)
  | none =>
    let (base, s) := s.split q.ref
    match c.byName? q base with
    | some found => (some found, (s.note q).report q.ref base found.rivals)
    | none => (none, s.note q)

theorem finds_of_lookup {s s' : Session} {c : Catalog} {q : Query} {found : Found}
    (h : s.lookup c q = (some found, s')) : c.Finds q.excluded found := by
  unfold lookup at h
  split at h
  · next hexact =>
    obtain rfl := Option.some.inj (Prod.mk.inj h).1
    exact Catalog.finds_of_exactly? hexact
  · dsimp only at h
    split at h
    · next hnamed =>
      obtain rfl := Option.some.inj (Prod.mk.inj h).1
      exact Catalog.finds_of_byName? hnamed
    · cases h

def hear {α : Type} (s : Session) (x : Noted α) : α × Session :=
  (x.value, { s with log := s.log ++ x.notices })

def finder (c : Catalog) : Finder (StateM Session) c where
  cut name := fun s => s.split name
  find q := fun s =>
    match hfound : s.lookup c q with
    | (none, s) => (none, s)
    | (some found, s) => (some ⟨found, finds_of_lookup hfound⟩, s)
  lift x := fun s => s.hear x

def follow (s : Session) (c : Catalog) (origin : String) (q : Query) (wrapper : Option Reference) :
    Option Resolution × Session :=
  ((finder c).follow origin q wrapper).run s

def resolve (s : Session) (c : Catalog) (ref : String) : Option Resolution × Session :=
  ((finder c).resolve ref).run s

section

variable {s s' : Session} {c : Catalog} {origin : String} {q : Query} {wrapper : Option Reference}

theorem follow_of_none (h : s.lookup c q = (none, s')) :
    s.follow c origin q wrapper = (none, s') := by
  have hfind : (finder c).find q s = (none, s') := by
    simp only [finder]
    split
    · next hlookup => rw [(Prod.mk.inj (hlookup.symm.trans h)).2]
    · next hlookup => cases hlookup.symm.trans h
  rw [follow, Finder.follow_eq, StateT.run_bind, StateT.run, hfind]
  rfl

theorem follow_of_found {found : Found} (h : s.lookup c q = (some found, s')) :
    s.follow c origin q wrapper = ((finder c).goOn origin q wrapper found).run s' := by
  have hfind : (finder c).find q s = (some ⟨found, finds_of_lookup h⟩, s') := by
    simp only [finder]
    split
    · next hlookup => cases hlookup.symm.trans h
    · next hlookup =>
      obtain ⟨hfound, rfl⟩ := Prod.mk.inj (hlookup.symm.trans h)
      obtain rfl := Option.some.inj hfound
      rfl
  rw [follow, Finder.follow_eq, StateT.run_bind, StateT.run, hfind]
  rfl

end

theorem resolve_eq (s : Session) (c : Catalog) (ref : String) :
    s.resolve c ref =
      let (base, s) := s.split ref
      if Name.isBuiltIn ref then (some { target := .primitive base, key := ref }, s)
      else s.follow c base ⟨ref, false, []⟩ none := by
  rw [resolve, Finder.resolve, StateT.run_bind]
  dsimp only
  split <;> rfl

/-- What a session is used for. Others cut names in the same memory. -/
inductive Call where
  | split (name : String)
  | lookup (q : Query)
  | resolve (ref : String)

def call (c : Catalog) (s : Session) : Call → Session
  | .split name => (s.split name).2
  | .lookup q => (s.lookup c q).2
  | .resolve ref => (s.resolve c ref).2

/-- A catalog that is opened where names were cut `earlier`, and used for some calls. -/
def run (g : TypeGraph) (earlier : List String) (calls : List Call) : Catalog × Session :=
  let (c, s) := (earlier.foldl (fun s name => (s.split name).2) {} : Session).catalog g
  (c, calls.foldl (call c) s)

end Session

end SoapComponents
