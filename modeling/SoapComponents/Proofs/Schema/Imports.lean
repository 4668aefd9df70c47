import SoapComponents.Proofs.Location.Resolve
import SoapComponents.Proofs.Outcome
import SoapComponents.Proofs.Table
import SoapComponents.Remaining
import SoapComponents.Schema.Visit

/-!
The walk over imports. Every schema that imports lead to is declared, and no document is asked for
twice on behalf of one namespace, however the documents import each other; and the bound on the
depth of the walk is never met.
-/

set_option autoImplicit false

namespace SoapComponents.Visit

/-- The schemas that a list of schemas leads to, with the places where they are found. -/
inductive Reached (origin : Option Origin) (roots : List Tree) (start : Option String) :
    Tree → Option String → Prop
  | root {schema : Tree} : schema ∈ roots → Reached origin roots start schema start
  | imported {schema inner found : Tree} {base : Option String} {reference place : String}
      {source : Origin} :
      Reached origin roots start schema base → inner ∈ schema.imports →
      inner.given? "schemaLocation" = some reference → origin = some source →
      Location.resolve base reference = .ok place → source.schema? place = some found →
      Reached origin roots start found (some place)

/-- A namespace that a reached schema has or imports. -/
def Named (origin : Option Origin) (roots : List Tree) (start space : Option String) : Prop :=
  ∃ schema base, Reached origin roots start schema base ∧
    (space = schema.attribute? "targetNamespace" ∨
      ∃ inner ∈ schema.imports, space = inner.attribute? "namespace")

/-- The loads of a list of visits: for which namespace, and from where. -/
def loads (visits : List Visit) : List (String × String) :=
  visits.filterMap fun
    | .load space location => some (space.getD "", location)
    | _ => none

@[simp] theorem loads_nil : loads [] = [] := rfl

@[simp] theorem loads_append (visits more : List Visit) :
    loads (visits ++ more) = loads visits ++ loads more := List.filterMap_append

@[simp] theorem loads_load (space : Option String) (location : String) (rest : List Visit) :
    loads (.load space location :: rest) = (space.getD "", location) :: loads rest := rfl

@[simp] theorem loads_enter (scope : Scope) (rest : List Visit) :
    loads (.enter scope :: rest) = loads rest := rfl

@[simp] theorem loads_declare (schema : Tree) (scope : Scope) (rest : List Visit) :
    loads (.declare schema scope :: rest) = loads rest := rfl

@[simp] theorem loads_tell (notice : Notice) (rest : List Visit) :
    loads (.tell notice :: rest) = loads rest := rfl

@[simp] theorem loads_fail (failure : Failure) (rest : List Visit) :
    loads (.fail failure :: rest) = loads rest := rfl

theorem space_of_mark {space other : Option String} {place : String}
    (h : mark space place = mark other place) : space.getD "" = other.getD "" := by
  have hlists := congrArg String.toList h
  simp only [mark, String.toList_append] at hlists
  exact String.toList_inj.1 (List.append_cancel_right (List.append_cancel_right hlists))

theorem place_of_mark {space other : Option String} {place place' : String}
    (hspace : '|' ∉ (space.getD "").toList) (hother : '|' ∉ (other.getD "").toList)
    (h : mark space place = mark other place') : place = place' := by
  have hcut : ∀ {s t : List Char} {p q : List Char}, '|' ∉ s → '|' ∉ t →
      s ++ '|' :: p = t ++ '|' :: q → p = q := by
    intro s
    induction s with
    | nil =>
      intro t p q _ ht heq
      cases t with
      | nil => simpa using heq
      | cons c t =>
        obtain ⟨rfl, _⟩ := List.cons.inj heq
        simp at ht
    | cons c s ih =>
      intro t p q hs ht heq
      cases t with
      | nil =>
        obtain ⟨rfl, _⟩ := List.cons.inj heq
        simp at hs
      | cons d t =>
        refine ih (fun hm => hs (List.mem_cons_of_mem _ hm))
          (fun hm => ht (List.mem_cons_of_mem _ hm)) (List.cons.inj heq).2
  have htext := congrArg String.toList h
  simp only [mark, String.toList_append, List.append_assoc] at htext
  exact String.toList_inj.1 (hcut hspace hother htext)

theorem key_of_schema? {source : Origin} {place : String} {found : Tree}
    (h : source.schema? place = some found) :
    ∃ key held remote, Table.value? source.library key = some held ∧
      found ∈ sourceSchemas held ∧ Url.isRemote place = .ok remote ∧
      key = if remote then place else Path.normalize place := by
  have hdocument : ∃ bytes tree, (source.library.load source.timeout place).result = .ok bytes ∧
      Tree.parse bytes = .ok tree ∧ tree.element? "schema" = some found := by
    unfold Origin.schema? Origin.document at h
    split at h
    · next tree htree =>
      obtain ⟨bytes, hbytes, hparse⟩ := Outcome.result_bind_eq_ok.1 htree
      exact ⟨bytes, tree, hbytes, by simpa using hparse, h⟩
    · cases h
  obtain ⟨bytes, tree, hload, hparse, hfound⟩ := hdocument
  have hschemas : ∀ held : Source, (held = .file bytes ∨ ∃ status reason,
      held = .answer status reason bytes) → found ∈ sourceSchemas held := by
    rintro held (rfl | ⟨status, reason, rfl⟩) <;> simp [sourceSchemas, hparse, hfound]
  unfold Library.load at hload
  split at hload
  · simp at hload
  · next hremote =>
    simp only [Outcome.result_bind, Outcome.result_tell, Outcome.result_ofExcept] at hload
    cases hheld : Table.value? source.library place with
    | none => simp [hheld, Library.missingPage, Source.fetch] at hload
    | some held =>
      refine ⟨place, held, true, hheld, hschemas held ?_, hremote, rfl⟩
      simp only [hheld, Option.getD_some] at hload
      unfold Source.fetch at hload
      split at hload
      · exact .inl (by rw [Except.ok.inj hload])
      · split at hload
        · cases hload
        · exact .inr ⟨_, _, by rw [Except.ok.inj hload]⟩
      · cases hload
      · cases hload
      · cases hload
  · next hremote =>
    simp only [Outcome.result_bind, Outcome.result_tell, Outcome.result_ofExcept] at hload
    cases hheld : Table.value? source.library (Path.normalize place) with
    | none => simp [hheld, Library.missingFile, Source.read] at hload
    | some held =>
      refine ⟨Path.normalize place, held, false, hheld, hschemas held ?_, hremote, rfl⟩
      simp only [hheld, Option.getD_some] at hload
      unfold Source.read at hload
      split at hload
      · exact .inl (by rw [Except.ok.inj hload])
      · exact .inr ⟨_, _, by rw [Except.ok.inj hload]⟩
      · cases hload
      · cases hload
      · cases hload

section

variable {origin : Option Origin} {roots : List Tree} {start : Option String}

theorem imports_of_reached {source : Origin} {schema inner : Tree} {base : Option String}
    (horigin : origin = some source) (h : Reached origin roots start schema base)
    (hinner : inner ∈ schema.imports) : inner ∈ allImports source.library roots := by
  refine List.mem_flatMap.2 ⟨schema, ?_, hinner⟩
  cases h with
  | root hroot => exact List.mem_append_left _ hroot
  | imported _ _ _ hsource _ hfound =>
    obtain rfl : source = _ := Option.some.inj (horigin.symm.trans hsource)
    obtain ⟨key, held, _, hheld, hmem, _⟩ := key_of_schema? hfound
    exact List.mem_append_right _
      (List.mem_flatMap.2 ⟨(key, held), Table.mem_of_value? hheld, hmem⟩)

def candidates (origin : Option Origin) (roots : List Tree) : List String :=
  match origin with
  | none => []
  | some source =>
    let imports := allImports source.library roots
    let places := source.library.keys ++ imports.filterMap (·.given? "schemaLocation")
    imports.flatMap fun inner => places.map (mark (inner.attribute? "namespace"))

theorem length_candidates_lt (origin : Option Origin) (roots : List Tree) :
    (candidates origin roots).length < depthBound origin roots := by
  cases origin with
  | none => simp [candidates, depthBound]
  | some source =>
    simp only [candidates, depthBound, List.length_flatMap, List.length_map, List.map_const',
      List.sum_replicate_nat, List.length_append, Table.keys, Nat.lt_succ_iff]
    exact Nat.mul_le_mul_left _ (Nat.add_le_add_left (List.length_filterMap_le _ _) _)

theorem lead_eq_ok {scope : Scope} {node : Tree} {l : Lead} (h : lead origin scope node = .ok l) :
    origin = some l.origin ∧ node.given? "schemaLocation" = some l.reference ∧
      Location.resolve scope.location l.reference = .ok l.location := by
  unfold lead at h
  split at h
  · cases h
  · next reference hreference =>
    split at h
    · cases h
    · next source =>
      split at h
      · cases h
      · next location hlocation =>
        obtain rfl := Except.ok.inj h
        exact ⟨rfl, hreference, hlocation⟩

inductive Leadless (origin : Option Origin) (scope : Scope) (node : Tree) : List Visit → Prop
  | unplaced : node.given? "schemaLocation" = none →
      Leadless origin scope node [.tell (.importWithoutLocation (node.attribute? "namespace"))]
  | unanswered {reference : String} : node.given? "schemaLocation" = some reference →
      origin = none → Leadless origin scope node [.tell (.importWithoutLibrary reference)]
  | unresolved {reference : String} {source : Origin} {flaw : LocationFlaw} :
      node.given? "schemaLocation" = some reference → origin = some source →
      Location.resolve scope.location reference = .error flaw →
      Leadless origin scope node [.fail (.badLocation flaw)]

theorem leadless_of_lead {scope : Scope} {node : Tree} {told : List Visit}
    (h : lead origin scope node = .error told) : Leadless origin scope node told := by
  unfold lead at h
  split at h
  · next hnone =>
    obtain rfl := Except.error.inj h
    exact .unplaced hnone
  · next reference hreference =>
    split at h
    · obtain rfl := Except.error.inj h
      exact .unanswered hreference rfl
    · next source =>
      split at h
      · next flaw hflaw =>
        obtain rfl := Except.error.inj h
        exact .unresolved hreference rfl hflaw
      · cases h

theorem mark_mem_candidates {schema inner found : Tree} {scope : Scope} {l : Lead}
    (h : Reached origin roots start schema scope.location) (hinner : inner ∈ schema.imports)
    (hlead : lead origin scope inner = .ok l) (hfound : l.origin.schema? l.location = some found) :
    mark (inner.attribute? "namespace") l.location ∈ candidates origin roots := by
  obtain ⟨horigin, hreference, hresolve⟩ := lead_eq_ok hlead
  have himport := imports_of_reached horigin h hinner
  obtain ⟨key, held, remote, hheld, _, hremote, hkey⟩ := key_of_schema? hfound
  have hkeys := Table.mem_keys_of_value? hheld
  rw [horigin]
  refine List.mem_flatMap.2 ⟨inner, himport, List.mem_map_of_mem ?_⟩
  rcases Location.resolve_cases hresolve hremote with rfl | hwritten | hnormal
  · exact List.mem_append_left _ (by simpa [hkey] using hkeys)
  · exact List.mem_append_right _
      (List.mem_filterMap.2 ⟨inner, himport, by rw [hreference, hwritten]⟩)
  · refine List.mem_append_left _ ?_
    rw [hkey, hnormal] at hkeys
    simpa using hkeys

def OfRoot (roots : List Tree) (start space : Option String) (place : String) : Prop :=
  start = some place ∧ place ≠ "" ∧ ∃ root ∈ roots, root.attribute? "targetNamespace" = space

/-- The place of a mark is dealt with: it is the mark of a root, or if there is a schema, this is
declared with that place. -/
def Covered (origin : Option Origin) (roots : List Tree) (start : Option String)
    (visits : List Visit) (m : String) : Prop :=
  ∃ space place, Named origin roots start space ∧ m = mark space place ∧
    ∀ source found, origin = some source → source.schema? place = some found →
      OfRoot roots start space place ∨
        ∃ scope, .declare found scope ∈ visits ∧ scope.location = some place

theorem Covered.mono {visits more : List Visit} {m : String}
    (h : Covered origin roots start visits m) (hsub : visits ⊆ more) :
    Covered origin roots start more m := by
  obtain ⟨space, place, hnamed, hm, hfound⟩ := h
  refine ⟨space, place, hnamed, hm, fun source found horigin hschema => ?_⟩
  rcases hfound source found horigin hschema with hroot | ⟨scope, hdeclare, hlocation⟩
  · exact .inl hroot
  · exact .inr ⟨scope, hsub hdeclare, hlocation⟩

/-- A declared schema is one that is reached, and its imports have been seen. -/
structure Followed (origin : Option Origin) (roots : List Tree) (start : Option String)
    (seen : List String) (schema : Tree) (scope : Scope) : Prop where
  reached : Reached origin roots start schema scope.location
  around : ∃ around, scope = Scope.ofSchema schema around scope.location
  imports : ∀ inner ∈ schema.imports, ∀ l, lead origin scope inner = .ok l →
    mark (inner.attribute? "namespace") l.location ∈ seen

structure Walked (origin : Option Origin) (roots : List Tree) (start : Option String)
    (seen : List String) (visits : List Visit) (after : List String) : Prop where
  kept : seen ⊆ after
  nodup : (loads visits).Nodup
  fresh : ∀ e ∈ loads visits, e.1 ++ "|" ++ e.2 ∉ seen
  recorded : ∀ e ∈ loads visits, e.1 ++ "|" ++ e.2 ∈ after
  covered : ∀ m ∈ after, m ∈ seen ∨ Covered origin roots start visits m
  followed : ∀ schema scope, .declare schema scope ∈ visits →
    Followed origin roots start after schema scope

theorem Walked.refl (seen : List String) : Walked origin roots start seen [] seen where
  kept := List.Subset.refl _
  nodup := List.nodup_nil
  fresh := by simp
  recorded := by simp
  covered := fun _ hm => .inl hm
  followed := by simp

theorem Walked.trans {seen middle after : List String} {visits more : List Visit}
    (h : Walked origin roots start seen visits middle)
    (h' : Walked origin roots start middle more after) :
    Walked origin roots start seen (visits ++ more) after where
  kept := List.Subset.trans h.kept h'.kept
  nodup := by
    rw [loads_append]
    refine List.nodup_append.2 ⟨h.nodup, h'.nodup, ?_⟩
    rintro e he _ he' rfl
    exact h'.fresh e he' (h.recorded e he)
  fresh := by
    intro e he hseen
    rcases List.mem_append.1 (loads_append visits more ▸ he) with he | he
    · exact h.fresh e he hseen
    · exact h'.fresh e he (h.kept hseen)
  recorded := by
    intro e he
    rcases List.mem_append.1 (loads_append visits more ▸ he) with he | he
    · exact h'.kept (h.recorded e he)
    · exact h'.recorded e he
  covered := by
    intro m hm
    rcases h'.covered m hm with hmiddle | hcovered
    · rcases h.covered m hmiddle with hseen | hcovered
      · exact .inl hseen
      · exact .inr (hcovered.mono (List.subset_append_left _ _))
    · exact .inr (hcovered.mono (List.subset_append_right _ _))
  followed := by
    intro schema scope hdeclare
    rcases List.mem_append.1 hdeclare with hdeclare | hdeclare
    · obtain ⟨hreached, hscoped, himports⟩ := h.followed schema scope hdeclare
      exact ⟨hreached, hscoped, fun inner hinner l hl => h'.kept (himports inner hinner l hl)⟩
    · exact h'.followed schema scope hdeclare

def Quiet (visits : List Visit) : Prop :=
  ∀ v ∈ visits, (∃ notice, v = .tell notice) ∨ ∃ failure, v = .fail failure

theorem Quiet.loads {visits : List Visit} (h : Quiet visits) : loads visits = [] := by
  induction visits with
  | nil => rfl
  | cons v rest ih =>
    have hrest := ih fun w hw => h w (List.mem_cons_of_mem _ hw)
    rcases h v List.mem_cons_self with ⟨notice, rfl⟩ | ⟨failure, rfl⟩
    · exact hrest
    · exact hrest

theorem Quiet.not_declared {visits : List Visit} (h : Quiet visits) {schema : Tree}
    {scope : Scope} : .declare schema scope ∉ visits := by
  intro hm
  rcases h _ hm with ⟨_, heq⟩ | ⟨_, heq⟩ <;> cases heq

theorem Quiet.walked {visits : List Visit} (h : Quiet visits) (seen : List String) :
    Walked origin roots start seen visits seen where
  kept := List.Subset.refl _
  nodup := by simp [h.loads]
  fresh := by simp [h.loads]
  recorded := by simp [h.loads]
  covered := fun _ hm => .inl hm
  followed := fun _ _ hm => absurd hm h.not_declared

theorem quiet_told (l : Lead) : Quiet l.told := by
  intro v hv
  simp only [Lead.told, List.mem_append, List.mem_map, List.mem_singleton] at hv
  rcases hv with ⟨notice, _, rfl⟩ | rfl
  · exact .inl ⟨notice, rfl⟩
  · split
    · split
      · exact .inl ⟨_, rfl⟩
      · exact .inr ⟨_, rfl⟩
    · split <;> exact .inl ⟨_, rfl⟩

theorem quiet_of_lead_error {scope : Scope} {node : Tree} {told : List Visit}
    (h : lead origin scope node = .error told) : Quiet told := by
  cases leadless_of_lead h <;> simp [Quiet]

theorem Walked.load {seen after : List String} {visits : List Visit} {space : Option String}
    {place : String} (hnew : mark space place ∉ seen)
    (h : Walked origin roots start (mark space place :: seen) visits after)
    (hcovered : Covered origin roots start visits (mark space place)) :
    Walked origin roots start seen (.load space place :: visits) after where
  kept := fun _ hm => h.kept (List.mem_cons_of_mem _ hm)
  nodup := by
    rw [loads_load, List.nodup_cons]
    exact ⟨fun he => h.fresh _ he List.mem_cons_self, h.nodup⟩
  fresh := by
    rw [loads_load]
    intro e he
    rcases List.mem_cons.1 he with rfl | he
    · exact hnew
    · exact fun hm => h.fresh e he (List.mem_cons_of_mem _ hm)
  recorded := by
    rw [loads_load]
    intro e he
    rcases List.mem_cons.1 he with rfl | he
    · exact h.kept List.mem_cons_self
    · exact h.recorded e he
  covered := by
    intro m hm
    rcases h.covered m hm with hseen | hc
    · rcases List.mem_cons.1 hseen with rfl | hseen
      · exact .inr (hcovered.mono (List.subset_cons_self _ _))
      · exact .inl hseen
    · exact .inr (hc.mono (List.subset_cons_self _ _))
  followed := by
    intro schema scope hdeclare
    rcases List.mem_cons.1 hdeclare with heq | hdeclare
    · cases heq
    · exact h.followed schema scope hdeclare

theorem eachIn_walked {α : Type} {visit : α → List String → List Visit × List String}
    {Q : α → List Visit → List String → Prop} {items : List α} {seen : List String}
    (hmono : ∀ item visits more after later, visits ⊆ more → after ⊆ later →
      Q item visits after → Q item more later)
    (hvisit : ∀ item ∈ items, ∀ later, seen ⊆ later →
      Walked origin roots start later (visit item later).1 (visit item later).2 ∧
        Q item (visit item later).1 (visit item later).2) :
    Walked origin roots start seen (eachIn visit items seen).1 (eachIn visit items seen).2 ∧
      ∀ item ∈ items, Q item (eachIn visit items seen).1 (eachIn visit items seen).2 := by
  induction items generalizing seen with
  | nil => exact ⟨.refl seen, by simp⟩
  | cons item rest ih =>
    -- the rest is visited with more seen, and what the first item brings about stays
    obtain ⟨hfirst, hitem⟩ := hvisit item List.mem_cons_self seen (List.Subset.refl _)
    obtain ⟨hmore, hitems⟩ := @ih (visit item seen).2 fun other hother later hlater =>
      hvisit other (List.mem_cons_of_mem _ hother) later (List.Subset.trans hfirst.kept hlater)
    refine ⟨hfirst.trans hmore, fun other hother => ?_⟩
    rcases List.mem_cons.1 hother with rfl | hother
    · exact hmono _ _ _ _ _ (List.subset_append_left _ _) hmore.kept hitem
    · exact hmono _ _ _ _ _ (List.subset_append_right _ _) (List.Subset.refl _)
        (hitems other hother)

theorem schema_at_place {source : Origin} {node found : Tree} {place : String}
    (h : Reached origin roots start node (some place)) (horigin : origin = some source)
    (hfound : source.schema? place = some found) :
    found = node ∨ node ∈ roots ∧ start = some place := by
  generalize hbase : some place = base at h
  cases h with
  | root hroot => exact .inr ⟨hroot, rfl⟩
  | imported _ _ _ hsource _ hnode =>
    obtain rfl : source = _ := Option.some.inj (horigin.symm.trans hsource)
    obtain rfl := Option.some.inj hbase
    exact .inl (Option.some.inj (hfound.symm.trans hnode))

-- One equation for each way in which an import is followed; later proofs do not open `follow`.

theorem follow_of_error {scope : Scope} {inner : Tree} {told : List Visit}
    (inside : Tree → String → List String → List Visit × List String)
    (hlead : lead origin scope inner = .error told) (seen : List String) :
    follow origin scope inside inner seen = (told, seen) := by
  simp only [follow, hlead]

section

variable {scope : Scope} {inner : Tree} {l : Lead} {seen : List String}
  (inside : Tree → String → List String → List Visit × List String)
  (hlead : lead origin scope inner = .ok l)

include hlead

theorem follow_of_seen (hseen : mark (inner.attribute? "namespace") l.location ∈ seen) :
    follow origin scope inside inner seen =
      ([.tell (.importRepeated (mark (inner.attribute? "namespace") l.location))], seen) := by
  simp only [follow, hlead, if_pos hseen]

theorem follow_of_rootless (hseen : mark (inner.attribute? "namespace") l.location ∉ seen)
    (hschema : l.origin.schema? l.location = none) :
    follow origin scope inside inner seen =
      (.load (inner.attribute? "namespace") l.location :: l.told,
        mark (inner.attribute? "namespace") l.location :: seen) := by
  simp only [follow, hlead, if_neg hseen, hschema]

theorem follow_of_schema {found : Tree}
    (hseen : mark (inner.attribute? "namespace") l.location ∉ seen)
    (hschema : l.origin.schema? l.location = some found) :
    follow origin scope inside inner seen =
      (.load (inner.attribute? "namespace") l.location :: (l.told ++
          (inside found l.location (mark (inner.attribute? "namespace") l.location :: seen)).1),
        (inside found l.location (mark (inner.attribute? "namespace") l.location :: seen)).2) := by
  simp only [follow, hlead, if_neg hseen, hschema]

end

theorem follow_walked {schema inner : Tree} {scope : Scope} {seen : List String}
    {inside : Tree → String → List String → List Visit × List String}
    (h : Reached origin roots start schema scope.location) (hinner : inner ∈ schema.imports)
    (hinside : ∀ found place later, Reached origin roots start found (some place) →
      remaining (candidates origin roots) later < remaining (candidates origin roots) seen →
      Walked origin roots start later (inside found place later).1 (inside found place later).2 ∧
        ∃ inner, .declare found inner ∈ (inside found place later).1 ∧
          inner.location = some place) :
    let r := follow origin scope inside inner seen
    Walked origin roots start seen r.1 r.2 ∧ ∀ l, lead origin scope inner = .ok l →
      mark (inner.attribute? "namespace") l.location ∈ r.2 := by
  intro r
  have hnamed : Named origin roots start (inner.attribute? "namespace") :=
    ⟨schema, scope.location, h, .inr ⟨inner, hinner, rfl⟩⟩
  cases hlead : lead origin scope inner with
  | error told =>
    rw [show r = _ from follow_of_error inside hlead seen]
    exact ⟨(quiet_of_lead_error hlead).walked seen, by simp⟩
  | ok l =>
    obtain ⟨horigin, hreference, hresolve⟩ := lead_eq_ok hlead
    suffices hr : Walked origin roots start seen r.1 r.2 ∧
        mark (inner.attribute? "namespace") l.location ∈ r.2 by
      exact ⟨hr.1, fun l' hl => Except.ok.inj hl ▸ hr.2⟩
    by_cases hseen : mark (inner.attribute? "namespace") l.location ∈ seen
    · rw [show r = _ from follow_of_seen inside hlead hseen]
      exact ⟨Quiet.walked (by simp [Quiet]) seen, hseen⟩
    · cases hschema : l.origin.schema? l.location with
      | none =>
        rw [show r = _ from follow_of_rootless inside hlead hseen hschema]
        refine ⟨((quiet_told l).walked _).load hseen ?_, List.mem_cons_self⟩
        refine ⟨_, _, hnamed, rfl, fun source found hsource hfound => ?_⟩
        obtain rfl : l.origin = source := Option.some.inj (horigin.symm.trans hsource)
        simp [hschema] at hfound
      | some found =>
        have hfound : Reached origin roots start found (some l.location) :=
          .imported h hinner hreference horigin hresolve hschema
        have hless := remaining_cons_lt (mark_mem_candidates h hinner hlead hschema) hseen
        obtain ⟨hwalked, other, hdeclare, hlocation⟩ := hinside found l.location _ hfound hless
        rw [show r = _ from follow_of_schema inside hlead hseen hschema]
        refine ⟨(((quiet_told l).walked _).trans hwalked).load hseen ?_,
          hwalked.kept List.mem_cons_self⟩
        refine ⟨_, _, hnamed, rfl, fun source found' hsource hfound' => .inr ?_⟩
        obtain rfl : l.origin = source := Option.some.inj (horigin.symm.trans hsource)
        obtain rfl : found = found' := Option.some.inj (hschema.symm.trans hfound')
        exact ⟨other, List.mem_append_right _ hdeclare, hlocation⟩

theorem subset_entered (scope : Scope) (seen : List String) : seen ⊆ entered scope seen := by
  unfold entered
  split
  · exact List.subset_cons_self _ _
  · exact List.Subset.refl _

theorem Walked.schema {node : Tree} {scope : Scope} {around : Table String}
    {seen after : List String} {visits : List Visit}
    (hreached : Reached origin roots start node scope.location)
    (hscoped : scope = Scope.ofSchema node around scope.location)
    (h : Walked origin roots start (entered scope seen) visits after)
    (himports : ∀ inner ∈ node.imports, ∀ l, lead origin scope inner = .ok l →
      mark (inner.attribute? "namespace") l.location ∈ after) :
    Walked origin roots start seen (.enter scope :: (visits ++ [.declare node scope])) after where
  kept := List.Subset.trans (subset_entered scope seen) h.kept
  nodup := by simpa using h.nodup
  fresh := by
    intro e he hseen
    exact h.fresh e (by simpa using he) (subset_entered scope seen hseen)
  recorded := fun e he => h.recorded e (by simpa using he)
  covered := by
    intro m hm
    rcases h.covered m hm with hentered | hcovered
    · unfold entered at hentered
      split at hentered
      · next place hplace =>
        rcases List.mem_cons.1 hentered with rfl | hseen
        · obtain ⟨hlocation, hne⟩ : scope.location = some place ∧ place ≠ "" := by
            simpa [Name.given?] using hplace
          refine .inr ⟨scope.target, place, ⟨node, scope.location, hreached,
            .inl (congrArg Scope.target hscoped)⟩, rfl,
            fun source found horigin hfound => ?_⟩
          rw [hlocation] at hreached
          rcases schema_at_place hreached horigin hfound with rfl | ⟨hroot, hstart⟩
          · exact .inr ⟨scope, by simp, hlocation⟩
          · exact .inl ⟨hstart, hne, node, hroot, (congrArg Scope.target hscoped).symm⟩
        · exact .inl hseen
      · exact .inl hentered
    · exact .inr (hcovered.mono fun v hv => by simp [hv])
  followed := by
    intro schema' scope' hdeclare
    rcases List.mem_cons.1 hdeclare with heq | hdeclare
    · cases heq
    · rcases List.mem_append.1 hdeclare with hdeclare | hdeclare
      · exact h.followed schema' scope' hdeclare
      · obtain ⟨rfl, rfl⟩ : schema' = node ∧ scope' = scope := by simpa using hdeclare
        exact ⟨hreached, ⟨around, hscoped⟩, himports⟩

theorem schema_walked (depth : Nat) (node : Tree)
    (outer : Table String) (location : Option String) (seen : List String)
    (hreached : Reached origin roots start node location)
    (hroom : remaining (candidates origin roots) seen < depth) :
    let r := schema origin depth node outer location seen
    Walked origin roots start seen r.1 r.2 ∧
      .declare node (Scope.ofSchema node outer location) ∈ r.1 := by
  -- a new import is no longer among those that are not seen, so one level less is enough for it
  induction depth generalizing node outer location seen with
  | zero => exact absurd hroom (Nat.not_lt_zero _)
  | succ depth ih =>
    intro r
    have hentered : remaining (candidates origin roots)
        (entered (Scope.ofSchema node outer location) seen) < depth + 1 :=
      Nat.lt_of_le_of_lt (remaining_mono (subset_entered _ seen)) hroom
    obtain ⟨hwalked, hmarks⟩ := @eachIn_walked origin roots start _
      (follow origin (Scope.ofSchema node outer location) fun found place seen =>
        schema origin depth found (Scope.ofSchema node outer location).namespaces (some place) seen)
      (fun inner _ after => ∀ l, lead origin (Scope.ofSchema node outer location) inner = .ok l →
        mark (inner.attribute? "namespace") l.location ∈ after) node.imports
      (entered (Scope.ofSchema node outer location) seen)
      (fun inner visits more after later _ hafter hmark l hl => hafter (hmark l hl))
      (fun inner hinner later hlater => follow_walked
        (show Reached origin roots start node (Scope.ofSchema node outer location).location from
          hreached) hinner
        fun found place next hfound hless => by
          obtain ⟨hinside, hdeclare⟩ := ih found _ (some place) next hfound
            (Nat.lt_of_lt_of_le hless (Nat.le_trans (remaining_mono hlater)
              (Nat.le_of_lt_succ hentered)))
          exact ⟨hinside, _, hdeclare, rfl⟩)
    exact ⟨Walked.schema hreached rfl hwalked hmarks, by simp [r, schema]⟩

theorem within_walked {depth : Nat} {outer : Table String}
    (hdepth : depthBound origin roots ≤ depth) :
    let r := within origin depth roots outer start
    Walked origin roots start [] r.1 r.2 ∧
      ∀ root ∈ roots, .declare root (Scope.ofSchema root outer start) ∈ r.1 := by
  intro r
  refine @eachIn_walked origin roots start _
    (fun node seen => schema origin depth node outer start seen)
    (fun root visits _ => .declare root (Scope.ofSchema root outer start) ∈ visits) roots []
    (fun root visits more after later hvisits _ hdeclared => hvisits hdeclared)
    fun root hroot later _ => ?_
  have hlength := length_candidates_lt origin roots
  have hroom : remaining (candidates origin roots) later ≤ (candidates origin roots).length :=
    List.countP_le_length
  exact schema_walked depth root outer start later (.root hroot) (by omega)

/-- An import that has the mark of a root, by the namespace that it names and the place that it
leads to, leads to a root. Entering the root has marked it, so that it may not be followed. -/
def Own (origin : Option Origin) (roots : List Tree) (start : Option String) : Prop :=
  ∀ schema base inner reference source place found space,
    Reached origin roots start schema base → inner ∈ schema.imports →
    inner.given? "schemaLocation" = some reference → origin = some source →
    Location.resolve base reference = .ok place → source.schema? place = some found →
    OfRoot roots start space place → (inner.attribute? "namespace").getD "" = space.getD "" →
    found ∈ roots

theorem own_of_place (h : ∀ source place found, origin = some source → start = some place →
    source.schema? place = some found → found ∈ roots) : Own origin roots start :=
  fun _ _ _ _ source place found _ _ _ _ horigin _ hfound hroot _ =>
    h source place found horigin hroot.1 hfound

theorem declared_of_reached (hown : Own origin roots start)
    (hbar : ∀ space, Named origin roots start space → '|' ∉ (space.getD "").toList)
    {outer : Table String} {schema : Tree} {base : Option String}
    (h : Reached origin roots start schema base) :
    ∃ scope, .declare schema scope ∈ all origin roots outer start ∧ scope.location = base ∧
      scope.target = schema.attribute? "targetNamespace" := by
  obtain ⟨hwalked, hroots⟩ := @within_walked origin roots start _ outer (Nat.le_refl _)
  suffices hdeclared : ∃ scope, .declare schema scope ∈ all origin roots outer start ∧
      scope.location = base by
    obtain ⟨scope, hdeclare, hlocation⟩ := hdeclared
    obtain ⟨around, hscoped⟩ := (hwalked.followed schema scope hdeclare).around
    exact ⟨scope, hdeclare, hlocation, congrArg Scope.target hscoped⟩
  induction h with
  | root hroot => exact ⟨_, hroots _ hroot, rfl⟩
  | @imported schema inner found base reference place source hreached hinner hreference hsource
      hresolve hschema ih =>
    obtain ⟨scope, hdeclare, rfl⟩ := ih
    have hlead : lead origin scope inner = .ok ⟨source, reference, place⟩ := by
      simp only [lead, hreference, hsource, hresolve]
    have hmark := (hwalked.followed schema scope hdeclare).imports inner hinner _ hlead
    rcases hwalked.covered _ hmark with hseen | ⟨space, place', hnamed, heq, hcovered⟩
    · simp at hseen
    -- the mark of the import is that of a place dealt with, which is the same place
    · obtain rfl : place = place' := place_of_mark
        (hbar _ ⟨schema, scope.location, hreached, .inr ⟨inner, hinner, rfl⟩⟩) (hbar _ hnamed) heq
      rcases hcovered source found hsource hschema with hroot | hfound
      · have hmember := hown schema scope.location inner reference source place found space hreached
          hinner hreference hsource hresolve hschema hroot (space_of_mark heq)
        exact ⟨_, hroots found hmember, hroot.1⟩
      · exact hfound

theorem eachIn_congr {α : Type} {visit visit' : α → List String → List Visit × List String}
    {items : List α} {seen : List String}
    (h : ∀ item ∈ items, ∀ later, seen ⊆ later →
      visit item later = visit' item later ∧ later ⊆ (visit item later).2) :
    eachIn visit items seen = eachIn visit' items seen := by
  induction items generalizing seen with
  | nil => rfl
  | cons item rest ih =>
    obtain ⟨hsame, hkept⟩ := h item List.mem_cons_self seen (List.Subset.refl _)
    have hrest := @ih (visit item seen).2 fun other hother later hlater =>
      h other (List.mem_cons_of_mem _ hother) later (List.Subset.trans hkept hlater)
    simp only [eachIn, hsame] at hrest ⊢
    rw [hrest]

theorem follow_congr {schema inner : Tree} {scope : Scope} {seen : List String}
    {inside inside' : Tree → String → List String → List Visit × List String}
    (h : Reached origin roots start schema scope.location) (hinner : inner ∈ schema.imports)
    (hsame : ∀ found place later, Reached origin roots start found (some place) →
      remaining (candidates origin roots) later < remaining (candidates origin roots) seen →
      inside found place later = inside' found place later) :
    follow origin scope inside inner seen = follow origin scope inside' inner seen := by
  cases hlead : lead origin scope inner with
  | error told => rw [follow_of_error inside hlead, follow_of_error inside' hlead]
  | ok l =>
    obtain ⟨horigin, hreference, hresolve⟩ := lead_eq_ok hlead
    by_cases hseen : mark (inner.attribute? "namespace") l.location ∈ seen
    · rw [follow_of_seen inside hlead hseen, follow_of_seen inside' hlead hseen]
    · cases hschema : l.origin.schema? l.location with
      | none =>
        rw [follow_of_rootless inside hlead hseen hschema,
          follow_of_rootless inside' hlead hseen hschema]
      | some found =>
        have hfound : Reached origin roots start found (some l.location) :=
          .imported h hinner hreference horigin hresolve hschema
        have hless := remaining_cons_lt (mark_mem_candidates h hinner hlead hschema) hseen
        rw [follow_of_schema inside hlead hseen hschema,
          follow_of_schema inside' hlead hseen hschema, hsame found l.location _ hfound hless]

theorem schema_depth (depth depth' : Nat) (node : Tree)
    (outer : Table String) (location : Option String) (seen : List String)
    (hreached : Reached origin roots start node location)
    (hroom : remaining (candidates origin roots) seen < depth)
    (hroom' : remaining (candidates origin roots) seen < depth') :
    schema origin depth node outer location seen =
      schema origin depth' node outer location seen := by
  induction depth generalizing depth' node outer location seen with
  | zero => exact absurd hroom (Nat.not_lt_zero _)
  | succ depth ih =>
    cases depth' with
    | zero => exact absurd hroom' (Nat.not_lt_zero _)
    | succ depth' =>
      let scope := Scope.ofSchema node outer location
      have hentered : remaining (candidates origin roots) (entered scope seen) ≤
          remaining (candidates origin roots) seen := remaining_mono (subset_entered scope seen)
      have himports : eachIn (follow origin scope fun found place seen =>
            schema origin depth found scope.namespaces (some place) seen) node.imports
            (entered scope seen) =
          eachIn (follow origin scope fun found place seen =>
            schema origin depth' found scope.namespaces (some place) seen) node.imports
            (entered scope seen) := by
        refine eachIn_congr fun inner hinner later hlater => ?_
        have hless :=
          Nat.le_trans (@remaining_mono _ _ (candidates origin roots) _ _ hlater) hentered
        constructor
        · refine follow_congr (show Reached origin roots start node scope.location from hreached)
            hinner fun found place next hfound hnext => ?_
          exact ih depth' found _ (some place) next hfound (by omega) (by omega)
        · refine (follow_walked (show Reached origin roots start node scope.location from hreached)
            hinner fun found place next hfound hnext => ?_).1.kept
          obtain ⟨hinside, hdeclare⟩ :=
            schema_walked depth found scope.namespaces (some place) next hfound (by omega)
          exact ⟨hinside, _, hdeclare, rfl⟩
      simp only [schema, scope] at himports ⊢
      rw [himports]

theorem within_depth {depth : Nat} (outer : Table String)
    (hdepth : depthBound origin roots ≤ depth) :
    within origin depth roots outer start =
      within origin (depthBound origin roots) roots outer start := by
  have hlength := length_candidates_lt origin roots
  refine eachIn_congr fun root hroot later _ => ?_
  have hroom : remaining (candidates origin roots) later ≤ (candidates origin roots).length :=
    List.countP_le_length
  exact ⟨schema_depth _ _ root outer start later (.root hroot) (by omega) (by omega),
    (schema_walked depth root outer start later (.root hroot) (by omega)).1.kept⟩

end

end SoapComponents.Visit
