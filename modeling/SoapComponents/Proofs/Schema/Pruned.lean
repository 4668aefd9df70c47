import Mathlib.Data.List.Forall2
import SoapComponents.Proofs.Schema.Registered
import SoapComponents.Proofs.Tags

/-!
Imports that are passed over. An import that has no location, or whose document cannot be read or
has no schema, is told of and leaves no other trace: with or without it the same graph is built, or
the same failure comes of it. Two walks are kept in step, of which one meets fewer imports.
-/

set_option autoImplicit false

namespace SoapComponents

inductive Thinned {α : Type} (P : α → Prop) (R : α → α → Prop) : List α → List α → Prop
  | nil : Thinned P R [] []
  | keep {a a' : α} {l l' : List α} : R a a' → Thinned P R l l' → Thinned P R (a :: l) (a' :: l')
  | leave {a : α} {l l' : List α} : P a → Thinned P R l l' → Thinned P R (a :: l) l'

theorem Thinned.of_forall₂ {α : Type} {P : α → Prop} {R : α → α → Prop} {l l' : List α}
    (h : List.Forall₂ R l l') : Thinned P R l l' := by
  induction h with
  | nil => exact .nil
  | cons hfirst _ ih => exact .keep hfirst ih

def Tree.declarationTags : List String := ["group", "complexType", "element"]

def Tree.scopeAttributes : List String := ["targetNamespace", "elementFormDefault"]

/-- A schema, and the same without some of its imports. -/
structure Tree.Pruned (left : Tree → Prop) (t t' : Tree) : Prop where
  imports : Thinned left Eq t.imports t'.imports
  children : ∀ tag ∈ Tree.declarationTags, t'.children tag = t.children tag
  attributes : ∀ name ∈ Tree.scopeAttributes, t'.attribute? name = t.attribute? name
  namespaces : t'.namespaces = t.namespaces

theorem Thinned.append {α : Type} {P : α → Prop} {R : α → α → Prop} {k k' l l' : List α}
    (h : Thinned P R k k') (h' : Thinned P R l l') : Thinned P R (k ++ l) (k' ++ l') := by
  induction h with
  | nil => exact h'
  | keep hitem _ ih => exact .keep hitem ih
  | leave hitem _ ih => exact .leave hitem ih

theorem Thinned.empty {α : Type} {P : α → Prop} {R : α → α → Prop} {l : List α}
    (h : ∀ a ∈ l, P a) : Thinned P R l [] := by
  induction l with
  | nil => exact .nil
  | cons a rest ih =>
    exact .leave (h a List.mem_cons_self) (ih fun b hb => h b (List.mem_cons_of_mem _ hb))

theorem Tree.Pruned.refl {left : Tree → Prop} (t : Tree) : Tree.Pruned left t t where
  imports := .of_forall₂ (List.forall₂_refl _)
  children := fun _ _ => rfl
  attributes := fun _ _ => rfl
  namespaces := rfl

theorem Tree.Pruned.scope {left : Tree → Prop} {t t' : Tree} (h : Tree.Pruned left t t')
    (outer : Table String) (location : Option String) :
    Scope.ofSchema t' outer location = Scope.ofSchema t outer location := by
  have htarget := h.attributes "targetNamespace" (by simp [scopeAttributes])
  have hform := h.attributes "elementFormDefault" (by simp [scopeAttributes])
  simp only [Scope.ofSchema, htarget, hform, h.namespaces]

namespace Tree

def IsImportKey (key : String) : Prop :=
  (matchesTag key "import" = true ∨ matchesTag key "include" = true) ∧
    "xmlns:".toList.isPrefixOf key.toList = false

inductive Cleared (left : Tree → Prop) : List (String × Tree) → List (String × Tree) → Prop
  | nil : Cleared left [] []
  | keep {e : String × Tree} {es es' : List (String × Tree)} :
      Cleared left es es' → Cleared left (e :: es) (e :: es')
  | thin {key : String} {value value' : Tree} {es es' : List (String × Tree)} :
      IsImportKey key → Thinned left Eq (value.items.filterMap asElement?)
        (value'.items.filterMap asElement?) →
      Cleared left es es' → Cleared left ((key, value) :: es) ((key, value') :: es')
  | drop {key : String} {value : Tree} {es es' : List (String × Tree)} :
      IsImportKey key → (∀ inner ∈ value.items.filterMap asElement?, left inner) →
      Cleared left es es' → Cleared left ((key, value) :: es) es'

variable {left : Tree → Prop} {es es' : List (String × Tree)}

theorem IsImportKey.not_declaration {key tag : String} (h : IsImportKey key)
    (htag : tag ∈ declarationTags) : matchesTag key tag = false := by
  have hall : ∀ tag ∈ declarationTags, IsTag tag ∧ tag ≠ "import" ∧ tag ≠ "include" := by decide
  obtain ⟨hproper, himport, hinclude⟩ := hall tag htag
  rw [Bool.eq_false_iff]
  intro hmatch
  rcases h.1 with h | h
  · exact himport (tag_unique hproper (by decide) hmatch h)
  · exact hinclude (tag_unique hproper (by decide) hmatch h)

theorem IsImportKey.not_attribute {key name : String} (h : IsImportKey key)
    (hname : name ∈ scopeAttributes) : key ≠ name := by
  have hall : ∀ name ∈ scopeAttributes,
      matchesTag name "import" = false ∧ matchesTag name "include" = false := by decide +kernel
  rintro rfl
  simp [IsImportKey, hall key hname] at h

theorem IsImportKey.declares_nothing {key : String} (h : IsImportKey key) (value : Tree) :
    declaration? (key, value) = none := by
  have hnone : matchesTag "xmlns" "import" = false ∧ matchesTag "xmlns" "include" = false := by
    decide +kernel
  have hdefault : (key == "xmlns") = false := by
    rw [beq_eq_false_iff_ne]
    rintro rfl
    simp [IsImportKey, hnone] at h
  cases value with
  | text space => simp only [declaration?, h.2, hdefault, Bool.false_eq_true, if_false]
  | node _ => rfl
  | many _ => rfl

theorem Cleared.children (h : Cleared left es es') (tag : String) :
    Thinned left Eq ((node es).children tag) ((node es').children tag) := by
  induction h with
  | nil => exact .nil
  | keep _ ih => exact Thinned.append (.of_forall₂ (List.forall₂_refl _)) ih
  | thin _ hvalue _ ih =>
    refine Thinned.append ?_ ih
    dsimp only
    split
    · exact hvalue
    · exact .nil
  | drop _ hvalue _ ih =>
    refine @Thinned.append _ _ _ _ [] _ _ ?_ ih
    dsimp only
    split
    · exact .empty hvalue
    · exact .nil

theorem Cleared.pruned (h : Cleared left es es') : Pruned left (node es) (node es') where
  imports := (h.children "import").append (h.children "include")
  children := by
    intro tag htag
    induction h with
    | nil => rfl
    | keep _ ih => exact congrArg (_ ++ ·) ih
    | thin hkey _ _ ih =>
      simp only [Tree.children, entries, List.flatMap_cons, hkey.not_declaration htag] at ih ⊢
      simpa using ih
    | drop hkey _ _ ih =>
      simp only [Tree.children, entries, List.flatMap_cons, hkey.not_declaration htag] at ih ⊢
      simpa using ih
  attributes := by
    intro name hname
    have hvalue : Table.value? es' name = Table.value? es name := by
      induction h with
      | nil => rfl
      | keep _ ih => simp only [Table.value?, ih]
      | thin hkey _ _ ih => simp only [Table.value?, if_neg (hkey.not_attribute hname), ih]
      | drop hkey _ _ ih => simp only [Table.value?, if_neg (hkey.not_attribute hname), ih]
    simp only [attribute?, entries, hvalue]
  namespaces := by
    simp only [namespaces_eq, entries]
    congr 1
    induction h with
    | nil => rfl
    | keep _ ih => simp only [List.filterMap_cons, ih]
    | thin hkey _ _ ih => simp only [List.filterMap_cons, hkey.declares_nothing, ih]
    | drop hkey _ _ ih => simp only [List.filterMap_cons, hkey.declares_nothing, ih]

end Tree

namespace Visit

/-- An import that is told of and passed over: it names no location, there are no documents, or
its document cannot be read or has no schema. -/
inductive Passed (origin : Option Origin) (base : Option String) (inner : Tree) : Prop
  | unplaced : inner.given? "schemaLocation" = none → Passed origin base inner
  | unanswered : origin = none → Passed origin base inner
  | unread {source : Origin} {reference place : String} {failure : Failure} :
      origin = some source → inner.given? "schemaLocation" = some reference →
      Location.resolve base reference = .ok place →
      (source.document place).result = .error failure →
      (failure.isLoading || failure.isStructural) = true → Passed origin base inner
  | rootless {source : Origin} {reference place : String} {tree : Tree} :
      origin = some source → inner.given? "schemaLocation" = some reference →
      Location.resolve base reference = .ok place →
      (source.document place).result = .ok tree → tree.element? "schema" = none →
      Passed origin base inner

/-- The same documents, but for imports in their schemas that are left out. The first argument
says which, by where the document is found. -/
def Origin.Pruned (left : Option String → Tree → Prop) (source source' : Origin) : Prop :=
  ∀ place,
    (∃ failure, (source.document place).result = .error failure ∧
      (source'.document place).result = .error failure) ∨
    ∃ tree tree', (source.document place).result = .ok tree ∧
      (source'.document place).result = .ok tree' ∧
      Option.Rel (Tree.Pruned (left (some place))) (tree.element? "schema")
        (tree'.element? "schema")

def Imports (origin : Option Origin) (roots : List Tree) (start base : Option String)
    (inner : Tree) (place : String) : Prop :=
  ∃ schema reference, Reached origin roots start schema base ∧ inner ∈ schema.imports ∧
    inner.given? "schemaLocation" = some reference ∧ Location.resolve base reference = .ok place

/-- A source and the same with another document, which differs in imports only. -/
inductive SourcePruned (left : Tree → Prop) : Source → Source → Prop
  | same (held : Source) : SourcePruned left held held
  | file {bytes bytes' : List UInt8} {tree tree' : Tree} :
      Tree.parse bytes = .ok tree → Tree.parse bytes' = .ok tree' →
      Option.Rel (Tree.Pruned left) (tree.element? "schema") (tree'.element? "schema") →
      SourcePruned left (.file bytes) (.file bytes')

theorem SourcePruned.read {left : Tree → Prop} {held held' : Source}
    (h : SourcePruned left held held') {read : Source → Except Failure (List UInt8)}
    (hfile : ∀ bytes, read (.file bytes) = .ok bytes) :
    (∃ failure, (read held).bind Tree.parse = .error failure ∧
      (read held').bind Tree.parse = .error failure) ∨
    ∃ tree tree', (read held).bind Tree.parse = .ok tree ∧
      (read held').bind Tree.parse = .ok tree' ∧
      Option.Rel (Tree.Pruned left) (tree.element? "schema") (tree'.element? "schema") := by
  cases h with
  | same =>
    cases (read held).bind Tree.parse with
    | error failure => exact .inl ⟨failure, rfl, rfl⟩
    | ok tree =>
      refine .inr ⟨tree, tree, rfl, rfl, ?_⟩
      cases tree.element? "schema" with
      | none => exact .none
      | some schema => exact .some (.refl schema)
  | @file bytes bytes' tree tree' hparse hparse' hschema =>
    exact .inr ⟨tree, tree', by rw [hfile, ← hparse]; rfl, by rw [hfile, ← hparse']; rfl, hschema⟩

theorem Origin.result_document (source : Origin) (place : String) :
    (source.document place).result =
      match Url.isRemote place with
      | .error flaw => .error (.badLocation flaw)
      | .ok true => (((Table.value? source.library place).getD Library.missingPage).fetch
          source.timeout place).bind Tree.parse
      | .ok false => (((Table.value? source.library (Path.normalize place)).getD
          Library.missingFile).read place).bind Tree.parse := by
  have hbind : ∀ {told : Notice} {loaded : Except Failure (List UInt8)},
      (do
        let bytes ← do
          Outcome.tell told
          Outcome.ofExcept loaded
        Outcome.ofExcept (Tree.parse bytes) : Outcome Tree).result = loaded.bind Tree.parse := by
    intro told loaded
    cases loaded <;> rfl
  unfold document Library.load
  cases Url.isRemote place with
  | error flaw => rfl
  | ok remote =>
    cases remote with
    | true => exact hbind
    | false => exact hbind

theorem Origin.pruned_of_library {left : Option String → Tree → Prop} {library library' : Library}
    {timeout : Int}
    (h : ∀ place remote, Url.isRemote place = .ok remote →
      Option.Rel (SourcePruned (left (some place)))
        (Table.value? library (if remote then place else Path.normalize place))
        (Table.value? library' (if remote then place else Path.normalize place))) :
    Origin.Pruned left ⟨library, timeout⟩ ⟨library', timeout⟩ := by
  have hheld : ∀ {P : Tree → Prop} {held? held?' : Option Source} {missing : Source},
      Option.Rel (SourcePruned P) held? held?' →
      SourcePruned P (held?.getD missing) (held?'.getD missing) := by
    intro P held? held?' missing hrel
    cases hrel with
    | none => exact .same missing
    | some hpruned => exact hpruned
  intro place
  simp only [Origin.result_document]
  cases hremote : Url.isRemote place with
  | error flaw => exact .inl ⟨_, rfl, rfl⟩
  | ok remote =>
    have hlook := h place remote hremote
    cases remote with
    | true => exact (hheld hlook).read fun bytes => rfl
    | false => exact (hheld hlook).read fun bytes => rfl

/-- No import leads elsewhere under the mark of one that is left out. -/
def MarksApart (origin : Option Origin) (roots : List Tree) (start : Option String)
    (left : Option String → Tree → Prop) : Prop :=
  ∀ base inner place base' inner' place', left base inner →
    Imports origin roots start base inner place → Imports origin roots start base' inner' place' →
    mark (inner.attribute? "namespace") place = mark (inner'.attribute? "namespace") place' →
    place = place'

theorem marksApart_of_names {origin : Option Origin} {roots : List Tree} {start : Option String}
    (hbar : ∀ space, Named origin roots start space → '|' ∉ (space.getD "").toList)
    (left : Option String → Tree → Prop) : MarksApart origin roots start left := by
  intro base inner place base' inner' place' _ himport himport' hmark
  obtain ⟨schema, _, hreached, hinner, _⟩ := himport
  obtain ⟨schema', _, hreached', hinner', _⟩ := himport'
  exact place_of_mark (hbar _ ⟨schema, base, hreached, .inr ⟨inner, hinner, rfl⟩⟩)
    (hbar _ ⟨schema', base', hreached', .inr ⟨inner', hinner', rfl⟩⟩) hmark

def hasEffect : Visit → Bool
  | enter _ | declare _ _ | fail _ => true
  | _ => false

def effects (visits : List Visit) : List Visit := visits.filter hasEffect

@[simp] theorem effects_nil : effects [] = [] := rfl

@[simp] theorem effects_append (visits more : List Visit) :
    effects (visits ++ more) = effects visits ++ effects more := List.filter_append ..

@[simp] theorem effects_enter (scope : Scope) (rest : List Visit) :
    effects (.enter scope :: rest) = .enter scope :: effects rest := rfl

@[simp] theorem effects_load (space : Option String) (location : String) (rest : List Visit) :
    effects (.load space location :: rest) = effects rest := rfl

@[simp] theorem effects_declare (schema : Tree) (scope : Scope) (rest : List Visit) :
    effects (.declare schema scope :: rest) = .declare schema scope :: effects rest := rfl

@[simp] theorem effects_tell (notice : Notice) (rest : List Visit) :
    effects (.tell notice :: rest) = effects rest := rfl

@[simp] theorem effects_fail (failure : Failure) (rest : List Visit) :
    effects (.fail failure :: rest) = .fail failure :: effects rest := rfl

theorem effects_told (l : Lead) :
    effects l.told =
      match (l.origin.document l.location).result with
      | .error failure =>
        if failure.isLoading || failure.isStructural then [] else [.fail failure]
      | .ok _ => [] := by
  have hnotices : ∀ notices : List Notice, effects (notices.map Visit.tell) = [] := by
    intro notices
    induction notices with
    | nil => rfl
    | cons notice rest ih => exact ih
  simp only [Lead.told, effects_append, hnotices, List.nil_append]
  cases (l.origin.document l.location).result with
  | error failure => dsimp only; split <;> rfl
  | ok tree => dsimp only; split <;> rfl

inductive SameEffect : Visit → Visit → Prop
  | enter (scope : Scope) : SameEffect (.enter scope) (.enter scope)
  | declare {schema schema' : Tree} (scope : Scope) :
      (∀ tag ∈ Tree.declarationTags, schema'.children tag = schema.children tag) →
      SameEffect (.declare schema scope) (.declare schema' scope)
  | fail (failure : Failure) : SameEffect (.fail failure) (.fail failure)

def SameSeen (gone : String → Prop) (seen seen' : List String) : Prop :=
  ∀ m, ¬ gone m → (m ∈ seen ↔ m ∈ seen')

structure InStep (gone : String → Prop) (walk walk' : List Visit × List String) : Prop where
  effects : List.Forall₂ SameEffect (effects walk.1) (effects walk'.1)
  seen : SameSeen gone walk.2 walk'.2

section

variable {gone : String → Prop} {seen seen' : List String}

theorem SameSeen.cons (h : SameSeen gone seen seen') (m : String) :
    SameSeen gone (m :: seen) (m :: seen') := by
  intro other hother
  simp [h other hother]

theorem SameSeen.entered (h : SameSeen gone seen seen') (scope : Scope) :
    SameSeen gone (entered scope seen) (entered scope seen') := by
  unfold Visit.entered
  split
  · exact h.cons _
  · exact h

theorem eachIn_inStep {α : Type} {visit visit' : α → List String → List Visit × List String}
    {P : α → Prop} {R : α → α → Prop} {items items' : List α} (hitems : Thinned P R items items')
    (hkeep : ∀ item ∈ items, ∀ item', R item item' → ∀ seen seen', SameSeen gone seen seen' →
      InStep gone (visit item seen) (visit' item' seen'))
    (hleave : ∀ item ∈ items, P item → ∀ seen, effects (visit item seen).1 = [] ∧
      SameSeen gone (visit item seen).2 seen)
    (hseen : SameSeen gone seen seen') :
    InStep gone (eachIn visit items seen) (eachIn visit' items' seen') := by
  induction hitems generalizing seen seen' with
  | nil => exact ⟨.nil, hseen⟩
  | @keep item item' rest rest' hitem _ ih =>
    have hfirst := hkeep item List.mem_cons_self item' hitem seen seen' hseen
    have hrest := ih (fun other hother => hkeep other (List.mem_cons_of_mem _ hother))
      (fun other hother => hleave other (List.mem_cons_of_mem _ hother)) hfirst.seen
    refine ⟨?_, hrest.seen⟩
    simp only [eachIn, effects_append]
    exact List.rel_append hfirst.effects hrest.effects
  | @leave item rest rest' hitem _ ih =>
    obtain ⟨hnone, hsame⟩ := hleave item List.mem_cons_self hitem seen
    have hrest := ih (fun other hother => hkeep other (List.mem_cons_of_mem _ hother))
      (fun other hother => hleave other (List.mem_cons_of_mem _ hother))
      (fun m hm => (hsame m hm).trans (hseen m hm))
    refine ⟨?_, hrest.seen⟩
    simp only [eachIn, effects_append, hnone, List.nil_append]
    exact hrest.effects

end

section

variable {origin origin' : Option Origin} {roots : List Tree} {start : Option String}
  {left : Option String → Tree → Prop}

def Gone (origin : Option Origin) (roots : List Tree) (start : Option String)
    (left : Option String → Tree → Prop) (m : String) : Prop :=
  ∃ base inner place, left base inner ∧ Imports origin roots start base inner place ∧
    m = mark (inner.attribute? "namespace") place

theorem Passed.document {source : Origin} {base : Option String} {inner : Tree}
    {reference place : String} (h : Passed (some source) base inner)
    (hreference : inner.given? "schemaLocation" = some reference)
    (hplace : Location.resolve base reference = .ok place) :
    source.schema? place = none ∧ ∀ reference', effects (Lead.told ⟨source, reference', place⟩) = [] := by
  cases h with
  | unplaced hnone => simp [hnone] at hreference
  | unanswered hnone => cases hnone
  | unread hsource hother hresolve hdocument hfailure =>
    obtain rfl := Option.some.inj hsource
    obtain rfl := Option.some.inj (hreference.symm.trans hother)
    obtain rfl := Except.ok.inj (hplace.symm.trans hresolve)
    refine ⟨by simp [Origin.schema?, hdocument], fun reference' => ?_⟩
    simp only [effects_told, hdocument, hfailure, if_true]
  | rootless hsource hother hresolve hdocument hroot =>
    obtain rfl := Option.some.inj hsource
    obtain rfl := Option.some.inj (hreference.symm.trans hother)
    obtain rfl := Except.ok.inj (hplace.symm.trans hresolve)
    refine ⟨by simp [Origin.schema?, hdocument, hroot], fun reference' => ?_⟩
    simp only [effects_told, hdocument]

theorem Passed.resolve_ne {source : Origin} {base : Option String} {inner : Tree}
    {reference : String} {flaw : LocationFlaw} (h : Passed (some source) base inner)
    (hreference : inner.given? "schemaLocation" = some reference) :
    Location.resolve base reference ≠ .error flaw := by
  intro hflaw
  cases h with
  | unplaced hnone => simp [hnone] at hreference
  | unanswered hnone => cases hnone
  | unread _ hother hresolve _ _ =>
    obtain rfl := Option.some.inj (hreference.symm.trans hother)
    cases hflaw.symm.trans hresolve
  | rootless _ hother hresolve _ _ =>
    obtain rfl := Option.some.inj (hreference.symm.trans hother)
    cases hflaw.symm.trans hresolve

theorem follow_idle {gone : String → Prop} {scope : Scope} {inner : Tree} {l : Lead}
    (inside : Tree → String → List String → List Visit × List String)
    (hlead : lead origin scope inner = .ok l) (hschema : l.origin.schema? l.location = none)
    (hquiet : effects l.told = []) (hgone : gone (mark (inner.attribute? "namespace") l.location))
    (seen : List String) :
    effects (follow origin scope inside inner seen).1 = [] ∧
      SameSeen gone (follow origin scope inside inner seen).2 seen := by
  by_cases hseen : mark (inner.attribute? "namespace") l.location ∈ seen
  · rw [follow_of_seen inside hlead hseen]
    exact ⟨rfl, fun m _ => Iff.rfl⟩
  · rw [follow_of_rootless inside hlead hseen hschema]
    refine ⟨(effects_load ..).trans hquiet, fun m hm => ?_⟩
    rw [List.mem_cons, or_iff_right]
    rintro rfl
    exact hm hgone

theorem follow_passed {schema inner : Tree} {scope : Scope}
    {inside : Tree → String → List String → List Visit × List String}
    (hreached : Reached origin roots start schema scope.location) (hinner : inner ∈ schema.imports)
    (hleft : left scope.location inner) (hpassed : Passed origin scope.location inner)
    (seen : List String) :
    effects (follow origin scope inside inner seen).1 = [] ∧
      SameSeen (Gone origin roots start left) (follow origin scope inside inner seen).2 seen := by
  cases hlead : lead origin scope inner with
  | error told =>
    rw [follow_of_error inside hlead]
    refine ⟨?_, fun m _ => Iff.rfl⟩
    cases leadless_of_lead hlead with
    | unplaced _ => rfl
    | unanswered _ _ => rfl
    | unresolved hreference horigin hflaw =>
      cases ((horigin ▸ hpassed).resolve_ne hreference) hflaw
  | ok l =>
    obtain ⟨horigin, hreference, hresolve⟩ := lead_eq_ok hlead
    obtain ⟨hschema, htold⟩ := (horigin ▸ hpassed).document hreference hresolve
    exact follow_idle inside hlead hschema (htold l.reference)
      ⟨_, inner, _, hleft, ⟨schema, _, hreached, hinner, hreference, hresolve⟩, rfl⟩ seen

theorem Origin.Pruned.effects_told {source source' : Origin}
    (h : Origin.Pruned left source source') (reference place : String) :
    effects (Lead.told ⟨source', reference, place⟩) =
      effects (Lead.told ⟨source, reference, place⟩) := by
  rcases h place with ⟨failure, hfailure, hfailure'⟩ | ⟨tree, tree', htree, htree', hrel⟩
  · simp only [Visit.effects_told, hfailure, hfailure']
  · simp only [Visit.effects_told, htree, htree']

theorem Origin.Pruned.schemas {source source' : Origin} (h : Origin.Pruned left source source')
    (place : String) :
    (source.schema? place = none ∧ source'.schema? place = none) ∨
      ∃ found found', source.schema? place = some found ∧ source'.schema? place = some found' ∧
        Tree.Pruned (left (some place)) found found' := by
  rcases h place with ⟨failure, hfailure, hfailure'⟩ | ⟨tree, tree', htree, htree', hrel⟩
  · exact .inl (by simp only [Origin.schema?, hfailure, hfailure', and_self])
  · simp only [Origin.schema?, htree, htree']
    generalize tree.element? "schema" = root at hrel
    generalize tree'.element? "schema" = root' at hrel
    cases hrel with
    | none => exact .inl ⟨rfl, rfl⟩
    | some hpruned => exact .inr ⟨_, _, rfl, rfl, hpruned⟩

theorem sameEffect_of_quiet {visits : List Visit} (h : Quiet visits) :
    List.Forall₂ SameEffect (effects visits) (effects visits) := by
  induction visits with
  | nil => exact .nil
  | cons v rest ih =>
    have hrest := ih fun w hw => h w (List.mem_cons_of_mem _ hw)
    rcases h v List.mem_cons_self with ⟨notice, rfl⟩ | ⟨failure, rfl⟩
    · exact hrest
    · exact .cons (.fail failure) hrest

theorem lead_pruned_error {scope : Scope} {inner : Tree} {told : List Visit}
    (horigin : Option.Rel (Origin.Pruned left) origin origin')
    (h : lead origin scope inner = .error told) : lead origin' scope inner = .error told := by
  cases leadless_of_lead h with
  | unplaced hnone => simp only [lead, hnone]
  | unanswered hreference hnone =>
    subst hnone
    cases horigin
    simp only [lead, hreference]
  | unresolved hreference hsource hflaw =>
    subst hsource
    cases horigin
    simp only [lead, hreference, hflaw]

theorem lead_pruned_ok {scope : Scope} {inner : Tree} {l : Lead}
    (horigin : Option.Rel (Origin.Pruned left) origin origin')
    (h : lead origin scope inner = .ok l) :
    ∃ source', Origin.Pruned left l.origin source' ∧
      lead origin' scope inner = .ok ⟨source', l.reference, l.location⟩ := by
  obtain ⟨rfl, hreference, hresolve⟩ := lead_eq_ok h
  cases horigin with
  | some hsource => exact ⟨_, hsource, by simp only [lead, hreference, hresolve]⟩

theorem follow_inStep_of_gone {schema inner : Tree} {scope : Scope} {seen seen' : List String}
    {l : Lead} {source' : Origin}
    (inside inside' : Tree → String → List String → List Visit × List String)
    (hpassed : ∀ base inner, left base inner → Passed origin base inner)
    (hmarks : MarksApart origin roots start left)
    (hreached : Reached origin roots start schema scope.location) (hinner : inner ∈ schema.imports)
    (hlead : lead origin scope inner = .ok l)
    (hlead' : lead origin' scope inner = .ok ⟨source', l.reference, l.location⟩)
    (hsource : Origin.Pruned left l.origin source')
    (hgone : Gone origin roots start left (mark (inner.attribute? "namespace") l.location))
    (hseen : SameSeen (Gone origin roots start left) seen seen') :
    InStep (Gone origin roots start left) (follow origin scope inside inner seen)
      (follow origin' scope inside' inner seen') := by
  obtain ⟨horigin, hreference, hresolve⟩ := lead_eq_ok hlead
  obtain ⟨base, other, place, hleft, himports, hmark⟩ := id hgone
  obtain rfl : place = l.location := hmarks base other place _ inner l.location hleft himports
    ⟨schema, l.reference, hreached, hinner, hreference, hresolve⟩ hmark.symm
  obtain ⟨_, reference, _, _, hother, hresolve'⟩ := himports
  obtain ⟨hnone, hquiet⟩ := (horigin ▸ hpassed base other hleft).document hother hresolve'
  have hnone' : source'.schema? l.location = none := by
    rcases hsource.schemas l.location with ⟨-, hnone'⟩ | ⟨found, _, hfound, _⟩
    · exact hnone'
    · cases hnone.symm.trans hfound
  have htold := hsource.effects_told l.reference l.location
  obtain ⟨heffects, hsame⟩ := follow_idle inside hlead hnone (hquiet l.reference) hgone seen
  obtain ⟨heffects', hsame'⟩ :=
    follow_idle inside' hlead' hnone' (htold.trans (hquiet l.reference)) hgone seen'
  refine ⟨by rw [heffects, heffects']; exact .nil, fun m hm => ?_⟩
  exact (hsame m hm).trans ((hseen m hm).trans (hsame' m hm).symm)

/-- An import that is kept is followed on both sides or on neither, but where it leads to a place
without schema. -/
theorem follow_inStep {schema inner : Tree} {scope : Scope} {seen seen' : List String}
    {inside inside' : Tree → String → List String → List Visit × List String}
    (horigin : Option.Rel (Origin.Pruned left) origin origin')
    (hpassed : ∀ base inner, left base inner → Passed origin base inner)
    (hmarks : MarksApart origin roots start left)
    (hreached : Reached origin roots start schema scope.location) (hinner : inner ∈ schema.imports)
    (hinside : ∀ found found' place later later', Reached origin roots start found (some place) →
      Tree.Pruned (left (some place)) found found' →
      SameSeen (Gone origin roots start left) later later' →
      InStep (Gone origin roots start left) (inside found place later)
        (inside' found' place later'))
    (hseen : SameSeen (Gone origin roots start left) seen seen') :
    InStep (Gone origin roots start left) (follow origin scope inside inner seen)
      (follow origin' scope inside' inner seen') := by
  cases hlead : lead origin scope inner with
  | error told =>
    rw [follow_of_error inside hlead,
      follow_of_error inside' (lead_pruned_error horigin hlead)]
    exact ⟨sameEffect_of_quiet (quiet_of_lead_error hlead), hseen⟩
  | ok l =>
    obtain ⟨source', hsource, hlead'⟩ := lead_pruned_ok horigin hlead
    by_cases hgone : Gone origin roots start left (mark (inner.attribute? "namespace") l.location)
    · exact follow_inStep_of_gone inside inside' hpassed hmarks hreached hinner hlead hlead'
        hsource hgone hseen
    by_cases hm : mark (inner.attribute? "namespace") l.location ∈ seen
    · rw [follow_of_seen inside hlead hm, follow_of_seen inside' hlead' ((hseen _ hgone).1 hm)]
      exact ⟨.nil, hseen⟩
    have hm' := mt (hseen _ hgone).2 hm
    have hquiet : List.Forall₂ SameEffect (effects l.told)
        (effects (Lead.told ⟨source', l.reference, l.location⟩)) := by
      rw [hsource.effects_told]
      exact sameEffect_of_quiet (quiet_told l)
    rcases hsource.schemas l.location with
      ⟨hnone, hnone'⟩ | ⟨found, found', hfound, hfound', hpruned⟩
    · rw [follow_of_rootless inside hlead hm hnone, follow_of_rootless inside' hlead' hm' hnone']
      refine ⟨?_, hseen.cons _⟩
      simpa only [effects_load] using hquiet
    · obtain ⟨hsome, hreference, hresolve⟩ := lead_eq_ok hlead
      have hmore := hinside found found' l.location _ _
        (.imported hreached hinner hreference hsome hresolve hfound) hpruned
        (hseen.cons (mark (inner.attribute? "namespace") l.location))
      rw [follow_of_schema inside hlead hm hfound, follow_of_schema inside' hlead' hm' hfound']
      refine ⟨?_, hmore.seen⟩
      simp only [effects_load, effects_append]
      exact List.rel_append hquiet hmore.effects

theorem schema_inStep (horigin : Option.Rel (Origin.Pruned left) origin origin')
    (hpassed : ∀ base inner, left base inner → Passed origin base inner)
    (hmarks : MarksApart origin roots start left) (depth : Nat) (node node' : Tree)
    (outer : Table String) (location : Option String) (seen seen' : List String)
    (hreached : Reached origin roots start node location)
    (hnode : Tree.Pruned (left location) node node')
    (hseen : SameSeen (Gone origin roots start left) seen seen') :
    InStep (Gone origin roots start left) (schema origin depth node outer location seen)
      (schema origin' depth node' outer location seen') := by
  induction depth generalizing node node' outer location seen seen' with
  | zero => exact ⟨.nil, hseen⟩
  | succ depth ih =>
    have hinside : InStep (Gone origin roots start left)
        (eachIn (follow origin (Scope.ofSchema node outer location) fun found place seen =>
            schema origin depth found (Scope.ofSchema node outer location).namespaces
              (some place) seen)
          node.imports (entered (Scope.ofSchema node outer location) seen))
        (eachIn (follow origin' (Scope.ofSchema node outer location) fun found place seen =>
            schema origin' depth found (Scope.ofSchema node outer location).namespaces
              (some place) seen)
          node'.imports (entered (Scope.ofSchema node outer location) seen')) := by
      refine eachIn_inStep hnode.imports ?_ ?_ (hseen.entered _)
      · rintro inner hinner _ rfl later later' hlater
        refine follow_inStep horigin hpassed hmarks
          (show Reached origin roots start node (Scope.ofSchema node outer location).location from
            hreached) hinner (fun found found' place next next' hfound hpruned hnext => ?_) hlater
        exact ih found found' _ (some place) next next' hfound hpruned hnext
      · exact fun inner hinner hleft later => follow_passed
          (show Reached origin roots start node (Scope.ofSchema node outer location).location from
            hreached) hinner hleft (hpassed _ _ hleft) later
    simp only [schema, hnode.scope outer location]
    refine ⟨?_, hinside.seen⟩
    simp only [effects_enter, effects_append, effects_declare, effects_nil]
    exact .cons (.enter _) (List.rel_append hinside.effects
      (.cons (.declare _ hnode.children) .nil))

/-- All visits of a list of schemas. The two walks may need different depths; both have room in
the larger one. -/
theorem all_inStep {roots' : List Tree} (outer : Table String)
    (horigin : Option.Rel (Origin.Pruned left) origin origin')
    (hroots : List.Forall₂ (Tree.Pruned (left start)) roots roots')
    (hpassed : ∀ base inner, left base inner → Passed origin base inner)
    (hmarks : MarksApart origin roots start left) :
    List.Forall₂ SameEffect (effects (all origin roots outer start))
      (effects (all origin' roots' outer start)) := by
  have hdepth := @within_depth origin roots start
    (max (depthBound origin roots) (depthBound origin' roots')) outer (Nat.le_max_left _ _)
  have hdepth' := @within_depth origin' roots' start
    (max (depthBound origin roots) (depthBound origin' roots')) outer (Nat.le_max_right _ _)
  rw [all, all, ← hdepth, ← hdepth']
  have hall : Thinned (fun _ => False) (Tree.Pruned (left start)) roots roots' :=
    .of_forall₂ hroots
  have hstep : ∀ depth, InStep (Gone origin roots start left)
      (within origin depth roots outer start) (within origin' depth roots' outer start) :=
    fun depth => eachIn_inStep hall
      (fun root hroot root' hpruned seen seen' hseen =>
        schema_inStep horigin hpassed hmarks depth root root' outer start seen seen'
          (.root hroot) hpruned hseen)
      (fun _ _ h => h.elim) fun _ _ => Iff.rfl
  exact (hstep _).effects

end

end Visit

namespace Building

open Visit

theorem step_of_sameEffect {v v' : Visit} (h : SameEffect v v') (b : Building) :
    b.step v' = b.step v := by
  cases h with
  | enter scope => rfl
  | declare scope hchildren =>
    have hgroups := hchildren "group" (by simp [Tree.declarationTags])
    have htypes := hchildren "complexType" (by simp [Tree.declarationTags])
    have helements := hchildren "element" (by simp [Tree.declarationTags])
    simp only [step, registerGroups, hgroups, htypes, helements]
  | fail failure => rfl

theorem result_foldlM_effects (visits : List Visit) (b : Building) :
    (visits.foldlM step b).result = ((effects visits).foldlM step b).result := by
  induction visits generalizing b with
  | nil => rfl
  | cons v rest ih =>
    cases v with
    | enter scope => simpa only [effects_enter, List.foldlM_cons, Outcome.result_bind, step,
        Outcome.result_pure] using ih _
    | load space location => simpa only [effects_load, List.foldlM_cons, Outcome.result_bind, step,
        Outcome.result_pure] using ih _
    | declare schema scope =>
      simp only [effects_declare, List.foldlM_cons, Outcome.result_bind, ih]
    | tell notice => simpa only [effects_tell, List.foldlM_cons, Outcome.result_bind, step,
        Outcome.result_tell, Outcome.result_pure] using ih _
    | fail failure => rfl

theorem result_foldlM_sameEffect {visits visits' : List Visit}
    (h : List.Forall₂ SameEffect (effects visits) (effects visits')) (b : Building) :
    (visits'.foldlM step b).result = (visits.foldlM step b).result := by
  rw [result_foldlM_effects, result_foldlM_effects visits]
  generalize effects visits = l at h
  generalize effects visits' = l' at h
  induction h generalizing b with
  | nil => rfl
  | cons hfirst _ ih =>
    simp only [List.foldlM_cons, step_of_sameEffect hfirst, Outcome.result_bind, ih]

theorem result_gather_pruned {origin origin' : Option Origin} {roots roots' : List Tree}
    {start : Option String} {left : Option String → Tree → Prop} (outer : Table String)
    (horigin : Option.Rel (Origin.Pruned left) origin origin')
    (hroots : List.Forall₂ (Tree.Pruned (left start)) roots roots')
    (hpassed : ∀ base inner, left base inner → Passed origin base inner)
    (hmarks : MarksApart origin roots start left) :
    (gather origin' roots' outer start).result = (gather origin roots outer start).result := by
  unfold gather
  rw [Outcome.result_bind, Outcome.result_bind,
    result_foldlM_sameEffect (all_inStep outer horigin hroots hpassed hmarks)]

end Building

theorem diagnose_pruned {left : Tree → Prop} {roots roots' : List Tree}
    (h : List.Forall₂ (Tree.Pruned left) roots roots') (g : TypeGraph) :
    diagnose g roots' = diagnose g roots := by
  have hchildren : ∀ tag ∈ Tree.declarationTags,
      roots'.flatMap (·.children tag) = roots.flatMap (·.children tag) := by
    intro tag htag
    induction h with
    | nil => rfl
    | cons hfirst _ ih => simp only [List.flatMap_cons, hfirst.children tag htag, ih]
  have htypes := hchildren "complexType" (by simp [Tree.declarationTags])
  have helements := hchildren "element" (by simp [Tree.declarationTags])
  simp only [diagnose, htypes, helements]

/-- Leaving out imports that would be passed over, in any of the schemas and documents, makes no
difference: the same graph is built, or the same failure comes of it. -/
theorem TypeGraph.result_build_pruned {origin origin' : Option Visit.Origin}
    {roots roots' : List Tree} {start : Option String} {left : Option String → Tree → Prop}
    (outer : Table String)
    (horigin : Option.Rel (Visit.Origin.Pruned left) origin origin')
    (hroots : List.Forall₂ (Tree.Pruned (left start)) roots roots')
    (hpassed : ∀ base inner, left base inner → Visit.Passed origin base inner)
    (hmarks : Visit.MarksApart origin roots start left) :
    (TypeGraph.build origin' roots' outer start).result =
      (TypeGraph.build origin roots outer start).result := by
  simp only [TypeGraph.build, Outcome.result_bind, diagnose_pruned hroots,
    Building.result_gather_pruned outer horigin hroots hpassed hmarks]

namespace SamplePruned

open Visit

/-- `<schema targetNamespace="b"><include schemaLocation="/gone"/><element name="B"/></schema>` -/
def bytes : List UInt8 := [
  60, 115, 99, 104, 101, 109, 97, 32, 116, 97, 114, 103, 101, 116, 78, 97, 109, 101, 115, 112, 97,
  99, 101, 61, 34, 98, 34, 62, 60, 105, 110, 99, 108, 117, 100, 101, 32, 115, 99, 104, 101, 109,
  97, 76, 111, 99, 97, 116, 105, 111, 110, 61, 34, 47, 103, 111, 110, 101, 34, 47, 62, 60, 101,
  108, 101, 109, 101, 110, 116, 32, 110, 97, 109, 101, 61, 34, 66, 34, 47, 62, 60, 47, 115, 99,
  104, 101, 109, 97, 62]

/-- `<schema targetNamespace="b"><element name="B"/></schema>` -/
def bytes' : List UInt8 := [
  60, 115, 99, 104, 101, 109, 97, 32, 116, 97, 114, 103, 101, 116, 78, 97, 109, 101, 115, 112, 97,
  99, 101, 61, 34, 98, 34, 62, 60, 101, 108, 101, 109, 101, 110, 116, 32, 110, 97, 109, 101, 61,
  34, 66, 34, 47, 62, 60, 47, 115, 99, 104, 101, 109, 97, 62]

def source : Origin := ⟨[("/b", .file bytes)], 10⟩

def source' : Origin := ⟨[("/b", .file bytes')], 10⟩

def importOf (location : String) : Tree := .node [("schemaLocation", .text location)]

/-- A schema with an import of a document that is there and the include of one that is not. -/
def root : Tree := .node [
  ("targetNamespace", .text "a"),
  ("import", importOf "/b"),
  ("include", importOf "/gone"),
  ("element", .node [("name", .text "A")])]

def root' : Tree := .node [
  ("targetNamespace", .text "a"),
  ("import", importOf "/b"),
  ("element", .node [("name", .text "A")])]

/-- The imports of the missing document, wherever they resolve to it. -/
def left (base : Option String) (inner : Tree) : Prop :=
  inner.given? "schemaLocation" = some "/gone" ∧ Location.resolve base "/gone" = .ok "/gone"

theorem missing : (source.document "/gone").result =
    .error (.notLoaded "/gone" (.unreadable "No such file or directory")) := rfl

theorem passed (base : Option String) (inner : Tree) (h : left base inner) :
    Passed (some source) base inner :=
  .unread rfl h.1 h.2 missing rfl

theorem resolve_gone {base : String} (h : Url.isRemote base = .ok false) :
    Location.resolve (some base) "/gone" = .ok "/gone" := by
  have hgone : Url.isRemote "/gone" = .ok false := by decide +kernel
  have hpath : Path.parse "/gone" = ⟨"/", ["gone"]⟩ := by decide +kernel
  simp only [Location.resolve, hgone, h, hpath]
  rfl

theorem pruned_root : Tree.Pruned (left (some "/a")) root root' :=
  Tree.Cleared.pruned <| .keep <| .keep <| .drop (by simp [Tree.IsImportKey]; decide +kernel) (by
    intro inner hinner
    obtain rfl := List.mem_singleton.1 hinner
    exact ⟨rfl, resolve_gone (by decide +kernel)⟩) <| .keep .nil

/-- The schema in the document, after its target namespace. -/
def found (rest : List (String × Tree)) : Tree := .node (("targetNamespace", .text "b") :: rest)

def declared : String × Tree := ("element", .node [("name", .text "B")])

theorem parse_bytes :
    Tree.parse bytes = .ok (.node [("schema", found [("include", importOf "/gone"), declared])]) :=
  rfl

theorem parse_bytes' : Tree.parse bytes' = .ok (.node [("schema", found [declared])]) := rfl

theorem pruned_source : Origin.Pruned left source source' := by
  refine Origin.pruned_of_library fun place remote hremote => ?_
  by_cases hkey : "/b" = if remote then place else Path.normalize place
  · simp only [Table.value?, if_pos hkey]
    cases remote with
    | true =>
      obtain rfl : "/b" = place := hkey
      exact absurd hremote (by decide +kernel)
    | false =>
      refine .some (.file parse_bytes parse_bytes' (.some ?_))
      exact Tree.Cleared.pruned <| .keep <| .drop (by simp [Tree.IsImportKey]; decide +kernel) (by
        intro inner hinner
        obtain rfl := List.mem_singleton.1 hinner
        exact ⟨rfl, resolve_gone hremote⟩) <| .keep .nil
  · simp only [Table.value?, if_neg hkey]
    exact .none

theorem namesBarFree_of_reached {schema : Tree} {base : Option String}
    (h : Reached (some source) [root] (some "/a") schema base) :
    SampleImport.namesBarFree schema = true := by
  cases h with
  | root hroot =>
    obtain rfl := List.mem_singleton.1 hroot
    decide +kernel
  | imported _ _ _ hsource _ hfound =>
    obtain rfl := Option.some.inj hsource
    obtain ⟨key, held, _, hheld, hmem, _⟩ := key_of_schema? hfound
    obtain ⟨-, rfl⟩ := Prod.mk.inj (List.mem_singleton.1 (Table.mem_of_value? hheld))
    have hall : (sourceSchemas (.file bytes)).all SampleImport.namesBarFree = true := by
      decide +kernel
    exact List.all_eq_true.1 hall schema hmem

theorem marksApart : MarksApart (some source) [root] (some "/a") left :=
  marksApart_of_names
    (fun _ => SampleImport.bar_of_namesBarFree fun _ _ => namesBarFree_of_reached) left

/-- Without the two imports of the missing document the same graph is built. -/
theorem same_without_missing :
    (TypeGraph.build (some source') [root'] [] (some "/a")).result =
        (TypeGraph.build (some source) [root] [] (some "/a")).result ∧
      ∃ g, (TypeGraph.build (some source) [root] [] (some "/a")).result = .ok g ∧
        g.elements.keys = ["b:B", "a:A"] := by
  refine ⟨TypeGraph.result_build_pruned [] (.some pruned_source) (.cons pruned_root .nil) passed
    marksApart, ?_⟩
  have hkeys : (TypeGraph.build (some source) [root] [] (some "/a")).result.toOption.map
      (·.elements.keys) = some ["b:B", "a:A"] := by decide +kernel
  cases hbuild : (TypeGraph.build (some source) [root] [] (some "/a")).result with
  | error failure => simp [hbuild, Except.toOption] at hkeys
  | ok g => exact ⟨g, rfl, by simpa [hbuild, Except.toOption] using hkeys⟩

def declarations : List (String × Tree) := [
  ("targetNamespace", .text "a"),
  ("element", .node [("name", .text "A")])]

/-- An import whose location cannot be resolved ends the build, which comes to a graph without that
import. -/
theorem location_ends_build :
    Location.resolve none "http://[" = .error .brackets ∧
      (TypeGraph.build (some ⟨[], 10⟩) [.node (("import", importOf "http://[") :: declarations)]
        [] none).result = .error (.badLocation .brackets) ∧
      ∃ g, (TypeGraph.build (some ⟨[], 10⟩) [.node declarations] [] none).result = .ok g := by
  refine ⟨by decide +kernel, rfl, ?_⟩
  cases hbuild : (TypeGraph.build (some ⟨[], 10⟩) [.node declarations] [] none).result with
  | error failure =>
    have hok : (TypeGraph.build (some ⟨[], 10⟩) [.node declarations] [] none).result.isOk = true := by
      decide +kernel
    simp [hbuild, Except.isOk, Except.toBool] at hok
  | ok g => exact ⟨g, rfl⟩

end SamplePruned

end SoapComponents
