import SoapComponents.Proofs.Schema.Held
import SoapComponents.Proofs.Schema.Pruned

/-!
Documents that are imported. The namespaces of whoever imports a document are known in it, so names
with prefixes that it does not declare itself, and names without one where it declares no default
namespace, mean what the importer makes of them. Where all names in a document mean what they mean
where it stands alone, its types and elements are the same whoever imports it.
-/

set_option autoImplicit false

namespace SoapComponents

/-- The names under which the types and the elements of a schema are registered. -/
def registeredKeys (d : Tree × Scope) : List String :=
  declaredKeys "complexType" d ++ declaredKeys "element" d

theorem declaredKeys_scope (tag : String) (schema : Tree) {scope scope' : Scope}
    (htarget : scope'.target = scope.target) :
    declaredKeys tag (schema, scope') = declaredKeys tag (schema, scope) := by
  simp only [declaredKeys, declaredNodes, declaredKey?, htarget, List.filterMap_map,
    Function.comp_def]

namespace Scope

def alone (schema : Tree) : Scope := ofSchema schema [] none

def prefixOf (written : String) : String := ((Name.prefixed? written).map (·.1)).getD ""

variable {scope scope' : Scope} {written : String}

theorem qualify_congr (htarget : scope'.target = scope.target)
    (hspace : scope'.namespaces.value? (prefixOf written) =
      scope.namespaces.value? (prefixOf written)) :
    (scope'.qualify written).value = (scope.qualify written).value := by
  unfold qualify
  cases hparts : Name.prefixed? written with
  | none =>
    simp only [prefixOf, hparts, Option.map_none, Option.getD_none] at hspace
    simp only [hspace, htarget]
  | some parts =>
    simp only [prefixOf, hparts, Option.map_some, Option.getD_some] at hspace
    simp only [hspace, htarget]

/-- A schema that declares all prefixes that it writes, and a default namespace if it writes names
without one, is not concerned with what is declared around it. -/
theorem meansAlike_of_declared {schema : Tree}
    (h : schema.everywhere (Tree.namesAll fun written =>
      schema.namespaces.holds (prefixOf written)) = true)
    (around : Table String) (location : Option String) :
    (alone schema).MeansAlike (ofSchema schema around location) schema := by
  intro written hwritten
  have hdeclared := Tree.of_writes h hwritten
  obtain ⟨space, hspace⟩ := Option.isSome_iff_exists.1 hdeclared
  refine qualify_congr rfl ?_
  rw [alone, namespaces_ofSchema, namespaces_ofSchema, hspace]
  rfl

end Scope

/-- A schema is declared once, between others that declare none of its names, and what is written in
it means there what it means where it stands alone. -/
structure StandsApart (schema : Tree) (scope : Scope) (before after : List (Tree × Scope)) :
    Prop where
  keys : ∀ d ∈ before ++ after, ∀ key ∈ registeredKeys d,
    key ∉ registeredKeys (schema, Scope.alone schema)
  groups : ∀ d ∈ before ++ after, ∀ key ∈ declaredKeys "group" d,
    key ∉ declaredKeys "group" (schema, Scope.alone schema)
  names : (Scope.alone schema).MeansAlike scope schema

namespace Groups

/-- The groups of a schema, as it knows them alone. -/
def own (schema : Tree) : Groups := all [(schema, Scope.alone schema)]

theorem value?_own (schema : Tree) (key : String) : (own schema).value? key =
    Table.value? (declared (schema, Scope.alone schema)).reverse key := by
  simp [own, all, Table.ofAssignments, Table.value?_putAll, Table.value?]

theorem typesAlong_single (schema : Tree) : typesAlong [] [(schema, Scope.alone schema)] =
    (declaredNodes "complexType" (schema, Scope.alone schema)).map (own schema, ·) := by
  simp [typesAlong, own, all, Table.ofAssignments]

theorem declared_scope {schema : Tree} {scope scope' : Scope}
    (htarget : scope'.target = scope.target) :
    declared (schema, scope') = (declared (schema, scope)).map fun e => (e.1, e.2.1, scope') := by
  simp only [declared, declaredNodes, declaredKey?, htarget, List.filterMap_map,
    List.map_filterMap, Function.comp_def, Option.map_map]

variable {schema : Tree} {scope : Scope} {known : Groups}

theorem knownAlike_own
    (hsame : Content.Covered (own schema) (schema, Scope.alone schema) (schema, scope))
    (hvalue : ∀ key ∈ declaredKeys "group" (schema, Scope.alone schema), known.value? key =
      Table.value? (declared (schema, scope)).reverse key) :
    Content.KnownAlike (own schema) known := by
  intro key found hfound
  rw [value?_own] at hfound
  have hmem := Table.mem_of_value? hfound
  rw [List.mem_reverse] at hmem
  have hkey := List.mem_map_of_mem (f := Prod.fst) hmem
  rw [← Table.keys, keys_declared] at hkey
  obtain ⟨⟨node, around⟩, hnode, hentry⟩ := List.mem_filterMap.1 hmem
  obtain ⟨t, ht, hpair⟩ := List.mem_map.1 hnode
  obtain ⟨rfl, rfl⟩ := Prod.mk.inj hpair
  obtain ⟨_, _, heq⟩ := Option.map_eq_some_iff.1 hentry
  obtain ⟨rfl, rfl⟩ := Prod.mk.inj heq
  refine ⟨(t, scope), ?_, hsame.child ht⟩
  rw [hvalue _ hkey, declared_scope hsame.target, ← List.map_reverse,
    Table.value?_map (fun e : Tree × Scope => (e.1, scope)), hfound]
  rfl

end Groups

namespace Registration

/-- What a list of schemas brings: the types as they come, and after them the elements. -/
def all (ds : List (Tree × Scope)) : List Registration :=
  list ofTypeAlong (Groups.typesAlong [] ds) ++
    list (ofElement (Groups.all ds)) (ds.flatMap (declaredNodes "element"))

variable {known groups : Groups} {ds : List (Tree × Scope)} {r : Registration}

theorem mem_types (h : r ∈ list ofTypeAlong (known.typesAlong ds)) :
    ∃ d ∈ ds, r.key ∈ declaredKeys "complexType" d := by
  obtain ⟨e, he, hread⟩ := mem_list.1 h
  have hnode : e.2 ∈ ds.flatMap (declaredNodes "complexType") :=
    Groups.map_typesAlong known ds ▸ List.mem_map_of_mem he
  obtain ⟨d, hd, hnode⟩ := List.mem_flatMap.1 hnode
  exact ⟨d, hd, List.mem_filterMap.2 ⟨e.2, hnode, (key_ofType e.2 _ hread).symm⟩⟩

theorem mem_elements
    (h : r ∈ list (ofElement groups) (ds.flatMap (declaredNodes "element"))) :
    ∃ d ∈ ds, r.key ∈ declaredKeys "element" d := by
  obtain ⟨node, hnode, hread⟩ := mem_list.1 h
  obtain ⟨d, hd, hnode⟩ := List.mem_flatMap.1 hnode
  exact ⟨d, hd, List.mem_filterMap.2 ⟨node, hnode, (key_ofElement node _ hread).symm⟩⟩

theorem mem_all (h : r ∈ all ds) : ∃ d ∈ ds, r.key ∈ registeredKeys d := by
  rcases List.mem_append.1 h with h | h
  · obtain ⟨d, hd, hkey⟩ := mem_types h
    exact ⟨d, hd, List.mem_append_left _ hkey⟩
  · obtain ⟨d, hd, hkey⟩ := mem_elements h
    exact ⟨d, hd, List.mem_append_right _ hkey⟩

theorem isType_of_ofType {d : Tree × Scope} (h : ofType groups d = .ok (some r)) :
    ∃ key derived, r = .type key derived := by
  rcases ofType_cases h with ⟨_, hnone⟩ | ⟨key, derived, _, _, hsome⟩
  · cases hnone
  · exact ⟨key, derived, Option.some.inj hsome⟩

theorem not_isType_of_ofElement {d : Tree × Scope} (h : ofElement groups d = .ok (some r))
    (key : String) (derived : Derived Draft) : r ≠ .type key derived := by
  rintro rfl
  rcases ofElement_cases h with ⟨_, hsome⟩ | ⟨_, _, ⟨_, hsome⟩ | ⟨_, _, _, _, hsome⟩⟩ <;>
    cases hsome

theorem list_alone {schema : Tree} {scope : Scope} {tag : String}
    {read read' : Tree × Scope → Except Failure (Option Registration)}
    (h : ∀ node ∈ schema.children tag, read (node, scope) = read' (node, Scope.alone schema)) :
    (Readable read' (declaredNodes tag (schema, Scope.alone schema)) ↔
      Readable read (declaredNodes tag (schema, scope))) ∧
    list read' (declaredNodes tag (schema, Scope.alone schema)) =
      list read (declaredNodes tag (schema, scope)) := by
  have hnodes : declaredNodes tag (schema, scope) =
      (declaredNodes tag (schema, Scope.alone schema)).map fun d => (d.1, scope) := by
    rw [declaredNodes, declaredNodes, List.map_map]
    rfl
  rw [hnodes]
  refine list_map fun d hd => ?_
  obtain ⟨node, hnode, rfl⟩ := List.mem_map.1 hd
  exact (h node hnode).symm

def isOwn (schema : Tree) (r : Registration) : Bool :=
  decide (r.key ∈ registeredKeys (schema, Scope.alone schema))

theorem isOwn_of_mem {schema : Tree} (h : r.key ∈ registeredKeys (schema, Scope.alone schema)) :
    isOwn schema r = true := decide_eq_true h

theorem not_isOwn {schema : Tree} (h : r.key ∉ registeredKeys (schema, Scope.alone schema)) :
    isOwn schema r = false := decide_eq_false h

theorem filter_between {p : Registration → Bool} {before own after : List Registration}
    (hbefore : ∀ r ∈ before, p r = false) (hown : ∀ r ∈ own, p r = true)
    (hafter : ∀ r ∈ after, p r = false) : (before ++ (own ++ after)).filter p = own := by
  have hnone : ∀ {l : List Registration}, (∀ r ∈ l, p r = false) → l.filter p = [] := fun h =>
    List.filter_eq_nil_iff.2 fun r hr => by simp [h r hr]
  rw [List.filter_append, List.filter_append, hnone hbefore, hnone hafter,
    List.filter_eq_self.2 hown, List.nil_append, List.append_nil]

section

variable {schema : Tree} {scope : Scope} {before after : List (Tree × Scope)}
  (htarget : scope.target = (Scope.alone schema).target)
  (hqualified : scope.qualified = (Scope.alone schema).qualified)
  (hapart : StandsApart schema scope before after)
  (hcovers : (Groups.own schema).Covers (Scope.alone schema) schema)

include htarget hqualified hapart hcovers

theorem knownAlike_apart :
    Content.KnownAlike (Groups.own schema) (Table.putAll
      (Table.putAll [] (before.flatMap Groups.declared)) (Groups.declared (schema, scope))) ∧
    Content.KnownAlike (Groups.own schema) (Groups.all (before ++ (schema, scope) :: after)) := by
  have hsame : Content.Covered (Groups.own schema) (schema, Scope.alone schema) (schema, scope) :=
    ⟨rfl, htarget, hqualified, hapart.names, hcovers⟩
  have hheld : ∀ (known : Groups), ∀ key ∈ declaredKeys "group" (schema, Scope.alone schema),
      Table.value? (Table.putAll known (Groups.declared (schema, scope))) key =
        Table.value? (Groups.declared (schema, scope)).reverse key := by
    intro known key hkey
    rw [Table.value?_putAll]
    refine Option.or_of_isSome (Table.holds_iff_mem_keys.2 ?_)
    rw [Table.keys, List.map_reverse, List.mem_reverse, ← Table.keys, Groups.keys_declared,
      declaredKeys_scope "group" schema htarget]
    exact hkey
  refine ⟨Groups.knownAlike_own hsame (hheld _), Groups.knownAlike_own hsame fun key hkey => ?_⟩
  -- nothing that comes after is put in the place of a group of the schema
  have hlast : Table.value? (after.flatMap Groups.declared).reverse key = none := by
    cases hvalue : Table.value? (after.flatMap Groups.declared).reverse key with
    | none => rfl
    | some found =>
      have hmem := Table.mem_keys_of_value? hvalue
      rw [Table.keys, List.map_reverse, List.mem_reverse, ← Table.keys,
        Groups.keys_flatMap_declared] at hmem
      obtain ⟨d, hd, hkey'⟩ := List.mem_flatMap.1 hmem
      exact absurd hkey (hapart.groups d (List.mem_append_right _ hd) key hkey')
  rw [Groups.all, Table.ofAssignments, List.flatMap_append, List.flatMap_cons,
    Groups.putAll_append, Groups.putAll_append, Table.value?_putAll, hlast, Option.none_or]
  exact hheld _ key hkey

theorem types_apart :
    (Readable ofTypeAlong (Groups.typesAlong [] (before ++ (schema, scope) :: after)) →
      Readable ofTypeAlong (Groups.typesAlong [] [(schema, Scope.alone schema)])) ∧
    (list ofTypeAlong (Groups.typesAlong [] (before ++ (schema, scope) :: after))).filter
        (isOwn schema) =
      list ofTypeAlong (Groups.typesAlong [] [(schema, Scope.alone schema)]) := by
  obtain ⟨hknown, -⟩ := knownAlike_apart htarget hqualified hapart hcovers
  generalize hbefore : Table.putAll [] (before.flatMap Groups.declared) = start at hknown
  have hsame : Content.Covered (Groups.own schema) (schema, Scope.alone schema) (schema, scope) :=
    ⟨rfl, htarget, hqualified, hapart.names, hcovers⟩
  obtain ⟨hreadable, hlist⟩ := list_alone fun node hnode =>
    ofType_covered hknown (hsame.child hnode)
  obtain ⟨halone, halone'⟩ := list_ofType (Groups.own schema)
    (declaredNodes "complexType" (schema, Scope.alone schema))
  obtain ⟨htypes, htypes'⟩ := list_ofType (Table.putAll start (Groups.declared (schema, scope)))
    (declaredNodes "complexType" (schema, scope))
  rw [Groups.typesAlong_append, hbefore, Groups.typesAlong, Groups.typesAlong_single,
    readable_append, readable_append, list_append, list_append, ← htypes, ← htypes', ← hreadable,
    ← hlist, ← halone, ← halone']
  refine ⟨fun h => h.2.1, filter_between (fun r hr => ?_) (fun r hr => ?_) fun r hr => ?_⟩
  · obtain ⟨d, hd, hkey⟩ := mem_types hr
    exact not_isOwn (hapart.keys d (List.mem_append_left _ hd) _ (List.mem_append_left _ hkey))
  · obtain ⟨node, hnode, hread⟩ := mem_list.1 hr
    exact isOwn_of_mem (List.mem_append_left _
      (List.mem_filterMap.2 ⟨node, hnode, (key_ofType node _ hread).symm⟩))
  · obtain ⟨d, hd, hkey⟩ := mem_types hr
    exact not_isOwn (hapart.keys d (List.mem_append_right _ hd) _ (List.mem_append_left _ hkey))

theorem elements_apart :
    (Readable (ofElement (Groups.all (before ++ (schema, scope) :: after)))
        ((before ++ (schema, scope) :: after).flatMap (declaredNodes "element")) →
      Readable (ofElement (Groups.own schema))
        ([(schema, Scope.alone schema)].flatMap (declaredNodes "element"))) ∧
    (list (ofElement (Groups.all (before ++ (schema, scope) :: after)))
        ((before ++ (schema, scope) :: after).flatMap (declaredNodes "element"))).filter
        (isOwn schema) =
      list (ofElement (Groups.own schema))
        ([(schema, Scope.alone schema)].flatMap (declaredNodes "element")) := by
  obtain ⟨-, hknown⟩ := knownAlike_apart htarget hqualified hapart hcovers
  have hsame : Content.Covered (Groups.own schema) (schema, Scope.alone schema) (schema, scope) :=
    ⟨rfl, htarget, hqualified, hapart.names, hcovers⟩
  obtain ⟨hreadable, hlist⟩ := list_alone fun node hnode =>
    ofElement_covered hknown (hsame.child hnode)
  rw [List.flatMap_append, List.flatMap_cons, List.flatMap_singleton, readable_append,
    readable_append, list_append, list_append, ← hreadable, ← hlist]
  refine ⟨fun h => h.2.1, filter_between (fun r hr => ?_) (fun r hr => ?_) fun r hr => ?_⟩
  · obtain ⟨d, hd, hkey⟩ := mem_elements hr
    exact not_isOwn (hapart.keys d (List.mem_append_left _ hd) _ (List.mem_append_right _ hkey))
  · obtain ⟨node, hnode, hread⟩ := mem_list.1 hr
    exact isOwn_of_mem (List.mem_append_right _
      (List.mem_filterMap.2 ⟨node, hnode, (key_ofElement node _ hread).symm⟩))
  · obtain ⟨d, hd, hkey⟩ := mem_elements hr
    exact not_isOwn (hapart.keys d (List.mem_append_right _ hd) _ (List.mem_append_right _ hkey))

theorem filter_all : (all (before ++ (schema, scope) :: after)).filter (isOwn schema) =
    all [(schema, Scope.alone schema)] := by
  rw [all, List.filter_append, (types_apart htarget hqualified hapart hcovers).2,
    (elements_apart htarget hqualified hapart hcovers).2]
  rfl

end

end Registration

namespace Visit

theorem declared_alone (schema : Tree) :
    declared (all none [schema] [] none) = [(schema, Scope.alone schema)] := by
  rw [← declared_readings, readings_all (.inl rfl)]
  rfl

theorem fail_not_mem_alone (schema : Tree) (failure : Failure) :
    .fail failure ∉ all none [schema] [] none := by
  rw [← fail_mem_readings, readings_all (.inl rfl)]
  simp

theorem declared_effects (visits : List Visit) : declared (effects visits) = declared visits := by
  induction visits with
  | nil => rfl
  | cons v rest ih =>
    cases v <;> simp [declared, declaration?] at ih ⊢ <;> exact ih

theorem scope_of_declared {origin : Option Origin} {roots : List Tree} {outer : Table String}
    {start : Option String} {schema : Tree} {scope : Scope}
    (h : (schema, scope) ∈ declared (all origin roots outer start)) :
    scope.target = (Scope.alone schema).target ∧
      scope.qualified = (Scope.alone schema).qualified := by
  obtain ⟨hwalked, _⟩ := @within_walked origin roots start _ outer (Nat.le_refl _)
  obtain ⟨v, hv, hdeclaration⟩ := List.mem_filterMap.1 h
  have hdeclare : .declare schema scope ∈ all origin roots outer start := by
    cases v <;> cases hdeclaration
    exact hv
  obtain ⟨around, haround⟩ := (hwalked.followed schema scope hdeclare).around
  rw [haround]
  exact ⟨rfl, rfl⟩

end Visit

namespace Building

open Registration

variable {origin : Option Visit.Origin} {roots : List Tree} {outer : Table String}
  {start : Option String} {b : Building}

theorem renumbered_of_gather (h : (gather origin roots outer start).result = .ok b) :
    Renumbered (Equiv.refl _)
      ((Registration.all (Visit.declared (Visit.all origin roots outer start))).foldl register {})
      b :=
  result_gather_along.2 b h

theorem closed_of_gather (h : (gather origin roots outer start).result = .ok b) : b.Closed :=
  (renumbered_of_gather h).closed (closed_empty.foldl _)

theorem keys_foldl_register {l : List Registration} {b : Building} {key : String}
    (h : key ∈ (l.foldl register b).graph.complexTypes.keys) :
    key ∈ b.graph.complexTypes.keys ∨ ∃ r ∈ l, r.key = key := by
  induction l generalizing b with
  | nil => exact .inl h
  | cons r rest ih =>
    rcases ih h with hkey | ⟨s, hs, hkey⟩
    · obtain ⟨block, root, -, hadds⟩ := exists_adds r
      rw [← Table.holds_iff_mem_keys, Table.holds, (hadds b).complexTypes] at hkey
      split at hkey
      · next heq => exact .inr ⟨r, List.mem_cons_self, heq.symm⟩
      · exact .inl (Table.holds_iff_mem_keys.1 hkey)
    · exact .inr ⟨s, List.mem_cons_of_mem _ hs, hkey⟩

theorem keys_of_gather (h : (gather origin roots outer start).result = .ok b) :
    b.graph.complexTypes.keys ⊆
      (Visit.declared (Visit.all origin roots outer start)).flatMap registeredKeys := by
  intro key hkey
  rw [← Table.holds_iff_mem_keys, Table.holds, (renumbered_of_gather h).complexTypes,
    Option.isSome_map] at hkey
  rcases keys_foldl_register (Table.holds_iff_mem_keys.1 hkey) with hnone | ⟨r, hr, rfl⟩
  · cases hnone
  · exact List.mem_flatMap.2 (mem_all hr)

theorem holds_of_gather {schema : Tree} {scope : Scope} {before after : List (Tree × Scope)}
    (hdeclared : Visit.declared (Visit.all origin roots outer start) =
      before ++ (schema, scope) :: after)
    (hapart : StandsApart schema scope before after)
    (hcovers : (Groups.own schema).Covers (Scope.alone schema) schema)
    (h : (gather origin roots outer start).result = .ok b) :
    ∃ own, (gather none [schema] [] none).result = .ok own ∧
      ∃ σ, Holds (registeredKeys (schema, Scope.alone schema)) σ own b := by
  obtain ⟨htarget, hqualified⟩ := @Visit.scope_of_declared origin roots outer start schema scope
    (hdeclared ▸ List.mem_append_right _ List.mem_cons_self)
  obtain ⟨⟨_, htypes⟩, helements⟩ := result_gather_along.1.1 ⟨b, h⟩
  rw [Visit.nodes] at helements
  rw [hdeclared] at htypes helements
  obtain ⟨own, hown⟩ : ∃ own, (gather none [schema] [] none).result = .ok own := by
    refine result_gather_along.1.2 ⟨⟨Visit.fail_not_mem_alone schema, ?_⟩, ?_⟩
    · rw [Visit.declared_alone]
      exact (types_apart htarget hqualified hapart hcovers).1 htypes
    · rw [Visit.nodes, Visit.declared_alone]
      exact (elements_apart htarget hqualified hapart hcovers).1 helements
  have hsame := renumbered_of_gather hown
  rw [Visit.declared_alone] at hsame
  have hb := renumbered_of_gather h
  rw [hdeclared] at hb
  -- what the schema brings can come first, and all others bring other names
  obtain ⟨σ, hσ⟩ := foldl_register_partition closed_empty
    (fun key => decide (key ∈ registeredKeys (schema, Scope.alone schema)))
    (Registration.all (before ++ (schema, scope) :: after))
  rw [List.foldl_append] at hσ
  have hfirst := filter_all htarget hqualified hapart hcovers
  unfold isOwn at hfirst
  rw [hfirst] at hσ
  obtain ⟨τ, hτ⟩ := @holds_foldl (registeredKeys (schema, Scope.alone schema))
    ((Registration.all (before ++ (schema, scope) :: after)).filter fun r =>
      !decide (r.key ∈ registeredKeys (schema, Scope.alone schema)))
    (fun r hr => by simpa using (List.mem_filter.1 hr).2) own
  exact ⟨own, hown, _, hτ.trans
    ((((hsame.symm.foldl _).trans hσ.symm).trans hb).holds _)⟩

theorem isEmpty_elements_register (b : Building) (r : Registration) :
    (b.register r).graph.elements.isEmpty = true ↔
      b.graph.elements.isEmpty = true ∧ ∃ key derived, r = .type key derived := by
  obtain ⟨block, root, -, hadds⟩ := exists_adds r
  have helements := (hadds b).elements
  simp only [Table.isEmpty_iff_value?]
  cases r with
  | type key derived =>
    refine ⟨fun h => ⟨fun k => ?_, key, derived, rfl⟩, fun h k => ?_⟩
    · have hk := (helements k).symm.trans (h k)
      rwa [Registration.element, ite_self] at hk
    · rw [helements, Registration.element, ite_self]
      exact h.1 k
  | content key derived =>
    refine iff_of_false (fun h => ?_) (by simp)
    have hkey := (helements key).symm.trans (h key)
    rw [Registration.key, if_pos rfl] at hkey
    cases hkey
  | pointer key target =>
    refine iff_of_false (fun h => ?_) (by simp)
    have hkey := (helements key).symm.trans (h key)
    rw [Registration.key, if_pos rfl] at hkey
    cases hkey

theorem isEmpty_elements_foldl (l : List Registration) (b : Building) :
    (l.foldl register b).graph.elements.isEmpty = true ↔
      b.graph.elements.isEmpty = true ∧ ∀ r ∈ l, ∃ key derived, r = .type key derived := by
  induction l generalizing b with
  | nil => simp
  | cons r rest ih =>
    rw [List.foldl_cons, ih, isEmpty_elements_register, List.forall_mem_cons, and_assoc]

theorem isEmpty_elements_of_gather (h : (gather origin roots outer start).result = .ok b) :
    b.graph.elements.isEmpty = true ↔
      (Visit.declared (Visit.all origin roots outer start)).flatMap (declaredKeys "element") = [] := by
  obtain ⟨_, hreadable⟩ := result_gather_along.1.1 ⟨b, h⟩
  have hkeys : (list _ _).map key = (Visit.declared (Visit.all origin roots outer start)).flatMap
      (declaredKeys "element") :=
    (map_key_list key_ofElement hreadable).trans List.filterMap_flatMap
  have hsame := renumbered_of_gather h
  have hempty : b.graph.elements.isEmpty = true ↔ ((Registration.all
      (Visit.declared (Visit.all origin roots outer start))).foldl register {}).graph.elements.isEmpty
        = true := by
    simp only [Table.isEmpty_iff_value?, hsame.elements, Option.map_eq_none_iff]
  rw [hempty, isEmpty_elements_foldl, ← hkeys, List.map_eq_nil_iff]
  refine ⟨fun hall => List.eq_nil_iff_forall_not_mem.2 fun r hr => ?_, fun hnil => ⟨rfl, ?_⟩⟩
  · obtain ⟨key, derived, heq⟩ := hall.2 r (List.mem_append_right _ hr)
    obtain ⟨d, _, hread⟩ := mem_list.1 hr
    exact not_isType_of_ofElement hread key derived heq
  · intro r hr
    rcases List.mem_append.1 hr with hr | hr
    · obtain ⟨e, _, hread⟩ := mem_list.1 hr
      exact isType_of_ofType hread
    · exact absurd hr (hnil ▸ List.not_mem_nil)

theorem value?_offered (b : Building) (key : String) : b.offered.value? key =
    if b.graph.elements.isEmpty then (b.graph.complexTypes.value? key).map .object
    else b.graph.elements.value? key := by
  unfold offered
  cases helements : b.graph.elements.isEmpty with
  | false => simp
  | true =>
    cases htypes : b.graph.complexTypes.isEmpty with
    | false =>
      rw [Bool.not_false, Bool.and_true, if_pos rfl, if_pos rfl, Table.value?_map]
    | true =>
      have hnone := (Table.isEmpty_iff_value? _).1 htypes key
      have hnone' := (Table.isEmpty_iff_value? _).1 helements key
      simp [hnone, hnone']

def offering (own : Building) (bare : Bool) : TypeGraph :=
  { own.settled with elements :=
      if bare then own.graph.complexTypes.map fun e => (e.1, .object e.2)
      else own.graph.elements }

theorem rooted_offering {own : Building} (h : own.Closed) (bare : Bool) :
    (own.offering bare).Rooted own.size := by
  refine ⟨fun key type htype => ?_, h.settled.complexTypes, h.settled.objects⟩
  unfold offering at htype
  cases bare with
  | true =>
    rw [if_pos rfl, Table.value?_map] at htype
    obtain ⟨id, hid, rfl⟩ := Option.map_eq_some_iff.1 htype
    exact h.complexTypes key id hid
  | false => exact h.elements key type htype

theorem Holds.offering_held {names others : List String} {own : Building}
    {σ : Equiv.Perm ObjectId} (h : Holds names σ own b) (hown : own.Closed) (hb : b.Closed)
    (hnames : own.graph.complexTypes.keys ⊆ names)
    (hothers : b.graph.complexTypes.keys ⊆ others) (hgrounded : own.GroundedAmong others) :
    TypeGraph.Held names own.size σ (own.offering b.graph.elements.isEmpty)
      { b.settled with elements := b.offered } := by
  obtain ⟨_, htypes, hobjects⟩ := h.settled_held hown hb hnames hothers hgrounded
  refine ⟨fun key hkey => ?_, htypes, hobjects⟩
  dsimp only
  rw [value?_offered, offering]
  split
  · rw [Table.value?_map, h.complexTypes key hkey, Option.map_map, Option.map_map]
    rfl
  · exact h.elements key hkey

end Building

section

variable {origin origin' : Option Visit.Origin} {roots roots' : List Tree}
  {outer outer' : Table String} {start start' : Option String} {schema : Tree}
  {scope scope' : Scope} {before after before' after' : List (Tree × Scope)} {g g' : TypeGraph}

/-- An imported document. It may be imported into two sets of schemas by whomever: where it is
declared once in both, nothing else declares a name of it, and the names that are written in it mean
what they mean where it stands alone, its types and elements are the same in both graphs, with all
that they lead to. It refers to groups of its own; the types that its types extend are its own, or
missing in both; no type extends itself; and if it has no elements, its types are offered as elements
in both or in neither. -/
theorem TypeGraph.alikeAt_of_imported
    (hdeclared : Visit.declared (Visit.all origin roots outer start) =
      before ++ (schema, scope) :: after)
    (hdeclared' : Visit.declared (Visit.all origin' roots' outer' start') =
      before' ++ (schema, scope') :: after')
    (hapart : StandsApart schema scope before after)
    (hapart' : StandsApart schema scope' before' after')
    (hcovers : (Groups.own schema).Covers (Scope.alone schema) schema)
    (hgrounded : ∀ b, (Building.gather none [schema] [] none).result = .ok b →
      b.GroundedAmong ((Visit.declared (Visit.all origin roots outer start) ++
        Visit.declared (Visit.all origin' roots' outer' start')).flatMap registeredKeys))
    (hoffered : declaredKeys "element" (schema, Scope.alone schema) = [] →
      ((Visit.declared (Visit.all origin roots outer start)).flatMap (declaredKeys "element") = [] ↔
        (Visit.declared (Visit.all origin' roots' outer' start')).flatMap
          (declaredKeys "element") = []))
    (h : (TypeGraph.build origin roots outer start).result = .ok g)
    (h' : (TypeGraph.build origin' roots' outer' start').result = .ok g') :
    TypeGraph.AlikeAt (registeredKeys (schema, Scope.alone schema)) g g' := by
  obtain ⟨b, hb, hg⟩ := TypeGraph.gather_of_build h
  obtain ⟨b', hb', hg'⟩ := TypeGraph.gather_of_build h'
  obtain rfl := Except.ok.inj ((b.result_finish).symm.trans hg)
  obtain rfl := Except.ok.inj ((b'.result_finish).symm.trans hg')
  obtain ⟨own, hown, σ, hσ⟩ := Building.holds_of_gather hdeclared hapart hcovers hb
  obtain ⟨own', hown', τ, hτ⟩ := Building.holds_of_gather hdeclared' hapart' hcovers hb'
  obtain rfl := Except.ok.inj (hown.symm.trans hown')
  have hclosed := Building.closed_of_gather hown
  have hnames := Building.keys_of_gather hown
  rw [Visit.declared_alone, List.flatMap_singleton] at hnames
  have hothers := Building.keys_of_gather hb
  have hothers' := Building.keys_of_gather hb'
  have hall := hgrounded own hown
  rw [List.flatMap_append] at hall
  -- the part is the same in both, but for types that are offered as elements
  have hbare : b'.graph.elements.isEmpty = b.graph.elements.isEmpty := by
    rw [Bool.eq_iff_iff, Building.isEmpty_elements_of_gather hb,
      Building.isEmpty_elements_of_gather hb']
    by_cases hnone : declaredKeys "element" (schema, Scope.alone schema) = []
    · exact (hoffered hnone).symm
    · obtain ⟨htarget, _⟩ := @Visit.scope_of_declared origin roots outer start schema scope
        (hdeclared ▸ List.mem_append_right _ List.mem_cons_self)
      obtain ⟨htarget', _⟩ := @Visit.scope_of_declared origin' roots' outer' start' schema scope'
        (hdeclared' ▸ List.mem_append_right _ List.mem_cons_self)
      rw [hdeclared, hdeclared', List.flatMap_append, List.flatMap_append, List.flatMap_cons,
        List.flatMap_cons, declaredKeys_scope "element" schema htarget,
        declaredKeys_scope "element" schema htarget']
      simp [hnone]
  have hheld := hσ.offering_held hclosed (Building.closed_of_gather hb) hnames
    (fun _ hkey => List.mem_append_left _ (hothers hkey)) hall
  have hheld' := hτ.offering_held hclosed (Building.closed_of_gather hb') hnames
    (fun _ hkey => List.mem_append_right _ (hothers' hkey)) hall
  rw [hbare] at hheld'
  exact hheld.alikeAt (Building.rooted_offering hclosed _) hheld'

end

namespace SampleImported

open Visit

/-- `<xs:schema xmlns:xs="http://www.w3.org/2001/XMLSchema" xmlns:d="urn:d" targetNamespace="urn:d">
<xs:complexType name="T"/><xs:element name="E" type="d:T"/></xs:schema>` -/
def bytes : List UInt8 := [
  60, 120, 115, 58, 115, 99, 104, 101, 109, 97, 32, 120, 109, 108, 110, 115, 58, 120, 115, 61, 34,
  104, 116, 116, 112, 58, 47, 47, 119, 119, 119, 46, 119, 51, 46, 111, 114, 103, 47, 50, 48, 48,
  49, 47, 88, 77, 76, 83, 99, 104, 101, 109, 97, 34, 32, 120, 109, 108, 110, 115, 58, 100, 61, 34,
  117, 114, 110, 58, 100, 34, 32, 116, 97, 114, 103, 101, 116, 78, 97, 109, 101, 115, 112, 97, 99,
  101, 61, 34, 117, 114, 110, 58, 100, 34, 62, 60, 120, 115, 58, 99, 111, 109, 112, 108, 101, 120,
  84, 121, 112, 101, 32, 110, 97, 109, 101, 61, 34, 84, 34, 47, 62, 60, 120, 115, 58, 101, 108,
  101, 109, 101, 110, 116, 32, 110, 97, 109, 101, 61, 34, 69, 34, 32, 116, 121, 112, 101, 61, 34,
  100, 58, 84, 34, 47, 62, 60, 47, 120, 115, 58, 115, 99, 104, 101, 109, 97, 62]

/-- `<xs:schema xmlns:xs="http://www.w3.org/2001/XMLSchema">
<xs:complexType name="T"/><xs:element name="E" type="T"/></xs:schema>` -/
def bareBytes : List UInt8 := [
  60, 120, 115, 58, 115, 99, 104, 101, 109, 97, 32, 120, 109, 108, 110, 115, 58, 120, 115, 61, 34,
  104, 116, 116, 112, 58, 47, 47, 119, 119, 119, 46, 119, 51, 46, 111, 114, 103, 47, 50, 48, 48,
  49, 47, 88, 77, 76, 83, 99, 104, 101, 109, 97, 34, 62, 60, 120, 115, 58, 99, 111, 109, 112, 108,
  101, 120, 84, 121, 112, 101, 32, 110, 97, 109, 101, 61, 34, 84, 34, 47, 62, 60, 120, 115, 58,
  101, 108, 101, 109, 101, 110, 116, 32, 110, 97, 109, 101, 61, 34, 69, 34, 32, 116, 121, 112,
  101, 61, 34, 84, 34, 47, 62, 60, 47, 120, 115, 58, 115, 99, 104, 101, 109, 97, 62]

def origin (content : List UInt8) : Origin := ⟨[("/d", .file content)], 10⟩

def typeT : Tree := .node [("name", .text "T")]

def elementE (type : String) : Tree := .node [("name", .text "E"), ("type", .text type)]

def document : Tree := .node [
  ("xmlns:xs", .text Name.schemaSpace), ("xmlns:d", .text "urn:d"),
  ("targetNamespace", .text "urn:d"), ("xs:complexType", typeT), ("xs:element", elementE "d:T")]

def bareDocument : Tree := .node [
  ("xmlns:xs", .text Name.schemaSpace), ("xs:complexType", typeT), ("xs:element", elementE "T")]

/-- A schema that imports the document, and declares nothing else. -/
def importer (declared : List (String × Tree)) : Tree := .node (declared ++ [
  ("xs:import", .node [("schemaLocation", .text "/d")])])

def plain : Tree := importer []

def defaulting : Tree := importer [("xmlns", .text "urn:m")]

set_option maxRecDepth 20000 in
theorem parse_bytes : Tree.parse bytes = .ok (.node [("xs:schema", document)]) := (rfl)

set_option maxRecDepth 20000 in
theorem parse_bareBytes : Tree.parse bareBytes = .ok (.node [("xs:schema", bareDocument)]) := (rfl)

def outerScope (importing : Tree) : Scope := Scope.ofSchema importing [] (some "/m")

def innerScope (importing inner : Tree) : Scope :=
  Scope.ofSchema inner (outerScope importing).namespaces (some "/d")

def placed (importing inner : Tree) : TypeGraph where
  objects := [{
    members := []
    space := (innerScope importing inner).target
    qualified := some (innerScope importing inner).qualified }]
  elements := []
  complexTypes := [(Name.qualified (innerScope importing inner).target "T", 0)]
  namespaces := (({} : Building).enter (outerScope importing)
    |>.enter (innerScope importing inner)).graph.namespaces
  schemas := ["/m", "/d"]

/-- The graph of a document with one element, which refers to this type. -/
def graph (importing inner : Tree) (key target : String) : TypeGraph :=
  { placed importing inner with
    elements := [(key, .reference ⟨target, (innerScope importing inner).target, some false⟩)] }

section

variable {content : List UInt8} {tree inner importing : Tree}

theorem effects_visits (hparse : Tree.parse content = .ok tree)
    (hroot : tree.element? "schema" = some inner) (hinner : inner.imports = [])
    (himporting : importing.imports = [.node [("schemaLocation", .text "/d")]])
    (htarget : importing.attribute? "targetNamespace" = none) :
    effects (Visit.all (some (origin content)) [importing] [] (some "/m")) = [
      .enter (outerScope importing), .enter (innerScope importing inner),
      .declare inner (innerScope importing inner), .declare importing (outerScope importing)] := by
  have hremote : Url.isRemote "/d" = .ok false := by decide +kernel
  have hnormal : Path.normalize "/d" = "/d" := by decide +kernel
  have hdocument : ((origin content).document "/d").result = .ok tree := by
    simp only [Origin.result_document, origin, Table.value?, hremote, hnormal]
    exact hparse
  have hschema : (origin content).schema? "/d" = some inner := by
    simp only [Origin.schema?, hdocument, hroot]
  have hbound : depthBound (some (origin content)) [importing] = 3 := by
    simp [depthBound, allImports, origin, sourceSchemas, hparse, hroot, hinner, himporting]
  have hlead : lead (some (origin content)) (outerScope importing)
      (.node [("schemaLocation", .text "/d")]) = .ok ⟨origin content, "/d", "/d"⟩ := rfl
  have hentered : entered (outerScope importing) [] = ["|/m"] := by
    simp only [entered, outerScope, Scope.ofSchema, htarget]
    rfl
  have hspace : Tree.attribute? (.node [("schemaLocation", .text "/d")]) "namespace" = none := rfl
  have hseen : mark none "/d" ∉ ["|/m"] := by decide +kernel
  rw [Visit.all, hbound, within]
  simp only [eachIn, schema, himporting]
  rw [show Scope.ofSchema importing [] (some "/m") = outerScope importing from rfl, hentered]
  simp only [follow, hlead, hspace, if_neg hseen, hschema, hinner, eachIn, effects_enter,
    effects_append, effects_load, effects_declare, effects_nil, effects_told, hdocument]
  rfl

theorem result_gather {e : Tree} {b : Building}
    (heffects : effects (Visit.all (some (origin content)) [importing] [] (some "/m")) = [
      .enter (outerScope importing), .enter (innerScope importing inner),
      .declare inner (innerScope importing inner), .declare importing (outerScope importing)])
    (htypes : inner.children "complexType" = [typeT]) (hgroups : inner.children "group" = [])
    (helements : inner.children "element" = [e])
    (hnone : ∀ tag ∈ ["complexType", "group", "element"], importing.children tag = [])
    (hregister : (Building.registerElements { graph := placed importing inner, elements := [
      (e, innerScope importing inner)] }).result = .ok b) :
    (Building.gather (some (origin content)) [importing] [] (some "/m")).result = .ok b := by
  let entered : Building := ({} : Building).enter (outerScope importing)
    |>.enter (innerScope importing inner)
  let started : Building :=
    { graph := placed importing inner, elements := [(e, innerScope importing inner)] }
  have hread : ∀ groups, (Content.complexType groups groups.depthBound (innerScope importing inner) typeT).result =
      .ok { type := {
        members := []
        space := (innerScope importing inner).target
        qualified := some (innerScope importing inner).qualified } } := by
    intro groups
    rw [Content.complexType]
    rfl
  have hname : typeT.given? "name" = some "T" := rfl
  have hinner : (entered.step (.declare inner (innerScope importing inner))).result =
      .ok started := by
    unfold Building.step
    rw [Outcome.result_bind, htypes, List.foldlM_cons, Outcome.result_bind,
      Building.registerGroups, hgroups, List.foldl_nil,
      Building.result_registerType hname (hread _), helements]
    rfl
  have houter : (started.step (.declare importing (outerScope importing))).result =
      .ok started := by
    simp only [Building.step, Building.registerGroups, hnone "complexType" (by simp),
      hnone "group" (by simp), hnone "element" (by simp)]
    rfl
  have hfold : (([.enter (outerScope importing), .enter (innerScope importing inner),
      .declare inner (innerScope importing inner), .declare importing (outerScope importing)] :
        List Visit).foldlM Building.step {}).result = .ok started := by
    rw [List.foldlM_cons, Outcome.result_bind]
    show (List.foldlM Building.step (Building.enter {} (outerScope importing)) _).result = _
    rw [List.foldlM_cons, Outcome.result_bind]
    show (List.foldlM Building.step entered _).result = _
    rw [List.foldlM_cons, Outcome.result_bind, hinner]
    dsimp only
    rw [List.foldlM_cons, Outcome.result_bind, houter]
    rfl
  unfold Building.gather
  rw [Outcome.result_bind, Building.result_foldlM_effects, heffects, hfold]
  exact hregister

end

def importers : List Tree := [plain, defaulting]

theorem effects_document {importing : Tree} (h : importing ∈ importers) :
    effects (Visit.all (some (origin bytes)) [importing] [] (some "/m")) = [
      .enter (outerScope importing), .enter (innerScope importing document),
      .declare document (innerScope importing document),
      .declare importing (outerScope importing)] := by
  simp only [importers, List.mem_cons, List.not_mem_nil, or_false] at h
  rcases h with rfl | rfl <;> exact effects_visits parse_bytes rfl rfl rfl rfl

theorem effects_bareDocument {importing : Tree} (h : importing ∈ importers) :
    effects (Visit.all (some (origin bareBytes)) [importing] [] (some "/m")) = [
      .enter (outerScope importing), .enter (innerScope importing bareDocument),
      .declare bareDocument (innerScope importing bareDocument),
      .declare importing (outerScope importing)] := by
  simp only [importers, List.mem_cons, List.not_mem_nil, or_false] at h
  rcases h with rfl | rfl <;> exact effects_visits parse_bareBytes rfl rfl rfl rfl

theorem children_importer {importing : Tree} (h : importing ∈ importers) :
    ∀ tag ∈ ["complexType", "group", "element"], importing.children tag = [] := by
  simp only [importers, List.mem_cons, List.not_mem_nil, or_false] at h
  intro tag htag
  simp only [List.mem_cons, List.not_mem_nil, or_false] at htag
  rcases h with rfl | rfl <;> rcases htag with rfl | rfl | rfl <;> rfl

theorem result_gather_document {importing : Tree} (h : importing ∈ importers) :
    (Building.gather (some (origin bytes)) [importing] [] (some "/m")).result =
      .ok {
        graph := graph importing document "urn:d:E" "urn:d:T"
        elements := [(elementE "d:T", innerScope importing document)] } := by
  refine result_gather (effects_document h) rfl rfl rfl (children_importer h) ?_
  simp only [importers, List.mem_cons, List.not_mem_nil, or_false] at h
  rcases h with rfl | rfl <;> rfl

theorem result_gather_bareDocument :
    (Building.gather (some (origin bareBytes)) [plain] [] (some "/m")).result =
      .ok {
        graph := graph plain bareDocument "E" "T"
        elements := [(elementE "T", innerScope plain bareDocument)] } ∧
    (Building.gather (some (origin bareBytes)) [defaulting] [] (some "/m")).result =
      .ok {
        graph := graph defaulting bareDocument "E" "urn:m:T"
        elements := [(elementE "T", innerScope defaulting bareDocument)] } :=
  ⟨result_gather (effects_bareDocument (by simp [importers])) rfl rfl rfl
      (children_importer (by simp [importers])) rfl,
    result_gather (effects_bareDocument (by simp [importers])) rfl rfl rfl
      (children_importer (by simp [importers])) rfl⟩

theorem result_build_document {importing : Tree} (h : importing ∈ importers) :
    (TypeGraph.build (some (origin bytes)) [importing] [] (some "/m")).result =
      .ok (graph importing document "urn:d:E" "urn:d:T") := by
  rw [TypeGraph.result_build_of_gather (result_gather_document h)]
  rfl

theorem declared_document {importing : Tree} (h : importing ∈ importers) :
    Visit.declared (Visit.all (some (origin bytes)) [importing] [] (some "/m")) =
      [] ++ (document, innerScope importing document) :: [(importing, outerScope importing)] := by
  rw [← declared_effects, effects_document h]
  rfl

theorem standsApart_document {importing : Tree} (h : importing ∈ importers) :
    StandsApart document (innerScope importing document) []
      [(importing, outerScope importing)] := by
  have hchildren := children_importer h
  have hkeys : ∀ tag ∈ ["complexType", "group", "element"],
      declaredKeys tag (importing, outerScope importing) = [] := fun tag htag => by
    simp only [declaredKeys, declaredNodes, hchildren tag htag]
    rfl
  refine ⟨fun d hd key hkey => ?_, fun d hd key hkey => ?_,
    Scope.meansAlike_of_declared (by decide +kernel) _ _⟩
  · obtain rfl := List.mem_singleton.1 hd
    simp [registeredKeys, hkeys] at hkey
  · obtain rfl := List.mem_singleton.1 hd
    simp [hkeys] at hkey

theorem grounded_document {b : Building}
    (h : (Building.gather none [document] [] none).result = .ok b) (names : List String) :
    b.GroundedAmong names := by
  have himporter : plain ∈ importers := by simp [importers]
  obtain ⟨own, hown, σ, hσ⟩ := Building.holds_of_gather (declared_document himporter)
    (standsApart_document himporter) (by decide +kernel) (result_gather_document himporter)
  obtain rfl := Except.ok.inj (hown.symm.trans h)
  have hnone : own.extensions = [] :=
    List.eq_nil_iff_forall_not_mem.2 fun x hx => List.not_mem_nil (hσ.extending x hx)
  exact ⟨by simp [hnone], fun _ => 0, by simp [hnone]⟩

/-- A document that declares its prefixes is the same to both importers. -/
theorem alike_of_importers : ∃ g g',
    (TypeGraph.build (some (origin bytes)) [plain] [] (some "/m")).result = .ok g ∧
      (TypeGraph.build (some (origin bytes)) [defaulting] [] (some "/m")).result = .ok g' ∧
      TypeGraph.AlikeAt (registeredKeys (document, Scope.alone document)) g g' := by
  have hplain : plain ∈ importers := by simp [importers]
  have hdefaulting : defaulting ∈ importers := by simp [importers]
  have helement : declaredKeys "element" (document, Scope.alone document) = ["urn:d:E"] := by
    decide +kernel
  refine ⟨_, _, result_build_document hplain, result_build_document hdefaulting, ?_⟩
  exact TypeGraph.alikeAt_of_imported (declared_document hplain) (declared_document hdefaulting)
    (standsApart_document hplain) (standsApart_document hdefaulting) (by decide +kernel)
    (fun b hb => grounded_document hb _) (fun hnone => by cases helement.symm.trans hnone)
    (result_build_document hplain) (result_build_document hdefaulting)

/-- A document that has no default namespace of its own, and refers to its own type, refers in
another importer's company to a type of the importer's namespace. -/
theorem reference_follows_importer : bareDocument.imports = [] ∧ ∃ g g',
    (TypeGraph.build (some (origin bareBytes)) [plain] [] (some "/m")).result = .ok g ∧
      (TypeGraph.build (some (origin bareBytes)) [defaulting] [] (some "/m")).result = .ok g' ∧
      g.elements.value? "E" = some (.reference ⟨"T", none, some false⟩) ∧
      g'.elements.value? "E" = some (.reference ⟨"urn:m:T", none, some false⟩) ∧
      ¬ TypeGraph.AlikeAt (registeredKeys (bareDocument, Scope.alone bareDocument)) g g' := by
  obtain ⟨hplain, hdefaulting⟩ := result_gather_bareDocument
  refine ⟨rfl, graph plain bareDocument "E" "T", graph defaulting bareDocument "E" "urn:m:T",
    ?_, ?_, rfl, rfl, ?_⟩
  · rw [TypeGraph.result_build_of_gather hplain]
    rfl
  · rw [TypeGraph.result_build_of_gather hdefaulting]
    rfl
  · rintro ⟨σ, hσ⟩
    have helement : some (TypeNode.reference ⟨"urn:m:T", none, some false⟩) =
        some (.reference ⟨"T", none, some false⟩) := hσ.elements "E" (by decide +kernel)
    simp at helement

end SampleImported
end SoapComponents
