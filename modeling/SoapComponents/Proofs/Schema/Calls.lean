import Mathlib.Logic.Relation
import SoapComponents.Proofs.Schema.Depth
import SoapComponents.Proofs.Schema.Readings

/-!
How far the reading of a content leads. What is read at a node calls for what is read at others: its
children, and the groups that it refers to, where these are defined. A reading that comes to
something has come to the end of all of these calls; and one that fails for a group has found one
that leads back to itself.
-/

set_option autoImplicit false

namespace SoapComponents

namespace Outcome

variable {α β : Type} {P Q : Prop} {E E' : Failure → Prop} {x : Outcome α}

/-- `P` holds if the computation comes to something, and `E` of its failure otherwise. -/
structure Leaves (P : Prop) (E : Failure → Prop) (x : Outcome α) : Prop where
  ok : ∀ a, x.result = .ok a → P
  error : ∀ failure, x.result = .error failure → E failure

theorem Leaves.imp {P' : Prop} (h : Leaves P E x) (hP : P → P')
    (hE : ∀ failure, E failure → E' failure) : Leaves P' E' x :=
  ⟨fun a ha => hP (h.ok a ha), fun failure hfailure => hE failure (h.error failure hfailure)⟩

theorem Leaves.of_result {y : Outcome α} (h : Leaves P E x) (hresult : y.result = x.result) :
    Leaves P E y :=
  ⟨fun a ha => h.ok a (hresult ▸ ha), fun failure hf => h.error failure (hresult ▸ hf)⟩

theorem leaves_pure (a : α) : Leaves True E (pure a : Outcome α) where
  ok _ _ := trivial
  error _ h := by cases h

theorem leaves_lift (a : Noted α) : Leaves True E (liftM a : Outcome α) where
  ok _ _ := trivial
  error _ h := by cases h

theorem leaves_throw {failure : Failure} (h : E failure) :
    Leaves P E (throw failure : Outcome α) where
  ok _ hok := by cases hok
  error _ herror := Except.error.inj herror ▸ h

theorem Leaves.bind {f : α → Outcome β} (h : Leaves P E x)
    (hf : ∀ a, x.result = .ok a → Leaves Q E (f a)) : Leaves (P ∧ Q) E (x >>= f) where
  ok b hb := by
    obtain ⟨a, ha, hb⟩ := result_bind_eq_ok.1 hb
    exact ⟨h.ok a ha, (hf a ha).ok b hb⟩
  error failure hfailure := by
    rw [result_bind] at hfailure
    cases hx : x.result with
    | ok a => exact (hf a hx).error failure (by simpa [hx] using hfailure)
    | error other =>
      rw [hx] at hfailure
      exact Except.error.inj hfailure ▸ h.error other hx

theorem Leaves.map {f : α → β} (h : Leaves P E x) : Leaves P E (f <$> x) := by
  rw [map_eq_pure_bind]
  exact (h.bind fun a _ => leaves_pure (f a)).imp And.left fun _ hE => hE

theorem Leaves.mapM {f : α → Outcome β} {R : α → Prop} {l : List α}
    (h : ∀ a ∈ l, Leaves (R a) E (f a)) : Leaves (∀ a ∈ l, R a) E (l.mapM f) := by
  induction l with
  | nil => exact (leaves_pure []).imp (by simp) fun _ hE => hE
  | cons a rest ih =>
    rw [List.mapM_cons]
    have hrest := ih fun a' ha' => h a' (List.mem_cons_of_mem _ ha')
    refine ((h a List.mem_cons_self).bind fun _ _ => hrest.bind fun _ _ => leaves_pure _).imp ?_
      fun _ hE => hE
    exact fun ⟨hfirst, hmore, _⟩ => List.forall_mem_cons.2 ⟨hfirst, hmore⟩

theorem forall₂_of_mapM {f : α → Outcome β} {l : List α} {found : List β}
    (h : (l.mapM f).result = .ok found) :
    List.Forall₂ (fun a b => (f a).result = .ok b) l found := by
  induction l generalizing found with
  | nil =>
    obtain rfl := Except.ok.inj h
    exact .nil
  | cons a rest ih =>
    rw [List.mapM_cons] at h
    obtain ⟨first, hfirst, h⟩ := result_bind_eq_ok.1 h
    obtain ⟨more, hmore, h⟩ := result_bind_eq_ok.1 h
    obtain rfl := Except.ok.inj h
    exact .cons hfirst (ih hmore)

end Outcome

namespace Content

inductive Calls (groups : Groups) : Call → Call → Prop
  | nested {scope : Scope} {node inner : Tree} : inner ∈ particleTags.flatMap node.children →
      Calls groups ⟨.particle, scope, node⟩ ⟨.particle, scope, inner⟩
  | grouped {scope : Scope} {node inner : Tree} : inner ∈ node.children "group" →
      Calls groups ⟨.particle, scope, node⟩ ⟨.group, scope, inner⟩
  | own {scope : Scope} {node inner : Tree} : inner ∈ node.children "element" →
      Calls groups ⟨.particle, scope, node⟩ ⟨.element, scope, inner⟩
  | body {scope : Scope} {node : Tree} : node.given? "ref" = none →
      Calls groups ⟨.group, scope, node⟩ ⟨.groupBody, scope, node⟩
  /-- A group that is referred to is read in the scope of the schema that defines it. -/
  | definition {scope around : Scope} {node definition : Tree} {ref key : String} :
      node.given? "ref" = some ref →
      groups.find? (scope.qualify ref).value (Name.localPart ref) =
        some (key, definition, around) →
      Calls groups ⟨.group, scope, node⟩ ⟨.groupBody, around, definition⟩
  | bodyElement {scope : Scope} {node inner : Tree} : inner ∈ node.children "element" →
      Calls groups ⟨.groupBody, scope, node⟩ ⟨.element, scope, inner⟩
  | bodyParticle {scope : Scope} {node inner : Tree} : node.children "element" = [] →
      (particleTags.flatMap node.children).head? = some inner →
      Calls groups ⟨.groupBody, scope, node⟩ ⟨.particle, scope, inner⟩
  | type {scope : Scope} {node : Tree} : node.given? "ref" = none →
      (node.given? "name").isSome →
      Calls groups ⟨.element, scope, node⟩ ⟨.elementType, scope, node⟩
  | innerType {scope : Scope} {node inner : Tree} : node.given? "type" = none →
      node.element? "complexType" = some inner →
      Calls groups ⟨.elementType, scope, node⟩ ⟨.complexType, scope, inner⟩
  | ownType {scope : Scope} {node : Tree} : node.given? "type" = none →
      node.element? "complexType" = none → (node.element? "sequence").isSome →
      Calls groups ⟨.elementType, scope, node⟩ ⟨.complexType, scope, node⟩
  | content {scope : Scope} {node inner : Tree} :
      (particleTags.filterMap node.element?).head? = some inner →
      Calls groups ⟨.complexType, scope, node⟩ ⟨.particle, scope, inner⟩
  | contentGroup {scope : Scope} {node inner : Tree} :
      (particleTags.filterMap node.element?).head? = none →
      node.element? "group" = some inner →
      Calls groups ⟨.complexType, scope, node⟩ ⟨.group, scope, inner⟩
  | simpleSequence {scope : Scope} {node content derivation inner : Tree} :
      (particleTags.filterMap node.element?).head? = none → node.element? "group" = none →
      node.element? "simpleContent" = some content → derivation? content = some derivation →
      derivation.element? "sequence" = some inner →
      Calls groups ⟨.complexType, scope, node⟩ ⟨.particle, scope, inner⟩
  | derived {scope : Scope} {node content derivation inner : Tree} :
      (particleTags.filterMap node.element?).head? = none → node.element? "group" = none →
      node.element? "simpleContent" = none → node.element? "complexContent" = some content →
      derivation? content = some derivation → inner ∈ particleTags.flatMap derivation.children →
      Calls groups ⟨.complexType, scope, node⟩ ⟨.particle, scope, inner⟩
  | derivedGroup {scope : Scope} {node content derivation inner : Tree} :
      (particleTags.filterMap node.element?).head? = none → node.element? "group" = none →
      node.element? "simpleContent" = none → node.element? "complexContent" = some content →
      derivation? content = some derivation → inner ∈ derivation.children "group" →
      Calls groups ⟨.complexType, scope, node⟩ ⟨.group, scope, inner⟩

/-- Every chain of calls comes to an end. -/
def Ends (groups : Groups) (c : Call) : Prop :=
  Acc (fun callee caller => Calls groups caller callee) c

/-- A reading leads to a group that leads back to itself. -/
def Circular (groups : Groups) (c : Call) : Prop :=
  ∃ key definition around, groups.value? key = some (definition, around) ∧
    Relation.TransGen (Calls groups) c ⟨.groupBody, around, definition⟩ ∧
    Relation.TransGen (Calls groups) ⟨.groupBody, around, definition⟩
      ⟨.groupBody, around, definition⟩

variable {groups : Groups} {depth : Nat} {opened : List String} {c c' : Call}

theorem Ends.intro (h : ∀ c', Calls groups c c' → Ends groups c') : Ends groups c := Acc.intro c h

theorem Ends.callee (h : Ends groups c) (hcalls : Calls groups c c') : Ends groups c' :=
  Acc.inv h hcalls

theorem Ends.not_leads_back (h : Ends groups c) : ¬ Relation.TransGen (Calls groups) c c := by
  induction h with
  | intro c _ ih =>
    intro hcircle
    obtain ⟨middle, hcalls, hback⟩ := Relation.TransGen.head'_iff.1 hcircle
    exact ih middle hcalls (.tail' hback hcalls)

theorem Ends.not_circular (h : Ends groups c) : ¬ Circular groups c := by
  rintro ⟨key, definition, around, -, hleads, hcircle⟩
  refine Ends.not_leads_back ?_ hcircle
  clear hcircle
  generalize Call.mk .groupBody around definition = last at hleads
  induction hleads with
  | single hcalls => exact h.callee hcalls
  | tail _ hcalls ih => exact ih.callee hcalls

def LeadsBack (groups : Groups) (opened : List String) (c : Call) : Prop :=
  ∃ key definition around, groups.value? key = some (definition, around) ∧
    Relation.TransGen (Calls groups) c ⟨.groupBody, around, definition⟩ ∧
    (key ∈ opened ∨ Relation.TransGen (Calls groups) ⟨.groupBody, around, definition⟩
      ⟨.groupBody, around, definition⟩)

/-- A reading fails for the children of a complex type, or for want of depth. If there is room for
all groups but those that are opened, it then leads back to one. -/
def Fails (groups : Groups) (depth : Nat) (opened : List String) (c : Call) (failure : Failure) :
    Prop :=
  (∃ name found, failure = .strayChildren name found) ∨
    failure = .tooDeep ∧
      (remaining (Table.keys groups) opened ≤ depth → LeadsBack groups opened c)

theorem LeadsBack.caller (hcalls : Calls groups c c') (h : LeadsBack groups opened c') :
    LeadsBack groups opened c := by
  obtain ⟨key, definition, around, hkey, hleads, hback⟩ := h
  exact ⟨key, definition, around, hkey, .head hcalls hleads, hback⟩

theorem LeadsBack.definition {scope : Scope} {node : Tree} {key : String}
    (hcalls : Calls groups c ⟨.groupBody, scope, node⟩)
    (hkey : groups.value? key = some (node, scope))
    (h : LeadsBack groups (key :: opened) ⟨.groupBody, scope, node⟩) :
    LeadsBack groups opened c := by
  obtain ⟨other, definition, around, hother, hleads, hback⟩ := h
  refine ⟨other, definition, around, hother, .head hcalls hleads, ?_⟩
  rcases hback with hopened | hback
  · rcases List.mem_cons.1 hopened with rfl | hopened
    · obtain ⟨rfl, rfl⟩ := Prod.mk.inj (Option.some.inj (hkey.symm.trans hother))
      exact .inr hleads
    · exact .inl hopened
  · exact .inr hback

theorem Fails.caller {failure : Failure} (hcalls : Calls groups c c')
    (h : Fails groups depth opened c' failure) : Fails groups depth opened c failure :=
  h.imp id fun ⟨hfailure, hback⟩ => ⟨hfailure, fun hroom => (hback hroom).caller hcalls⟩

theorem Fails.definition {scope : Scope} {node : Tree} {key : String} {failure : Failure}
    (hcalls : Calls groups c ⟨.groupBody, scope, node⟩)
    (hkey : groups.value? key = some (node, scope))
    (h : Fails groups depth (key :: opened) ⟨.groupBody, scope, node⟩ failure) :
    Fails groups (depth + 1) opened c failure := by
  refine h.imp id fun ⟨hfailure, hback⟩ => ⟨hfailure, fun hroom => ?_⟩
  by_cases hopened : key ∈ opened
  · exact ⟨key, node, scope, hkey, .single hcalls, .inl hopened⟩
  · have hfewer := remaining_cons_lt (Table.mem_keys_of_value? hkey) hopened
    exact (hback (by omega)).definition hcalls hkey

theorem fails_of_no_depth {scope : Scope} {node : Tree} {key : String}
    (hcalls : Calls groups c ⟨.groupBody, scope, node⟩)
    (hkey : groups.value? key = some (node, scope)) : Fails groups 0 opened c .tooDeep := by
  refine .inr ⟨rfl, fun hroom => ⟨key, node, scope, hkey, .single hcalls, .inl ?_⟩⟩
  by_contra hopened
  have hfewer := remaining_cons_lt (Table.mem_keys_of_value? hkey) hopened
  omega

def Call.Leaves (groups : Groups) (depth : Nat) (P : Prop) (E : Failure → Prop) :
    Call → Prop
  | ⟨.particle, scope, node⟩ => (particle groups depth scope node).Leaves P E
  | ⟨.group, scope, node⟩ => (group groups depth scope node).Leaves P E
  | ⟨.groupBody, scope, node⟩ => (groupBody groups depth scope node).Leaves P E
  | ⟨.element, scope, node⟩ => (element groups depth scope node).Leaves P E
  | ⟨.elementType, scope, node⟩ => (elementType groups depth scope node).Leaves P E
  | ⟨.complexType, scope, node⟩ => (complexType groups depth scope node).Leaves P E

abbrev Accounted (groups : Groups) (depth : Nat) (opened : List String) (c : Call) : Prop :=
  c.Leaves groups depth (Ends groups c) (Fails groups depth opened c)

section

variable {scope : Scope} {node : Tree} {E : Failure → Prop}

theorem particle_leaves
    (ih : ∀ c', Calls groups ⟨.particle, scope, node⟩ c' →
      c'.Leaves groups depth (Ends groups c') E) :
    (particle groups depth scope node).Leaves (Ends groups ⟨.particle, scope, node⟩) E := by
  have hnested : ((particleTags.flatMap node.children).mapM (particle groups depth scope)).Leaves
      (∀ inner ∈ particleTags.flatMap node.children, Ends groups ⟨.particle, scope, inner⟩) E :=
    .mapM fun inner h => ih ⟨.particle, scope, inner⟩ (.nested h)
  have hgrouped : ((node.children "group").mapM (group groups depth scope)).Leaves
      (∀ inner ∈ node.children "group", Ends groups ⟨.group, scope, inner⟩) E :=
    .mapM fun inner h => ih ⟨.group, scope, inner⟩ (.grouped h)
  have hown : ((node.children "element").mapM (element groups depth scope)).Leaves
      (∀ inner ∈ node.children "element", Ends groups ⟨.element, scope, inner⟩) E :=
    .mapM fun inner h => ih ⟨.element, scope, inner⟩ (.own h)
  rw [particle_eq]
  refine (hnested.bind fun _ _ => hgrouped.bind fun _ _ => hown.bind fun _ _ =>
    Outcome.leaves_pure _).imp ?_ fun _ h => h
  rintro ⟨hnested, hgrouped, hown, -⟩
  refine Ends.intro fun c' hcalls => ?_
  cases hcalls with
  | nested h => exact hnested _ h
  | grouped h => exact hgrouped _ h
  | own h => exact hown _ h

theorem groupBody_leaves
    (ih : ∀ c', Calls groups ⟨.groupBody, scope, node⟩ c' →
      c'.Leaves groups depth (Ends groups c') E) :
    (groupBody groups depth scope node).Leaves (Ends groups ⟨.groupBody, scope, node⟩) E := by
  have hown : ((node.children "element").mapM (element groups depth scope)).Leaves
      (∀ inner ∈ node.children "element", Ends groups ⟨.element, scope, inner⟩) E :=
    .mapM fun inner h => ih ⟨.element, scope, inner⟩ (.bodyElement h)
  rw [groupBody_eq]
  refine (hown.bind (Q := node.children "element" = [] → ∀ inner,
    (particleTags.flatMap node.children).head? = some inner →
      Ends groups ⟨.particle, scope, inner⟩) fun own hfound => ?_).imp ?_ fun _ h => h
  · -- what is read is empty just when there are no elements
    have hlength := (Outcome.forall₂_of_mapM hfound).length_eq
    split
    · next hsome =>
      refine (Outcome.leaves_pure _).imp (fun _ hempty => ?_) fun _ h => h
      rw [hempty, List.length_nil] at hlength
      simp [List.length_eq_zero_iff.1 hlength.symm] at hsome
    · next hnone =>
      have hempty : node.children "element" = [] := List.length_eq_zero_iff.1
        (hlength.trans (by simpa using hnone))
      split
      · next inner hfirst =>
        have hparticle : (particle groups depth scope inner).Leaves
            (Ends groups ⟨.particle, scope, inner⟩) E :=
          ih ⟨.particle, scope, inner⟩ (.bodyParticle hempty hfirst)
        refine hparticle.imp (fun hends _ other hother => ?_) fun _ h => h
        exact Option.some.inj (hfirst.symm.trans hother) ▸ hends
      · next hnone => exact (Outcome.leaves_pure []).imp (by simp [hnone]) fun _ h => h
  · rintro ⟨hown, hparticle⟩
    refine Ends.intro fun c' hcalls => ?_
    cases hcalls with
    | bodyElement h => exact hown _ h
    | bodyParticle hempty hfirst => exact hparticle hempty _ hfirst

theorem element_leaves
    (ih : ∀ c', Calls groups ⟨.element, scope, node⟩ c' →
      c'.Leaves groups depth (Ends groups c') E) :
    (element groups depth scope node).Leaves (Ends groups ⟨.element, scope, node⟩) E := by
  have hends : (node.given? "ref" = none → (node.given? "name").isSome →
      Ends groups ⟨.elementType, scope, node⟩) → Ends groups ⟨.element, scope, node⟩ := by
    intro htype
    refine Ends.intro fun c' hcalls => ?_
    cases hcalls with
    | type href hname => exact htype href hname
  rw [element]
  split
  · next ref href =>
    refine ((Outcome.leaves_lift _).bind fun _ _ => Outcome.leaves_pure _).imp (fun _ => hends ?_)
      fun _ h => h
    exact fun hnone => absurd (href.symm.trans hnone) (Option.some_ne_none ref)
  · next href =>
    split
    · next hname =>
      refine (Outcome.leaves_pure _).imp (fun _ => hends fun _ hsome => ?_) fun _ h => h
      simp [hname] at hsome
    · next name hname =>
      have htype : (elementType groups depth scope node).Leaves
          (Ends groups ⟨.elementType, scope, node⟩) E :=
        ih ⟨.elementType, scope, node⟩ (.type href (by simp [hname]))
      exact (htype.bind fun _ _ => Outcome.leaves_pure _).imp (fun h => hends fun _ _ => h.1)
        fun _ h => h

theorem elementType_leaves
    (ih : ∀ c', Calls groups ⟨.elementType, scope, node⟩ c' →
      c'.Leaves groups depth (Ends groups c') E) :
    (elementType groups depth scope node).Leaves (Ends groups ⟨.elementType, scope, node⟩) E := by
  rw [elementType_eq]
  split
  · next name hname =>
    refine (Outcome.leaves_lift _).imp (fun _ => Ends.intro fun c' hcalls => ?_) fun _ h => h
    cases hcalls <;> simp_all
  · next hname =>
    split
    · next inner hinner =>
      have htype : (complexType groups depth scope inner).Leaves
          (Ends groups ⟨.complexType, scope, inner⟩) E :=
        ih ⟨.complexType, scope, inner⟩ (.innerType hname hinner)
      refine htype.map.imp (fun hends => Ends.intro fun c' hcalls => ?_) fun _ h => h
      cases hcalls with
      | innerType _ hother => exact Option.some.inj (hinner.symm.trans hother) ▸ hends
      | ownType _ hnone => exact absurd (hinner.symm.trans hnone) (Option.some_ne_none inner)
    · next hinner =>
      split
      · next hsequence =>
        have htype : (complexType groups depth scope node).Leaves
            (Ends groups ⟨.complexType, scope, node⟩) E :=
          ih ⟨.complexType, scope, node⟩ (.ownType hname hinner hsequence)
        refine htype.map.imp (fun hends => Ends.intro fun c' hcalls => ?_) fun _ h => h
        cases hcalls with
        | innerType _ hother => exact absurd (hother.symm.trans hinner) (Option.some_ne_none _)
        | ownType => exact hends
      · next hsequence =>
        refine (Outcome.leaves_lift _).imp (fun _ => Ends.intro fun c' hcalls => ?_) fun _ h => h
        cases hcalls <;> simp_all

theorem simpleContent_leaves {content : Tree}
    (ih : ∀ derivation inner, derivation? content = some derivation →
      derivation.element? "sequence" = some inner →
      (particle groups depth scope inner).Leaves (Ends groups ⟨.particle, scope, inner⟩) E) :
    (simpleContent groups depth scope node content).Leaves
      (∀ derivation inner, derivation? content = some derivation →
        derivation.element? "sequence" = some inner → Ends groups ⟨.particle, scope, inner⟩) E := by
  unfold simpleContent
  split
  · next hnone => exact (Outcome.leaves_pure _).imp (by simp [hnone]) fun _ h => h
  · next derivation hderivation =>
    unfold simpleMembers
    split
    · next inner hinner =>
      refine ((ih derivation inner hderivation hinner).bind fun _ _ => Outcome.leaves_pure _).imp
        ?_ fun _ h => h
      rintro ⟨hends, -⟩ other first hother hfirst
      obtain rfl := Option.some.inj (hderivation.symm.trans hother)
      exact Option.some.inj (hinner.symm.trans hfirst) ▸ hends
    · next hnone =>
      refine ((Outcome.leaves_pure _).bind fun _ _ => Outcome.leaves_pure _).imp
        (fun _ other first hother hfirst => ?_) fun _ h => h
      obtain rfl := Option.some.inj (hderivation.symm.trans hother)
      cases hnone.symm.trans hfirst

theorem complexContent_leaves {content : Tree}
    (hparticle : ∀ derivation, derivation? content = some derivation →
      ∀ inner ∈ particleTags.flatMap derivation.children,
        (particle groups depth scope inner).Leaves (Ends groups ⟨.particle, scope, inner⟩) E)
    (hgroup : ∀ derivation, derivation? content = some derivation →
      ∀ inner ∈ derivation.children "group",
        (group groups depth scope inner).Leaves (Ends groups ⟨.group, scope, inner⟩) E) :
    (complexContent groups depth scope node content).Leaves
      (∀ derivation, derivation? content = some derivation →
        (∀ inner ∈ particleTags.flatMap derivation.children,
          Ends groups ⟨.particle, scope, inner⟩) ∧
        ∀ inner ∈ derivation.children "group", Ends groups ⟨.group, scope, inner⟩) E := by
  unfold complexContent
  split
  · next hnone => exact (Outcome.leaves_pure _).imp (by simp [hnone]) fun _ h => h
  · next derivation hderivation =>
    have hnested := Outcome.Leaves.mapM (hparticle derivation hderivation)
    have hgrouped := Outcome.Leaves.mapM (hgroup derivation hderivation)
    refine ((Outcome.leaves_lift _).bind fun _ _ => hnested.bind fun _ _ =>
      hgrouped.bind fun _ _ => Outcome.leaves_pure _).imp ?_ fun _ h => h
    rintro ⟨-, hnested, hgrouped, -⟩ other hother
    obtain rfl := Option.some.inj (hderivation.symm.trans hother)
    exact ⟨hnested, hgrouped⟩

theorem complexType_leaves
    (ih : ∀ c', Calls groups ⟨.complexType, scope, node⟩ c' →
      c'.Leaves groups depth (Ends groups c') E)
    (hstray : ∀ name found, E (.strayChildren name found)) :
    (complexType groups depth scope node).Leaves (Ends groups ⟨.complexType, scope, node⟩) E := by
  rw [complexType_eq]
  split
  · next inner hinner =>
    have hparticle : (particle groups depth scope inner).Leaves
        (Ends groups ⟨.particle, scope, inner⟩) E :=
      ih ⟨.particle, scope, inner⟩ (.content hinner)
    refine hparticle.map.imp (fun hends => Ends.intro fun c' hcalls => ?_) fun _ h => h
    cases hcalls <;> simp_all
  · next hnone =>
    split
    · next inner hinner =>
      have hgroup : (group groups depth scope inner).Leaves
          (Ends groups ⟨.group, scope, inner⟩) E :=
        ih ⟨.group, scope, inner⟩ (.contentGroup hnone hinner)
      refine hgroup.map.imp (fun hends => Ends.intro fun c' hcalls => ?_) fun _ h => h
      cases hcalls <;> simp_all
    · next hgroup =>
      split
      · next content hcontent =>
        refine (simpleContent_leaves fun derivation inner hderivation hinner =>
          ih ⟨.particle, scope, inner⟩
            (.simpleSequence hnone hgroup hcontent hderivation hinner)).imp
          (fun hends => Ends.intro fun c' hcalls => ?_) fun _ h => h
        cases hcalls with
        | simpleSequence _ _ h hd hinner =>
          obtain rfl := Option.some.inj (hcontent.symm.trans h)
          exact hends _ _ hd hinner
        | _ => simp_all
      · next hsimple =>
        split
        · next content hcontent =>
          refine (complexContent_leaves
            (fun derivation hderivation inner hinner => ih ⟨.particle, scope, inner⟩
              (.derived hnone hgroup hsimple hcontent hderivation hinner))
            fun derivation hderivation inner hinner => ih ⟨.group, scope, inner⟩
              (.derivedGroup hnone hgroup hsimple hcontent hderivation hinner)).imp
            (fun hends => Ends.intro fun c' hcalls => ?_) fun _ h => h
          cases hcalls with
          | derived _ _ _ h hd hinner =>
            obtain rfl := Option.some.inj (hcontent.symm.trans h)
            exact (hends _ hd).1 _ hinner
          | derivedGroup _ _ _ h hd hinner =>
            obtain rfl := Option.some.inj (hcontent.symm.trans h)
            exact (hends _ hd).2 _ hinner
          | _ => simp_all
        · next hcomplex =>
          unfold contentless
          split
          · refine (Outcome.leaves_pure _).imp (fun _ => Ends.intro fun c' hcalls => ?_)
              fun _ h => h
            cases hcalls <;> simp_all
          · exact Outcome.leaves_throw (hstray _ _)

theorem group_accounted
    (hbody : Accounted groups depth opened ⟨.groupBody, scope, node⟩)
    (hdefinition : ∀ less < depth, ∀ key definition around,
      Accounted groups less (key :: opened) ⟨.groupBody, around, definition⟩) :
    Accounted groups depth opened ⟨.group, scope, node⟩ := by
  cases href : node.given? "ref" with
  | none =>
    have hcalls : Calls groups ⟨.group, scope, node⟩ ⟨.groupBody, scope, node⟩ := .body href
    change (group groups depth scope node).Leaves _ _
    rw [group_of_refless href]
    refine Outcome.Leaves.imp hbody (fun hends => Ends.intro fun c' hcalls => ?_)
      fun _ hfails => hfails.caller hcalls
    cases hcalls with
    | body => exact hends
    | definition hsome => cases href.symm.trans hsome
  | some ref =>
    have hresult := @result_group_of_ref groups depth scope node ref href
    have hends : (∀ key definition around,
        groups.find? (scope.qualify ref).value (Name.localPart ref) =
          some (key, definition, around) → Ends groups ⟨.groupBody, around, definition⟩) →
        Ends groups ⟨.group, scope, node⟩ := by
      refine fun hfound => Ends.intro fun c' hcalls => ?_
      cases hcalls with
      | body hnone => cases href.symm.trans hnone
      | definition hsome hfind =>
        obtain rfl := Option.some.inj (href.symm.trans hsome)
        exact hfound _ _ _ hfind
    cases hfind : groups.find? (scope.qualify ref).value (Name.localPart ref) with
    | none =>
      rw [referredGroup_of_none hfind] at hresult
      refine Outcome.Leaves.of_result (x := pure []) ?_ hresult
      exact (Outcome.leaves_pure _).imp (fun _ => hends (by simp [hfind])) fun _ h => h
    | some e =>
      obtain ⟨key, definition, around⟩ := e
      have hcalls : Calls groups ⟨.group, scope, node⟩ ⟨.groupBody, around, definition⟩ :=
        .definition href hfind
      have hkey := Groups.value?_of_find? hfind
      cases depth with
      | zero =>
        rw [referredGroup_zero hfind] at hresult
        refine Outcome.Leaves.of_result (x := throw Failure.tooDeep) ?_ hresult
        exact Outcome.leaves_throw (fails_of_no_depth hcalls hkey)
      | succ depth =>
        rw [referredGroup_succ hfind] at hresult
        refine Outcome.Leaves.of_result ?_ hresult
        refine Outcome.Leaves.imp (hdefinition depth (Nat.lt_succ_self _) key definition around)
          (fun hbody => hends fun other _ _ hother => ?_)
          fun _ hfails => hfails.definition hcalls hkey
        obtain ⟨rfl, rfl, rfl⟩ : key = other ∧ _ := by
          simpa using Option.some.inj (hfind.symm.trans hother)
        exact hbody

end

theorem Calls.size_lt (h : Calls groups c c') (hgroup : c.role ≠ .group) : c'.size < c.size := by
  -- the parts of a derivation are those that lie deepest
  have hderived : ∀ {node content derivation inner : Tree}, Child node content →
      derivation? content = some derivation → Child derivation inner →
      inner.weight < node.weight := fun hcontent hd hinner =>
    Nat.lt_trans hinner.weight_lt
      (Nat.lt_trans (child_of_derivation hd).weight_lt hcontent.weight_lt)
  cases h with
  | nested h => exact Call.size_lt_of_weight (child_of_particle h).weight_lt
  | grouped h => exact Call.size_lt_of_weight (Tree.weight_of_mem_children h)
  | own h => exact Call.size_lt_of_weight (Tree.weight_of_mem_children h)
  | body => exact absurd rfl hgroup
  | definition => exact absurd rfl hgroup
  | bodyElement h => exact Call.size_lt_of_weight (Tree.weight_of_mem_children h)
  | bodyParticle _ h =>
    exact Call.size_lt_of_weight (child_of_particle (List.mem_of_mem_head? h)).weight_lt
  | type => exact Nat.lt_succ_self _
  | innerType _ h => exact Call.size_lt_of_weight (Tree.weight_of_element? h)
  | ownType => exact Nat.lt_succ_self _
  | content h => exact Call.size_lt_of_weight (child_of_first h).weight_lt
  | contentGroup _ h => exact Call.size_lt_of_weight (Tree.weight_of_element? h)
  | simpleSequence _ _ hcontent hd h =>
    exact Call.size_lt_of_weight
      (hderived (child_of_element? hcontent) hd (child_of_element? h))
  | derived _ _ _ hcontent hd h =>
    exact Call.size_lt_of_weight (hderived (child_of_element? hcontent) hd (child_of_particle h))
  | derivedGroup _ _ _ hcontent hd h =>
    exact Call.size_lt_of_weight (hderived (child_of_element? hcontent) hd ⟨_, h⟩)

theorem Call.Leaves.imp {P P' : Prop} {E E' : Failure → Prop} (h : c.Leaves groups depth P E)
    (hP : P → P') (hE : ∀ failure, E failure → E' failure) : c.Leaves groups depth P' E' := by
  obtain ⟨role, scope, node⟩ := c
  cases role <;> exact Outcome.Leaves.imp h hP hE

/-- Every reading that comes to something has come to the end of its calls, and every one that fails
has a reason to. -/
theorem accounted (groups : Groups) (depth : Nat) (c : Call) (opened : List String) :
    Accounted groups depth opened c := by
  induction depth, c using induction_on_size Call.size generalizing opened with
  | step depth c ih ihdefinition =>
    have hcallees : c.role ≠ .group → ∀ c', Calls groups c c' →
        c'.Leaves groups depth (Ends groups c') (Fails groups depth opened c) :=
      fun hrole c' hcalls => Call.Leaves.imp (ih c' (hcalls.size_lt hrole) opened) id
        fun _ hfails => hfails.caller hcalls
    obtain ⟨role, scope, node⟩ := c
    cases role with
    | particle => exact particle_leaves (hcallees nofun)
    | group =>
      exact group_accounted (ih _ (Nat.lt_succ_self _) opened)
        fun less hless key definition around => ihdefinition less hless _ (key :: opened)
    | groupBody => exact groupBody_leaves (hcallees nofun)
    | element => exact element_leaves (hcallees nofun)
    | elementType => exact elementType_leaves (hcallees nofun)
    | complexType =>
      exact complexType_leaves (hcallees nofun) fun name found => .inl ⟨name, found, rfl⟩

/-- A complex type whose reading comes to something leads to no group that leads back to itself, and
one whose reading fails has stray children in it, or leads to such a group and is cut short at every
depth. -/
theorem complexType_cases (groups : Groups) (scope : Scope) (node : Tree) :
    (∃ derived, (complexType groups groups.depthBound scope node).result = .ok derived ∧
      Ends groups ⟨.complexType, scope, node⟩) ∨
    (∃ name found, (complexType groups groups.depthBound scope node).result =
      .error (.strayChildren name found)) ∨
    (∀ depth, (complexType groups depth scope node).result = .error .tooDeep) ∧
      Circular groups ⟨.complexType, scope, node⟩ := by
  have haccounted : (complexType groups groups.depthBound scope node).Leaves _ _ :=
    accounted groups groups.depthBound ⟨.complexType, scope, node⟩ []
  cases hresult : (complexType groups groups.depthBound scope node).result with
  | ok derived => exact .inl ⟨derived, rfl, haccounted.ok derived hresult⟩
  | error failure =>
    rcases haccounted.error failure hresult with ⟨name, found, rfl⟩ | ⟨rfl, hback⟩
    · exact .inr (.inl ⟨name, found, rfl⟩)
    · obtain ⟨key, definition, around, hkey, hleads, hopened | hcircle⟩ :=
        hback (room_of_depthBound groups)
      · cases hopened
      · exact .inr (.inr ⟨tooDeep_at_every_depth hresult, key, definition, around, hkey, hleads,
          hcircle⟩)

end Content

end SoapComponents
