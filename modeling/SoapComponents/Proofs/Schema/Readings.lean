import Mathlib.Data.List.Forall2
import SoapComponents.Proofs.Schema.Qualified

/-!
Content that is read alike in two places. Where the nodes of one document answer to those of
another, child by child, and their names mean the same in both scopes, the same types are read.
What the documents write raw, as bases, attribute types and stray keys, may be written otherwise:
`w` says how.
-/

set_option autoImplicit false

namespace SoapComponents

section

variable {α β γ δ : Type} {R : α → β → Prop} {S : γ → δ → Prop}

theorem forall₂_imp_of_mem {R' : α → β → Prop} {l : List α} {l' : List β}
    (h : List.Forall₂ R l l') (himp : ∀ a ∈ l, ∀ b, R a b → R' a b) : List.Forall₂ R' l l' := by
  induction h with
  | nil => exact .nil
  | cons hfirst _ ih =>
    exact .cons (himp _ List.mem_cons_self _ hfirst)
      (ih fun a ha => himp a (List.mem_cons_of_mem _ ha))

theorem rel_head? {l : List α} {l' : List β} (h : List.Forall₂ R l l') :
    Option.Rel R l.head? l'.head? := by
  cases h with
  | nil => exact .none
  | cons hfirst _ => exact .some hfirst

theorem forall₂_flatMap_of_tags {tags : List String} {f : String → List α} {f' : String → List β}
    (h : ∀ tag ∈ tags, List.Forall₂ R (f tag) (f' tag)) :
    List.Forall₂ R (tags.flatMap f) (tags.flatMap f') := by
  induction tags with
  | nil => exact .nil
  | cons tag rest ih =>
    exact List.rel_append (h tag List.mem_cons_self)
      (ih fun other hother => h other (List.mem_cons_of_mem _ hother))

theorem forall₂_filterMap_of_tags {tags : List String} {f : String → Option α}
    {f' : String → Option β} (h : ∀ tag ∈ tags, Option.Rel R (f tag) (f' tag)) :
    List.Forall₂ R (tags.filterMap f) (tags.filterMap f') := by
  induction tags with
  | nil => exact .nil
  | cons tag rest ih =>
    have hrest := ih fun other hother => h other (List.mem_cons_of_mem _ hother)
    have htag := h tag List.mem_cons_self
    simp only [List.filterMap_cons]
    generalize f tag = found at htag
    generalize f' tag = found' at htag
    cases htag with
    | none => exact hrest
    | some hfound => exact .cons hfound hrest

theorem forall₂_filterMap {l : List α} {l' : List β} {f : α → Option γ} {f' : β → Option δ}
    (h : List.Forall₂ R l l') (hf : ∀ a b, R a b → Option.Rel S (f a) (f' b)) :
    List.Forall₂ S (l.filterMap f) (l'.filterMap f') := by
  induction h with
  | nil => exact .nil
  | @cons a b l l' hfirst _ ih =>
    have hfound := hf a b hfirst
    simp only [List.filterMap_cons]
    generalize f a = found at hfound
    generalize f' b = found' at hfound
    cases hfound with
    | none => exact ih
    | some hfound => exact .cons hfound ih

theorem rel_or {a a' : Option α} {b b' : Option β} (h : Option.Rel R a b)
    (h' : Option.Rel R a' b') : Option.Rel R (a.or a') (b.or b') := by
  cases h with
  | none => exact h'
  | some hfound => exact .some hfound

theorem isSome_eq_of_rel {a : Option α} {b : Option β} (h : Option.Rel R a b) :
    b.isSome = a.isSome := by
  cases h <;> rfl

theorem cases_of_rel {a : Option α} {b : Option β} (h : Option.Rel R a b) :
    (a = none ∧ b = none) ∨ ∃ x y, a = some x ∧ b = some y ∧ R x y := by
  cases h with
  | none => exact .inl ⟨rfl, rfl⟩
  | some hfound => exact .inr ⟨_, _, rfl, rfl, hfound⟩

end

namespace Table

/-- The same keys in the same order, with values that answer to each other. -/
def Alike {β γ : Type} (S : β → γ → Prop) (t : Table β) (t' : Table γ) : Prop :=
  List.Forall₂ (fun e e' => e'.1 = e.1 ∧ S e.2 e'.2) t t'

variable {β γ : Type} {S : β → γ → Prop} {t u : Table β} {t' u' : Table γ}

theorem Alike.rel_value? (h : Alike S t t') (key : String) :
    Option.Rel S (t.value? key) (t'.value? key) := by
  induction h with
  | nil => exact .none
  | @cons e e' rest rest' hfirst _ ih =>
    simp only [value?, hfirst.1]
    split
    · exact .some hfirst.2
    · exact ih

theorem Alike.holds_eq (h : Alike S t t') (key : String) : t'.holds key = t.holds key :=
  isSome_eq_of_rel (h.rel_value? key)

theorem Alike.put (h : Alike S t t') (key : String) {value : β} {value' : γ}
    (hvalue : S value value') : Alike S (t.put key value) (t'.put key value') := by
  induction h with
  | nil => exact .cons ⟨rfl, hvalue⟩ .nil
  | @cons e e' rest rest' hfirst hrest ih =>
    obtain ⟨k, v⟩ := e
    obtain ⟨k', v'⟩ := e'
    obtain ⟨rfl, hv⟩ := hfirst
    simp only [Table.put]
    split
    · exact .cons ⟨rfl, hvalue⟩ hrest
    · exact .cons ⟨rfl, hv⟩ ih

theorem Alike.putNew (h : Alike S t t') (key : String) {value : β} {value' : γ}
    (hvalue : S value value') : Alike S (t.putNew key value) (t'.putNew key value') := by
  unfold Table.putNew
  rw [h.holds_eq]
  split
  · exact h
  · exact List.rel_append h (.cons ⟨rfl, hvalue⟩ .nil)

theorem Alike.putAll (h : Alike S t t') (hu : Alike S u u') :
    Alike S (Table.putAll t u) (Table.putAll t' u') := by
  induction hu generalizing t t' with
  | nil => exact h
  | cons hfirst _ ih =>
    refine ih ?_
    dsimp only
    rw [hfirst.1]
    exact h.put _ hfirst.2

theorem Alike.putAllNew (h : Alike S t t') (hu : Alike S u u') :
    Alike S (Table.putAllNew t u) (Table.putAllNew t' u') := by
  induction hu generalizing t t' with
  | nil => exact h
  | cons hfirst _ ih =>
    refine ih ?_
    dsimp only
    rw [hfirst.1]
    exact h.putNew _ hfirst.2

end Table

def Failure.rewrite (w : String → String) : Failure → Failure
  | .strayChildren name found => .strayChildren name (found.map w)
  | failure => failure

theorem Failure.rewrite_id (failure : Failure) : failure.rewrite id = failure := by
  cases failure <;> simp [rewrite]

namespace Outcome

variable {α β γ δ : Type} {w : String → String} {S : α → β → Prop} {T : γ → δ → Prop}
  {x : Outcome α} {y : Outcome β}

/-- Both come to something, and alike, or both fail for the same reason. -/
inductive Alike (w : String → String) (S : α → β → Prop) (x : Outcome α) (y : Outcome β) : Prop
  | ok {a : α} {b : β} : x.result = .ok a → y.result = .ok b → S a b → Alike w S x y
  | error {failure : Failure} : x.result = .error failure →
      y.result = .error (failure.rewrite w) → Alike w S x y

theorem Alike.pure {a : α} {b : β} (h : S a b) :
    Alike w S (Pure.pure a : Outcome α) (Pure.pure b : Outcome β) := .ok rfl rfl h

theorem Alike.lift {a : Noted α} {b : Noted β} (h : S a.value b.value) :
    Alike w S (liftM a : Outcome α) (liftM b : Outcome β) := .ok rfl rfl h

theorem Alike.of_result {x' : Outcome α} {y' : Outcome β} (h : Alike w S x y)
    (hx : x'.result = x.result) (hy : y'.result = y.result) : Alike w S x' y' := by
  cases h with
  | ok hok hok' hrel => exact .ok (hx.trans hok) (hy.trans hok') hrel
  | error herror herror' => exact .error (hx.trans herror) (hy.trans herror')

theorem Alike.imp {S' : α → β → Prop} (h : Alike w S x y) (himp : ∀ a b, S a b → S' a b) :
    Alike w S' x y := by
  cases h with
  | ok hx hy hrel => exact .ok hx hy (himp _ _ hrel)
  | error hx hy => exact .error hx hy

theorem Alike.bind {f : α → Outcome γ} {f' : β → Outcome δ} (h : Alike w S x y)
    (hf : ∀ a b, S a b → Alike w T (f a) (f' b)) : Alike w T (x >>= f) (y >>= f') := by
  cases h with
  | @ok a b hx hy hrel =>
    cases hf a b hrel with
    | ok hfa hfb hrel' =>
      exact .ok (by rw [result_bind, hx]; exact hfa) (by rw [result_bind, hy]; exact hfb) hrel'
    | error hfa hfb =>
      exact .error (by rw [result_bind, hx]; exact hfa) (by rw [result_bind, hy]; exact hfb)
  | error hx hy => exact .error (by rw [result_bind, hx]) (by rw [result_bind, hy])

theorem Alike.map {f : α → γ} {f' : β → δ} (h : Alike w S x y) (hf : ∀ a b, S a b → T (f a) (f' b)) :
    Alike w T (f <$> x) (f' <$> y) := by
  rw [map_eq_pure_bind, map_eq_pure_bind]
  exact h.bind fun a b hab => .pure (hf a b hab)

theorem Alike.mapM {f : α → Outcome γ} {f' : β → Outcome δ} {l : List α} {l' : List β}
    (h : List.Forall₂ (fun a b => Alike w T (f a) (f' b)) l l') :
    Alike w (List.Forall₂ T) (l.mapM f) (l'.mapM f') := by
  induction h with
  | nil => exact .pure .nil
  | cons hfirst _ ih =>
    simp only [List.mapM_cons]
    exact hfirst.bind fun a b hab => ih.bind fun rest rest' hrest => .pure (.cons hab hrest)

theorem Alike.foldlM {f : γ → α → Outcome γ} {f' : δ → β → Outcome δ} {l : List α} {l' : List β}
    (hl : List.Forall₂ S l l')
    (hstep : ∀ c d a b, T c d → S a b → Alike w T (f c a) (f' d b)) {c : γ} {d : δ} (h : T c d) :
    Alike w T (l.foldlM f c) (l'.foldlM f' d) := by
  induction hl generalizing c d with
  | nil => exact .pure h
  | cons hfirst _ ih =>
    simp only [List.foldlM_cons]
    exact (hstep _ _ _ _ h hfirst).bind fun _ _ => ih

theorem Alike.result_eq {x y : Outcome α} (h : Alike id (fun a b => b = a) x y) :
    y.result = x.result := by
  cases h with
  | ok hx hy hrel => rw [hx, hy, hrel]
  | error hx hy => rw [hx, hy, Failure.rewrite_id]

end Outcome

/-- The same attribute, with its type written otherwise, or with the type that is given to one
that names none. -/
def SameAttribute (w : String → String) (type type' : String) : Prop :=
  type' = w type ∨ type = "xsd:string" ∧ type' = "xsd:string"

namespace Draft

mutual

/-- The same type, with bases and attribute types written otherwise. -/
inductive Alike (w : String → String) : Draft → Draft → Prop
  | primitive (name : String) : Alike w (.primitive name) (.primitive name)
  | reference (key : String) : Alike w (.reference key) (.reference key)
  | object {members members' : List (String × Member Draft)} (space : Option String)
      (qualified : Option Bool) (base : Option String) {attributes attributes' : Table String}
      (extended : Option String) :
      MembersAlike w members members' →
      Table.Alike (SameAttribute w) attributes attributes' →
      Alike w (.object ⟨⟨members, space, qualified, base, attributes⟩, extended⟩)
        (.object ⟨⟨members', space, qualified, base.map w, attributes'⟩, extended⟩)

inductive MembersAlike (w : String → String) :
    List (String × Member Draft) → List (String × Member Draft) → Prop
  | nil : MembersAlike w [] []
  | cons (key : String) {type type' : Draft} (minOccurs maxOccurs : String)
      (qualified : Option Bool) (space : Option String) {rest rest' : List (String × Member Draft)} :
      Alike w type type' → MembersAlike w rest rest' →
      MembersAlike w ((key, ⟨type, minOccurs, maxOccurs, qualified, space⟩) :: rest)
        ((key, ⟨type', minOccurs, maxOccurs, qualified, space⟩) :: rest')

end

variable {w : String → String} {members members' more more' : List (String × Member Draft)}

theorem MembersAlike.append (h : MembersAlike w members members') (h' : MembersAlike w more more') :
    MembersAlike w (members ++ more) (members' ++ more') := by
  induction members generalizing members' with
  | nil =>
    cases h
    exact h'
  | cons e rest ih =>
    cases h with
    | cons key minOccurs maxOccurs qualified space htype hrest =>
      exact .cons key minOccurs maxOccurs qualified space htype (ih hrest)

theorem MembersAlike.flatten {found found' : List (List (String × Member Draft))}
    (h : List.Forall₂ (MembersAlike w) found found') :
    MembersAlike w found.flatten found'.flatten := by
  induction h with
  | nil => exact .nil
  | cons hfirst _ ih => exact hfirst.append ih

end Draft

theorem eq_of_sameAttributes {attributes attributes' : Table String}
    (h : Table.Alike (SameAttribute id) attributes attributes') : attributes' = attributes := by
  induction h with
  | nil => rfl
  | @cons e e' rest rest' hfirst _ ih =>
    obtain ⟨hkey, hvalue⟩ := hfirst
    have hsame : e'.2 = e.2 := hvalue.elim id fun hdefault => hdefault.2.trans hdefault.1.symm
    rw [ih, Prod.ext hkey hsame]

mutual

theorem Draft.Alike.eq_of_id {draft draft' : Draft} (h : draft.Alike id draft') :
    draft' = draft := by
  cases h with
  | primitive name => rfl
  | reference key => rfl
  | object space qualified base extended hmembers hattributes =>
    rw [hmembers.eq_of_id, eq_of_sameAttributes hattributes, Option.map_id, id]

theorem Draft.MembersAlike.eq_of_id {members members' : List (String × Member Draft)}
    (h : Draft.MembersAlike id members members') : members' = members := by
  cases h with
  | nil => rfl
  | cons key minOccurs maxOccurs qualified space htype hrest =>
    rw [htype.eq_of_id, hrest.eq_of_id]

end

namespace Content

open Draft

def contentTags : List String := [
  "sequence", "choice", "all", "element", "attribute", "complexType", "simpleType", "restriction",
  "extension", "simpleContent", "complexContent"]

def plainAttributes : List String := ["name", "minOccurs", "maxOccurs", "form"]

def namingAttributes : List String := ["type", "base", "ref"]

/-- A name, and the way it is written in another scope, where it means the same. -/
structure SameName (w : String → String) (scope scope' : Scope) (name name' : String) : Prop where
  written : name' = w name
  key : (scope'.qualify name').value = (scope.qualify name).value
  localPart : Name.localPart name' = Name.localPart name

def FoundAlike (R : Tree × Scope → Tree × Scope → Prop) (e e' : String × Tree × Scope) : Prop :=
  e'.1 = e.1 ∧ R e.2 e'.2

def ReferredAlike (R : Tree × Scope → Tree × Scope → Prop) (groups groups' : Groups)
    (d d' : Tree × Scope) : Prop :=
  ∀ ref ref', d.1.given? "ref" = some ref → d'.1.given? "ref" = some ref' →
    Option.Rel (FoundAlike R) (groups.find? (d.2.qualify ref).value (Name.localPart ref))
      (groups'.find? (d'.2.qualify ref').value (Name.localPart ref'))

/-- What two nodes have in common, in the scopes in which they are read, where `R` relates their
children. -/
structure Similar (w : String → String) (R : Tree × Scope → Tree × Scope → Prop)
    (groups groups' : Groups) (d d' : Tree × Scope) : Prop where
  target : d'.2.target = d.2.target
  qualified : d'.2.qualified = d.2.qualified
  plain : ∀ name ∈ plainAttributes, d'.1.given? name = d.1.given? name
  naming : ∀ name ∈ namingAttributes,
    Option.Rel (SameName w d.2 d'.2) (d.1.given? name) (d'.1.given? name)
  children : ∀ tag ∈ contentTags,
    List.Forall₂ (fun c c' => R (c, d.2) (c', d'.2)) (d.1.children tag) (d'.1.children tag)
  groups : List.Forall₂ (fun c c' => R (c, d.2) (c', d'.2) ∧
    ReferredAlike R groups groups' (c, d.2) (c', d'.2)) (d.1.children "group") (d'.1.children "group")
  stray : strayKeys d'.1 = (strayKeys d.1).map w

def Simulates (w : String → String) (groups groups' : Groups)
    (R : Tree × Scope → Tree × Scope → Prop) : Prop :=
  ∀ d d', R d d' → Similar w R groups groups' d d'

variable {w : String → String} {R : Tree × Scope → Tree × Scope → Prop} {groups groups' : Groups}
  {depth : Nat} {d d' : Tree × Scope} {scope scope' : Scope} {node node' : Tree}

section

variable (h : Similar w R groups groups' (node, scope) (node', scope'))

include h

theorem Similar.given_eq (name : String) (hname : name ∈ plainAttributes) :
    node'.given? name = node.given? name := h.plain name hname

theorem Similar.rel_given (name : String) (hname : name ∈ namingAttributes) :
    Option.Rel (SameName w scope scope') (node.given? name) (node'.given? name) :=
  h.naming name hname

theorem Similar.rel_element? (tag : String) (htag : tag ∈ contentTags) :
    Option.Rel (fun c c' => R (c, scope) (c', scope')) (node.element? tag) (node'.element? tag) :=
  rel_head? (h.children tag htag)

theorem Similar.givenOccurs_eq (name : String) (hname : name ∈ plainAttributes) :
    givenOccurs node' name = givenOccurs node name := by
  rw [givenOccurs, givenOccurs, h.given_eq name hname]

theorem Similar.isQualified_eq : isQualified scope' node' = isQualified scope node := by
  rw [isQualified, isQualified, h.given_eq "form" (by simp [plainAttributes]), h.qualified]

theorem Similar.rel_derivation :
    Option.Rel (fun c c' => R (c, scope) (c', scope')) (derivation? node) (derivation? node') :=
  rel_or (h.rel_element? "extension" (by simp [contentTags]))
    (h.rel_element? "restriction" (by simp [contentTags]))

theorem Similar.base_eq : node'.given? "base" = (node.given? "base").map w := by
  rcases cases_of_rel (h.rel_given "base" (by simp [namingAttributes])) with
    ⟨hnone, hnone'⟩ | ⟨name, name', hname, hname', hsame⟩
  · rw [hnone, hnone']
    rfl
  · rw [hname, hname', hsame.written]
    rfl

end

theorem SameName.alike_namedType {name name' : String} (h : SameName w scope scope' name name') :
    Alike w (namedType scope name).value (namedType scope' name').value := by
  simp only [namedType, Noted.value_bind, Noted.value_pure, h.key]
  split
  · exact .primitive _
  · exact .reference _

section

variable (hR : Simulates w groups groups' R)

include hR

theorem alike_attributes (h : Similar w R groups groups' (node, scope) (node', scope')) :
    Table.Alike (SameAttribute w) (attributes node) (attributes node') := by
  refine Table.Alike.putAll (t := []) .nil ?_
  refine forall₂_filterMap (h.children "attribute" (by simp [contentTags])) fun c c' hc => ?_
  have hsimilar := hR _ _ hc
  rw [hsimilar.given_eq "name" (by simp [plainAttributes])]
  cases c.given? "name" with
  | none => exact .none
  | some name =>
    refine .some ⟨rfl, ?_⟩
    have hwritten := rel_or (hsimilar.rel_given "type" (by simp [namingAttributes]))
      (hsimilar.rel_given "base" (by simp [namingAttributes]))
    rcases cases_of_rel hwritten with ⟨hnone, hnone'⟩ | ⟨type, type', htype, htype', hsame⟩
    · exact .inr (by simp [hnone, hnone'])
    · exact .inl (by simp [htype, htype', hsame.written])

theorem alike_simpleType (h : Similar w R groups groups' (node, scope) (node', scope')) :
    Alike w (simpleType scope node).value (simpleType scope' node').value := by
  unfold simpleType
  rcases cases_of_rel (h.rel_element? "simpleType" (by simp [contentTags])) with
    ⟨hnone, hnone'⟩ | ⟨simple, simple', hsimple, hsimple', hrel⟩
  · simp only [hnone, hnone']
    exact .primitive _
  · have hbase : Option.Rel (SameName w scope scope')
        ((simple.element? "restriction").bind (·.given? "base"))
        ((simple'.element? "restriction").bind (·.given? "base")) := by
      rcases cases_of_rel ((hR _ _ hrel).rel_element? "restriction" (by simp [contentTags])) with
        ⟨hnone, hnone'⟩ | ⟨restriction, restriction', hfound, hfound', hrel⟩
      · rw [hnone, hnone']
        exact .none
      · rw [hfound, hfound']
        exact (hR _ _ hrel).rel_given "base" (by simp [namingAttributes])
    simp only [hsimple, hsimple']
    rcases cases_of_rel hbase with ⟨hnone, hnone'⟩ | ⟨name, name', hname, hname', hsame⟩
    · simp only [hnone, hnone']
      exact .primitive _
    · simp only [hname, hname']
      exact hsame.alike_namedType

end

theorem extendedType_eq {content content' derivation derivation' : Tree}
    (hcontent : Similar w R groups groups' (content, scope) (content', scope'))
    (h : Similar w R groups groups' (derivation, scope) (derivation', scope')) :
    (extendedType scope' content' derivation').value =
      (extendedType scope content derivation).value := by
  unfold extendedType
  rw [isSome_eq_of_rel (hcontent.rel_element? "extension" (by simp [contentTags]))]
  rcases cases_of_rel (h.rel_given "base" (by simp [namingAttributes])) with
    ⟨hnone, hnone'⟩ | ⟨name, name', hname, hname', hsame⟩
  · simp only [hnone, hnone']
  · simp only [hname, hname']
    cases (content.element? "extension").isSome with
    | false => rfl
    | true => simp only [Noted.value_bind, Noted.value_pure, hsame.key]

structure ReadAlike (w : String → String) (R : Tree × Scope → Tree × Scope → Prop)
    (groups groups' : Groups) (depth : Nat) (d d' : Tree × Scope) : Prop where
  particle : Outcome.Alike w (MembersAlike w) (particle groups depth d.2 d.1)
    (particle groups' depth d'.2 d'.1)
  group : ReferredAlike R groups groups' d d' →
    Outcome.Alike w (MembersAlike w) (group groups depth d.2 d.1) (group groups' depth d'.2 d'.1)
  groupBody : Outcome.Alike w (MembersAlike w) (groupBody groups depth d.2 d.1)
    (groupBody groups' depth d'.2 d'.1)
  element : Outcome.Alike w (MembersAlike w) (element groups depth d.2 d.1)
    (element groups' depth d'.2 d'.1)
  elementType : Outcome.Alike w (Draft.Alike w) (elementType groups depth d.2 d.1)
    (elementType groups' depth d'.2 d'.1)
  complexType : Outcome.Alike w (fun derived derived' => Draft.Alike w (.object derived)
    (.object derived')) (complexType groups depth d.2 d.1) (complexType groups' depth d'.2 d'.1)

abbrev AlikeBelow (w : String → String) (R : Tree × Scope → Tree × Scope → Prop)
    (groups groups' : Groups) (depth : Nat) (weight : Nat) : Prop :=
  ∀ c c' : Tree × Scope, c.1.weight < weight → R c c' → ReadAlike w R groups groups' depth c c'

theorem SameName.alike_referredMember {ref ref' : String}
    (h : SameName w scope scope' ref ref')
    (hnode : Similar w R groups groups' (node, scope) (node', scope')) :
    MembersAlike w [(referredMember scope node ref).value]
      [(referredMember scope' node' ref').value] := by
  have htarget : scope'.target = scope.target := hnode.target
  simp only [referredMember, Noted.value_bind, Noted.value_pure, h.key, h.localPart, htarget,
    hnode.givenOccurs_eq "minOccurs" (by simp [plainAttributes]),
    hnode.givenOccurs_eq "maxOccurs" (by simp [plainAttributes])]
  exact .cons _ _ _ _ _ (.reference _) .nil

theorem alike_plainType (hR : Simulates w groups groups' R)
    (h : Similar w R groups groups' (node, scope) (node', scope'))
    {members members' : List (String × Member Draft)} (hmembers : MembersAlike w members members') :
    Draft.Alike w (.object (plainType scope node members))
      (.object (plainType scope' node' members')) := by
  have htarget : scope'.target = scope.target := h.target
  have hqualified : scope'.qualified = scope.qualified := h.qualified
  simp only [plainType, htarget, hqualified]
  exact .object _ _ none _ hmembers (alike_attributes hR h)

theorem alike_derivedType (hR : Simulates w groups groups' R)
    (h : Similar w R groups groups' (node, scope) (node', scope')) {derivation derivation' : Tree}
    (hderivation : Similar w R groups groups' (derivation, scope) (derivation', scope'))
    {members members' : List (String × Member Draft)} (hmembers : MembersAlike w members members')
    (extended : Option String) :
    Draft.Alike w (.object (derivedType scope node derivation members extended))
      (.object (derivedType scope' node' derivation' members' extended)) := by
  have htarget : scope'.target = scope.target := h.target
  have hqualified : scope'.qualified = scope.qualified := h.qualified
  simp only [derivedType, htarget, hqualified, hderivation.base_eq]
  exact .object _ _ _ _ hmembers ((alike_attributes hR h).putAll (alike_attributes hR hderivation))

section

variable (hR : Simulates w groups groups' R)
  (h : Similar w R groups groups' (node, scope) (node', scope'))
  (ih : AlikeBelow w R groups groups' depth node.weight)

include h ih

theorem children_alike {tag : String} (htag : tag ∈ contentTags) :
    List.Forall₂ (fun c c' => ReadAlike w R groups groups' depth (c, scope) (c', scope'))
      (node.children tag) (node'.children tag) :=
  forall₂_imp_of_mem (h.children tag htag) fun _ hc _ hrel =>
    ih _ _ (Tree.weight_of_mem_children hc) hrel

theorem element?_alike (tag : String) (htag : tag ∈ contentTags) :
    Option.Rel (fun c c' => ReadAlike w R groups groups' depth (c, scope) (c', scope'))
      (node.element? tag) (node'.element? tag) := rel_head? (children_alike h ih htag)

theorem particles_alike :
    List.Forall₂ (fun c c' => ReadAlike w R groups groups' depth (c, scope) (c', scope'))
      (particleTags.flatMap node.children) (particleTags.flatMap node'.children) :=
  forall₂_flatMap_of_tags fun _ htag =>
    children_alike h ih (List.mem_append_left _ htag : _ ∈ particleTags ++ _)

theorem result_groups_alike :
    Outcome.Alike w (List.Forall₂ (MembersAlike w))
      ((node.children "group").mapM (group groups depth scope))
      ((node'.children "group").mapM (group groups' depth scope')) :=
  .mapM <| forall₂_imp_of_mem h.groups fun c hc _ hrel =>
    (ih (c, scope) _ (Tree.weight_of_mem_children hc) hrel.1).group hrel.2

theorem result_elements_alike :
    Outcome.Alike w (List.Forall₂ (MembersAlike w))
      ((node.children "element").mapM (element groups depth scope))
      ((node'.children "element").mapM (element groups' depth scope')) :=
  .mapM <| (children_alike h ih (by simp [contentTags])).imp fun _ _ hrel => hrel.element

theorem particle_alike :
    Outcome.Alike w (MembersAlike w) (particle groups depth scope node)
      (particle groups' depth scope' node') := by
  rw [particle_eq, particle_eq]
  refine Outcome.Alike.bind (.mapM ((particles_alike h ih).imp fun _ _ hrel => hrel.particle))
    fun nested nested' hnested => ?_
  refine (result_groups_alike h ih).bind fun grouped grouped' hgrouped => ?_
  refine (result_elements_alike h ih).bind fun own own' hown => ?_
  exact .pure (((MembersAlike.flatten hnested).append (.flatten hgrouped)).append (.flatten hown))

theorem groupBody_alike :
    Outcome.Alike w (MembersAlike w) (groupBody groups depth scope node)
      (groupBody groups' depth scope' node') := by
  rw [groupBody_eq, groupBody_eq]
  refine (result_elements_alike h ih).bind fun own own' hown => ?_
  have hempty : own'.isEmpty = own.isEmpty := by cases hown <;> rfl
  rw [hempty]
  split
  · exact .pure (.flatten hown)
  · rcases cases_of_rel (rel_head? (particles_alike h ih)) with
      ⟨hnone, hnone'⟩ | ⟨inner, inner', hinner, hinner', hrel⟩
    · simp only [hnone, hnone']
      exact .pure .nil
    · simp only [hinner, hinner']
      exact hrel.particle

include hR

theorem elementType_alike
    (hcomplex : Outcome.Alike w (fun derived derived' => Draft.Alike w (.object derived)
      (.object derived')) (complexType groups depth scope node)
      (complexType groups' depth scope' node')) :
    Outcome.Alike w (Draft.Alike w) (elementType groups depth scope node)
      (elementType groups' depth scope' node') := by
  rw [elementType_eq, elementType_eq]
  rcases cases_of_rel (h.rel_given "type" (by simp [namingAttributes])) with
    ⟨hnone, hnone'⟩ | ⟨name, name', hname, hname', hsame⟩
  · simp only [hnone, hnone']
    rcases cases_of_rel (element?_alike h ih "complexType" (by simp [contentTags])) with
      ⟨hnone, hnone'⟩ | ⟨inner, inner', hinner, hinner', hrel⟩
    · simp only [hnone, hnone',
        isSome_eq_of_rel (h.rel_element? "sequence" (by simp [contentTags]))]
      split
      · exact hcomplex.map fun _ _ hderived => hderived
      · exact .lift (alike_simpleType hR h)
    · simp only [hinner, hinner']
      exact hrel.complexType.map fun _ _ hderived => hderived
  · simp only [hname, hname']
    exact .lift hsame.alike_namedType

omit ih hR

theorem element_alike
    (htype : Outcome.Alike w (Draft.Alike w) (elementType groups depth scope node)
      (elementType groups' depth scope' node')) :
    Outcome.Alike w (MembersAlike w) (element groups depth scope node)
      (element groups' depth scope' node') := by
  rw [element, element]
  rcases cases_of_rel (h.rel_given "ref" (by simp [namingAttributes])) with
    ⟨hnone, hnone'⟩ | ⟨ref, ref', href, href', hsame⟩
  · simp only [hnone, hnone', h.given_eq "name" (by simp [plainAttributes])]
    cases node.given? "name" with
    | none => exact .pure .nil
    | some name =>
      have htarget : scope'.target = scope.target := h.target
      refine htype.bind fun type type' hdraft => .pure ?_
      simp only [h.givenOccurs_eq "minOccurs" (by simp [plainAttributes]),
        h.givenOccurs_eq "maxOccurs" (by simp [plainAttributes]), h.isQualified_eq, htarget]
      exact .cons _ _ _ _ _ hdraft .nil
  · simp only [href, href']
    exact .ok rfl rfl (hsame.alike_referredMember h)

end

theorem group_alike (h : Similar w R groups groups' (node, scope) (node', scope'))
    (hbody : Outcome.Alike w (MembersAlike w) (groupBody groups depth scope node)
      (groupBody groups' depth scope' node'))
    (ih : ∀ less < depth, ∀ found found', R found found' →
      Outcome.Alike w (MembersAlike w) (groupBody groups less found.2 found.1)
        (groupBody groups' less found'.2 found'.1))
    (hreferred : ReferredAlike R groups groups' (node, scope) (node', scope')) :
    Outcome.Alike w (MembersAlike w) (group groups depth scope node)
      (group groups' depth scope' node') := by
  rcases cases_of_rel (h.rel_given "ref" (by simp [namingAttributes])) with
    ⟨hnone, hnone'⟩ | ⟨ref, ref', href, href', _⟩
  · rwa [group_of_refless hnone, group_of_refless hnone']
  · have hresult := @result_group_of_ref groups depth scope node ref href
    have hresult' := @result_group_of_ref groups' depth scope' node' ref' href'
    rcases cases_of_rel (hreferred ref ref' href href') with
      ⟨hnone, hnone'⟩ | ⟨found, found', hfound, hfound', -, hrel⟩
    · rw [referredGroup_of_none hnone] at hresult
      rw [referredGroup_of_none hnone'] at hresult'
      exact .ok hresult hresult' .nil
    · cases depth with
      | zero =>
        rw [referredGroup_zero hfound] at hresult
        rw [referredGroup_zero hfound'] at hresult'
        exact .error hresult hresult'
      | succ depth =>
        rw [referredGroup_succ hfound] at hresult
        rw [referredGroup_succ hfound'] at hresult'
        exact (ih depth (Nat.lt_succ_self _) found.2 found'.2 hrel).of_result hresult hresult'

theorem alike_contentless (hR : Simulates w groups groups' R)
    (h : Similar w R groups groups' (node, scope) (node', scope')) :
    Outcome.Alike w (fun derived derived' => Draft.Alike w (.object derived) (.object derived'))
      (contentless scope node) (contentless scope' node') := by
  have hstray : strayKeys node' = (strayKeys node).map w := h.stray
  unfold contentless
  rw [hstray, h.given_eq "name" (by simp [plainAttributes])]
  cases strayKeys node with
  | nil => exact .pure (alike_plainType hR h .nil)
  | cons key rest => exact .error rfl rfl

section

variable (hR : Simulates w groups groups' R)
  (h : Similar w R groups groups' (node, scope) (node', scope')) {content content' : Tree}
  (hrel : R (content, scope) (content', scope')) (hweight : content.weight < node.weight)
  (ih : AlikeBelow w R groups groups' depth node.weight)

include hR h hrel hweight ih

theorem simpleContent_alike :
    Outcome.Alike w (fun derived derived' => Draft.Alike w (.object derived) (.object derived'))
      (simpleContent groups depth scope node content)
      (simpleContent groups' depth scope' node' content') := by
  unfold simpleContent
  rcases cases_of_rel (hR _ _ hrel).rel_derivation with
    ⟨hnone, hnone'⟩ | ⟨derivation, derivation', hfound, hfound', hderivation⟩
  · simp only [hnone, hnone']
    exact .pure (alike_plainType hR h .nil)
  · have hsimilar := hR _ _ hderivation
    have hlt := Nat.lt_trans (weight_derivation hfound) hweight
    simp only [hfound, hfound']
    refine Outcome.Alike.bind (S := MembersAlike w) ?_ fun members members' hmembers =>
      .pure (alike_derivedType hR h hsimilar hmembers none)
    unfold simpleMembers
    rcases cases_of_rel (element?_alike hsimilar (fun c c' hc => ih c c' (Nat.lt_trans hc hlt))
      "sequence" (by simp [contentTags])) with
        ⟨hnone, hnone'⟩ | ⟨inner, inner', hinner, hinner', hread⟩
    · simp only [hnone, hnone']
      exact .pure .nil
    · simp only [hinner, hinner']
      exact hread.particle

theorem complexContent_alike :
    Outcome.Alike w (fun derived derived' => Draft.Alike w (.object derived) (.object derived'))
      (complexContent groups depth scope node content)
      (complexContent groups' depth scope' node' content') := by
  unfold complexContent
  rcases cases_of_rel (hR _ _ hrel).rel_derivation with
    ⟨hnone, hnone'⟩ | ⟨derivation, derivation', hfound, hfound', hderivation⟩
  · simp only [hnone, hnone']
    exact .pure (alike_plainType hR h .nil)
  · have hsimilar := hR _ _ hderivation
    have hbelow : AlikeBelow w R groups groups' depth derivation.weight := fun c c' hc =>
      ih c c' (Nat.lt_trans hc (Nat.lt_trans (weight_derivation hfound) hweight))
    simp only [hfound, hfound']
    refine Outcome.Alike.bind (S := fun extended extended' => extended' = extended)
      (.lift (extendedType_eq (hR _ _ hrel) hsimilar)) fun extended extended' hextended => ?_
    refine Outcome.Alike.bind (.mapM ((particles_alike hsimilar hbelow).imp
      fun _ _ hread => hread.particle)) fun nested nested' hnested => ?_
    refine (result_groups_alike hsimilar hbelow).bind fun grouped grouped' hgrouped => .pure ?_
    rw [hextended]
    exact alike_derivedType hR h hsimilar
      ((MembersAlike.flatten hnested).append (.flatten hgrouped)) extended

omit hrel hweight

theorem complexType_alike :
    Outcome.Alike w (fun derived derived' => Draft.Alike w (.object derived) (.object derived'))
      (complexType groups depth scope node) (complexType groups' depth scope' node') := by
  rw [complexType_eq, complexType_eq]
  have hparticle : List.Forall₂
      (fun c c' => ReadAlike w R groups groups' depth (c, scope) (c', scope'))
      (particleTags.filterMap node.element?) (particleTags.filterMap node'.element?) :=
    forall₂_filterMap_of_tags fun tag htag =>
      element?_alike h ih tag (List.mem_append_left _ htag : tag ∈ particleTags ++ _)
  have hgroup := rel_head? (forall₂_imp_of_mem h.groups fun c hc c' hrel =>
    (ih (c, scope) (c', scope') (Tree.weight_of_mem_children hc) hrel.1).group hrel.2)
  rcases cases_of_rel (rel_head? hparticle) with
    ⟨hnone, hnone'⟩ | ⟨inner, inner', hinner, hinner', hread⟩
  · simp only [hnone, hnone']
    rcases cases_of_rel hgroup with
      ⟨hnone, hnone'⟩ | ⟨inner, inner', hinner, hinner', hread⟩
    · simp only [Tree.element?, hnone, hnone']
      rcases cases_of_rel (h.rel_element? "simpleContent" (by simp [contentTags])) with
        ⟨hnone, hnone'⟩ | ⟨content, content', hcontent, hcontent', hrel⟩
      · simp only [Tree.element?] at hnone hnone'
        simp only [hnone, hnone']
        rcases cases_of_rel (h.rel_element? "complexContent" (by simp [contentTags])) with
          ⟨hnone, hnone'⟩ | ⟨content, content', hcontent, hcontent', hrel⟩
        · simp only [Tree.element?] at hnone hnone'
          simp only [hnone, hnone']
          exact alike_contentless hR h
        · have hweight := Tree.weight_of_element? hcontent
          simp only [Tree.element?] at hcontent hcontent'
          simp only [hcontent, hcontent']
          exact complexContent_alike hR h hrel hweight ih
      · have hweight := Tree.weight_of_element? hcontent
        simp only [Tree.element?] at hcontent hcontent'
        simp only [hcontent, hcontent']
        exact simpleContent_alike hR h hrel hweight ih
    · simp only [Tree.element?, hinner, hinner']
      exact hread.map fun _ _ hmembers => alike_plainType hR h hmembers
  · simp only [hinner, hinner']
    exact hread.particle.map fun _ _ hmembers => alike_plainType hR h hmembers

end

theorem readAlike (hR : Simulates w groups groups' R) (depth : Nat) (d d' : Tree × Scope)
    (hrel : R d d') : ReadAlike w R groups groups' depth d d' := by
  -- the induction is on pairs of nodes, by the first of the two
  refine induction_on_size (M := fun depth (pair : (Tree × Scope) × (Tree × Scope)) =>
    R pair.1 pair.2 → ReadAlike w R groups groups' depth pair.1 pair.2)
    (fun pair => pair.1.1.weight) ?_ depth (d, d') hrel
  rintro depth ⟨d, d'⟩ ih ihdefinition hrel
  have hbelow : AlikeBelow w R groups groups' depth d.1.weight := fun c c' hlt =>
    ih (c, c') hlt
  have hsimilar := hR d d' hrel
  have hbody := groupBody_alike hsimilar hbelow
  have hcomplex := complexType_alike hR hsimilar hbelow
  have htype := elementType_alike hR hsimilar hbelow hcomplex
  exact {
    particle := particle_alike hsimilar hbelow
    group := group_alike hsimilar hbody fun less hless found found' hfound =>
      (ihdefinition less hless (found, found') hfound).groupBody
    groupBody := hbody
    element := element_alike hsimilar htype
    elementType := htype
    complexType := hcomplex }

theorem result_complexType_eq (hR : Simulates id groups groups' R) (depth : Nat)
    (hrel : R d d') : (complexType groups' depth d'.2 d'.1).result =
      (complexType groups depth d.2 d.1).result :=
  ((readAlike hR depth d d' hrel).complexType.imp fun _ _ h =>
    Draft.object.inj h.eq_of_id).result_eq

end Content

end SoapComponents
