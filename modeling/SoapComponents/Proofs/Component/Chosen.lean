import SoapComponents.Proofs.Component.Bindings
import SoapComponents.Proofs.Prefix.Usable

/-!
Where the prefixes of components come from. Whatever an assembler does, every prefix that is bound
after it was bound before or is one that its policy chooses for the namespace.
-/

set_option autoImplicit false

namespace SoapComponents

open Prefix

variable {policy : Policy} {α β : Type}

def Prefixes.Grown (policy : Policy) (p q : Prefixes) : Prop :=
  ∀ space found, q.bySpace.value? space = some found →
    p.bySpace.value? space = some found ∨ ∃ r : Prefixes, r.Chosen policy space found

namespace Prefixes.Grown

variable {p q r : Prefixes}

theorem refl (p : Prefixes) : p.Grown policy p := fun _ _ => .inl

theorem trans (hpq : p.Grown policy q) (hqr : q.Grown policy r) : p.Grown policy r := by
  intro space found h
  rcases hqr space found h with h | h
  · exact hpq space found h
  · exact .inr h

theorem prefixFor (p : Prefixes) (policy : Policy) (space : String) :
    p.Grown policy (p.prefixFor policy space).value.2 := by
  intro other found h
  rcases p.prefixFor_cases policy space with ⟨_, _, heq⟩ | ⟨chosen, _, hchosen, heq⟩
  · rw [heq] at h
    exact .inl h
  · simp only [heq, Prefixes.bind, Table.value?_put] at h
    split at h
    · next hspace =>
      subst hspace
      obtain rfl := Option.some.inj h
      exact .inr ⟨p, hchosen⟩
    · exact .inl h

end Prefixes.Grown

namespace Assigning

def Keeps (policy : Policy) (x : Assigning α) : Prop := ∀ p : Prefixes, p.Grown policy (x.after p)

theorem Keeps.of_after_eq {x : Assigning α} (h : ∀ p, x.after p = p) : x.Keeps policy := by
  intro p
  rw [h]
  exact .refl p

theorem Keeps.bind {x : Assigning α} {f : α → Assigning β} (hx : x.Keeps policy)
    (hf : ∀ a, (f a).Keeps policy) : (x >>= f).Keeps policy := by
  intro p
  rw [after_bind]
  exact (hx p).trans (hf _ _)

theorem Keeps.prefixFor (space : String) : (Assigning.prefixFor policy space).Keeps policy :=
  fun p => Prefixes.Grown.prefixFor p policy space

theorem Keeps.foldlM {f : β → α → Assigning β} (hf : ∀ b a, (f b a).Keeps policy) (l : List α)
    (b : β) : (l.foldlM f b).Keeps policy := by
  induction l generalizing b with
  | nil => exact .of_after_eq fun _ => rfl
  | cons a rest ih => exact .bind (hf b a) ih

end Assigning

namespace Naming

def Keeps (policy : Policy) (x : Naming α) : Prop := ∀ p : Prefixes, p.Grown policy (x.after p)

theorem Keeps.of_after_eq {x : Naming α} (h : ∀ p, x.after p = p) : x.Keeps policy := by
  intro p
  rw [h]
  exact .refl p

theorem Keeps.of_assigning {x : Assigning α} (h : x.Keeps policy) :
    (liftM x : Naming α).Keeps policy := h

theorem Keeps.bind {x : Naming α} {f : α → Naming β} (hx : x.Keeps policy)
    (hf : ∀ a, (f a).Keeps policy) : (x >>= f).Keeps policy := by
  intro p
  rw [after_bind]
  cases x.result p with
  | error failure => exact hx p
  | ok a => exact (hx p).trans (hf a _)

theorem Keeps.foldlM {f : β → α → Naming β} (hf : ∀ b a, (f b a).Keeps policy) (l : List α)
    (b : β) : (l.foldlM f b).Keeps policy := by
  induction l generalizing b with
  | nil => exact .of_after_eq fun _ => rfl
  | cons a rest ih => exact .bind (hf b a) ih

end Naming

theorem BodyPlan.write_keeps (b : BodyPlan) (root : Root) (propsField : Option String) :
    (b.write root propsField).Keeps b.policy := by
  have hvisit : ∀ u site, (b.visit u site).Keeps b.policy := by
    intro u site
    unfold visit
    split
    · next source _ =>
      have hassign : (source.assign b.policy).Keeps b.policy := by
        cases source with
        | ofSpace space => exact .prefixFor space
        | known r => exact .of_after_eq fun _ => rfl
      exact .bind hassign fun r => .of_after_eq fun _ => rfl
    · exact .of_after_eq fun _ => rfl
  have hvisited : (b.visited root propsField).Keeps b.policy :=
    .bind (.of_after_eq fun _ => rfl) fun u => .foldlM hvisit _ u
  exact hvisited

namespace NamespaceMap

theorem ofRoot_keeps (c : Catalog) (policy : Policy) (name : String) (root : Root) :
    (ofRoot c policy name root).Keeps policy := by
  have hdeclare : ∀ m tag, (declare policy m tag).Keeps policy := by
    intro m tag
    refine .bind (.of_assigning (.prefixFor tag.space)) fun r => ?_
    dsimp only
    split
    · split <;> exact .of_after_eq fun _ => rfl
    · exact .of_after_eq fun _ => rfl
  have hdeclared : (declared c policy name root).Keeps policy := by
    unfold declared
    split
    · exact .of_after_eq fun _ => rfl
    · next space _ =>
      exact .bind (.of_assigning (.prefixFor space)) fun base => .foldlM hdeclare _ _
  refine .bind hdeclared fun m => .bind ?_ fun u => ?_
  · exact (m.plan c policy name).write_keeps root none
  · refine .bind (.of_after_eq fun _ => rfl) fun _ => .bind (.of_after_eq fun _ => rfl) fun p => ?_
    split <;> exact .of_after_eq fun _ => rfl

end NamespaceMap

namespace Assembler

variable {a : Assembler}

theorem headerRoot_keeps (a : Assembler) (header : Header) :
    (a.headerRoot header).Keeps a.policy := by
  refine .bind (.of_after_eq fun _ => rfl) fun found => .bind ?_ fun m => .of_after_eq fun _ => rfl
  exact NamespaceMap.ofRoot_keeps a.catalog a.policy found.key found.root

theorem addHeader_keeps (a : Assembler) (space : HeaderSpace) (header : Header) :
    (a.addHeader space header).Keeps a.policy := by
  refine .bind (fun p => a.headerRoot_keeps header p) fun made => ?_
  split
  · next found namespaces =>
    exact (namespaces.plan a.catalog a.policy found.key).write_keeps found.root _
  · split <;> exact .of_after_eq fun _ => rfl

theorem assembleOnce_keeps (a : Assembler) (op : Operation) :
    (a.assembleOnce op).Keeps a.policy := by
  have hfrom : ∀ request, (a.assembleFrom op request).Keeps a.policy := by
    intro request
    refine .bind (.of_after_eq fun _ => rfl) fun headers => ?_
    refine .bind (.of_after_eq fun _ => rfl) fun response => ?_
    refine .bind (NamespaceMap.ofRoot_keeps _ _ _ _) fun own => ?_
    refine .bind (.of_after_eq fun _ => rfl) fun reachable => ?_
    refine .bind (.of_after_eq fun _ => rfl) fun shapes => ?_
    refine .bind (.foldlM a.addHeader_keeps _ _) fun last => ?_
    refine .bind ?_ fun body => .of_after_eq fun _ => rfl
    exact (last.namespaces.plan a.catalog a.policy request.key).write_keeps request.root none
  intro p
  rw [after_assembleOnce]
  have hassemble : (a.assemble op).Keeps a.policy :=
    .bind (.of_after_eq fun _ => rfl) fun _ => .bind (.of_after_eq fun _ => rfl) hfrom
  exact hassemble p

theorem assembleAll_keeps (a : Assembler) (ops : List Operation) :
    (a.assembleAll ops).Keeps a.policy := by
  induction ops with
  | nil => exact .of_after_eq fun _ => rfl
  | cons op rest ih =>
    intro p
    rw [after_assembleAll_cons]
    exact (a.assembleOnce_keeps op p).trans (ih _)

theorem isPlainName_of_assembleAll (a : Assembler) (taken : Table String)
    (calls : List (Policy × String)) (ops : List Operation) (hpolicy : 1 ≤ a.policy.stemLength)
    (hcalls : ∀ call ∈ calls, 1 ≤ call.1.stemLength) {space found : String}
    (h : ((a.assembleAll ops).after
      ((Assigning.prefixesFor calls).after ⟨[], taken⟩)).bySpace.value? space = some found) :
    IsPlainName found := by
  rcases a.assembleAll_keeps ops _ space found h with hearlier | ⟨p, hchosen⟩
  · obtain ⟨call, hcall, -, p, hchosen⟩ :=
      (Assigning.exists_chosen calls hearlier).resolve_left nofun
    exact hchosen.isPlainName (hcalls call hcall)
  · exact hchosen.isPlainName hpolicy

end Assembler

end SoapComponents
