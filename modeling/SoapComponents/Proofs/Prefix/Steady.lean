import SoapComponents.Proofs.Prefix.Runs

/-!
Prefixes that do not depend on the order in which they are asked for. Where the first digests of
some namespaces are all different and none is reserved, each namespace gets the prefix that it
would get if it were the only one. A computation that asks for no others then comes to the same
after any other such computations.
-/

set_option autoImplicit false

namespace SoapComponents

open Prefix

namespace Prefixes

/-- The prefix of a namespace when no other has one. Where no digest may be tried, the first one
is numbered. -/
def alone (policy : Policy) (space : String) : String :=
  hashed policy space 0 ++ if policy.attempts = 0 then toString 2 else ""

/-- No two of these namespaces have the same first digest, and none of the digests is reserved. -/
structure Apart (policy : Policy) (spaces : List String) : Prop where
  distinct : ∀ s ∈ spaces, ∀ t ∈ spaces, hashed policy s 0 = hashed policy t 0 → s = t
  free : ∀ s ∈ spaces, hashed policy s 0 ∉ reserved

/-- Only these namespaces have prefixes, and each has the one that it would have alone. -/
structure Steady (policy : Policy) (spaces : List String) (p : Prefixes) : Prop where
  sound : p.Sound
  owner : ∀ {r space}, p.byPrefix.value? r = some space →
    space ∈ spaces ∧ r = alone policy space

variable {policy : Policy} {spaces : List String} {p q : Prefixes} {space : String}

theorem steady_empty (policy : Policy) (spaces : List String) : Steady policy spaces {} :=
  ⟨sound_of_unasked [], by simp [Table.value?]⟩

theorem alone_injective {other : String} (h : alone policy space = alone policy other) :
    hashed policy space 0 = hashed policy other 0 :=
  (String.append_left_inj _).1 h

theorem digit_not_reserved : ∀ word ∈ reserved, '2' ∉ word.toList := by decide

theorem alone_not_reserved (h : Apart policy spaces) (hs : space ∈ spaces) :
    alone policy space ∉ reserved := by
  unfold alone
  split
  · intro hr
    have hdigit : '2' ∈ (toString 2).toList := by decide
    refine digit_not_reserved _ hr ?_
    rw [String.toList_append]
    exact List.mem_append_right _ hdigit
  · rw [String.append_empty]
    exact h.free space hs

theorem alone_available (h : Apart policy spaces) (hp : p.Steady policy spaces)
    (hs : space ∈ spaces) : p.isAvailable (alone policy space) space = true := by
  refine isAvailable_eq_true.2 ⟨alone_not_reserved h hs, fun owner ho => ?_⟩
  obtain ⟨hmem, heq⟩ := hp.owner ho
  exact (h.distinct space hs owner hmem (alone_injective heq)).symm

theorem Chosen.eq_alone {found : String} (hc : p.Chosen policy space found)
    (hfree : p.isAvailable (alone policy space) space = true) : found = alone policy space := by
  unfold alone at hfree ⊢
  cases hc with
  | hashed seed lt available earlier =>
    rw [if_neg (Nat.ne_zero_of_lt lt), String.append_empty] at hfree ⊢
    cases seed with
    | zero => rfl
    | succ seed => simp [earlier 0 (Nat.zero_lt_succ seed)] at hfree
  | numbered n exhausted least =>
    by_cases hz : policy.attempts = 0
    · rw [if_pos hz] at hfree ⊢
      rcases Nat.lt_or_eq_of_le least.two_le with hlt | rfl
      · rw [least.earlier 2 (Nat.le_refl 2) hlt] at hfree
        cases hfree
      · rfl
    · rw [if_neg hz, String.append_empty] at hfree
      simp [exhausted 0 (Nat.pos_of_ne_zero hz)] at hfree

theorem prefixFor_alone (h : Apart policy spaces) (hp : p.Steady policy spaces)
    (hs : space ∈ spaces) :
    (p.prefixFor policy space).value.1 = alone policy space ∧
      (p.prefixFor policy space).value.2.Steady policy spaces := by
  rcases p.prefixFor_cases policy space with ⟨found, hf, heq⟩ | ⟨found, hnew, hc, heq⟩
  · rw [heq]
    exact ⟨(hp.owner (hp.sound.back hf)).2, hp⟩
  · have hfound := hc.eq_alone (alone_available h hp hs)
    rw [heq]
    refine ⟨hfound, bind_sound hp.sound hnew hc, fun {r s} hr => ?_⟩
    simp only [bind, Table.value?_put] at hr
    split at hr
    · next hrf =>
      obtain rfl := Option.some.inj hr
      exact ⟨hs, hrf.trans hfound⟩
    · exact hp.owner hr

/-- `q` has all prefixes of `p`, and perhaps more. In both each namespace has the prefix that it
would have alone. -/
structure Later (policy : Policy) (spaces : List String) (p q : Prefixes) : Prop where
  before : p.Steady policy spaces
  after : q.Steady policy spaces
  ext : p.Extends q

theorem Steady.later (h : p.Steady policy spaces) : Later policy spaces p p := ⟨h, h, .refl p⟩

theorem Later.trans {r : Prefixes} (hpq : Later policy spaces p q)
    (hqr : Later policy spaces q r) : Later policy spaces p r :=
  ⟨hpq.before, hqr.after, hpq.ext.trans hqr.ext⟩

theorem Later.prefixFor (h : Apart policy spaces) (hpq : Later policy spaces p q)
    (hs : space ∈ spaces) :
    (q.prefixFor policy space).value.1 = (p.prefixFor policy space).value.1 ∧
      Later policy spaces (p.prefixFor policy space).value.2
        (q.prefixFor policy space).value.2 := by
  obtain ⟨hfound, hsteady⟩ := prefixFor_alone h hpq.before hs
  obtain ⟨hfound', hsteady'⟩ := prefixFor_alone h hpq.after hs
  obtain ⟨hsound', hext', hbound'⟩ := prefixFor_spec hpq.after.sound policy space
  have hsame := hfound'.trans hfound.symm
  refine ⟨hsame, hsteady, hsteady', ?_⟩
  rcases p.prefixFor_cases policy space with ⟨found, hf, heq⟩ | ⟨found, hnew, hc, heq⟩
  · rw [heq]
    exact hpq.ext.trans hext'
  · -- what `p` has just bound is bound by now in the other run too
    rw [heq] at hsame ⊢
    rw [hsame] at hbound'
    refine ⟨fun {s r} hr => ?_, fun {r s} hr => ?_⟩
    · simp only [bind, Table.value?_put] at hr
      split at hr
      · next hsp =>
        obtain rfl := Option.some.inj hr
        rw [hsp]
        exact hbound'
      · exact hext'.bySpace (hpq.ext.bySpace hr)
    · simp only [bind, Table.value?_put] at hr
      split at hr
      · next hrf =>
        obtain rfl := Option.some.inj hr
        rw [hrf]
        exact hsound'.back hbound'
      · exact hext'.byPrefix (hpq.ext.byPrefix hr)

end Prefixes

open Prefixes

variable {α β : Type} {policy : Policy} {spaces : List String} {p q : Prefixes}

/-- A computation that comes to the same at both moments, and leaves them as two such moments. -/
structure Assigning.Stable (policy : Policy) (spaces : List String) (x : Assigning α)
    (p q : Prefixes) : Prop where
  same : x.result q = x.result p
  later : Later policy spaces (x.after p) (x.after q)

structure Naming.Stable (policy : Policy) (spaces : List String) (x : Naming α)
    (p q : Prefixes) : Prop where
  same : x.result q = x.result p
  later : Later policy spaces (x.after p) (x.after q)

namespace Assigning

theorem Stable.of_silent {x : Assigning α} (h : Later policy spaces p q) (hp : x.after p = p)
    (hq : x.after q = q) (hsame : x.result q = x.result p) : x.Stable policy spaces p q :=
  ⟨hsame, by rw [hp, hq]; exact h⟩

theorem Stable.bind {x : Assigning α} {f : α → Assigning β} (hx : x.Stable policy spaces p q)
    (hf : (f (x.result p)).Stable policy spaces (x.after p) (x.after q)) :
    (x >>= f).Stable policy spaces p q := by
  constructor
  · rw [result_bind, result_bind, hx.same]
    exact hf.same
  · rw [after_bind, after_bind, hx.same]
    exact hf.later

theorem Stable.lift {x : Assigning α} (h : x.Stable policy spaces p q) :
    Naming.Stable policy spaces (liftM x : Naming α) p q :=
  ⟨congrArg Except.ok h.same, h.later⟩

theorem prefixFor_stable (h : Apart policy spaces) (hpq : Later policy spaces p q)
    {space : String} (hs : space ∈ spaces) :
    (prefixFor policy space).Stable policy spaces p q :=
  ⟨(hpq.prefixFor h hs).1, (hpq.prefixFor h hs).2⟩

end Assigning

namespace Naming

theorem Stable.of_silent {x : Naming α} (h : Later policy spaces p q) (hp : x.after p = p)
    (hq : x.after q = q) (hsame : x.result q = x.result p) : x.Stable policy spaces p q :=
  ⟨hsame, by rw [hp, hq]; exact h⟩

theorem Stable.liftExcept {x : Naming α} (h : x.Stable policy spaces p q) :
    Stable policy spaces (ExceptT.lift (ExceptT.run x)) p q :=
  ⟨congrArg Except.ok h.same, h.later⟩

theorem Stable.bind {x : Naming α} {f : α → Naming β} (hx : x.Stable policy spaces p q)
    (hf : ∀ a, x.result p = .ok a → (f a).Stable policy spaces (x.after p) (x.after q)) :
    (x >>= f).Stable policy spaces p q := by
  have hsame := hx.same
  cases hr : x.result p with
  | error failure =>
    rw [hr] at hsame
    exact ⟨by rw [result_bind, result_bind, hsame, hr],
      by rw [after_bind, after_bind, hsame, hr]; exact hx.later⟩
  | ok a =>
    rw [hr] at hsame
    have hnext := hf a hr
    exact ⟨by rw [result_bind, result_bind, hsame, hr]; exact hnext.same,
      by rw [after_bind, after_bind, hsame, hr]; exact hnext.later⟩

end Naming

end SoapComponents
