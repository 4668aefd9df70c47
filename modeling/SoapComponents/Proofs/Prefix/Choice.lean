import SoapComponents.Prefix.Assignment

/-!
The choice of a prefix for a new namespace: the first digest that gives an available prefix, or
else the least number from two on that does. Such a number exists, because numbered prefixes are
all different and only finitely many prefixes are taken or reserved.
-/

set_option autoImplicit false

namespace SoapComponents.Prefixes

open Prefix Digest Text

structure LeastNumber (p : Prefixes) (base space : String) (n : Nat) : Prop where
  two_le : 2 ≤ n
  available : p.isAvailable (base ++ toString n) space = true
  earlier : ∀ k, 2 ≤ k → k < n → p.isAvailable (base ++ toString k) space = false

/-- The prefixes that a namespace without one can get. There is only one for each state. -/
inductive Chosen (p : Prefixes) (policy : Policy) (space : String) : String → Prop where
  | hashed (seed : Nat) (lt : seed < policy.attempts)
      (available : p.isAvailable (hashed policy space seed) space = true)
      (earlier : ∀ k < seed, p.isAvailable (hashed policy space k) space = false) :
      Chosen p policy space (hashed policy space seed)
  | numbered (n : Nat)
      (exhausted : ∀ k < policy.attempts, p.isAvailable (hashed policy space k) space = false)
      (least : p.LeastNumber (hashed policy space 0) space n) :
      Chosen p policy space (hashed policy space 0 ++ toString n)

theorem isAvailable_eq_true {p : Prefixes} {candidate space : String} :
    p.isAvailable candidate space = true ↔
      candidate ∉ reserved ∧ ∀ owner, p.byPrefix.value? candidate = some owner → owner = space := by
  unfold isAvailable
  cases h : p.byPrefix.value? candidate <;> simp

theorem mem_of_not_available {p : Prefixes} {candidate space : String}
    (h : p.isAvailable candidate space = false) :
    candidate ∈ reserved ++ p.byPrefix.keys := by
  apply Classical.byContradiction
  intro hn
  simp only [List.mem_append, not_or] at hn
  have hfree : p.isAvailable candidate space = true := by
    refine isAvailable_eq_true.2 ⟨hn.1, ?_⟩
    intro owner ho
    exact absurd (Table.mem_keys_of_value? ho) hn.2
  simp [h] at hfree

theorem Chosen.available {p : Prefixes} {policy : Policy} {space found : String}
    (h : p.Chosen policy space found) : p.isAvailable found space = true := by
  cases h with
  | hashed seed lt available earlier => exact available
  | numbered n exhausted least => exact least.available

theorem toString_injective {m n : Nat} (h : toString m = toString n) : m = n := by
  have hd : Nat.toDigits 10 m = Nat.toDigits 10 n := by
    have hl := congrArg String.toList h
    simpa [Nat.toString_eq_ofList_toDigits] using hl
  have hm := Nat.ofDigitChars_ten_toDigits (n := m)
  rw [hd, Nat.ofDigitChars_ten_toDigits] at hm
  exact hm.symm

theorem nodup_candidates (base : String) (count : Nat) :
    ((List.range count).map fun i => base ++ toString (i + 2)).Nodup := by
  refine List.Pairwise.map _ ?_ List.nodup_range
  intro i j hij heq
  have hs := toString_injective ((String.append_right_inj base).1 heq)
  omega

/-- The search meets an available prefix before it has gone through more numbers than there are
prefixes that are taken or reserved. -/
theorem exists_number (p : Prefixes) (base space : String) :
    ∃ i < p.byPrefix.length + reserved.length + 1,
      p.isAvailable (base ++ toString (i + 2)) space = true := by
  apply Classical.byContradiction
  intro hn
  have htaken : ((List.range (p.byPrefix.length + reserved.length + 1)).map
      fun i => base ++ toString (i + 2)) ⊆ reserved ++ p.byPrefix.keys := by
    intro candidate hc
    obtain ⟨i, hi, rfl⟩ := List.mem_map.1 hc
    have hf : p.isAvailable (base ++ toString (i + 2)) space = false :=
      Bool.eq_false_iff.2 fun hfree => hn ⟨i, List.mem_range.1 hi, hfree⟩
    exact mem_of_not_available hf
  have hle := (nodup_candidates base _).length_le_of_subset htaken
  simp only [List.length_map, List.length_range, List.length_append, Table.keys] at hle
  omega

theorem numbered_least (p : Prefixes) (policy : Policy) (space : String) :
    ∃ n, p.numbered policy space = hashed policy space 0 ++ toString n ∧
      p.LeastNumber (hashed policy space 0) space n := by
  obtain ⟨i, hi, hfree⟩ := p.exists_number (hashed policy space 0) space
  unfold numbered
  simp only [List.find?_map]
  cases hf : (List.range (p.byPrefix.length + reserved.length + 1)).find?
      ((p.isAvailable · space) ∘ fun i => hashed policy space 0 ++ toString (i + 2)) with
  | none =>
    have hno := List.find?_eq_none.1 hf i (List.mem_range.2 hi)
    exact absurd hfree hno
  | some j =>
    obtain ⟨hj, hrange, hbefore⟩ := List.find?_range_eq_some.1 hf
    refine ⟨j + 2, rfl, ⟨by omega, hj, ?_⟩⟩
    intro k hk hlt
    have hb := hbefore (k - 2) (by omega)
    have heq : k - 2 + 2 = k := by omega
    simpa only [Function.comp_apply, heq, Bool.not_eq_true'] using hb

theorem tryHashed_some {p : Prefixes} {policy : Policy} {space found : String} {left seed : Nat}
    (h : (p.tryHashed policy space left seed).value = some found) :
    ∃ k, seed ≤ k ∧ k < seed + left ∧ found = hashed policy space k ∧
      p.isAvailable found space = true ∧
      ∀ j, seed ≤ j → j < k → p.isAvailable (hashed policy space j) space = false := by
  induction left generalizing seed with
  | zero => simp [tryHashed] at h
  | succ left ih =>
    simp only [tryHashed] at h
    split at h
    · next hfree =>
      obtain rfl := Option.some.inj h
      exact ⟨seed, Nat.le_refl _, by omega, rfl, hfree, by omega⟩
    · next htaken =>
      obtain ⟨k, hle, hlt, heq, hfree, hearlier⟩ := ih h
      refine ⟨k, by omega, by omega, heq, hfree, ?_⟩
      intro j hj hjk
      by_cases hs : j = seed
      · subst j
        exact Bool.eq_false_iff.2 htaken
      · exact hearlier j (by omega) hjk

theorem tryHashed_none {p : Prefixes} {policy : Policy} {space : String} {left seed : Nat}
    (h : (p.tryHashed policy space left seed).value = none) :
    ∀ k, seed ≤ k → k < seed + left → p.isAvailable (hashed policy space k) space = false := by
  induction left generalizing seed with
  | zero =>
    intro k hle hlt
    omega
  | succ left ih =>
    simp only [tryHashed] at h
    split at h
    · simp at h
    · next htaken =>
      intro k hle hlt
      by_cases hs : k = seed
      · subst k
        exact Bool.eq_false_iff.2 htaken
      · exact ih h k (by omega) (by omega)

theorem choose_chosen (p : Prefixes) (policy : Policy) (space : String) :
    p.Chosen policy space (p.choose policy space).value := by
  unfold choose
  simp only [Noted.value_bind]
  split
  · next found hf =>
    obtain ⟨k, _, hlt, rfl, hfree, hearlier⟩ := tryHashed_some hf
    exact .hashed k (by omega) hfree fun j hj => hearlier j (Nat.zero_le _) hj
  · next hf =>
    obtain ⟨n, heq, hleast⟩ := p.numbered_least policy space
    simp only [Noted.value_bind, Noted.value_pure, heq]
    exact .numbered n (fun k hk => tryHashed_none hf k (Nat.zero_le _) (by omega)) hleast

theorem isStemChar_base36Digit : ∀ n < 36, isStemChar (base36Digit n) = true := by decide

theorem isStemChar_base36 {width n : Nat} {c : Char} (h : c ∈ base36 width n) :
    isStemChar c = true := by
  induction width generalizing n with
  | zero => simp [base36] at h
  | succ width ih =>
    simp only [base36, List.mem_append, List.mem_singleton] at h
    rcases h with h | rfl
    · exact ih h
    · exact isStemChar_base36Digit _ (Nat.mod_lt _ (by decide))

theorem isStemChar_stem {space : String} {length : Nat} {c : Char} (h : c ∈ stem space length) :
    isStemChar c = true := by
  have hn : isStemChar 'n' = true := by decide
  have hcs : ∀ d ∈ ((lowerFrom [] (lastSegment space)).filter isStemChar).take length,
      isStemChar d = true := fun d hd => (List.mem_filter.1 (List.mem_of_mem_take hd)).2
  simp only [stem] at h
  split at h
  · next first rest hfirst =>
    split at h
    · rcases List.mem_cons.1 (List.mem_of_mem_take h) with rfl | hm
      · exact hn
      · exact hcs c hm
    · exact hcs c h
  · obtain rfl := List.mem_singleton.1 (List.mem_of_mem_take h)
    exact hn

theorem isStemChar_of_isDigit {c : Char} (h : c.isDigit = true) : isStemChar c = true := by
  simp only [Char.isDigit, Bool.and_eq_true, decide_eq_true_eq] at h
  simp only [isStemChar, Bool.or_eq_true, Bool.and_eq_true, decide_eq_true_eq]
  exact .inr h

theorem isStemChar_hashed {policy : Policy} {space : String} {seed : Nat} {c : Char}
    (h : c ∈ (hashed policy space seed).toList) : isStemChar c = true := by
  simp only [hashed, Prefix.hash, String.toList_ofList, List.mem_append] at h
  rcases h with h | h
  · exact isStemChar_stem h
  · exact isStemChar_base36 h

theorem Chosen.isStemChar {p : Prefixes} {policy : Policy} {space found : String}
    (h : p.Chosen policy space found) : ∀ c ∈ found.toList, Prefix.isStemChar c = true := by
  intro c hc
  cases h with
  | hashed seed lt available earlier => exact isStemChar_hashed hc
  | numbered n exhausted least =>
    rw [String.toList_append, List.mem_append] at hc
    rcases hc with hc | hc
    · exact isStemChar_hashed hc
    · rw [Nat.toString_eq_ofList_toDigits, String.toList_ofList] at hc
      exact isStemChar_of_isDigit (Nat.isDigit_of_mem_toDigits (by decide) (by decide) hc)

end SoapComponents.Prefixes
