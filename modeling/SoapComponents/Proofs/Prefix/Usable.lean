import SoapComponents.Proofs.Prefix.Runs

/-!
Prefixes as the names of constants in a module. A prefix begins with a small letter, is made of
small letters and digits, and is none of the names that a component binds by itself. Reserved
words of module code are kept out by the list of reserved prefixes, of which seven are missing:
the stem of a namespace and a digest can come to one of these.
-/

set_option autoImplicit false

namespace SoapComponents

open Prefix Digest Text

namespace Prefix

/-- A small letter, and after it small letters and digits. -/
def IsPlainName (name : String) : Prop :=
  ∃ first rest, name.toList = first :: rest ∧ first.isLower = true ∧
    ∀ c ∈ rest, isStemChar c = true

/-- The words that cannot name a constant in the code of a module. -/
def moduleWords : List String := [
  "break", "case", "catch", "class", "const", "continue", "debugger", "default", "delete", "do",
  "else", "enum", "export", "extends", "false", "finally", "for", "function", "if", "import", "in",
  "instanceof", "new", "null", "return", "super", "switch", "this", "throw", "true", "try",
  "typeof", "var", "void", "while", "with", "yield", "await", "let", "static", "implements",
  "interface", "package", "private", "protected", "public"]

def componentNames : List String := ["ns", "soap", "xml", "props", "item", "i"]

/-- Words of module code that are not reserved as prefixes although they are long enough. -/
def unguarded : List String := [
  "continue", "debugger", "function", "instanceof", "implements", "interface", "protected"]

theorem guarded_of_word : ∀ word ∈ moduleWords ++ componentNames,
    word ∈ reserved ∨ word.length ≤ hashWidth ∨ word ∈ unguarded := by decide

theorem word_of_unguarded : ∀ word ∈ unguarded,
    word ∈ moduleWords ∧ word ∉ componentNames ∧ 8 ≤ word.length := by decide

theorem no_digit_of_word : ∀ word ∈ moduleWords ++ componentNames,
    word.toList.any (·.isDigit) = false := by decide

theorem isLower_of_isStemChar {c : Char} (h : isStemChar c = true) (hd : c.isDigit = false) :
    c.isLower = true := by
  simp only [isStemChar, Bool.or_eq_true] at h
  rcases h with h | h
  · exact h
  · simp only [Char.isDigit] at hd
    exact absurd h (Bool.eq_false_iff.1 hd)

theorem stem_eq_cons (space : String) {length : Nat} (h : 1 ≤ length) :
    ∃ first rest, stem space length = first :: rest ∧ first.isLower = true := by
  obtain ⟨left, rfl⟩ := Nat.exists_eq_add_of_le' h
  simp only [stem]
  split
  · next first rest hfirst =>
    split
    · exact ⟨'n', _, List.take_succ_cons, by decide⟩
    · next hdigit =>
      have hmem : first ∈ (lowerFrom [] (lastSegment space)).filter isStemChar := by
        refine List.mem_of_mem_take (i := left + 1) ?_
        rw [hfirst]
        exact List.mem_cons_self
      have hstem := (List.mem_filter.1 hmem).2
      exact ⟨first, rest, hfirst, isLower_of_isStemChar hstem (Bool.eq_false_iff.2 hdigit)⟩
  · exact ⟨'n', [], List.take_succ_cons.trans (by rw [List.take_nil]), by decide⟩

theorem length_stem_le (space : String) (length : Nat) : (stem space length).length ≤ length := by
  have htake : ∀ cs : List Char, (cs.take length).length ≤ length := fun cs => by
    rw [List.length_take]
    exact Nat.min_le_left ..
  simp only [stem]
  split
  · split
    · exact htake _
    · exact htake _
  · exact htake _

end Prefix

namespace Prefixes

variable {p : Prefixes} {policy : Policy} {space found : String}

theorem length_hashed (policy : Policy) (space : String) (seed : Nat) :
    (hashed policy space seed).length = (stem space policy.stemLength).length + hashWidth := by
  simp [hashed, Prefix.hash, length_base36]

theorem hashed_eq_cons (space : String) (seed : Nat) (h : 1 ≤ policy.stemLength) :
    ∃ first rest, (hashed policy space seed).toList = first :: rest ∧ first.isLower = true := by
  obtain ⟨first, rest, hstem, hlower⟩ := stem_eq_cons space h
  exact ⟨first, rest ++ Prefix.hash space seed, by simp [hashed, hstem], hlower⟩

theorem Chosen.isPlainName (h : p.Chosen policy space found) (hstem : 1 ≤ policy.stemLength) :
    IsPlainName found := by
  have hplain := h.isStemChar
  have hfirst : ∃ first rest, found.toList = first :: rest ∧ first.isLower = true := by
    cases h with
    | hashed seed => exact hashed_eq_cons space seed hstem
    | numbered n =>
      obtain ⟨first, rest, heq, hlower⟩ := hashed_eq_cons space 0 hstem
      exact ⟨first, rest ++ (toString n).toList, by rw [String.toList_append, heq]; rfl, hlower⟩
  obtain ⟨first, rest, heq, hlower⟩ := hfirst
  refine ⟨first, rest, heq, hlower, fun c hc => hplain c ?_⟩
  rw [heq]
  exact List.mem_cons_of_mem _ hc

theorem numbered_not_word (base : String) (n : Nat) :
    base ++ toString n ∉ moduleWords ++ componentNames := by
  intro hword
  obtain ⟨d, hd⟩ := List.exists_mem_of_ne_nil _ (Nat.toDigits_ne_nil (n := n) (b := 10))
  have hdigit := Nat.isDigit_of_mem_toDigits (by decide) (by decide) hd
  have hmem : d ∈ (base ++ toString n).toList := by
    rw [String.toList_append, Nat.toString_eq_ofList_toDigits, String.toList_ofList]
    exact List.mem_append_right _ hd
  exact List.any_eq_false.1 (no_digit_of_word _ hword) d hmem hdigit

theorem Chosen.eq_hashed_of_word (h : p.Chosen policy space found)
    (hstem : 1 ≤ policy.stemLength) (hword : found ∈ moduleWords ++ componentNames) :
    found ∈ unguarded ∧
      ∃ seed < policy.attempts, found = Prefixes.hashed policy space seed := by
  have hfree := (isAvailable_eq_true.1 h.available).1
  cases h with
  | hashed seed lt =>
    refine ⟨?_, seed, lt, rfl⟩
    rcases guarded_of_word _ hword with hreserved | hshort | hopen
    · exact absurd hreserved hfree
    · obtain ⟨first, rest, heq, -⟩ := stem_eq_cons space hstem
      rw [length_hashed, heq, List.length_cons] at hshort
      omega
    · exact hopen
  | numbered n => exact absurd hword (numbered_not_word _ n)

end Prefixes

namespace Assigning

theorem exists_chosen (calls : List (Policy × String)) {p : Prefixes} {space found : String}
    (h : ((prefixesFor calls).after p).bySpace.value? space = some found) :
    p.bySpace.value? space = some found ∨
      ∃ call ∈ calls, call.2 = space ∧ ∃ q : Prefixes, q.Chosen call.1 space found := by
  induction calls generalizing p with
  | nil => exact .inl h
  | cons call rest ih =>
    rw [after_prefixesFor_cons] at h
    rcases ih h with hstep | ⟨later, hmem, hlater⟩
    · rcases p.prefixFor_cases call.1 call.2 with ⟨_, _, heq⟩ | ⟨chosen, _, hc, heq⟩
      · rw [heq] at hstep
        exact .inl hstep
      · simp only [heq, Prefixes.bind, Table.value?_put] at hstep
        split at hstep
        · next hspace =>
          subst hspace
          obtain rfl := Option.some.inj hstep
          exact .inr ⟨call, List.mem_cons_self, rfl, p, hc⟩
        · exact .inl hstep
    · exact .inr ⟨later, List.mem_cons_of_mem _ hmem, hlater⟩

/-- For every sequence of requests with stems of at least one character, whatever prefixes are
taken at first: each answer is a plain name and none of those that the component binds. It is a
reserved word of module code only where the stem and a digest of its namespace come to one of the
seven words that no prefix is kept from, for which stems must have five characters or more. -/
theorem prefixesFor_usable (taken : Table String) (calls : List (Policy × String))
    (hstem : ∀ call ∈ calls, 1 ≤ call.1.stemLength) :
    let found := (prefixesFor calls).result ⟨[], taken⟩
    found.length = calls.length ∧
    ∀ e ∈ calls.zip found,
      IsPlainName e.2 ∧ e.2 ∉ componentNames ∧
      (e.2 ∈ moduleWords ↔
        e.2 ∈ unguarded ∧ ∃ call ∈ calls, call.2 = e.1.2 ∧ 5 ≤ call.1.stemLength ∧
          ∃ seed < call.1.attempts, e.2 = Prefixes.hashed call.1 call.2 seed) := by
  intro found
  refine ⟨length_prefixesFor calls ⟨[], taken⟩, fun e he => ?_⟩
  have hbound := (prefixesFor_spec calls (Prefixes.sound_of_unasked taken)).2.2 e he
  obtain ⟨call, hcall, hspace, q, hc⟩ := (exists_chosen calls hbound).resolve_left nofun
  have hlong := hstem call hcall
  refine ⟨hc.isPlainName hlong, fun hname => ?_, fun hword => ?_, fun hopen => ?_⟩
  · have hopen := (hc.eq_hashed_of_word hlong (List.mem_append_right _ hname)).1
    exact (word_of_unguarded _ hopen).2.1 hname
  · obtain ⟨hopen, seed, hlt, heq⟩ := hc.eq_hashed_of_word hlong (List.mem_append_left _ hword)
    have hlength := (word_of_unguarded _ hopen).2.2
    have hle := length_stem_le e.1.2 call.1.stemLength
    rw [heq, Prefixes.length_hashed, hashWidth] at hlength
    refine ⟨hopen, call, hcall, hspace, by omega, seed, hlt, ?_⟩
    rw [hspace]
    exact heq
  · exact (word_of_unguarded _ hopen.1).1

theorem usable_orders :
    (∀ call ∈ [((⟨10, 6⟩ : Policy), "http://example.com/orders")], 1 ≤ call.1.stemLength) ∧
      (prefixesFor [(⟨10, 6⟩, "http://example.com/orders")]).result {} = ["ordersy6k"] ∧
      IsPlainName "ordersy6k" ∧ "ordersy6k" ∉ componentNames ∧ "ordersy6k" ∉ moduleWords := by
  have hstem : ∀ call ∈ [((⟨10, 6⟩ : Policy), "http://example.com/orders")],
      1 ≤ call.1.stemLength := by decide
  have hfound : (prefixesFor [(⟨10, 6⟩, "http://example.com/orders")]).result {} =
      ["ordersy6k"] := by decide +kernel
  have husable := (prefixesFor_usable [] _ hstem).2
    ((⟨10, 6⟩, "http://example.com/orders"), "ordersy6k")
    (by rw [hfound]; exact List.mem_cons_self)
  refine ⟨hstem, hfound, husable.1, husable.2.1, fun hword => ?_⟩
  exact absurd (husable.2.2.1 hword).1 (by decide)

/-- A namespace gets a reserved word for a prefix although the settings are the usual ones. -/
theorem prefix_is_reserved_word :
    (prefixesFor [(⟨10, 6⟩, "http://example.com/v7232/funct")]).result {} = ["function"] ∧
      "function" ∈ moduleWords := by
  decide +kernel

end Assigning

end SoapComponents
