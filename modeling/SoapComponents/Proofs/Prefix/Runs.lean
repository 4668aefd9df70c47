import SoapComponents.Proofs.Naming
import SoapComponents.Proofs.Prefix.Choice

/-!
Prefixes over a whole run. Whatever prefixes are taken at first, namespaces and the prefixes that
they get stay one-to-one, and nothing that is bound is ever bound again to anything else.
-/

set_option autoImplicit false

namespace SoapComponents

open Prefix

namespace Prefixes

/-- The prefixes that were given out lead back to their namespaces, are not reserved, and are made
of small letters and digits. Of prefixes that were only taken nothing is said. -/
structure Sound (p : Prefixes) : Prop where
  back : ∀ {space found}, p.bySpace.value? space = some found →
    p.byPrefix.value? found = some space
  free : ∀ {space found}, p.bySpace.value? space = some found → found ∉ reserved
  plain : ∀ {space found}, p.bySpace.value? space = some found →
    ∀ c ∈ found.toList, isStemChar c = true

/-- Nothing that is bound in `p` is bound otherwise in `q`. -/
structure Extends (p q : Prefixes) : Prop where
  bySpace : ∀ {space found}, p.bySpace.value? space = some found →
    q.bySpace.value? space = some found
  byPrefix : ∀ {found space}, p.byPrefix.value? found = some space →
    q.byPrefix.value? found = some space

theorem Extends.refl (p : Prefixes) : p.Extends p := ⟨id, id⟩

theorem Extends.trans {p q r : Prefixes} (hq : p.Extends q) (hr : q.Extends r) : p.Extends r :=
  ⟨fun h => hr.bySpace (hq.bySpace h), fun h => hr.byPrefix (hq.byPrefix h)⟩

theorem sound_of_unasked (taken : Table String) : Sound ⟨[], taken⟩ :=
  ⟨by simp [Table.value?], by simp [Table.value?], by simp [Table.value?]⟩

theorem Sound.space_unique {p : Prefixes} (h : p.Sound) {s t found : String}
    (hs : p.bySpace.value? s = some found) (ht : p.bySpace.value? t = some found) : s = t := by
  have hb := h.back hs
  rw [h.back ht] at hb
  exact (Option.some.inj hb).symm

theorem bind_extends {p : Prefixes} {found space : String}
    (hnew : p.bySpace.value? space = none) (hfree : p.isAvailable found space = true) :
    p.Extends (p.bind found space) := by
  constructor
  · intro s r hs
    simp only [bind, Table.value?_put]
    split
    · next heq =>
      subst s
      simp [hnew] at hs
    · exact hs
  · intro r s hr
    simp only [bind, Table.value?_put]
    split
    · next heq =>
      subst r
      rw [(isAvailable_eq_true.1 hfree).2 s hr]
    · exact hr

theorem bind_sound {p : Prefixes} {policy : Policy} {found space : String} (h : p.Sound)
    (hnew : p.bySpace.value? space = none) (hc : p.Chosen policy space found) :
    (p.bind found space).Sound := by
  have hext := bind_extends hnew hc.available
  have cases_of : ∀ {s r}, (p.bind found space).bySpace.value? s = some r →
      s = space ∧ r = found ∨ p.bySpace.value? s = some r := by
    intro s r hs
    simp only [bind, Table.value?_put] at hs
    split at hs
    · next heq => exact .inl ⟨heq, (Option.some.inj hs).symm⟩
    · exact .inr hs
  refine ⟨?_, ?_, ?_⟩
  · intro s r hs
    rcases cases_of hs with ⟨rfl, rfl⟩ | hs
    · simp [bind, Table.value?_put]
    · exact hext.byPrefix (h.back hs)
  · intro s r hs
    rcases cases_of hs with ⟨rfl, rfl⟩ | hs
    · exact (isAvailable_eq_true.1 hc.available).1
    · exact h.free hs
  · intro s r hs
    rcases cases_of hs with ⟨rfl, rfl⟩ | hs
    · exact hc.isStemChar
    · exact h.plain hs

theorem prefixFor_cases (p : Prefixes) (policy : Policy) (space : String) :
    (∃ found, p.bySpace.value? space = some found ∧
      (p.prefixFor policy space).value = (found, p)) ∨
    (∃ found, p.bySpace.value? space = none ∧ p.Chosen policy space found ∧
      (p.prefixFor policy space).value = (found, p.bind found space)) := by
  unfold prefixFor
  split
  · next found hf => exact .inl ⟨found, hf, rfl⟩
  · next hnew => exact .inr ⟨_, hnew, p.choose_chosen policy space, rfl⟩

theorem prefixFor_spec {p : Prefixes} (h : p.Sound) (policy : Policy) (space : String) :
    (p.prefixFor policy space).value.2.Sound ∧ p.Extends (p.prefixFor policy space).value.2 ∧
      (p.prefixFor policy space).value.2.bySpace.value? space =
        some (p.prefixFor policy space).value.1 := by
  rcases p.prefixFor_cases policy space with ⟨found, hf, heq⟩ | ⟨found, hnew, hc, heq⟩
  · rw [heq]
    exact ⟨h, .refl p, hf⟩
  · rw [heq]
    exact ⟨bind_sound h hnew hc, bind_extends hnew hc.available, by simp [bind, Table.value?_put]⟩

end Prefixes

namespace Assigning

/-- The prefixes of several namespaces, asked for one after the other, each by its own policy. -/
def prefixesFor (calls : List (Policy × String)) : Assigning (List String) :=
  calls.mapM fun call => prefixFor call.1 call.2

theorem after_prefixesFor_cons (call : Policy × String) (rest : List (Policy × String))
    (p : Prefixes) :
    (prefixesFor (call :: rest)).after p =
      (prefixesFor rest).after (p.prefixFor call.1 call.2).value.2 := by
  simp only [prefixesFor, List.mapM_cons, after_bind, after_pure]
  rfl

theorem result_prefixesFor_cons (call : Policy × String) (rest : List (Policy × String))
    (p : Prefixes) :
    (prefixesFor (call :: rest)).result p =
      (p.prefixFor call.1 call.2).value.1 ::
        (prefixesFor rest).result (p.prefixFor call.1 call.2).value.2 := by
  simp only [prefixesFor, List.mapM_cons, result_bind, result_pure]
  rfl

theorem after_prefixesFor_append (before rest : List (Policy × String)) (p : Prefixes) :
    (prefixesFor (before ++ rest)).after p =
      (prefixesFor rest).after ((prefixesFor before).after p) := by
  simp [prefixesFor]

theorem result_prefixesFor_append (before rest : List (Policy × String)) (p : Prefixes) :
    (prefixesFor (before ++ rest)).result p =
      (prefixesFor before).result p ++
        (prefixesFor rest).result ((prefixesFor before).after p) := by
  simp [prefixesFor]

theorem length_prefixesFor (calls : List (Policy × String)) (p : Prefixes) :
    ((prefixesFor calls).result p).length = calls.length := by
  induction calls generalizing p with
  | nil => rfl
  | cons call rest ih =>
    rw [result_prefixesFor_cons, List.length_cons, ih, List.length_cons]

theorem prefixesFor_spec (calls : List (Policy × String)) {p : Prefixes} (h : p.Sound) :
    ((prefixesFor calls).after p).Sound ∧ p.Extends ((prefixesFor calls).after p) ∧
      ∀ e ∈ calls.zip ((prefixesFor calls).result p),
        ((prefixesFor calls).after p).bySpace.value? e.1.2 = some e.2 := by
  induction calls generalizing p with
  | nil => exact ⟨h, .refl p, by simp⟩
  | cons call rest ih =>
    obtain ⟨hsound, hext, hfound⟩ := Prefixes.prefixFor_spec h call.1 call.2
    obtain ⟨hsound', hext', hfound'⟩ := ih hsound
    rw [after_prefixesFor_cons, result_prefixesFor_cons]
    refine ⟨hsound', hext.trans hext', ?_⟩
    intro e he
    rcases List.mem_cons.1 he with rfl | he
    · exact hext'.bySpace hfound
    · exact hfound' e he

theorem bySpace_after_prefixesFor {calls : List (Policy × String)} {p : Prefixes} {space : String}
    (hp : p.bySpace.value? space = none) (hn : space ∉ calls.map Prod.snd) :
    ((prefixesFor calls).after p).bySpace.value? space = none := by
  induction calls generalizing p with
  | nil => exact hp
  | cons call rest ih =>
    simp only [List.map_cons, List.mem_cons, not_or] at hn
    have hstep : (p.prefixFor call.1 call.2).value.2.bySpace.value? space = none := by
      rcases p.prefixFor_cases call.1 call.2 with ⟨found, _, heq⟩ | ⟨found, _, _, heq⟩
      · rw [heq]
        exact hp
      · simp [heq, Prefixes.bind, Table.value?_put, hn.1, hp]
    rw [after_prefixesFor_cons]
    exact ih hstep hn.2

theorem chosen_of_first_call {before rest : List (Policy × String)} {call : Policy × String}
    {p : Prefixes} (hp : p.bySpace.value? call.2 = none) (hn : call.2 ∉ before.map Prod.snd) :
    ∃ found, ((prefixesFor (before ++ call :: rest)).result p)[before.length]? = some found ∧
      ((prefixesFor before).after p).Chosen call.1 call.2 found := by
  have hnew := bySpace_after_prefixesFor hp hn
  rcases ((prefixesFor before).after p).prefixFor_cases call.1 call.2 with
    ⟨found, hf, _⟩ | ⟨found, _, hc, heq⟩
  · simp [hnew] at hf
  · refine ⟨found, ?_, hc⟩
    have hlen := length_prefixesFor before p
    rw [result_prefixesFor_append, List.getElem?_append_right (by omega), hlen,
      result_prefixesFor_cons, heq, Nat.sub_self, List.getElem?_cons_zero]

/-- For every sequence of requests, whatever prefixes are taken at first: each namespace gets an
answer, which is the prefix chosen for it when it first asked; the answers are not reserved, lead
back to their namespaces and are equal only for equal namespaces; and what a prefix was bound to
at any time it stays bound to. -/
theorem prefixesFor_one_to_one (taken : Table String) (calls : List (Policy × String)) :
    let start : Prefixes := ⟨[], taken⟩
    let found := (prefixesFor calls).result start
    let p := (prefixesFor calls).after start
    found.length = calls.length ∧
    (∀ before call rest, calls = before ++ call :: rest → call.2 ∉ before.map Prod.snd →
      ∃ r, found[before.length]? = some r ∧
        ((prefixesFor before).after start).Chosen call.1 call.2 r) ∧
    (∀ e ∈ calls.zip found, p.byPrefix.value? e.2 = some e.1.2 ∧ e.2 ∉ reserved) ∧
    (∀ e ∈ calls.zip found, ∀ f ∈ calls.zip found, e.1.2 = f.1.2 ↔ e.2 = f.2) ∧
    (∀ before rest, calls = before ++ rest → ∀ r space,
      ((prefixesFor before).after start).byPrefix.value? r = some space →
        p.byPrefix.value? r = some space) := by
  intro start found p
  obtain ⟨hsound, _, hfound⟩ := prefixesFor_spec calls (Prefixes.sound_of_unasked taken)
  refine ⟨length_prefixesFor calls start, ?_, ?_, ?_, ?_⟩
  · rintro before call rest rfl hn
    exact chosen_of_first_call rfl hn
  · intro e he
    exact ⟨hsound.back (hfound e he), hsound.free (hfound e he)⟩
  · intro e he f hf
    have hes := hfound e he
    have hfs := hfound f hf
    constructor
    · intro heq
      rw [heq, hfs] at hes
      exact (Option.some.inj hes).symm
    · intro heq
      rw [heq] at hes
      exact hsound.space_unique hes hfs
  · rintro before rest rfl r space hr
    have hbefore := (prefixesFor_spec before (Prefixes.sound_of_unasked taken)).1
    have hext := (prefixesFor_spec rest hbefore).2.1
    have hp : p = (prefixesFor rest).after ((prefixesFor before).after start) :=
      after_prefixesFor_append before rest start
    rw [hp]
    exact hext.byPrefix hr

section Asking

variable {α β : Type}

def OnlyAsks (x : Assigning α) : Prop := ∀ p, ∃ calls, x.after p = (prefixesFor calls).after p

theorem OnlyAsks.of_after_eq {x : Assigning α} (h : ∀ p, x.after p = p) : x.OnlyAsks :=
  fun p => ⟨[], h p⟩

theorem OnlyAsks.pure (a : α) : OnlyAsks (Pure.pure a : Assigning α) := .of_after_eq fun _ => rfl

theorem OnlyAsks.bind {x : Assigning α} {f : α → Assigning β} (hx : x.OnlyAsks)
    (hf : ∀ a, (f a).OnlyAsks) : (x >>= f).OnlyAsks := by
  intro p
  obtain ⟨first, hfirst⟩ := hx p
  obtain ⟨later, hlater⟩ := hf (x.result p) (x.after p)
  refine ⟨first ++ later, ?_⟩
  rw [after_bind, hlater, after_prefixesFor_append, hfirst]

theorem OnlyAsks.prefixFor (policy : Policy) (space : String) :
    (Assigning.prefixFor policy space).OnlyAsks := by
  intro p
  exact ⟨[(policy, space)], by simp [prefixesFor]⟩

theorem OnlyAsks.foldlM {f : β → α → Assigning β} (hf : ∀ b a, (f b a).OnlyAsks) (l : List α)
    (b : β) : (l.foldlM f b).OnlyAsks := by
  induction l generalizing b with
  | nil => exact .pure b
  | cons a rest ih => exact .bind (hf b a) ih

theorem OnlyAsks.sound {x : Assigning α} (hx : x.OnlyAsks) {p : Prefixes} (h : p.Sound) :
    (x.after p).Sound := by
  obtain ⟨calls, heq⟩ := hx p
  rw [heq]
  exact (prefixesFor_spec calls h).1

theorem OnlyAsks.extends {x : Assigning α} (hx : x.OnlyAsks) {p : Prefixes} (h : p.Sound) :
    p.Extends (x.after p) := by
  obtain ⟨calls, heq⟩ := hx p
  rw [heq]
  exact (prefixesFor_spec calls h).2.1

end Asking

end Assigning

end SoapComponents
