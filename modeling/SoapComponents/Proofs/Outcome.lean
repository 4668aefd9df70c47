import SoapComponents.Noted

/-!
Computations that tell of things and may fail, seen from outside: what they come to. A computation
is opened by the equations here and not by its monad.
-/

set_option autoImplicit false

namespace SoapComponents

variable {α β : Type}

@[simp] theorem Noted.value_mapM (f : α → Noted β) (l : List α) :
    (l.mapM f).value = l.map fun a => (f a).value := by
  induction l with
  | nil => rfl
  | cons a rest ih =>
    simp only [List.mapM_cons, Noted.value_bind, Noted.value_pure, ih, List.map_cons]

theorem Noted.value_foldlM_keeps {f : β → α → Noted β} {P : β → Prop} {l : List α} {b : β}
    (hstep : ∀ a ∈ l, ∀ b, P b → P (f b a).value) (hb : P b) : P (l.foldlM f b).value := by
  induction l generalizing b with
  | nil => exact hb
  | cons a rest ih =>
    rw [List.foldlM_cons, Noted.value_bind]
    exact ih (fun a' ha' => hstep a' (List.mem_cons_of_mem _ ha')) (hstep a List.mem_cons_self b hb)

theorem Noted.value_foldlM_rel {γ : Type} {R : β → γ → Prop} {f : β → α → Noted β}
    {g : γ → α → Noted γ} {l : List α} {b : β} {c : γ}
    (hstep : ∀ a ∈ l, ∀ b c, R b c → R (f b a).value (g c a).value) (h : R b c) :
    R (l.foldlM f b).value (l.foldlM g c).value := by
  induction l generalizing b c with
  | nil => exact h
  | cons a rest ih =>
    rw [List.foldlM_cons, List.foldlM_cons, Noted.value_bind, Noted.value_bind]
    exact ih (fun a' ha' => hstep a' (List.mem_cons_of_mem _ ha'))
      (hstep a List.mem_cons_self b c h)

/-- A fold keeps the invariant of its steps, comes to something that every step leads further to,
and has brought about what each of its steps brings about. -/
theorem Noted.value_foldlM_spec {f : β → α → Noted β} {I : β → Prop} {R : β → β → Prop}
    {Q : α → β → Prop} (hrefl : ∀ b, R b b) (htrans : ∀ {b c d}, R b c → R c d → R b d)
    (hmono : ∀ {a b c}, R b c → Q a b → Q a c) {l : List α} {b : β}
    (hstep : ∀ a ∈ l, ∀ b, I b → I (f b a).value ∧ R b (f b a).value ∧ Q a (f b a).value)
    (hb : I b) :
    I (l.foldlM f b).value ∧ R b (l.foldlM f b).value ∧ ∀ a ∈ l, Q a (l.foldlM f b).value := by
  induction l generalizing b with
  | nil => exact ⟨hb, hrefl b, by simp⟩
  | cons a rest ih =>
    rw [List.foldlM_cons, Noted.value_bind]
    obtain ⟨hI, hR, hQ⟩ := hstep a List.mem_cons_self b hb
    obtain ⟨hI', hR', hQ'⟩ := ih (fun a' ha' => hstep a' (List.mem_cons_of_mem _ ha')) hI
    refine ⟨hI', htrans hR hR', fun a' ha' => ?_⟩
    rcases List.mem_cons.1 ha' with rfl | ha'
    · exact hmono hR' hQ
    · exact hQ' a' ha'

theorem eq_ok_of_map {x : Except Failure α} {f : α → β} {b : β} (h : x.map f = .ok b) :
    ∃ a, x = .ok a ∧ f a = b := by
  cases x with
  | error failure => cases h
  | ok a => exact ⟨a, rfl, Except.ok.inj h⟩

theorem eq_ok_of_toOption {x : Except Failure α} {a : α} (h : x.toOption = some a) :
    x = .ok a := by
  cases x with
  | error failure => cases h
  | ok found => exact congrArg Except.ok (Option.some.inj h)

theorem eq_error_of_map {x : Except Failure α} {f : α → β} {failure : Failure}
    (h : x.map f = .error failure) : x = .error failure := by
  cases x with
  | error other => exact congrArg Except.error (Except.error.inj h)
  | ok a => cases h

namespace Outcome

@[simp] theorem result_pure (a : α) : (pure a : Outcome α).result = .ok a := rfl

@[simp] theorem result_throw (e : Failure) : (throw e : Outcome α).result = .error e := rfl

@[simp] theorem result_lift (x : Noted α) : Outcome.result (ExceptT.lift x) = .ok x.value := rfl

@[simp] theorem result_liftM (x : Noted α) : (liftM x : Outcome α).result = .ok x.value := rfl

@[simp] theorem result_tell (notice : Notice) : (Outcome.tell notice).result = .ok () := rfl

@[simp] theorem result_tellAll (notices : List Notice) :
    (Outcome.tellAll notices).result = .ok () := rfl

@[simp] theorem result_ofExcept (x : Except Failure α) : (Outcome.ofExcept x).result = x := rfl

theorem result_bind (x : Outcome α) (f : α → Outcome β) :
    (x >>= f).result =
      match x.result with
      | .ok a => (f a).result
      | .error e => .error e := by
  unfold result
  rw [ExceptT.run_bind, Noted.value_bind]
  split <;> rename_i h <;> simp only [h, Noted.value_pure]

theorem result_bind_eq_ok {x : Outcome α} {f : α → Outcome β} {b : β} :
    (x >>= f).result = .ok b ↔ ∃ a, x.result = .ok a ∧ (f a).result = .ok b := by
  rw [result_bind]
  cases x.result <;> simp

theorem mapM_attach (l : List α) (f : α → Outcome β) :
    (l.attach.mapM fun a => f a.1) = l.mapM f := by
  rw [List.mapM_subtype (fun _ _ => rfl), List.unattach_attach]

theorem result_mapM_eq_ok {f : α → Outcome β} {l : List α} {found : List β}
    (h : (l.mapM f).result = .ok found) : ∀ b ∈ found, ∃ a ∈ l, (f a).result = .ok b := by
  induction l generalizing found with
  | nil =>
    obtain rfl := Except.ok.inj h
    simp
  | cons a rest ih =>
    rw [List.mapM_cons, result_bind_eq_ok] at h
    obtain ⟨first, hfirst, h⟩ := h
    obtain ⟨more, hmore, h⟩ := result_bind_eq_ok.1 h
    obtain rfl := Except.ok.inj h
    intro b hb
    rcases List.mem_cons.1 hb with rfl | hb
    · exact ⟨a, List.mem_cons_self, hfirst⟩
    · obtain ⟨a', ha', hb⟩ := ih hmore b hb
      exact ⟨a', List.mem_cons_of_mem _ ha', hb⟩

theorem result_foldlM_spec {f : β → α → Outcome β} {I : β → Prop} {R : β → β → Prop}
    {Q : α → β → Prop} (hrefl : ∀ b, R b b) (htrans : ∀ {b c d}, R b c → R c d → R b d)
    (hmono : ∀ {a b c}, R b c → Q a b → Q a c) {l : List α} {b c : β}
    (hstep : ∀ a ∈ l, ∀ b b', I b → (f b a).result = .ok b' → I b' ∧ R b b' ∧ Q a b')
    (hb : I b) (h : (l.foldlM f b).result = .ok c) : I c ∧ R b c ∧ ∀ a ∈ l, Q a c := by
  induction l generalizing b with
  | nil =>
    obtain rfl := Except.ok.inj h
    exact ⟨hb, hrefl b, by simp⟩
  | cons a rest ih =>
    rw [List.foldlM_cons, result_bind_eq_ok] at h
    obtain ⟨b', hb', h⟩ := h
    obtain ⟨hI, hR, hQ⟩ := hstep a List.mem_cons_self b b' hb hb'
    obtain ⟨hI', hR', hQ'⟩ := ih (fun a' ha' => hstep a' (List.mem_cons_of_mem _ ha')) hI h
    refine ⟨hI', htrans hR hR', fun a' ha' => ?_⟩
    rcases List.mem_cons.1 ha' with rfl | ha'
    · exact hmono hR' hQ
    · exact hQ' a' ha'

end Outcome

end SoapComponents
