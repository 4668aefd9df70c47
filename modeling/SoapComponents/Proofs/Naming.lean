import SoapComponents.Markup.Namespaces

/-!
Computations that give out prefixes, seen from outside: what they come to, and the prefixes that
are given out after them. A computation is opened by the equations here and not by its monad.
-/

set_option autoImplicit false

namespace SoapComponents

namespace Assigning

variable {α β : Type}

def result (x : Assigning α) (p : Prefixes) : α := (StateT.run x p).value.1

def after (x : Assigning α) (p : Prefixes) : Prefixes := (StateT.run x p).value.2

@[simp] theorem result_pure (a : α) (p : Prefixes) : (pure a : Assigning α).result p = a := rfl

@[simp] theorem after_pure (a : α) (p : Prefixes) : (pure a : Assigning α).after p = p := rfl

@[simp] theorem result_bind (x : Assigning α) (f : α → Assigning β) (p : Prefixes) :
    (x >>= f).result p = (f (x.result p)).result (x.after p) := rfl

@[simp] theorem after_bind (x : Assigning α) (f : α → Assigning β) (p : Prefixes) :
    (x >>= f).after p = (f (x.result p)).after (x.after p) := rfl

@[simp] theorem result_map (f : α → β) (x : Assigning α) (p : Prefixes) :
    (f <$> x).result p = f (x.result p) := rfl

@[simp] theorem after_map (f : α → β) (x : Assigning α) (p : Prefixes) :
    (f <$> x).after p = x.after p := rfl

@[simp] theorem result_get (p : Prefixes) : (get : Assigning Prefixes).result p = p := rfl

@[simp] theorem after_get (p : Prefixes) : (get : Assigning Prefixes).after p = p := rfl

@[simp] theorem result_lift (x : Noted α) (p : Prefixes) :
    (liftM x : Assigning α).result p = x.value := rfl

@[simp] theorem after_lift (x : Noted α) (p : Prefixes) : (liftM x : Assigning α).after p = p := rfl

end Assigning

namespace Naming

variable {α β : Type}

/-- What a computation comes to, which may be a failure. -/
def result (x : Naming α) (p : Prefixes) : Except Failure α := Assigning.result (ExceptT.run x) p

/-- The prefixes after a computation, also after one that fails. -/
def after (x : Naming α) (p : Prefixes) : Prefixes := Assigning.after (ExceptT.run x) p

@[simp] theorem result_pure (a : α) (p : Prefixes) : (pure a : Naming α).result p = .ok a := rfl

@[simp] theorem after_pure (a : α) (p : Prefixes) : (pure a : Naming α).after p = p := rfl

@[simp] theorem result_throw (e : Failure) (p : Prefixes) :
    (throw e : Naming α).result p = .error e := rfl

@[simp] theorem after_throw (e : Failure) (p : Prefixes) : (throw e : Naming α).after p = p := rfl

@[simp] theorem result_lift (x : Noted α) (p : Prefixes) :
    (liftM x : Naming α).result p = .ok x.value := rfl

@[simp] theorem after_lift (x : Noted α) (p : Prefixes) : (liftM x : Naming α).after p = p := rfl

@[simp] theorem result_assigning (x : Assigning α) (p : Prefixes) :
    (liftM x : Naming α).result p = .ok (x.result p) := rfl

@[simp] theorem after_assigning (x : Assigning α) (p : Prefixes) :
    (liftM x : Naming α).after p = x.after p := rfl

@[simp] theorem result_liftExcept (x : Naming α) (p : Prefixes) :
    Naming.result (ExceptT.lift (ExceptT.run x)) p = .ok (x.result p) := rfl

@[simp] theorem after_liftExcept (x : Naming α) (p : Prefixes) :
    Naming.after (ExceptT.lift (ExceptT.run x)) p = x.after p := rfl

@[simp] theorem result_ofOutcome (x : Outcome α) (p : Prefixes) :
    (Naming.ofOutcome x).result p = x.result := rfl

@[simp] theorem after_ofOutcome (x : Outcome α) (p : Prefixes) :
    (Naming.ofOutcome x).after p = p := rfl

theorem result_bind (x : Naming α) (f : α → Naming β) (p : Prefixes) :
    (x >>= f).result p =
      match x.result p with
      | .ok a => (f a).result (x.after p)
      | .error e => .error e := by
  unfold result after
  rw [ExceptT.run_bind, Assigning.result_bind]
  split <;> rename_i h <;> simp only [h, Assigning.result_pure]

theorem after_bind (x : Naming α) (f : α → Naming β) (p : Prefixes) :
    (x >>= f).after p =
      match x.result p with
      | .ok a => (f a).after (x.after p)
      | .error _ => x.after p := by
  unfold result after
  rw [ExceptT.run_bind, Assigning.after_bind]
  split <;> rename_i h <;> simp only [h, Assigning.after_pure]

theorem result_bind_eq_ok {x : Naming α} {f : α → Naming β} {p : Prefixes} {b : β}
    (h : (x >>= f).result p = .ok b) :
    ∃ a, x.result p = .ok a ∧ (f a).result (x.after p) = .ok b := by
  rw [result_bind] at h
  split at h
  · next a ha => exact ⟨a, ha, h⟩
  · simp at h

end Naming

end SoapComponents
