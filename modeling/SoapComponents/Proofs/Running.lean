import SoapComponents.Generation
import SoapComponents.Proofs.Naming

/-!
Runs seen from outside: what they come to, and the progress that they leave. A run is opened by the
equations here and not by its monad.
-/

set_option autoImplicit false

namespace SoapComponents

namespace Progress

def add (p : Progress) (files : List (String × String)) : Progress :=
  { p with
    files := Table.putAll p.files files
    written := p.written ++ files.map Prod.fst }

@[simp] theorem add_nil (p : Progress) : p.add [] = p := by
  simp [add, Table.putAll]

theorem add_append (p : Progress) (files more : List (String × String)) :
    p.add (files ++ more) = (p.add files).add more := by
  simp [add, Table.putAll, List.foldl_append]

@[simp] theorem prefixes_add (p : Progress) (files : List (String × String)) :
    (p.add files).prefixes = p.prefixes := rfl

end Progress

namespace Running

variable {α β : Type}

/-- What a computation comes to, which may be a failure. -/
def result (x : Running α) (p : Progress) : Except Failure α := (StateT.run (ExceptT.run x) p).value.1

/-- The progress after a computation, also after one that fails. -/
def after (x : Running α) (p : Progress) : Progress := (StateT.run (ExceptT.run x) p).value.2

@[simp] theorem result_pure (a : α) (p : Progress) : (pure a : Running α).result p = .ok a := rfl

@[simp] theorem after_pure (a : α) (p : Progress) : (pure a : Running α).after p = p := rfl

@[simp] theorem result_throw (e : Failure) (p : Progress) :
    (throw e : Running α).result p = .error e := rfl

@[simp] theorem after_throw (e : Failure) (p : Progress) : (throw e : Running α).after p = p := rfl

@[simp] theorem result_lift (x : Noted α) (p : Progress) :
    (liftM x : Running α).result p = .ok x.value := rfl

@[simp] theorem after_lift (x : Noted α) (p : Progress) : (liftM x : Running α).after p = p := rfl

@[simp] theorem result_get (p : Progress) : (get : Running Progress).result p = .ok p := rfl

@[simp] theorem after_get (p : Progress) : (get : Running Progress).after p = p := rfl

@[simp] theorem result_ofOutcome (x : Outcome α) (p : Progress) :
    (Running.ofOutcome x).result p = x.result := rfl

@[simp] theorem after_ofOutcome (x : Outcome α) (p : Progress) :
    (Running.ofOutcome x).after p = p := rfl

@[simp] theorem result_naming (x : Naming α) (p : Progress) :
    (Running.naming x).result p = .ok (x.result p.prefixes) := rfl

@[simp] theorem after_naming (x : Naming α) (p : Progress) :
    (Running.naming x).after p = { p with prefixes := x.after p.prefixes } := rfl

@[simp] theorem result_write (path content : String) (p : Progress) :
    (Running.write path content).result p = .ok () := rfl

@[simp] theorem after_write (path content : String) (p : Progress) :
    (Running.write path content).after p = p.add [(path, content)] := rfl

theorem result_bind (x : Running α) (f : α → Running β) (p : Progress) :
    (x >>= f).result p =
      match x.result p with
      | .ok a => (f a).result (x.after p)
      | .error e => .error e := by
  unfold result after
  rw [ExceptT.run_bind, StateT.run_bind, Noted.value_bind]
  split
  · next h =>
    simp only [h]
  · next h =>
    simp only [h]
    rfl

theorem after_bind (x : Running α) (f : α → Running β) (p : Progress) :
    (x >>= f).after p =
      match x.result p with
      | .ok a => (f a).after (x.after p)
      | .error _ => x.after p := by
  unfold result after
  rw [ExceptT.run_bind, StateT.run_bind, Noted.value_bind]
  split
  · next h =>
    simp only [h]
  · next h =>
    simp only [h]
    rfl

end Running

end SoapComponents
