import SoapComponents.Failure
import SoapComponents.Notice

/-!
Results that come with notices. `Noted` gathers the notices of a computation in order; `Outcome`
is one that may fail, and keeps the notices from before the failure.
-/

set_option autoImplicit false

namespace SoapComponents

structure Noted (α : Type) where
  value : α
  notices : List Notice := []

namespace Noted

variable {α β : Type}

def andThen (x : Noted α) (f : α → Noted β) : Noted β :=
  let y := f x.value
  ⟨y.value, x.notices ++ y.notices⟩

instance : Monad Noted where
  pure a := ⟨a, []⟩
  bind := andThen

@[simp] theorem value_pure (a : α) : (pure a : Noted α).value = a := rfl

@[simp] theorem notices_pure (a : α) : (pure a : Noted α).notices = [] := rfl

@[simp] theorem value_bind (x : Noted α) (f : α → Noted β) :
    (x >>= f).value = (f x.value).value := rfl

@[simp] theorem notices_bind (x : Noted α) (f : α → Noted β) :
    (x >>= f).notices = x.notices ++ (f x.value).notices := rfl

@[simp] theorem value_map (f : α → β) (x : Noted α) : (f <$> x).value = f x.value := rfl

@[simp] theorem notices_map (f : α → β) (x : Noted α) : (f <$> x).notices = x.notices :=
  List.append_nil _

instance : LawfulMonad Noted :=
  LawfulMonad.mk' Noted
    (fun x => by
      show Noted.mk _ _ = x
      simp)
    (fun a f => by
      show Noted.mk _ _ = f a
      rfl)
    (fun x f g => by
      show Noted.mk _ _ = Noted.mk _ _
      simp [Bind.bind, andThen])

def tellAll (notices : List Notice) : Noted Unit := ⟨(), notices⟩

def tell (notice : Notice) : Noted Unit := tellAll [notice]

/-- The same without what is told again of a name that several types share. -/
def withoutRepeats (x : Noted α) : Noted α := { x with notices := (Notice.withoutRepeats [] x.notices).1 }

end Noted

abbrev Outcome (α : Type) := ExceptT Failure Noted α

namespace Outcome

variable {α : Type}

def tell (notice : Notice) : Outcome Unit := ExceptT.lift (Noted.tell notice)

def tellAll (notices : List Notice) : Outcome Unit := ExceptT.lift (Noted.tellAll notices)

def result (x : Outcome α) : Except Failure α := (ExceptT.run x).value

def notices (x : Outcome α) : List Notice := (ExceptT.run x).notices

def ofExcept (x : Except Failure α) : Outcome α := ExceptT.mk ⟨x, []⟩

end Outcome

end SoapComponents
