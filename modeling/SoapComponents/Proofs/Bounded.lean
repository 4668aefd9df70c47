import SoapComponents.Noted

/-!
Walks in nested calls, as deep as a number says. Such a walk may be cut off; where it is not, it has
a value and what was told on the way.
-/

set_option autoImplicit false

namespace SoapComponents

abbrev Bounded := OptionT Noted

namespace Bounded

variable {α β : Type}

def of (n : Noted α) : Bounded α := OptionT.lift n

def Ends (x : Bounded α) (a : α) (notices : List Notice) : Prop := x.run = ⟨some a, notices⟩

theorem ends_pure (a : α) : Ends (pure a) a [] := rfl

theorem ends_of (n : Noted α) : Ends (of n) n.value n.notices := by
  show Noted.mk _ _ = _
  simp

theorem Ends.unique {x : Bounded α} {a a' : α} {notices notices' : List Notice}
    (h : x.Ends a notices) (h' : x.Ends a' notices') : a = a' :=
  Option.some.inj (congrArg Noted.value (h.symm.trans h'))

theorem Ends.bind {x : Bounded α} {f : α → Bounded β} {a : α} {b : β} {first rest : List Notice}
    (hx : x.Ends a first) (hf : (f a).Ends b rest) : Ends (x >>= f) b (first ++ rest) := by
  unfold Ends at *
  rw [OptionT.run_bind, Option.elimM, hx]
  show Noted.mk _ _ = _
  simp [hf]

end Bounded

end SoapComponents
