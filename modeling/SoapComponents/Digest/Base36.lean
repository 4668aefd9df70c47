/-!
Numbers in base 36, in a fixed width, written with the digits and the small letters.
-/

set_option autoImplicit false

namespace SoapComponents.Digest

def base36Digit (n : Nat) : Char :=
  if n < 10 then Char.ofNat (48 + n) else Char.ofNat (87 + n)

def base36 : Nat → Nat → List Char
  | 0, _ => []
  | width + 1, n => base36 width (n / 36) ++ [base36Digit (n % 36)]

theorem length_base36 (width n : Nat) : (base36 width n).length = width := by
  induction width generalizing n with
  | zero => rfl
  | succ width ih => simp [base36, ih]

end SoapComponents.Digest
