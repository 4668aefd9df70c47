import SoapComponents.Text.Decimal
import SoapComponents.Text.Blank

/-!
Whole numbers as settings write them: an optional sign, then decimal digits of any script, where
single low lines may stand between digits.
-/

set_option autoImplicit false

namespace SoapComponents.Text

/-- Reads digits into `value`. `afterDigit` says that the last character was a digit, so that a
low line may follow; a number ends with a digit. -/
def digitsValue? (value : Nat) (afterDigit : Bool) : List Char → Option Nat
  | [] => if afterDigit then some value else none
  | c :: rest =>
    match decimalValue? c with
    | some d => digitsValue? (10 * value + d) true rest
    | none => if c == '_' && afterDigit then digitsValue? value false rest else none

def digitLimit : Nat := 4300

def natural? (cs : List Char) : Option Nat :=
  if (cs.filter fun c => (decimalValue? c).isSome).length ≤ digitLimit then
    digitsValue? 0 false cs
  else none

def integer? (s : String) : Option Int :=
  match trimRight (trimLeft s.toList) with
  | '-' :: rest => (natural? rest).map fun n => -(n : Int)
  | '+' :: rest => (natural? rest).map Int.ofNat
  | cs => (natural? cs).map Int.ofNat

end SoapComponents.Text
