import SoapComponents.Digest.Base36
import SoapComponents.Digest.Sha1
import SoapComponents.Text.Cut
import SoapComponents.Text.LetterCase

/-!
The two halves of a generated prefix: a readable stem from the last segment of a namespace, and a
short digest of the whole namespace.
-/

set_option autoImplicit false

namespace SoapComponents.Prefix

open SoapComponents.Text SoapComponents.Digest

def isStemChar (c : Char) : Bool := ('a' ≤ c && c ≤ 'z') || ('0' ≤ c && c ≤ '9')

def lastSegment (space : String) : List Char :=
  ((splitBy (fun c => c == '/' || c == ':' || c == '#') space.toList).filter (· ≠ [])).getLast?.getD
    []

/-- A stem of at most `length` characters. It does not begin with a digit: `n` goes before it
then, and stands for a stem that would be empty. -/
def stem (space : String) (length : Nat) : List Char :=
  let cs := ((lowerFrom [] (lastSegment space)).filter isStemChar).take length
  match cs with
  | c :: _ => if c.isDigit then ('n' :: cs).take length else cs
  | [] => ['n'].take length

def hashWidth : Nat := 3

/-- A digest of a namespace in three digits of base 36; every seed gives another one. -/
def hash (space : String) (seed : Int) : List Char :=
  let digest := sha1 (toString seed ++ ":" ++ space).toUTF8.toList
  base36 hashWidth (bigEndianValue (digest.take 8) % Nat.pow 36 hashWidth)

end SoapComponents.Prefix
