import SoapComponents.Text.Cut

/-!
Texts that a reader would take for something else if they stood without marks: truth values,
numbers, nothing, points in time, and two signs with a meaning of their own.
-/

set_option autoImplicit false

namespace SoapComponents.Yaml

open SoapComponents.Text

def truthWords : List String := [
  "yes", "Yes", "YES", "no", "No", "NO", "true", "True", "TRUE", "false", "False", "FALSE",
  "on", "On", "ON", "off", "Off", "OFF"]

def nothingWords : List String := ["", "~", "null", "Null", "NULL"]

def signs : List String := ["<<", "="]

def infinities : List String := [".inf", ".Inf", ".INF"]

def notNumbers : List String := [".nan", ".NaN", ".NAN"]

def isDigit (c : Char) : Bool := '0' ≤ c && c ≤ '9'

def isNumeral (c : Char) : Bool := isDigit c || c == '_'

def isHexNumeral (c : Char) : Bool :=
  isNumeral c || ('a' ≤ c && c ≤ 'f') || ('A' ≤ c && c ≤ 'F')

def isSign (c : Char) : Bool := c == '-' || c == '+'

def dropSign : List Char → List Char
  | c :: rest => if isSign c then rest else c :: rest
  | [] => []

def isRun (p : Char → Bool) (cs : List Char) : Bool := !cs.isEmpty && cs.all p

def isNumerals : List Char → Bool
  | c :: rest => isDigit c && rest.all isNumeral
  | [] => false

def isSixtieth : List Char → Bool
  | [d] => isDigit d
  | [t, d] => '0' ≤ t && t ≤ '5' && isDigit d
  | _ => false

def isSexagesimal (cs : List Char) : Bool :=
  match splitBy (· == ':') cs with
  | first :: part :: parts => isNumerals first && (part :: parts).all isSixtieth
  | _ => false

def isWholeNumber (cs : List Char) : Bool :=
  match dropSign cs with
  | ['0'] => true
  | '0' :: 'b' :: digits => isRun (fun c => c == '0' || c == '1' || c == '_') digits
  | '0' :: 'x' :: digits => isRun isHexNumeral digits
  | '0' :: digits => isRun (fun c => ('0' ≤ c && c ≤ '7') || c == '_') digits
  | digits => isNumerals digits || isSexagesimal digits

def isExponent : List Char → Bool
  | [] => true
  | e :: sign :: digits => (e == 'e' || e == 'E') && isSign sign && isRun isDigit digits
  | _ => false

def isFraction (cs : List Char) : Bool :=
  let unsigned := dropSign cs
  infinities.contains (String.ofList unsigned) || notNumbers.contains (String.ofList cs) ||
    (match cutFirst '.' unsigned with
    | some (whole, rest) =>
      (isNumerals whole && isExponent (rest.dropWhile isNumeral)) ||
        (isSexagesimal whole && rest.all isNumeral)
    | none => false) ||
    (match cs with
    | '.' :: d :: rest => isDigit d && isExponent (rest.dropWhile isNumeral)
    | _ => false)

/-- What follows the digits at the start, of which there are at least `least`; at most `most` are
taken. -/
def afterDigits (least most : Nat) (cs : List Char) : Option (List Char) :=
  let count := ((cs.take most).takeWhile isDigit).length
  if least ≤ count then some (cs.drop count) else none

def afterChar (expected : Char) : List Char → Option (List Char)
  | c :: rest => if c = expected then some rest else none
  | [] => none

def isGap (c : Char) : Bool := c == ' ' || c == '\t'

def afterDate (least : Nat) (cs : List Char) : Option (List Char) := do
  let rest ← afterDigits 4 4 cs
  let rest ← afterDigits least 2 (← afterChar '-' rest)
  afterDigits least 2 (← afterChar '-' rest)

def isZone (cs : List Char) : Bool :=
  cs.isEmpty || match cs.dropWhile isGap with
    | ['Z'] => true
    | c :: rest =>
      isSign c && (match afterDigits 1 2 rest with
        | some [] => true
        | some (':' :: minutes) => afterDigits 2 2 minutes == some []
        | _ => false)
    | [] => false

def isTime (cs : List Char) : Bool :=
  match (do
    let rest ← afterDigits 1 2 cs
    let rest ← afterDigits 2 2 (← afterChar ':' rest)
    afterDigits 2 2 (← afterChar ':' rest)) with
  | some ('.' :: rest) => isZone (rest.dropWhile isDigit)
  | some rest => isZone rest
  | none => false

def isPointInTime (cs : List Char) : Bool :=
  afterDate 2 cs == some [] ||
    match afterDate 1 cs with
    | some (c :: rest) =>
      if c == 'T' || c == 't' then isTime rest
      else isGap c && isTime (rest.dropWhile isGap)
    | _ => false

def isTaken (s : String) : Bool :=
  truthWords.contains s || nothingWords.contains s || signs.contains s ||
    isWholeNumber s.toList || isFraction s.toList || isPointInTime s.toList

end SoapComponents.Yaml
