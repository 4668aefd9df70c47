import SoapComponents.Noted
import SoapComponents.Text.Blank
import SoapComponents.Text.Cut
import SoapComponents.Text.Integer
import SoapComponents.Text.LetterCase

/-!
Reading one setting. A setting is a text or is not there; blanks around the text are taken away
and told of, and a text that does not fit gives the default.
-/

set_option autoImplicit false

namespace SoapComponents

structure Setting where
  name : String
  raw : Option String

namespace Setting

def clean (s : Setting) (default : Option String) : Noted (Option String) := do
  match s.raw.or default with
  | none => return none
  | some raw =>
    let cleaned := Text.trim raw
    if raw ≠ cleaned then Noted.tell (.blanksAround s.name raw cleaned)
    return some cleaned

def untouched (s : Setting) (default : Option String) : Option String := s.raw.or default

def bool (s : Setting) (default : Bool) : Noted Bool := do
  match ← s.clean none with
  | none => return default
  | some raw =>
    let word := Text.lower raw
    if ["true", "1", "yes", "on"].contains word then return true
    else if ["false", "0", "no", "off", ""].contains word then return false
    else
      Noted.tell (.notBoolean s.name raw default)
      return default

def int (s : Setting) (default : Int) (minimum : Option Int) : Noted Int := do
  match Name.given? (← s.clean none) with
  | none => return default
  | some raw =>
    match Text.integer? raw with
    | none =>
      Noted.tell (.notInteger s.name raw default)
      return default
    | some value =>
      match minimum with
      | some least =>
        if value < least then
          Noted.tell (.belowMinimum s.name value least default)
          return default
        else return value
      | none => return value

def list (s : Setting) (default : List String) (separator : String) : Outcome (List String) := do
  match Name.given? (← s.clean none) with
  | none => return default
  | some raw =>
    if separator == "" then throw .emptySeparator
    let items := ((Text.splitOn separator raw).map Text.trim).filter (· ≠ "")
    return if items.isEmpty then default else items

end Setting

end SoapComponents
