import SoapComponents.Text.Printable

/-!
A text between quotation marks, as messages show it. Apostrophes enclose it unless it holds one
and no double mark; the enclosing mark, the backslash and characters that cannot be shown are
written as escapes.
-/

set_option autoImplicit false

namespace SoapComponents.Text

def hexDigit (n : Nat) : Char :=
  if n < 10 then Char.ofNat (48 + n) else Char.ofNat (87 + n)

def hexDigits : Nat → Nat → List Char
  | 0, _ => []
  | width + 1, n => hexDigits width (n / 16) ++ [hexDigit (n % 16)]

def apostrophe : Char := '\x27'

def doubleMark : Char := '\x22'

def enclosingMark (cs : List Char) : Char :=
  if cs.contains apostrophe && !cs.contains doubleMark then doubleMark else apostrophe

def escape (mark c : Char) : List Char :=
  if c == mark || c == '\\' then ['\\', c]
  else if c == '\t' then ['\\', 't']
  else if c == '\n' then ['\\', 'n']
  else if c == '\r' then ['\\', 'r']
  else if isPrintable c then [c]
  else if c.toNat ≤ 0xFF then '\\' :: 'x' :: hexDigits 2 c.toNat
  else if c.toNat ≤ 0xFFFF then '\\' :: 'u' :: hexDigits 4 c.toNat
  else '\\' :: 'U' :: hexDigits 8 c.toNat

def quoted (s : String) : String :=
  let mark := enclosingMark s.toList
  String.ofList (mark :: (s.toList.flatMap (escape mark) ++ [mark]))

end SoapComponents.Text
