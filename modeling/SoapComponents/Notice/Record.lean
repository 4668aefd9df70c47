import SoapComponents.Notice

/-!
Notices as lines of a log: an object in one line, with ASCII characters only.
-/

set_option autoImplicit false

namespace SoapComponents.Notice

def units (c : Char) : List Nat :=
  let n := c.toNat
  if n < 0x10000 then [n] else [0xD7C0 + n / 0x400, 0xDC00 + n % 0x400]

def escapeInRecord (c : Char) : List Char :=
  if c == Text.doubleMark || c == '\\' then ['\\', c]
  else if c == '\n' then ['\\', 'n']
  else if 32 ≤ c.toNat && c.toNat < 127 then [c]
  else (units c).flatMap fun unit => '\\' :: 'u' :: Text.hexDigits 4 unit

def inRecord (s : String) : String :=
  String.ofList
    (Text.doubleMark :: (s.toList.flatMap escapeInRecord ++ [Text.doubleMark]))

def record (n : Notice) : String :=
  let entry (key : String) (value : Option String) : String :=
    inRecord key ++ ": " ++ (value.map inRecord).getD "null"
  "\x7b" ++ ", ".intercalate [
    entry "levelname" n.level.name, entry "message" n.message, entry "operation" n.operation?,
    entry "location" n.location?] ++ "\x7d"

end SoapComponents.Notice
