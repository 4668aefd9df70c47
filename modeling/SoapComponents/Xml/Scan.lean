import SoapComponents.Xml.Characters

/-!
Reading from the front of a list of characters. A reader takes what it recognises and leaves the
rest, or fails; every failure means that the document is not well formed.
-/

set_option autoImplicit false

namespace SoapComponents.Xml

abbrev Scan := StateT (List Char) Option

namespace Scan

def literal (expected : List Char) : Scan Unit := do
  let cs ← get
  if expected.isPrefixOf cs then set (cs.drop expected.length) else failure

def sees (expected : List Char) : Scan Bool := return expected.isPrefixOf (← get)

def option (expected : List Char) : Scan Bool := do
  if ← sees expected then
    literal expected
    return true
  else return false

def next : Scan Char := do
  match ← get with
  | c :: rest => set rest; return c
  | [] => failure

def takeWhile (p : Char → Bool) : Scan (List Char) := do
  let cs ← get
  set (cs.dropWhile p)
  return cs.takeWhile p

def blanks : Scan Bool := return !(← takeWhile isSpace).isEmpty

def someBlanks : Scan Unit := do
  if !(← blanks) then failure

def upTo (stop : List Char) : Scan (List Char) := do
  let rec search (before : List Char) : List Char → Option (List Char × List Char)
    | [] => none
    | c :: rest =>
      if stop.isPrefixOf (c :: rest) then some (before.reverse, (c :: rest).drop stop.length)
      else search (c :: before) rest
  match search [] (← get) with
  | some (before, rest) => set rest; return before
  | none => failure

def plainName : Scan (List Char) := do
  match ← get with
  | c :: _ => if isNameStart c then takeWhile isNameChar else failure
  | [] => failure

/-- A name that may have one colon, between two parts that are names themselves. -/
def name : Scan (List Char) := do
  let first ← plainName
  if ← option [':'] then return first ++ ':' :: (← plainName) else return first

def nameToken : Scan (List Char) := do
  let cs ← takeWhile fun c => isNameChar c || c == ':'
  if cs.isEmpty then failure else return cs

def quotedText : Scan (List Char) := do
  let mark ← next
  if mark == '\x22' || mark == '\x27' then upTo [mark] else failure

def commentRest : Scan Unit := do
  let _ ← upTo ['-', '-']
  literal ['>']

/-- What follows the opening of a processing instruction. The target `xml` is kept for the
declaration at the start of a document. -/
def instructionRest : Scan Unit := do
  let target ← plainName
  if String.ofList (target.map Char.toLower) == "xml" then failure
  if ← sees ['?', '>'] then literal ['?', '>']
  else
    someBlanks
    let _ ← upTo ['?', '>']

end Scan

def normalizeLines : List Char → List Char
  | '\r' :: '\n' :: rest => '\n' :: normalizeLines rest
  | '\r' :: rest => '\n' :: normalizeLines rest
  | c :: rest => c :: normalizeLines rest
  | [] => []

def numbered? (base : Nat) (digits : List Char) : Option Char := do
  if digits.isEmpty then failure
  let n ← digits.foldlM (fun n c => do
    let d ←
      if '0' ≤ c && c ≤ '9' then some (c.toNat - 48)
      else if 'a' ≤ c && c ≤ 'f' then some (c.toNat - 87)
      else if 'A' ≤ c && c ≤ 'F' then some (c.toNat - 55)
      else none
    if d < base then some (base * n + d) else none) 0
  if h : n.isValidChar then
    let c := Char.ofNatAux n h
    if isCharacter c then some c else none
  else none

def predefined? (name : List Char) : Option Char :=
  match String.ofList name with
  | "lt" => some '<'
  | "gt" => some '>'
  | "amp" => some '&'
  | "quot" => some '\x22'
  | "apos" => some '\x27'
  | _ => none

def Scan.referenceRest : Scan (Char ⊕ List Char) := do
  if ← option ['#', 'x'] then
    let c ← numbered? 16 (← upTo [';'])
    return .inl c
  else if ← option ['#'] then
    let c ← numbered? 10 (← upTo [';'])
    return .inl c
  else
    let name ← plainName
    literal [';']
    match predefined? name with
    | some c => return .inl c
    | none => return .inr name

/-- The value of an attribute from the text between its marks. References to entities that are
not known fail unless `lenient`, which leaves them out. The first argument bounds the number of
steps. -/
def attributeValue? (lenient : Bool) : Nat → List Char → Option (List Char)
  | 0, _ => none
  | _ + 1, [] => some []
  | fuel + 1, c :: rest =>
    if c == '<' then none
    else if c == '&' then
      match Scan.referenceRest.run rest with
      | some (.inl found, rest) => (attributeValue? lenient fuel rest).map (found :: ·)
      | some (.inr _, rest) => if lenient then attributeValue? lenient fuel rest else none
      | none => none
    else (attributeValue? lenient fuel rest).map ((if isSpace c then ' ' else c) :: ·)

def collapseBlanks (cs : List Char) : List Char :=
  let rec go (pending : Bool) : List Char → List Char
    | [] => []
    | c :: rest =>
      if c == ' ' then go true rest
      else (if pending then [' '] else []) ++ c :: go false rest
  go false (cs.dropWhile (· == ' '))

end SoapComponents.Xml
