import SoapComponents.Text.Quoted
import SoapComponents.Yaml.Resolved

/-!
How a text is written in a document: without marks where that cannot be misread, else between
single marks, and between double marks with escapes where there is no other way. Long texts go on
in the next line, at a blank where one stands.
-/

set_option autoImplicit false

namespace SoapComponents.Yaml

def isBreak (c : Char) : Bool := c == '\n' || c == '\u0085' || c == '\u2028' || c == '\u2029'

def isSeparator (c : Char) : Bool :=
  isBreak c || c == ' ' || c == '\t' || c == '\r' || c == '\x00'

def isReadable (c : Char) : Bool :=
  let n := c.toNat
  c == '\n' || (32 ≤ n && n ≤ 126) || n == 0x85 || (0xA0 ≤ n && n ≤ 0xD7FF) ||
    (0xE000 ≤ n && n ≤ 0xFFFD && n != 0xFEFF) || (0x10000 ≤ n && n < 0x10FFFF)

def touches (p q : Char → Bool) : List Char → Bool
  | a :: b :: rest => (p a && q b) || touches p q (b :: rest)
  | _ => false

def isBlank (c : Char) : Bool := c == ' '

def fitsSingle (cs : List Char) : Bool :=
  cs.all isReadable && !touches isBlank isBreak cs && !touches isBreak isBlank cs

def isMultiline (cs : List Char) : Bool := cs.any isBreak

def leadingIndicators : List Char := "#,[]\x7b\x7d&*!|>\x27\"%@\x60".toList

def endsToken : List Char → Bool
  | c :: _ => isSeparator c
  | [] => true

/-- A colon that ends a token, or a number sign that begins one. -/
def hasIndicator : List Char → Bool
  | c :: d :: rest =>
    (d == ':' && endsToken rest) || (isSeparator c && d == '#') || hasIndicator (d :: rest)
  | _ => false

def startsWithIndicator (cs : List Char) : Bool :=
  match cs with
  | c :: rest =>
    leadingIndicators.contains c ||
      ((c == '?' || c == ':' || c == '-') && endsToken rest) ||
      "---".toList.isPrefixOf cs || "...".toList.isPrefixOf cs
  | [] => false

def fitsPlain (cs : List Char) : Bool :=
  !isTaken (String.ofList cs) && cs.all isReadable && !isMultiline cs &&
    cs.head?.all (!isBlank ·) && cs.getLast?.all (!isBlank ·) &&
    !startsWithIndicator cs && !hasIndicator cs

structure Place where
  indent : Nat
  column : Nat
  mayFold : Bool

def bestWidth : Nat := 80

def newLine (indent : Nat) : List Char := '\n' :: List.replicate indent ' '

namespace Place

def moved (p : Place) (width : Nat) : Place := { p with column := p.column + width }

def folded (p : Place) : Place := { p with column := p.indent }

def isFull (p : Place) : Bool := p.mayFold && bestWidth < p.column

end Place

/-- Writes a text without marks. A blank between two words ends the line if the line is full. -/
def plainFrom (p : Place) : List Char → List Char
  | a :: ' ' :: b :: rest =>
    if a != ' ' && b != ' ' && (p.moved 1).isFull then
      a :: newLine p.indent ++ plainFrom p.folded (b :: rest)
    else a :: plainFrom (p.moved 1) (' ' :: b :: rest)
  | c :: rest => c :: plainFrom (p.moved 1) rest
  | [] => []

/-- Writes a text between single marks. `before` is the character before. A mark is written twice,
and a line end as one more, save that another kind of line end stays as it is. -/
def singleFrom (p : Place) (before : Option Char) : List Char → List Char
  | [] => []
  | c :: rest =>
    let follows := rest.head?
    if c = Text.apostrophe then c :: c :: singleFrom (p.moved 2) (some c) rest
    else if isBreak c then
      (if c = '\n' && !before.any isBreak then [c] else []) ++ c ::
        (if follows.any isBreak then singleFrom p.folded (some c) rest
        else List.replicate p.indent ' ' ++ singleFrom p.folded (some c) rest)
    else if c = ' ' && p.isFull && before.any (· != ' ') && follows.any (· != ' ') then
      newLine p.indent ++ singleFrom p.folded (some c) rest
    else c :: singleFrom (p.moved 1) (some c) rest

def letterEscape? (c : Char) : Option Char :=
  match c with
  | '\x00' => some '0'
  | '\x07' => some 'a'
  | '\x08' => some 'b'
  | '\t' => some 't'
  | '\n' => some 'n'
  | '\x0b' => some 'v'
  | '\x0c' => some 'f'
  | '\r' => some 'r'
  | '\x1b' => some 'e'
  | '\x22' => some '\x22'
  | '\\' => some '\\'
  | '\u0085' => some 'N'
  | '\u2028' => some 'L'
  | '\u2029' => some 'P'
  | _ => none

def isUnescaped (c : Char) : Bool :=
  let n := c.toNat
  (32 ≤ n && n ≤ 126 && c != '\x22' && c != '\\') ||
    (0xA0 ≤ n && n ≤ 0xFFFD && n != 0x2028 && n != 0x2029 && n != 0xFEFF)

def upperHex (width n : Nat) : List Char := (Text.hexDigits width n).map Char.toUpper

def escape? (c : Char) : Option (List Char) :=
  if isUnescaped c then none
  else some ('\\' :: match letterEscape? c with
    | some letter => [letter]
    | none =>
      let n := c.toNat
      if n ≤ 0xFF then 'x' :: upperHex 2 n
      else if n ≤ 0xFFFF then 'u' :: upperHex 4 n
      else 'U' :: upperHex 8 n)

/-- The end of a full line between double marks, and the start of the next: a blank there is
escaped. -/
def doubleFold (p : Place) (next : Option Char) : List Char :=
  '\\' :: newLine p.indent ++ (if next == some ' ' then ['\\'] else [])

def afterFold (p : Place) (next : Option Char) : Place :=
  if next == some ' ' then p.folded.moved 1 else p.folded

/-- Writes a text between double marks. `run` holds the characters since the last escape or line
end, the last one first; they are written when the next escape or line end comes. -/
def doubleFrom (p : Place) (run : List Char) (isFirst : Bool) : List Char → List Char
  | [] => run.reverse
  | c :: rest =>
    let inside := !isFirst && !rest.isEmpty
    match escape? c with
    | some escape =>
      let p := p.moved (run.length + escape.length)
      run.reverse ++ escape ++
        if inside && p.mayFold && bestWidth + 1 < p.column then
          doubleFold p rest.head? ++ doubleFrom (afterFold p rest.head?) [] false rest
        else doubleFrom p [] false rest
    | none =>
      if inside && (c == ' ' || run.isEmpty) && (p.moved run.length).isFull then
        run.reverse ++ doubleFold p (some c) ++ doubleFrom (afterFold p (some c)) [c] false rest
      else doubleFrom p (c :: run) false rest

def scalar (p : Place) (s : String) : List Char :=
  let cs := s.toList
  if fitsPlain cs then plainFrom p cs
  else if fitsSingle cs then
    Text.apostrophe :: singleFrom (p.moved 1) none cs ++ [Text.apostrophe]
  else Text.doubleMark :: doubleFrom (p.moved 1) [] true cs ++ [Text.doubleMark]

end SoapComponents.Yaml
