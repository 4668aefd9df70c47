import SoapComponents.Text.Cut

/-!
File paths in normal form: empty and `.` segments are dropped, `..` is kept. Two slashes at the
start, and no more, are a root of their own.
-/

set_option autoImplicit false

namespace SoapComponents

structure Path where
  root : String
  segments : List String
  deriving DecidableEq

namespace Path

def segmentsOf (cs : List Char) : List String :=
  ((Text.splitBy (· == '/') cs).map String.ofList).filter fun s => s ≠ "" && s ≠ "."

def parse (s : String) : Path :=
  match s.toList with
  | '/' :: '/' :: '/' :: rest => ⟨"/", segmentsOf rest⟩
  | '/' :: '/' :: rest => ⟨"//", segmentsOf rest⟩
  | '/' :: rest => ⟨"/", segmentsOf rest⟩
  | cs => ⟨"", segmentsOf cs⟩

def isAbsolute (p : Path) : Bool := p.root ≠ ""

def toText (p : Path) : String :=
  if p.root == "" && p.segments.isEmpty then "."
  else p.root ++ "/".intercalate p.segments

def parent (p : Path) : Path := { p with segments := p.segments.dropLast }

def join (p q : Path) : Path :=
  if q.isAbsolute then q else { p with segments := p.segments ++ q.segments }

/-- Takes away a segment for every `..` after it; at the root there is none to take. -/
def climb (segments : List String) : List String :=
  segments.foldl (fun found s => if s == ".." then found.dropLast else found ++ [s]) []

def resolve (p : Path) : Path :=
  ⟨if p.isAbsolute then p.root else "/", climb p.segments⟩

def normalize (s : String) : String := (parse s).toText

end Path

end SoapComponents
