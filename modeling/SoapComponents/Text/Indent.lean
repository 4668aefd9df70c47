/-!
Indentation of a block of lines. Blanks are put before lines that are not empty, and nothing else
changes.
-/

set_option autoImplicit false

namespace SoapComponents.Text

/-- Puts `pad` before the first character of every line that has one. `fresh` says that the next
character begins a line. -/
def indentFrom (pad : List Char) : Bool → List Char → List Char
  | _, [] => []
  | fresh, c :: rest =>
    if c = '\n' then c :: indentFrom pad true rest
    else (if fresh then pad else []) ++ c :: indentFrom pad false rest

def indent (block : String) (levels : Nat) : String :=
  String.ofList (indentFrom (List.replicate (4 * levels) ' ') true block.toList)

end SoapComponents.Text
