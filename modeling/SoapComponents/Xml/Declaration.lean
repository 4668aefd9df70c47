import SoapComponents.Xml.Scan

/-!
The declaration that a document may begin with. It gives the version, may name the encoding of the
document, and may say that the document stands alone.
-/

set_option autoImplicit false

namespace SoapComponents.Xml

structure Declaration where
  encoding : Option String := none
  standalone : Bool := false

namespace Scan

def declarationItem (keyword : String) : Scan (List Char) := do
  literal keyword.toList
  let _ ← blanks
  literal ['=']
  let _ ← blanks
  let value ← quotedText
  if value.all fun c => c.isAlphanum || c == '.' || c == '_' || c == '-' then return value
  else failure

def encodingItem : Scan String := do
  let value ← declarationItem "encoding"
  if value.head?.any Char.isAlpha then return String.ofList value else failure

def standaloneItem : Scan Bool := do
  let value := String.ofList (← declarationItem "standalone")
  if value == "yes" then return true
  else if value == "no" then return false
  else failure

def declarationRest : Scan Declaration := do
  let _ ← blanks
  let _ ← declarationItem "version"
  let spaced ← blanks
  let (encoding, spaced) ←
    if ← sees "encoding".toList then
      if !spaced then failure
      let name ← encodingItem
      pure (some name, ← blanks)
    else pure (none, spaced)
  let standalone ←
    if ← sees "standalone".toList then
      if !spaced then failure
      let alone ← standaloneItem
      let _ ← blanks
      pure alone
    else pure false
  literal "?>".toList
  return ⟨encoding, standalone⟩

def declaration : Scan Declaration := do
  let cs ← get
  if "<?xml".toList.isPrefixOf cs && (cs.drop 5).head?.any fun c => isSpace c || c == '?' then
    literal "<?xml".toList
    declarationRest
  else return {}

end Scan

end SoapComponents.Xml
