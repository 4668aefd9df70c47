import SoapComponents.Location.Path
import SoapComponents.Location.Url

/-!
Locations of documents: paths of files and remote URLs.
-/

set_option autoImplicit false

namespace SoapComponents.Location

def resolve (base : Option String) (reference : String) : Except LocationFlaw String := do
  if ← Url.isRemote reference then return reference
  match base with
  | none => return Path.normalize reference
  | some base =>
    if ← Url.isRemote base then Url.resolve base reference
    else
      let path := Path.parse reference
      if path.isAbsolute then return path.toText
      return ((Path.parse base).parent.join path).resolve.toText

end SoapComponents.Location
