import SoapComponents.Location.Basic
import SoapComponents.Noted
import SoapComponents.Settings.Basic
import SoapComponents.Tree.Query

/-!
The documents that a run can have, by location. A document is what a file holds or what a server
answers; every other location is a file that is not there, or a page that was not found.
-/

set_option autoImplicit false

namespace SoapComponents

inductive Source where
  | file (bytes : List UInt8)
  | unreadable (detail : String)
  | answer (status : Int) (reason : String) (bytes : List UInt8)
  | silence
  | refused (detail : String)

abbrev Library := Table Source

namespace Source

def read (location : String) : Source → Except Failure (List UInt8)
  | file bytes | answer _ _ bytes => .ok bytes
  | unreadable detail | refused detail => .error (.notLoaded location (.unreadable detail))
  | silence => .error (.notLoaded location (.unreadable ""))

def fetch (timeout : Int) (location : String) : Source → Except Failure (List UInt8)
  | file bytes => .ok bytes
  | answer status reason bytes =>
    if status ≥ 400 then .error (.notLoaded location (.status status reason)) else .ok bytes
  | silence => .error (.notLoaded location (.noResponse timeout))
  | refused detail | unreadable detail => .error (.notLoaded location (.requestFailed detail))

end Source

namespace Library

def missingFile : Source := .unreadable "No such file or directory"

def missingPage : Source := .answer 404 "Not Found" []

def load (library : Library) (timeout : Int) (location : String) : Outcome (List UInt8) := do
  match Url.isRemote location with
  | .error flaw => throw (.badLocation flaw)
  | .ok true =>
    Outcome.tell (.fetching location timeout)
    Outcome.ofExcept (((Table.value? library location).getD missingPage).fetch timeout location)
  | .ok false =>
    let path := Path.normalize location
    Outcome.tell (.reading path)
    Outcome.ofExcept (((Table.value? library path).getD missingFile).read location)

end Library

def Tree.parse (bytes : List UInt8) : Except Failure Tree :=
  match Xml.events bytes with
  | .error .invalid => .error .malformed
  | .error (.unknown name) => .error (.unknownEncoding name)
  | .error .multiByte => .error .multiByteEncoding
  | .ok events =>
    match Tree.ofEvents? events with
    | some tree => .ok tree
    | none => .error .malformed

end SoapComponents
