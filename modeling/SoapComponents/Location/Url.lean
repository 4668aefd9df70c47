import SoapComponents.Location.Address

/-!
URLs and references to them. A reference is resolved against a base by its parts: what it leaves
out comes from the base, and its path goes on from the directory of the base's path.
-/

set_option autoImplicit false

namespace SoapComponents

open SoapComponents.Text

structure Url where
  scheme : String
  host : List Char
  path : List Char
  parameters : List Char
  query : List Char
  fragment : List Char

namespace Url

def isSchemeChar (c : Char) : Bool := c.isAlphanum || c == '+' || c == '-' || c == '.'

def remoteSchemes : List String := ["http", "https"]

def parameterSchemes : List String :=
  ["", "ftp", "hdl", "prospero", "http", "https", "shttp", "rtsp", "rtspu", "sip", "sips", "mms",
    "sftp", "tel"]

def tidy (cs : List Char) : List Char :=
  (cs.dropWhile fun c => c.toNat ≤ 32).filter fun c => c != '\t' && c != '\r' && c != '\n'

def cutScheme (fallback : String) (cs : List Char) : String × List Char :=
  match cutFirst ':' cs with
  | some (before, rest) =>
    if before.head?.any Char.isAlpha && before.all isSchemeChar then
      (String.ofList (before.map Char.toLower), rest)
    else (fallback, cs)
  | none => (fallback, cs)

def cutHost (cs : List Char) : List Char × List Char :=
  match cs with
  | '/' :: '/' :: rest =>
    let stops := fun c : Char => c != '/' && c != '?' && c != '#'
    (rest.takeWhile stops, rest.dropWhile stops)
  | _ => ([], cs)

def cutParameters (path : List Char) : List Char × List Char :=
  let (before, last) := match cutLast '/' path with
    | some (before, last) => (before ++ ['/'], last)
    | none => ([], path)
  match cutFirst ';' last with
  | some (segment, parameters) => (before ++ segment, parameters)
  | none => (path, [])

def parse (fallback s : String) : Except LocationFlaw Url :=
  let (scheme, rest) := cutScheme fallback (tidy s.toList)
  let (host, rest) := cutHost rest
  match hostFlaw? host with
  | some flaw => .error flaw
  | none =>
    let (rest, fragment) := (cutFirst '#' rest).getD (rest, [])
    let (path, query) := (cutFirst '?' rest).getD (rest, [])
    let (path, parameters) :=
      if parameterSchemes.contains scheme then cutParameters path else (path, [])
    .ok ⟨scheme, host, path, parameters, query, fragment⟩

/-- Whether a location is fetched and not read from a file. -/
def isRemote (s : String) : Except LocationFlaw Bool := do
  return remoteSchemes.contains (← parse "" s).scheme

/-- The text of a URL of a remote scheme. Such a URL has a place for its host even where the host is
empty, so its path is a rooted one. -/
def toText (u : Url) : String :=
  let path := if u.parameters.isEmpty then u.path else u.path ++ ';' :: u.parameters
  let rooted := if path.isEmpty || path.head? == some '/' then path else '/' :: path
  let text := u.scheme.toList ++ "://".toList ++ u.host ++ rooted
  let text := if u.query.isEmpty then text else text ++ '?' :: u.query
  String.ofList (if u.fragment.isEmpty then text else text ++ '#' :: u.fragment)

/-- The segments of a path of a reference, after those of the base's directory. Empty segments
inside are dropped. -/
def mergedSegments (base path : List Char) : List (List Char) :=
  let slash := fun c : Char => c == '/'
  if path.head? == some '/' then splitBy slash path
  else
    let directory := splitBy slash base
    let directory := if directory.getLast? == some [] then directory else directory.dropLast
    match directory ++ splitBy slash path with
    | first :: rest =>
      first :: (rest.dropLast.filter (· ≠ []) ++ rest.getLast?.toList)
    | [] => []

/-- Follows `.` and `..` in a list of segments. One of them at the end leaves a directory. -/
def followDots (segments : List (List Char)) : List (List Char) :=
  let found := segments.foldl (fun found s =>
    if s == ['.', '.'] then found.dropLast
    else if s == ['.'] then found
    else found ++ [s]) []
  let last := segments.getLast?
  if last == some ['.'] || last == some ['.', '.'] then found ++ [[]] else found

def resolve (base reference : String) : Except LocationFlaw String := do
  if base == "" then return reference
  if reference == "" then return base
  let b ← parse "" base
  let r ← parse b.scheme reference
  if r.scheme != b.scheme || !remoteSchemes.contains r.scheme then return reference
  if !r.host.isEmpty then return r.toText
  let r := { r with host := b.host }
  if r.path.isEmpty && r.parameters.isEmpty then
    let query := if r.query.isEmpty then b.query else r.query
    return { r with path := b.path, parameters := b.parameters, query := query }.toText
  let path := ['/'].intercalate (followDots (mergedSegments b.path r.path))
  return { r with path := if path.isEmpty then ['/'] else path }.toText

end Url

end SoapComponents
