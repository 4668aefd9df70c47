import SoapComponents.Failure
import SoapComponents.Text.Cut

/-!
Hosts of URLs. A host in brackets is an address of sixteen bytes, or of a future kind that begins
with `v`; and no character of a host may stand for a separator of URLs in another width.
-/

set_option autoImplicit false

namespace SoapComponents

open SoapComponents.Text

def isHexDigit (c : Char) : Bool :=
  ('0' ≤ c && c ≤ '9') || ('a' ≤ c && c ≤ 'f') || ('A' ≤ c && c ≤ 'F')

/-- Four decimal numbers below 256, without needless zeros. -/
def isShortAddress (cs : List Char) : Bool :=
  let parts := splitBy (· == '.') cs
  parts.length == 4 && parts.all fun part =>
    !part.isEmpty && part.length ≤ 3 && part.all Char.isDigit &&
      (part.length == 1 || part.head? != some '0') &&
      part.foldl (fun n c => 10 * n + (c.toNat - 48)) 0 ≤ 255

/-- Groups of up to four hexadecimal digits; the last one may be a short address instead. The
answer is the number of groups, of which a short address counts for two. -/
def groupCount? : List (List Char) → Option Nat
  | [] => some 0
  | [part] =>
    if isShortAddress part then some 2
    else if !part.isEmpty && part.length ≤ 4 && part.all isHexDigit then some 1
    else none
  | part :: rest =>
    if !part.isEmpty && part.length ≤ 4 && part.all isHexDigit then (groupCount? rest).map (· + 1)
    else none

def cutPair : List Char → Option (List Char × List Char)
  | ':' :: ':' :: rest => some ([], rest)
  | c :: rest => (cutPair rest).map fun parts => (c :: parts.1, parts.2)
  | [] => none

def colonGroups? (cs : List Char) : Option Nat :=
  if cs.isEmpty then some 0 else groupCount? (splitBy (· == ':') cs)

/-- Eight groups, or fewer around one pair of colons. -/
def isLongAddress (cs : List Char) : Bool :=
  let (address, zone) := match cutFirst '%' cs with
    | some (address, zone) => (address, some zone)
    | none => (cs, none)
  let zoned := match zone with
    | some z => !z.isEmpty && !z.contains '%'
    | none => true
  zoned && match cutPair address with
    | some (before, after) =>
      (match colonGroups? before, colonGroups? after with
      | some m, some n => m + n ≤ 7 && !before.contains '.'
      | _, _ => false)
    | none => groupCount? (splitBy (· == ':') address) == some 8

def bracketFlaw? (host : List Char) : Option LocationFlaw :=
  match host with
  | 'v' :: rest =>
    match cutFirst '.' rest with
    | some (version, tail) =>
      if !version.isEmpty && version.all isHexDigit && !tail.isEmpty && !tail.contains '\n' then none
      else some .futureAddress
    | none => some .futureAddress
  | _ =>
    if isLongAddress host then none
    else if isShortAddress host then some .shortAddressInBrackets
    else some (.addressInBrackets (String.ofList host))

def separatorLookalikes : List Nat := [
  0x2047, 0x2048, 0x2049, 0x2100, 0x2101, 0x2105, 0x2106, 0x2A74, 0xFE13, 0xFE16, 0xFE55, 0xFE56,
  0xFE5F, 0xFE6B, 0xFF03, 0xFF0F, 0xFF1A, 0xFF1F, 0xFF20]

def hostFlaw? (host : List Char) : Option LocationFlaw :=
  let opened := host.contains '['
  let closed := host.contains ']'
  if opened != closed then some .brackets
  else
    let inner := (host.dropWhile (· != '[')).drop 1 |>.takeWhile (· != ']')
    match if opened then bracketFlaw? inner else none with
    | some flaw => some flaw
    | none =>
      if host.any fun c => separatorLookalikes.contains c.toNat then
        some (.hostCharacters (String.ofList host))
      else none

end SoapComponents
