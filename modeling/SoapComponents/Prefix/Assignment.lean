import SoapComponents.Noted
import SoapComponents.Prefix.Stem
import SoapComponents.Settings.Basic
import SoapComponents.Table

/-!
Prefixes for namespaces. A namespace gets its prefix when it is first asked for, and keeps it for
the rest of the run. Prefixes that are taken or reserved are avoided, first by other digests and
then by a number at the end.
-/

set_option autoImplicit false

namespace SoapComponents

/-- The prefixes of a run, from both sides. -/
structure Prefixes where
  bySpace : Table String := []
  byPrefix : Table String := []

namespace Prefix

def reserved : List String := [
  "xml", "soap", "ns", "props", "item", "case", "else", "enum", "null", "this", "true", "void",
  "with", "await", "break", "catch", "class", "const", "false", "super", "throw", "while", "yield",
  "delete", "export", "import", "public", "return", "static", "switch", "typeof", "default",
  "extends", "finally", "package", "private"]

structure Policy where
  attempts : Nat
  stemLength : Nat

def Policy.ofSettings (s : Settings) : Policy := ⟨s.prefixAttempts.toNat, s.stemLength.toNat⟩

end Prefix

namespace Prefixes

open Prefix

def isAvailable (p : Prefixes) (candidate space : String) : Bool :=
  !reserved.contains candidate &&
    (match p.byPrefix.value? candidate with
      | none => true
      | some owner => owner == space)

def hashed (policy : Policy) (space : String) (seed : Nat) : String :=
  String.ofList (stem space policy.stemLength ++ hash space seed)

def tryHashed (p : Prefixes) (policy : Policy) (space : String) :
    Nat → Nat → Noted (Option String)
  | 0, _ => return none
  | left + 1, seed => do
    let candidate := hashed policy space seed
    if p.isAvailable candidate space then return some candidate
    Noted.tell (.prefixTaken candidate space (seed + 1))
    p.tryHashed policy space left (seed + 1)

/-- The prefix with the least number from two on that is available. One of the first numbers is,
since there are more of them than prefixes that are taken or reserved. -/
def numbered (p : Prefixes) (policy : Policy) (space : String) : String :=
  let base := hashed policy space 0
  let candidates := (List.range (p.byPrefix.length + reserved.length + 1)).map fun i =>
    base ++ toString (i + 2)
  (candidates.find? (p.isAvailable · space)).getD base

def choose (p : Prefixes) (policy : Policy) (space : String) : Noted String := do
  match ← p.tryHashed policy space policy.attempts 0 with
  | some found => return found
  | none =>
    let found := p.numbered policy space
    Noted.tell (.prefixNumbered space found)
    return found

def bind (p : Prefixes) (tagPrefix space : String) : Prefixes where
  bySpace := p.bySpace.put space tagPrefix
  byPrefix := p.byPrefix.put tagPrefix space

/-- The prefix of a namespace, which gets one if it has none, and the prefixes after that. -/
def prefixFor (p : Prefixes) (policy : Policy) (space : String) : Noted (String × Prefixes) :=
  match p.bySpace.value? space with
  | some found => pure (found, p)
  | none => do
    let found ← p.choose policy space
    return (found, p.bind found space)

end Prefixes

abbrev Assigning := StateT Prefixes Noted

namespace Assigning

def prefixFor (policy : Prefix.Policy) (space : String) : Assigning String :=
  fun p => p.prefixFor policy space

end Assigning

end SoapComponents
