import SoapComponents.Proofs.Prefix.Usable
import SoapComponents.Proofs.Settings

/-!
The parts of a prefix: a stem from the last segment of the namespace, a digest of three characters
and, where no digest that may be tried makes a prefix available, a number. Every environment gives
settings under which a new prefix is made of such parts.
-/

set_option autoImplicit false

namespace SoapComponents

open Prefix Text Digest

namespace Prefix

/-- A stem before it is cut: the small letters and digits of the last segment, after an `n` where
no letter comes first. -/
def fullStem (space : String) : List Char :=
  let cs := (lowerFrom [] (lastSegment space)).filter isStemChar
  if cs.head?.any (·.isLower) then cs else 'n' :: cs

theorem isLower_eq_not_isDigit {c : Char} (h : isStemChar c = true) : c.isLower = !c.isDigit := by
  cases hd : c.isDigit with
  | true =>
    refine Bool.eq_false_iff.2 fun hl => ?_
    have hletter : 97 ≤ c.toNat := of_decide_eq_true (Bool.and_eq_true_iff.1 hl).1
    have hdigit := isDigit_iff.1 hd
    omega
  | false => exact isLower_of_isStemChar h hd

theorem stem_eq_take (space : String) {length : Nat} (h : 1 ≤ length) :
    stem space length = (fullStem space).take length := by
  obtain ⟨left, rfl⟩ := Nat.exists_eq_add_of_le' h
  have hplain : ∀ c ∈ (lowerFrom [] (lastSegment space)).filter isStemChar, isStemChar c = true :=
    fun c hc => (List.mem_filter.1 hc).2
  unfold stem fullStem
  generalize (lowerFrom [] (lastSegment space)).filter isStemChar = cs at hplain ⊢
  cases cs with
  | nil => rfl
  | cons c rest =>
    have hlower := isLower_eq_not_isDigit (hplain c List.mem_cons_self)
    cases hd : c.isDigit with
    | true =>
      have htwice : (c :: rest.take left).take left = (c :: rest).take left := by
        rw [← List.take_succ_cons, List.take_take, Nat.min_eq_left (Nat.le_succ left)]
      simp [hlower, hd, htwice]
    | false => simp [hlower, hd]

def digest (space : String) (seed : Nat) : String := String.ofList (hash space seed)

theorem length_digest (space : String) (seed : Nat) : (digest space seed).length = 3 := by
  simp [digest, hash, length_base36, hashWidth]

theorem isStemChar_digest {space : String} {seed : Nat} {c : Char}
    (h : c ∈ (digest space seed).toList) : isStemChar c = true := by
  rw [digest, String.toList_ofList] at h
  exact Prefixes.isStemChar_base36 h

structure Parts where
  stem : String
  digest : String
  number : Option Nat

namespace Parts

def text (t : Parts) : String := t.stem ++ t.digest ++ (t.number.map toString).getD ""

/-- The parts of a prefix by their looks, for stems of at most `length` characters. -/
structure Shaped (t : Parts) (space : String) (length : Int) : Prop where
  stem_eq : t.stem = String.ofList ((fullStem space).take length.toNat)
  stem_plain : IsPlainName t.stem
  stem_le : (t.stem.length : Int) ≤ length
  digest_length : t.digest.length = 3
  digest_plain : ∀ c ∈ t.digest.toList, isStemChar c = true

def candidate (t : Parts) (space : String) (seed : Nat) : String :=
  t.stem ++ Prefix.digest space seed

/-- The parts of a prefix by the way that they are found, where `p` says which prefixes are taken
and at most `attempts` digests are tried. -/
structure Found (t : Parts) (p : Prefixes) (space : String) (attempts : Int) : Prop where
  /-- Without a number, the digest is the first one that makes the prefix available. -/
  hashed : t.number = none → ∃ seed : Nat, (seed : Int) < attempts ∧
    t.digest = Prefix.digest space seed ∧ p.isAvailable (t.candidate space seed) space = true ∧
    ∀ earlier < seed, p.isAvailable (t.candidate space earlier) space = false
  /-- A number is there only if no digest does so, and is the least that makes it available. -/
  numbered : ∀ n, t.number = some n →
    (∀ seed : Nat, (seed : Int) < attempts →
      p.isAvailable (t.candidate space seed) space = false) ∧
    t.digest = Prefix.digest space 0 ∧ p.LeastNumber (t.candidate space 0) space n

theorem shaped (space : String) (seed : Nat) (number : Option Nat) {length : Int}
    (h : 1 ≤ length) :
    (⟨String.ofList (Prefix.stem space length.toNat), Prefix.digest space seed, number⟩ :
      Parts).Shaped space length where
  stem_eq := by rw [stem_eq_take space (by omega)]
  stem_plain := by
    have hpos : 1 ≤ length.toNat := by omega
    obtain ⟨first, rest, heq, hlower⟩ := stem_eq_cons space hpos
    refine ⟨first, rest, by rw [String.toList_ofList, heq], hlower, fun c hc => ?_⟩
    exact Prefixes.isStemChar_stem (heq ▸ List.mem_cons_of_mem _ hc)
  stem_le := by
    have hle := length_stem_le space length.toNat
    rw [String.length_ofList]
    omega
  digest_length := length_digest space seed
  digest_plain := fun _ hc => isStemChar_digest hc

end Parts

end Prefix

namespace Prefixes

theorem hashed_eq_append (policy : Policy) (space : String) (seed : Nat) :
    hashed policy space seed =
      String.ofList (stem space policy.stemLength) ++ Prefix.digest space seed := by
  rw [hashed, Prefix.digest, String.ofList_append]

theorem Chosen.exists_parts {p : Prefixes} {settings : Settings} {space found : String}
    (h : p.Chosen (.ofSettings settings) space found) (hstem : 1 ≤ settings.stemLength) :
    ∃ parts : Parts, found = parts.text ∧ parts.Shaped space settings.stemLength ∧
      parts.Found p space settings.prefixAttempts := by
  have htried : ∀ seed : Nat, (seed : Int) < settings.prefixAttempts ↔
      seed < (Policy.ofSettings settings).attempts := fun seed => by
    simp only [Policy.ofSettings]
    omega
  cases h with
  | hashed seed lt available earlier =>
    simp only [hashed_eq_append] at available earlier ⊢
    refine ⟨_, ?_, Parts.shaped space seed none hstem, ⟨fun _ => ?_, nofun⟩⟩
    · simp [Parts.text, Policy.ofSettings]
    · exact ⟨seed, (htried seed).2 lt, rfl, available, earlier⟩
  | numbered n exhausted least =>
    simp only [hashed_eq_append] at exhausted least ⊢
    refine ⟨_, ?_, Parts.shaped space 0 (some n) hstem, ⟨nofun, fun _ heq => ?_⟩⟩
    · simp [Parts.text, Policy.ofSettings]
    · obtain rfl := Option.some.inj heq
      exact ⟨fun seed hseed => exhausted seed ((htried seed).1 hseed), rfl, least⟩

/-- Under the settings of any environment, and whatever prefixes there are, a namespace that has
none gets one with a stem, a digest and perhaps a number. The length of stems and the digests to
try are as many as the environment writes, where that is a positive number, and six and ten
otherwise. -/
theorem prefixFor_parts (raw : String → Option String) (p : Prefixes) (space : String)
    (hnew : p.bySpace.value? space = none) :
    let settings := (Settings.read raw).value
    settings.stemLength =
        (Setting.atLeast? 1 (raw "WSDL2TSX_PREFIX_STEM_LENGTH")).getD 6 ∧
      settings.prefixAttempts =
        (Setting.atLeast? 1 (raw "WSDL2TSX_MAX_PREFIX_ATTEMPTS")).getD 10 ∧
      ∃ parts : Parts, (p.prefixFor (.ofSettings settings) space).value.1 = parts.text ∧
        parts.Shaped space settings.stemLength ∧
        parts.Found p space settings.prefixAttempts := by
  intro settings
  obtain ⟨-, hattempts, hlength⟩ := Settings.numbers_read raw
  refine ⟨hlength, hattempts, ?_⟩
  rcases p.prefixFor_cases (.ofSettings settings) space with ⟨found, hf, -⟩ | ⟨found, -, hc, heq⟩
  · rw [hnew] at hf
    cases hf
  · rw [heq]
    exact hc.exists_parts (Settings.positive_read raw).2.2

def sampleEnvironment : String → Option String
  | "WSDL2TSX_PREFIX_STEM_LENGTH" => some "many"
  | "WSDL2TSX_MAX_PREFIX_ATTEMPTS" => some "1"
  | _ => none

/-- The only prefix that may be tried is taken, so that a number is needed. -/
theorem numbered_calculator :
    let settings := (Settings.read sampleEnvironment).value
    let p : Prefixes := ⟨[], [("calcul5eo", "http://example.org/calculator")]⟩
    let space := "http://example.com/Calculator"
    p.bySpace.value? space = none ∧ settings.stemLength = 6 ∧ settings.prefixAttempts = 1 ∧
      ∃ parts : Parts, parts.text = "calcul5eo2" ∧ parts.Shaped space 6 ∧
        parts.Found p space 1 := by
  intro settings p space
  have hnew : p.bySpace.value? space = none := rfl
  obtain ⟨hlength, hattempts, parts, htext, hshaped, hfound⟩ :=
    prefixFor_parts sampleEnvironment p space hnew
  have hsix : settings.stemLength = 6 := hlength.trans (by decide +kernel)
  have hone : settings.prefixAttempts = 1 := by
    have hwritten :
        Setting.atLeast? 1 (sampleEnvironment "WSDL2TSX_MAX_PREFIX_ATTEMPTS") = some 1 :=
      Setting.atLeast?_toString (n := 1) (by decide) (by decide)
    exact hattempts.trans (by rw [hwritten]; rfl)
  have hcalculator : (p.prefixFor (.ofSettings settings) space).value.1 = "calcul5eo2" := by
    rw [Policy.ofSettings, hsix, hone]
    decide +kernel
  rw [hcalculator] at htext
  rw [hsix] at hshaped
  rw [hone] at hfound
  exact ⟨hnew, hsix, hone, parts, htext.symm, hshaped, hfound⟩

end Prefixes

end SoapComponents
