import Mathlib
import SoapComponents.Proofs.Location.Path
import SoapComponents.Proofs.Name

/-!
The names that generated code has for fields and interfaces, character by character. They are made
of the letters and digits of local names in their order; all that is lost of a local name is its
other characters and the case of some letters.
-/

set_option autoImplicit false

namespace SoapComponents

open Text

namespace Text

theorem toNat_toUpper (c : Char) :
    c.toUpper.toNat = if 97 ≤ c.toNat ∧ c.toNat ≤ 122 then c.toNat - 32 else c.toNat := by
  unfold Char.toUpper
  by_cases h : 97 ≤ c.toNat ∧ c.toNat ≤ 122
  · have hval : 'a'.val ≤ c.val ∧ c.val ≤ 'z'.val := h
    have hadd : (c.val + ('A'.val - 'a'.val)).toNat = (c.toNat + 4294967264) % 4294967296 :=
      UInt32.toNat_add ..
    rw [dif_pos hval, if_pos h]
    exact hadd.trans (by omega)
  · have hval : ¬ ('a'.val ≤ c.val ∧ c.val ≤ 'z'.val) := h
    rw [dif_neg hval, if_neg h]

theorem isAsciiAlphanum_iff {c : Char} : isAsciiAlphanum c = true ↔
    97 ≤ c.toNat ∧ c.toNat ≤ 122 ∨ 65 ≤ c.toNat ∧ c.toNat ≤ 90 ∨ 48 ≤ c.toNat ∧ c.toNat ≤ 57 := by
  simp only [isAsciiAlphanum, Bool.or_eq_true, Bool.and_eq_true, decide_eq_true_eq, or_assoc]
  rfl

theorem isAsciiAlphanum_toUpper (c : Char) : isAsciiAlphanum c.toUpper = isAsciiAlphanum c := by
  rw [Bool.eq_iff_iff, isAsciiAlphanum_iff, isAsciiAlphanum_iff, toNat_toUpper]
  split <;> omega

theorem isDigit_toUpper (c : Char) : c.toUpper.isDigit = c.isDigit := by
  rw [Bool.eq_iff_iff, isDigit_iff, isDigit_iff, toNat_toUpper]
  split <;> omega

theorem flatten_splitBy (p : Char → Bool) (cs : List Char) :
    (splitBy p cs).flatten = cs.filter (!p ·) := by
  induction cs with
  | nil => rfl
  | cons c rest ih =>
    rw [splitBy]
    cases hc : p c with
    | true => simp [hc, ih]
    | false =>
      rw [if_neg Bool.false_ne_true]
      split
      · next piece pieces heq =>
        rw [heq] at ih
        simp [hc, ← ih]
      · next heq => exact absurd heq (splitBy_ne_nil p rest)

end Text

namespace Name

theorem flatten_words (cs : List Char) : (words cs).flatten = cs.filter isAsciiAlphanum := by
  have hnil : (words cs).flatten = (splitBy (fun c => !isAsciiAlphanum c) cs).flatten := by
    unfold words
    induction splitBy (fun c => !isAsciiAlphanum c) cs with
    | nil => rfl
    | cons piece rest ih => cases piece <;> simp_all
  rw [hnil, flatten_splitBy]
  simp only [Bool.not_not]

theorem map_toUpper_capitalize (word : List Char) :
    (capitalize word).map Char.toUpper = word.map Char.toUpper := by
  cases word with
  | nil => rfl
  | cons c rest => simp [capitalize]

/-- What is left of a name that has no other characters than letters and digits, nor their case. -/
def skeleton (name : String) : List Char :=
  ((localPart name).toList.filter isAsciiAlphanum).map Char.toUpper

theorem map_toUpper_pascal (name : String) :
    (pascal name).toList.map Char.toUpper = skeleton name := by
  rw [pascal, String.toList_ofList, skeleton, ← flatten_words]
  induction words (localPart name).toList with
  | nil => rfl
  | cons word rest ih =>
    simp only [List.flatMap_cons, List.flatten_cons, List.map_append, map_toUpper_capitalize, ih]

theorem toList_camel (name : String) : (camel name).toList =
    (pascal name).toList.head?.toList.map Char.toLower ++ (pascal name).toList.tail := by
  unfold camel
  cases (pascal name).toList <;> simp

theorem map_toUpper_camel (name : String) :
    (camel name).toList.map Char.toUpper = skeleton name := by
  rw [toList_camel, ← map_toUpper_pascal]
  cases (pascal name).toList <;> simp

theorem isAsciiAlphanum_of_mem_camel {name : String} {c : Char} (h : c ∈ (camel name).toList) :
    isAsciiAlphanum c = true := by
  have hupper : c.toUpper ∈ skeleton name := map_toUpper_camel name ▸ List.mem_map_of_mem h
  obtain ⟨d, hd, heq⟩ := List.mem_map.1 hupper
  rw [← isAsciiAlphanum_toUpper, ← heq, isAsciiAlphanum_toUpper]
  exact (List.mem_filter.1 hd).2

/-- A name that code can have for a field: letters and digits, with no digit first. -/
def IsIdentifier (name : String) : Prop :=
  (∃ c, name.toList.head? = some c ∧ c.isDigit = false) ∧
    ∀ c ∈ name.toList, isAsciiAlphanum c = true

/-- The name of a field is one that code can have just when its local name has a letter or digit,
and the first of them is no digit. -/
theorem isIdentifier_camel_iff {name : String} : IsIdentifier (camel name) ↔
    ∃ c, (localPart name).toList.find? isAsciiAlphanum = some c ∧ c.isDigit = false := by
  have hhead : (camel name).toList.head?.map Char.toUpper =
      ((localPart name).toList.find? isAsciiAlphanum).map Char.toUpper := by
    rw [← List.head?_map, map_toUpper_camel, skeleton, List.head?_map, List.head?_filter]
  have hdigit : ∀ first : Option Char, (∃ c, first = some c ∧ c.isDigit = false) ↔
      (first.map Char.toUpper).any (!·.isDigit) = true := by
    intro first
    cases first <;> simp [isDigit_toUpper]
  rw [IsIdentifier, and_iff_left fun c => isAsciiAlphanum_of_mem_camel, hdigit, hdigit, hhead]

theorem skeleton_eq_of_camel_eq {a b : String} (h : camel a = camel b) :
    skeleton a = skeleton b := by
  rw [← map_toUpper_camel, h, map_toUpper_camel]

theorem camel_eq_localPart {name : String}
    (hchars : ∀ c ∈ (localPart name).toList, isAsciiAlphanum c = true)
    (hhead : (localPart name).toList.head?.all fun c => !c.isUpper) :
    camel name = localPart name := by
  have hwords : words (localPart name).toList =
      [(localPart name).toList].filter (· ≠ []) := by
    rw [words, splitBy_of_none fun c hc => by rw [hchars c hc, Bool.not_true]]
  apply String.toList_inj.1
  rw [toList_camel, pascal, String.toList_ofList, hwords]
  cases hname : (localPart name).toList with
  | nil => rfl
  | cons c rest =>
    have hc : ¬ c.isUpper = true := by simpa [hname] using hhead
    simp [capitalize, Char.toLower_eq_of_not_isUpper hc]

end Name

end SoapComponents
