import SoapComponents.Settings.Basic

/-!
Settings that are whole numbers. Such a setting is the number that its variable writes, where there
is one and it is not too small, and the default otherwise. So the settings of every environment
are within their bounds, and a number in decimal digits is taken as what it is.
-/

set_option autoImplicit false

namespace SoapComponents

open Text

namespace Text

variable {c : Char} {cs : List Char}

theorem decimalValue?_of_isDigit (h : c.isDigit = true) :
    decimalValue? c = some (c.toNat - 48) := by
  have hc := isDigit_iff.1 h
  simp [decimalValue?, decimalZeros, hc]

theorem isBlank_of_isDigit (h : c.isDigit = true) : isBlank c = false := by
  have hc := isDigit_iff.1 h
  simp only [isBlank, Bool.or_eq_false_iff, Bool.and_eq_false_iff, decide_eq_false_iff_not,
    beq_eq_false_iff_ne]
  omega

theorem digitsValue?_of_isDigit (h : ∀ c ∈ cs, c.isDigit = true) (value : Nat) :
    digitsValue? value true cs = some (Nat.ofDigitChars 10 cs value) := by
  induction cs generalizing value with
  | nil => rfl
  | cons c rest ih =>
    have hc := decimalValue?_of_isDigit (h c List.mem_cons_self)
    simp only [digitsValue?, hc, Nat.ofDigitChars_cons]
    exact ih (fun d hd => h d (List.mem_cons_of_mem _ hd)) _

theorem natural?_of_isDigit (h : ∀ c ∈ cs, c.isDigit = true) (hcs : cs ≠ [])
    (hlimit : cs.length ≤ digitLimit) : natural? cs = some (Nat.ofDigitChars 10 cs 0) := by
  have hcount : cs.filter (fun c => (decimalValue? c).isSome) = cs :=
    List.filter_eq_self.2 fun c hc => by rw [decimalValue?_of_isDigit (h c hc)]; rfl
  rw [natural?, hcount, if_pos hlimit]
  obtain ⟨c, rest, rfl⟩ := List.exists_cons_of_ne_nil hcs
  have hc := decimalValue?_of_isDigit (h c List.mem_cons_self)
  simp only [digitsValue?, hc, Nat.ofDigitChars_cons]
  exact digitsValue?_of_isDigit (fun d hd => h d (List.mem_cons_of_mem _ hd)) _

theorem trimLeft_of_isDigit (h : ∀ c ∈ cs, c.isDigit = true) : trimLeft cs = cs := by
  cases cs with
  | nil => rfl
  | cons c rest => simp [trimLeft, isBlank_of_isDigit (h c List.mem_cons_self)]

theorem trimRight_of_isDigit (h : ∀ c ∈ cs, c.isDigit = true) : trimRight cs = cs := by
  have hback : trimLeft cs.reverse = cs.reverse :=
    trimLeft_of_isDigit fun c hc => h c (List.mem_reverse.1 hc)
  unfold trimLeft at hback
  rw [trimRight, hback, List.reverse_reverse]

variable {s : String}

theorem trim_of_isDigit (h : ∀ c ∈ s.toList, c.isDigit = true) : trim s = s := by
  rw [trim, trimLeft_of_isDigit h, trimRight_of_isDigit h, String.ofList_toList]

theorem integer?_of_isDigit (h : ∀ c ∈ s.toList, c.isDigit = true) (hs : s.toList ≠ [])
    (hlimit : s.toList.length ≤ digitLimit) :
    integer? s = some (Nat.ofDigitChars 10 s.toList 0 : Int) := by
  unfold integer?
  rw [trimLeft_of_isDigit h, trimRight_of_isDigit h]
  split
  · next heq => exact absurd (h '-' (heq ▸ List.mem_cons_self)) (by decide)
  · next heq => exact absurd (h '+' (heq ▸ List.mem_cons_self)) (by decide)
  · rw [natural?_of_isDigit h hs hlimit]
    rfl

end Text

namespace Setting

theorem value_clean (s : Setting) (default : Option String) :
    (s.clean default).value = (s.raw.or default).map trim := by
  unfold clean
  split
  · next h => simp [h]
  · next raw h =>
    simp only [h]
    split <;> rfl

def atLeast? (least : Int) (raw : Option String) : Option Int :=
  ((Name.given? (raw.map trim)).bind integer?).filter (least ≤ ·)

theorem value_int (s : Setting) (default least : Int) :
    (s.int default (some least)).value = (atLeast? least s.raw).getD default := by
  simp only [int, atLeast?, Noted.value_bind, value_clean, Option.or_none]
  cases Name.given? (s.raw.map trim) with
  | none => rfl
  | some raw =>
    simp only [Option.bind_some]
    cases integer? raw with
    | none => rfl
    | some n =>
      rw [Option.filter_some]
      by_cases h : n < least
      · simp [h, Int.not_le.2 h]
      · simp [h, Int.not_lt.1 h]

variable {least : Int}

theorem le_getD_atLeast? {default : Int} (raw : Option String) (h : least ≤ default) :
    least ≤ (atLeast? least raw).getD default := by
  cases hn : atLeast? least raw with
  | none => exact h
  | some n => simpa using (Option.filter_eq_some_iff.1 hn).2

theorem atLeast?_toString {n : Nat} (hleast : least ≤ n)
    (hlimit : (Nat.toDigits 10 n).length ≤ digitLimit) :
    atLeast? least (some (toString n)) = some (n : Int) := by
  have hlist : (toString n).toList = Nat.toDigits 10 n := by simp
  have hdigits : ∀ c ∈ (toString n).toList, c.isDigit = true := by
    rw [hlist]
    exact fun c hc => Nat.isDigit_of_mem_toDigits (by decide) (by decide) hc
  have hnumber : integer? (toString n) = some (n : Int) := by
    rw [integer?_of_isDigit hdigits (by simp) (by rwa [hlist]), hlist,
      Nat.ofDigitChars_ten_toDigits]
  have hgiven : Name.given? (some (toString n)) = some (toString n) := by simp [Name.given?]
  rw [atLeast?, Option.map_some, trim_of_isDigit hdigits, hgiven, Option.bind_some, hnumber]
  simp [hleast]

end Setting

namespace Settings

open Setting

variable (raw : String → Option String)

theorem numbers_read :
    (read raw).value.fetchTimeout = (atLeast? 1 (raw "WSDL2TSX_FETCH_TIMEOUT")).getD 30 ∧
      (read raw).value.prefixAttempts =
        (atLeast? 1 (raw "WSDL2TSX_MAX_PREFIX_ATTEMPTS")).getD 10 ∧
      (read raw).value.stemLength = (atLeast? 1 (raw "WSDL2TSX_PREFIX_STEM_LENGTH")).getD 6 := by
  simp only [read, Noted.value_bind]
  split
  · exact ⟨value_int .., value_int .., value_int ..⟩
  · exact ⟨value_int .., value_int .., value_int ..⟩

theorem positive_read : 1 ≤ (read raw).value.fetchTimeout ∧ 1 ≤ (read raw).value.prefixAttempts ∧
    1 ≤ (read raw).value.stemLength := by
  obtain ⟨htimeout, hattempts, hlength⟩ := numbers_read raw
  rw [htimeout, hattempts, hlength]
  exact ⟨le_getD_atLeast? _ (by decide), le_getD_atLeast? _ (by decide),
    le_getD_atLeast? _ (by decide)⟩

end Settings

end SoapComponents
