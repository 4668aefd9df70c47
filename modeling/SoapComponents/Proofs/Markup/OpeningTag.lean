import Mathlib.Data.List.Basic
import SoapComponents.Component.Print
import SoapComponents.Text.Blank
import SoapComponents.Text.Cut

/-!
A reader of opening tags. The value of an attribute ends at the next mark, and references to
characters in it are decoded. So a text that is written between marks as it is comes back just when
it has no mark and no reference.
-/

set_option autoImplicit false

namespace SoapComponents

namespace Text

def hexValue? (c : Char) : Option Nat :=
  if '0' ≤ c && c ≤ '9' then some (c.toNat - 48)
  else if 'a' ≤ c && c ≤ 'f' then some (c.toNat - 87)
  else if 'A' ≤ c && c ≤ 'F' then some (c.toNat - 55)
  else none

def number? (base : Nat) : List Char → Option Nat
  | [] => none
  | digits => digits.foldlM (fun n c => ((hexValue? c).filter (· < base)).map (base * n + ·)) 0

def reference? (named : List Char → Option Nat) : List Char → Option Nat
  | '#' :: 'x' :: digits => number? 16 digits
  | '#' :: digits => number? 10 digits
  | name => named name

def referenceAt? (named : List Char → Option Nat) : List Char → Option (Nat × Nat)
  | '&' :: rest =>
    (cutFirst ';' rest).bind fun parts =>
      (reference? named parts.1).map (·, parts.1.length + 1)
  | _ => none

/-- The code points of a text in which references are replaced, after `skip` characters that
belong to a reference already read. -/
def decodeFrom (named : List Char → Option Nat) : Nat → List Char → List Nat
  | _, [] => []
  | skip + 1, _ :: rest => decodeFrom named skip rest
  | 0, c :: rest =>
    match referenceAt? named (c :: rest) with
    | some (code, length) => code :: decodeFrom named length rest
    | none => c.toNat :: decodeFrom named 0 rest

def decode (named : List Char → Option Nat) (cs : List Char) : List Nat := decodeFrom named 0 cs

def codes (cs : List Char) : List Nat := cs.map Char.toNat

/-- A text that has no mark and no reference: between marks it stands for itself. -/
structure Verbatim (named : List Char → Option Nat) (cs : List Char) : Prop where
  unmarked : '"' ∉ cs
  unreferenced : ∀ part, part <:+ cs → referenceAt? named part = none

variable {named : List Char → Option Nat} {cs : List Char}

theorem length_of_referenceAt? {c : Char} {rest : List Char} {found : Nat × Nat}
    (h : referenceAt? named (c :: rest) = some found) : 0 < found.2 ∧ found.2 ≤ rest.length := by
  unfold referenceAt? at h
  split at h
  · next rest' heq =>
    obtain ⟨-, rfl⟩ := List.cons.inj heq
    obtain ⟨⟨inner, after⟩, hcut, hfound⟩ := Option.bind_eq_some_iff.1 h
    obtain ⟨code, -, rfl⟩ := Option.map_eq_some_iff.1 hfound
    obtain ⟨rfl, -⟩ := cutFirst_eq_some hcut
    simp only [List.length_append, List.length_cons]
    omega
  · cases h

theorem length_decodeFrom_le (named : List Char → Option Nat) (skip : Nat) (cs : List Char) :
    (decodeFrom named skip cs).length ≤ cs.length - skip := by
  induction cs generalizing skip with
  | nil => simp [decodeFrom]
  | cons c rest ih =>
    cases skip with
    | succ skip =>
      simpa [decodeFrom] using ih skip
    | zero =>
      rw [decodeFrom]
      split
      · next code length _ =>
        have hrest := ih length
        simp only [List.length_cons]
        omega
      · simpa using ih 0

theorem length_decode_le (named : List Char → Option Nat) (cs : List Char) :
    (decode named cs).length ≤ cs.length := length_decodeFrom_le named 0 cs

/-- A reference is longer than the one character that it stands for. So only a text without any
is decoded into itself. -/
theorem decode_eq_codes_iff :
    decode named cs = codes cs ↔ ∀ part, part <:+ cs → referenceAt? named part = none := by
  induction cs with
  | nil => simp [decode, decodeFrom, codes, referenceAt?]
  | cons c rest ih =>
    simp only [List.suffix_cons_iff, forall_eq_or_imp]
    cases hfound : referenceAt? named (c :: rest) with
    | none =>
      have hstep : decode named (c :: rest) = c.toNat :: decode named rest := by
        simp only [decode, decodeFrom, hfound]
      simp [hstep, codes, ← ih]
    | some found =>
      have hstep : decode named (c :: rest) = found.1 :: decodeFrom named found.2 rest := by
        simp only [decode, decodeFrom, hfound]
      obtain ⟨hpos, hle⟩ := length_of_referenceAt? hfound
      have hshort := length_decodeFrom_le named found.2 rest
      refine iff_of_false (fun heq => ?_) fun h => Option.some_ne_none _ h.1
      have hlength := congrArg List.length heq
      rw [hstep, List.length_cons, codes, List.length_map, List.length_cons] at hlength
      omega

theorem verbatim_of_plain (hmark : '"' ∉ cs) (hamp : '&' ∉ cs) : Verbatim named cs := by
  refine ⟨hmark, fun part hpart => ?_⟩
  unfold referenceAt?
  split
  · exact absurd (hpart.subset List.mem_cons_self) hamp
  · rfl

end Text

namespace Opening

open Text

def isNameStart (c : Char) : Bool := c.isAlpha || c == '_' || c == '$'

def isNameChar (c : Char) : Bool := isNameStart c || c.isDigit || c == '-'

def isName (sep : Char) (name : List Char) : Bool :=
  (splitBy (· == sep) name).all fun part => part.head?.any isNameStart && part.all isNameChar

inductive Place
  | between
  | name (read : List Char)
  | equals (name : List Char)
  | value (name read : List Char)

/-- The attributes up to the end of the tag, each with its value in code points, and what follows
the tag. A tag with anything but named values between marks is not read. -/
def attributes? (named : List Char → Option Nat) :
    Place → List Char → Option (List (List Char × List Nat) × List Char)
  | _, [] => none
  | .between, c :: rest =>
    if c = '>' then some ([], rest)
    else if isBlank c then attributes? named .between rest
    else if isNameStart c then attributes? named (.name [c]) rest
    else none
  | .name read, c :: rest =>
    if c = '=' then if isName ':' read then attributes? named (.equals read) rest else none
    else if isNameChar c || c == ':' then attributes? named (.name (read ++ [c])) rest
    else none
  | .equals name, c :: rest => if c = '"' then attributes? named (.value name []) rest else none
  | .value name read, c :: rest =>
    if c = '"' then
      (attributes? named .between rest).map fun found =>
        ((name, decode named read) :: found.1, found.2)
    else attributes? named (.value name (read ++ [c])) rest

end Opening

structure Opening where
  tag : List Char
  attributes : List (List Char × List Nat)

namespace Opening

open Text

/-- The opening tag that a text begins with, and what follows it. -/
def read? (named : List Char → Option Nat) : List Char → Option (Opening × List Char)
  | '<' :: rest =>
    let tag := rest.takeWhile fun c => isNameChar c || c == '.'
    let inside := rest.dropWhile fun c => isNameChar c || c == '.'
    if isName '.' tag then
      (attributes? named .between inside).map fun found => (⟨tag, found.1⟩, found.2)
    else none
  | _ => none

/-- An attribute as it is written, with its value between marks. -/
def written (e : String × String) : String := " " ++ e.1 ++ "=" ++ marked e.2

theorem toList_written (e : String × String) :
    (written e).toList = ' ' :: e.1.toList ++ '=' :: '"' :: e.2.toList ++ ['"'] := by
  simp [written, marked]

variable {named : List Char → Option Nat} {name value rest last : List Char}

theorem attributes?_name {read cs : List Char}
    (hcs : ∀ c ∈ cs, c ≠ '=' ∧ (isNameChar c || c == ':') = true) :
    attributes? named (.name read) (cs ++ '=' :: rest) =
      if isName ':' (read ++ cs) then attributes? named (.equals (read ++ cs)) rest else none := by
  induction cs generalizing read with
  | nil => simp [attributes?]
  | cons c more ih =>
    obtain ⟨hne, hchar⟩ := hcs c List.mem_cons_self
    have hmore := @ih (read ++ [c]) fun c hc => hcs c (List.mem_cons_of_mem _ hc)
    rw [List.append_assoc, List.singleton_append] at hmore
    rw [List.cons_append, attributes?, if_neg hne, if_pos hchar, hmore]

theorem attributes?_value {read : List Char} (h : '"' ∉ value) :
    attributes? named (.value name read) (value ++ '"' :: rest) =
      (attributes? named .between rest).map fun found =>
        ((name, decode named (read ++ value)) :: found.1, found.2) := by
  induction value generalizing read with
  | nil => simp [attributes?]
  | cons c more ih =>
    simp only [List.mem_cons, not_or] at h
    rw [List.cons_append, attributes?, if_neg (Ne.symm h.1), ih h.2, List.append_assoc,
      List.singleton_append]

/-- What is read of a value is what comes before its first mark; that is all of it only if there
is no other. -/
theorem attributes?_value_eq_some_iff {more : List (List Char × List Nat)} :
    attributes? named (.value name []) (value ++ '"' :: rest) =
        some ((name, codes value) :: more, last) ↔
      Verbatim named value ∧ attributes? named .between rest = some (more, last) := by
  by_cases hmark : '"' ∈ value
  · refine iff_of_false (fun h => ?_) fun h => h.1.unmarked hmark
    obtain ⟨front, back, rfl, hfront⟩ := List.eq_append_cons_of_mem hmark
    rw [List.append_assoc, List.cons_append, attributes?_value hfront, List.nil_append] at h
    obtain ⟨found, -, heq⟩ := Option.map_eq_some_iff.1 h
    have hcodes : decode named front = codes (front ++ '"' :: back) :=
      congrArg Prod.snd (List.cons.inj (Prod.mk.inj heq).1).1
    have hshort := length_decode_le named front
    rw [hcodes, codes, List.length_map, List.length_append, List.length_cons] at hshort
    omega
  · rw [attributes?_value hmark, List.nil_append]
    have hverbatim : Verbatim named value ↔ decode named value = codes value :=
      ⟨fun h => decode_eq_codes_iff.2 h.unreferenced, fun h => ⟨hmark, decode_eq_codes_iff.1 h⟩⟩
    rw [hverbatim]
    constructor
    · intro h
      obtain ⟨found, hfound, heq⟩ := Option.map_eq_some_iff.1 h
      obtain ⟨hhead, rfl⟩ := Prod.mk.inj heq
      obtain ⟨hpair, rfl⟩ := List.cons.inj hhead
      exact ⟨congrArg Prod.snd hpair, hfound⟩
    · rintro ⟨hcodes, hrest⟩
      rw [hrest, Option.map_some, hcodes]

theorem isNameStart_iff {c : Char} : isNameStart c = true ↔
    65 ≤ c.toNat ∧ c.toNat ≤ 90 ∨ 97 ≤ c.toNat ∧ c.toNat ≤ 122 ∨ c = '_' ∨ c = '$' := by
  delta isNameStart Char.isAlpha Char.isUpper Char.isLower
  simp only [Bool.or_eq_true, Bool.and_eq_true, decide_eq_true_eq, beq_iff_eq, or_assoc]
  rfl

theorem isBlank_of_isNameStart {c : Char} (h : isNameStart c = true) : isBlank c = false := by
  rcases isNameStart_iff.1 h with h | h | rfl | rfl
  · simp [isBlank]
    omega
  · simp [isBlank]
    omega
  · decide
  · decide

def Spelled (name : List Char) : Prop :=
  ∃ c more, name = c :: more ∧ isNameStart c = true ∧
    ∀ d ∈ more, d ≠ '=' ∧ (isNameChar d || d == ':') = true

theorem attributes?_written_eq_some_iff {e : String × String} (hname : Spelled e.1.toList)
    {more : List (List Char × List Nat)} :
    attributes? named .between ((written e).toList ++ rest) =
        some ((e.1.toList, codes e.2.toList) :: more, last) ↔
      isName ':' e.1.toList = true ∧ Verbatim named e.2.toList ∧
        attributes? named .between rest = some (more, last) := by
  obtain ⟨c, chars, heq, hstart, hchars⟩ := hname
  have hbegin : attributes? named .between ((written e).toList ++ rest) =
      attributes? named (.name [c]) (chars ++ '=' :: '"' :: (e.2.toList ++ '"' :: rest)) := by
    have hspace : isBlank ' ' = true := by decide
    have hend : c ≠ '>' := by
      rintro rfl
      exact absurd hstart (by decide)
    simp [toList_written, heq, attributes?, hspace, hend, isBlank_of_isNameStart hstart, hstart]
  rw [hbegin, attributes?_name hchars, List.singleton_append, ← heq]
  cases hvalid : isName ':' e.1.toList with
  | false => simp
  | true =>
    rw [if_pos rfl, attributes?, if_pos rfl, attributes?_value_eq_some_iff]
    simp

theorem attributes?_join_eq_some_iff {es : List (String × String)}
    (hes : ∀ e ∈ es, Spelled e.1.toList) :
    attributes? named .between ((String.join (es.map written)).toList ++ '>' :: rest) =
        some (es.map fun e => (e.1.toList, codes e.2.toList), rest) ↔
      ∀ e ∈ es, isName ':' e.1.toList = true ∧ Verbatim named e.2.toList := by
  induction es with
  | nil => simp [attributes?]
  | cons e more ih =>
    have hmore := ih fun e he => hes e (List.mem_cons_of_mem _ he)
    rw [List.map_cons, String.join_cons, String.toList_append, List.append_assoc, List.map_cons,
      attributes?_written_eq_some_iff (hes e List.mem_cons_self), hmore, List.forall_mem_cons,
      and_assoc]

end Opening

end SoapComponents
