import SoapComponents.Name

/-!
Names that are put together and taken apart. A prefix is cut off at the first colon and a namespace
at the last one, so only the part that must not have a colon is asked to have none.
-/

set_option autoImplicit false

namespace SoapComponents

namespace Text

theorem cutFirst_append {sep : Char} {before : List Char} (after : List Char)
    (h : sep ∉ before) : cutFirst sep (before ++ sep :: after) = some (before, after) := by
  induction before with
  | nil => simp [cutFirst]
  | cons c rest ih =>
    have hc : c ≠ sep := fun heq => h (by simp [heq])
    have hrest := ih fun hm => h (List.mem_cons_of_mem _ hm)
    simp [cutFirst, hc, hrest]

theorem cutFirst_eq_none {sep : Char} {cs : List Char} : cutFirst sep cs = none ↔ sep ∉ cs := by
  induction cs with
  | nil => simp [cutFirst]
  | cons c rest ih =>
    simp only [cutFirst]
    split
    · next h => simp [h]
    · next h => simp [ih, Ne.symm h]

theorem cutLast_eq_none {sep : Char} {cs : List Char} (h : sep ∉ cs) : cutLast sep cs = none := by
  induction cs with
  | nil => rfl
  | cons c rest ih =>
    have hc : c ≠ sep := fun heq => h (by simp [heq])
    have hrest := ih fun hm => h (List.mem_cons_of_mem _ hm)
    simp [cutLast, hc, hrest]

theorem cutLast_append {sep : Char} (before : List Char) {after : List Char}
    (h : sep ∉ after) : cutLast sep (before ++ sep :: after) = some (before, after) := by
  induction before with
  | nil => simp [cutLast, cutLast_eq_none h]
  | cons c rest ih => simp [cutLast, ih]

end Text

namespace Name

open Text

variable {nsPrefix space base name : String}

theorem prefixed?_joined (base : String) (h : ':' ∉ nsPrefix.toList) :
    prefixed? (nsPrefix ++ ":" ++ base) = some (nsPrefix, base) := by
  simp [prefixed?, cutFirst_append base.toList h]

theorem prefixed?_eq_some (h : prefixed? name = some (nsPrefix, base)) :
    name = nsPrefix ++ ":" ++ base ∧ ':' ∉ nsPrefix.toList := by
  obtain ⟨⟨before, after⟩, hcut, heq⟩ := Option.map_eq_some_iff.1 h
  obtain ⟨rfl, rfl⟩ := Prod.mk.inj heq
  obtain ⟨hname, hcolon⟩ := cutFirst_eq_some hcut
  refine ⟨String.toList_inj.1 ?_, by simpa using hcolon⟩
  simp [hname]

theorem prefixed?_eq_none : prefixed? name = none ↔ ':' ∉ name.toList := by
  rw [prefixed?, Option.map_eq_none_iff, cutFirst_eq_none]

theorem space?_joined (space : String) (h : ':' ∉ base.toList) :
    space? (space ++ ":" ++ base) = some space := by
  simp [space?, cutLast_append space.toList h]

theorem qualified_of_ne (base : String) (h : space ≠ "") :
    qualified (some space) base = space ++ ":" ++ base := by
  simp [qualified, given?, Option.filter_some, h]

theorem map_snd_cutLast_append (sep : Char) (before rest : List Char) :
    (cutLast sep (before ++ sep :: rest)).map (·.2) =
      some (((cutLast sep rest).map (·.2)).getD rest) := by
  induction before with
  | nil =>
    simp only [List.nil_append, cutLast]
    cases cutLast sep rest <;> simp
  | cons c before ih =>
    simp only [List.cons_append, cutLast]
    obtain ⟨parts, hparts, heq⟩ := Option.map_eq_some_iff.1 ih
    simp only [hparts, Option.map_some, heq]

theorem localPart_prefixed (nsPrefix base : String) :
    localPart (nsPrefix ++ ":" ++ base) = localPart base := by
  obtain ⟨parts, hparts, heq⟩ :=
    Option.map_eq_some_iff.1 (map_snd_cutLast_append ':' nsPrefix.toList base.toList)
  have htoList : (nsPrefix ++ ":" ++ base).toList = nsPrefix.toList ++ ':' :: base.toList := by
    simp
  simp only [localPart, htoList, hparts, heq]
  cases cutLast ':' base.toList <;> simp

theorem localPart_joined (space : String) (h : ':' ∉ base.toList) :
    localPart (space ++ ":" ++ base) = base := by
  rw [localPart_prefixed, localPart_of_not_mem h]

theorem localPart_qualified (space : Option String) (name : String) :
    localPart (qualified space name) = localPart name := by
  unfold qualified
  split
  · exact localPart_prefixed _ _
  · rfl

theorem isLower_toUpper (c : Char) : c.toUpper.isLower = false := by
  unfold Char.isLower Char.toUpper
  split <;> grind [UInt32.toNat_add]

theorem isLower_head_pascal {name : String} {c : Char}
    (h : (pascal name).toList.head? = some c) : c.isLower = false := by
  have hwords : ∀ w ∈ words (localPart name).toList, w ≠ [] := by
    intro w hw
    simpa using (List.mem_filter.1 hw).2
  unfold pascal at h
  rw [String.toList_ofList] at h
  generalize words (localPart name).toList = ws at h hwords
  cases ws with
  | nil => cases h
  | cons w rest =>
    cases w with
    | nil => exact absurd rfl (hwords [] List.mem_cons_self)
    | cons first more =>
      obtain rfl : first.toUpper = c := Option.some.inj h
      exact isLower_toUpper first

end Name

end SoapComponents
