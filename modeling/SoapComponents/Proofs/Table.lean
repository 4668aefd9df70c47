import Mathlib.Data.List.Nodup
import SoapComponents.Table

/-!
Tables through their look-up: what a table holds after entries are put into it.
-/

set_option autoImplicit false

namespace SoapComponents

namespace Table

variable {β : Type}

theorem holds_iff_mem_keys {t : Table β} {key : String} : t.holds key = true ↔ key ∈ t.keys := by
  induction t with
  | nil => simp [holds, value?, keys]
  | cons e rest ih =>
    simp only [holds, value?, keys, List.map_cons, List.mem_cons] at ih ⊢
    split
    · next h => simp [h]
    · next h => simpa [Ne.symm h] using ih

theorem mem_keys_putNew {t : Table β} {key k : String} {value : β} :
    k ∈ (t.putNew key value).keys ↔ k = key ∨ k ∈ t.keys := by
  unfold putNew
  split
  · next h =>
    have hkey := holds_iff_mem_keys.1 h
    exact ⟨.inr, fun hk => hk.elim (fun heq => heq ▸ hkey) id⟩
  · simp [keys, or_comm]

theorem mem_put {t : Table β} {key : String} {value : β} {e : String × β}
    (h : e ∈ t.put key value) : e = (key, value) ∨ e ∈ t := by
  induction t with
  | nil => simpa [put] using h
  | cons first rest ih =>
    obtain ⟨k, v⟩ := first
    simp only [put] at h
    split at h
    · next hk =>
      rcases List.mem_cons.1 h with rfl | h
      · exact .inl (by rw [hk])
      · exact .inr (List.mem_cons_of_mem _ h)
    · rcases List.mem_cons.1 h with rfl | h
      · exact .inr List.mem_cons_self
      · exact (ih h).imp_right (List.mem_cons_of_mem _)

theorem put_of_not_mem {t : Table β} {key : String} (h : key ∉ t.keys) (value : β) :
    t.put key value = t ++ [(key, value)] := by
  induction t with
  | nil => rfl
  | cons e rest ih =>
    simp only [keys, List.map_cons, List.mem_cons, not_or] at h ih
    simp [put, Ne.symm h.1, ih h.2]

theorem mem_putAll {t u : Table β} {e : String × β} (h : e ∈ putAll t u) : e ∈ t ∨ e ∈ u := by
  induction u generalizing t with
  | nil => exact .inl h
  | cons first rest ih =>
    rcases @ih (t.put first.1 first.2) h with h | h
    · exact (mem_put h).elim (fun heq => .inr (heq ▸ List.mem_cons_self)) .inl
    · exact .inr (List.mem_cons_of_mem _ h)

theorem mem_of_mem_ofAssignments {entries : List (String × β)} {e : String × β}
    (h : e ∈ ofAssignments entries) : e ∈ entries :=
  (mem_putAll h).elim (fun hnil => absurd hnil List.not_mem_nil) id

theorem mem_keys_putAll {t u : Table β} {key : String} :
    key ∈ (putAll t u).keys ↔ key ∈ t.keys ∨ key ∈ u.keys := by
  induction u generalizing t with
  | nil => simp [putAll, keys]
  | cons e rest ih =>
    have hput : putAll t (e :: rest) = putAll (t.put e.1 e.2) rest := rfl
    have hkeys : keys (e :: rest) = e.1 :: keys rest := rfl
    rw [hput, ih, mem_keys_put, hkeys, List.mem_cons, or_assoc, or_left_comm]

theorem mem_keys_ofAssignments {entries : Table β} {key : String} :
    key ∈ (ofAssignments entries).keys ↔ key ∈ entries.keys := by
  rw [ofAssignments, mem_keys_putAll]
  exact or_iff_right List.not_mem_nil

theorem proper_ofAssignments (entries : Table β) : (ofAssignments entries).Proper := by
  have hempty : Proper ([] : Table β) := by simp [Proper, keys]
  exact List.foldlRecOn entries _ hempty fun t h e _ => h.put e.1 e.2

theorem value?_append (t u : Table β) (key : String) :
    value? (t ++ u) key = (t.value? key).or (u.value? key) := by
  induction t with
  | nil => simp [value?]
  | cons e rest ih => by_cases h : e.1 = key <;> simp [value?, h, ih]

theorem value?_putAll (t u : Table β) (key : String) :
    (putAll t u).value? key = (value? u.reverse key).or (t.value? key) := by
  induction u generalizing t with
  | nil => simp [putAll, value?]
  | cons e rest ih =>
    have hrest : (putAll t (e :: rest)).value? key =
        (value? rest.reverse key).or ((t.put e.1 e.2).value? key) := ih (t.put e.1 e.2)
    rw [hrest, value?_put, List.reverse_cons, value?_append, Option.or_assoc]
    congr 1
    by_cases h : key = e.1
    · simp [value?, h]
    · simp [value?, h, Ne.symm h]

theorem value?_putAllNew (t u : Table β) (key : String) :
    (putAllNew t u).value? key = (t.value? key).or (u.value? key) := by
  induction u generalizing t with
  | nil => simp [putAllNew, value?]
  | cons e rest ih =>
    have hrest : (putAllNew t (e :: rest)).value? key =
        ((t.putNew e.1 e.2).value? key).or (value? rest key) := ih (t.putNew e.1 e.2)
    rw [hrest, value?_putNew, Option.or_assoc]
    congr 1
    by_cases h : e.1 = key
    · simp [value?, h]
    · simp [value?, h, Ne.symm h]

theorem value?_of_mem {t : Table β} (h : t.Proper) {e : String × β} (he : e ∈ t) :
    t.value? e.1 = some e.2 := by
  induction t with
  | nil => simp at he
  | cons first rest ih =>
    simp only [Proper, keys, List.map_cons, List.nodup_cons] at h
    rcases List.mem_cons.1 he with rfl | he
    · simp [value?]
    · have hne : first.1 ≠ e.1 := fun heq => h.1 (heq ▸ List.mem_map_of_mem he)
      simpa [value?, hne] using ih h.2 he

theorem mem_of_value? {t : Table β} {key : String} {value : β} (h : t.value? key = some value) :
    (key, value) ∈ t := by
  induction t with
  | nil => simp [value?] at h
  | cons first rest ih =>
    simp only [value?] at h
    split at h
    · next hk =>
      obtain rfl := Option.some.inj h
      simp [← hk]
    · exact List.mem_cons_of_mem _ (ih h)

theorem value?_eq_of_mem_iff {t u : Table β} (ht : t.Proper) (hu : u.Proper)
    (h : ∀ e, e ∈ t ↔ e ∈ u) (key : String) : t.value? key = u.value? key := by
  cases htv : t.value? key with
  | some v => exact (value?_of_mem hu ((h _).1 (mem_of_value? htv))).symm
  | none =>
    cases huv : u.value? key with
    | none => rfl
    | some v =>
      have := value?_of_mem ht ((h _).2 (mem_of_value? huv))
      simp [htv] at this

theorem value?_reverse {t : Table β} (h : t.Proper) (key : String) :
    value? t.reverse key = t.value? key := by
  refine value?_eq_of_mem_iff ?_ h (fun e => List.mem_reverse) key
  simpa [Proper, keys, List.nodup_reverse] using h

theorem value?_map {γ : Type} (f : β → γ) (t : Table β) (key : String) :
    value? (t.map fun e => (e.1, f e.2)) key = (t.value? key).map f := by
  induction t with
  | nil => rfl
  | cons e rest ih =>
    simp only [List.map_cons, value?]
    split
    · rfl
    · exact ih

theorem map_put {γ : Type} (f : β → γ) (t : Table β) (key : String) (value : β) :
    (t.put key value).map (fun e => (e.1, f e.2)) =
      Table.put (t.map fun e => (e.1, f e.2)) key (f value) := by
  induction t with
  | nil => rfl
  | cons e rest ih =>
    simp only [put, List.map_cons]
    split
    · rfl
    · rw [List.map_cons, ih]

theorem map_putAll {γ : Type} (f : β → γ) (t : Table β) (entries : List (String × β)) :
    (putAll t entries).map (fun e => (e.1, f e.2)) =
      putAll (t.map fun e => (e.1, f e.2)) (entries.map fun e => (e.1, f e.2)) := by
  induction entries generalizing t with
  | nil => rfl
  | cons e rest ih =>
    refine (ih (t.put e.1 e.2)).trans ?_
    rw [map_put]
    rfl

theorem map_ofAssignments {γ : Type} (f : β → γ) (entries : List (String × β)) :
    (ofAssignments entries).map (fun e => (e.1, f e.2)) =
      ofAssignments (entries.map fun e => (e.1, f e.2)) := map_putAll f [] entries

theorem find?_key (t : Table β) (key : String) :
    List.find? (fun e => e.1 == key) t = (t.value? key).map (key, ·) := by
  induction t with
  | nil => rfl
  | cons e rest ih =>
    by_cases hkey : e.1 = key
    · subst hkey
      simp [value?]
    · simpa [List.find?_cons, value?, hkey] using ih

theorem head?_filter_keys (t : Table β) (p : String → Bool) :
    (t.keys.filter p).head? = (List.find? (fun e => p e.1) t).map Prod.fst := by
  rw [keys, List.head?_filter, List.find?_map]
  rfl

theorem value?_of_find? {t : Table β} (p : String → Bool) {e : String × β}
    (h : List.find? (fun e => p e.1) t = some e) : t.value? e.1 = some e.2 := by
  induction t with
  | nil => cases h
  | cons first rest ih =>
    rw [List.find?_cons] at h
    split at h
    · obtain rfl := Option.some.inj h
      simp [value?]
    · next hfirst =>
      have hne : first.1 ≠ e.1 := fun heq => by
        have hp := List.find?_some h
        simp [← heq, hfirst] at hp
      simpa [value?, hne] using ih h

end Table

end SoapComponents
