/-!
Tables that remember the order in which their keys first came. A key that gets a new value keeps
its place, and a new key comes last.
-/

set_option autoImplicit false

namespace SoapComponents

abbrev Table (β : Type) := List (String × β)

namespace Table

variable {β : Type}

def value? : Table β → String → Option β
  | [], _ => none
  | (k, v) :: rest, key => if k = key then some v else value? rest key

def holds (t : Table β) (key : String) : Bool := (t.value? key).isSome

def keys (t : Table β) : List String := t.map Prod.fst

def put : Table β → String → β → Table β
  | [], key, value => [(key, value)]
  | (k, v) :: rest, key, value =>
    if k = key then (k, value) :: rest else (k, v) :: put rest key value

def putNew (t : Table β) (key : String) (value : β) : Table β :=
  if t.holds key then t else t ++ [(key, value)]

def putAll (t u : Table β) : Table β := u.foldl (fun t e => t.put e.1 e.2) t

def putAllNew (t u : Table β) : Table β := u.foldl (fun t e => t.putNew e.1 e.2) t

def ofAssignments (entries : List (String × β)) : Table β := putAll [] entries

def Proper (t : Table β) : Prop := t.keys.Nodup

theorem value?_put (t : Table β) (key : String) (value : β) (k : String) :
    (t.put key value).value? k = if k = key then some value else t.value? k := by
  induction t with
  | nil => simp [put, value?, eq_comm]
  | cons e rest ih =>
    obtain ⟨k', v'⟩ := e
    simp only [put]
    split
    · next h => by_cases hk : k = key <;> simp_all [value?, eq_comm]
    · next h =>
      simp only [value?, ih]
      by_cases hk : k = key
      · subst hk
        simp [h]
      · simp [hk]

theorem value?_putNew (t : Table β) (key : String) (value : β) (k : String) :
    (t.putNew key value).value? k = (t.value? k).or (if k = key then some value else none) := by
  have happ : ∀ (t : Table β), (t ++ [(key, value)]).value? k =
      (t.value? k).or (if k = key then some value else none) := by
    intro t
    induction t with
    | nil => simp [value?, eq_comm]
    | cons e rest ih =>
      obtain ⟨k', v'⟩ := e
      by_cases h : k' = k <;> simp [value?, h, ih]
  unfold putNew
  split
  · next h =>
    by_cases hk : k = key
    · subst hk
      obtain ⟨v, hv⟩ := Option.isSome_iff_exists.1 h
      simp [hv]
    · simp [hk]
  · exact happ t

theorem mem_keys_of_value? {t : Table β} {key : String} {value : β}
    (h : t.value? key = some value) : key ∈ t.keys := by
  induction t with
  | nil => simp [value?] at h
  | cons e rest ih =>
    obtain ⟨k, v⟩ := e
    simp only [value?] at h
    split at h
    · next hk => simp [keys, hk]
    · exact List.mem_cons_of_mem _ (ih h)

theorem mem_keys_put {t : Table β} {key k : String} {value : β} :
    k ∈ (t.put key value).keys ↔ k = key ∨ k ∈ t.keys := by
  induction t with
  | nil => simp [put, keys]
  | cons e rest ih =>
    obtain ⟨k', v'⟩ := e
    simp only [put]
    split
    · next h => simp [keys, h]
    · next h =>
      simp only [keys, List.map_cons, List.mem_cons] at ih ⊢
      rw [ih]
      exact or_left_comm

theorem Proper.put {t : Table β} (h : t.Proper) (key : String) (value : β) :
    (t.put key value).Proper := by
  induction t with
  | nil => simp [Proper, Table.put, keys]
  | cons e rest ih =>
    obtain ⟨k', v'⟩ := e
    simp only [Proper, keys, List.map_cons, List.nodup_cons] at h ih ⊢
    simp only [Table.put]
    split
    · next hk => simpa [hk] using h
    · next hk =>
      simp only [List.map_cons, List.nodup_cons]
      refine ⟨fun hm => ?_, ih h.2⟩
      rcases mem_keys_put.1 (show k' ∈ (Table.put rest key value).keys from hm) with rfl | hr
      · exact hk rfl
      · exact h.1 hr

end Table

end SoapComponents
