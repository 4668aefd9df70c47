/-!
Counting what is left to visit. A walk that never takes the same thing twice ends, because each
thing that it takes leaves fewer to take.
-/

set_option autoImplicit false

namespace SoapComponents

variable {α : Type} [DecidableEq α]

/-- The number of places in `all` whose content is not taken. -/
def remaining (all taken : List α) : Nat := all.countP (· ∉ taken)

theorem remaining_mono {all taken more : List α} (h : taken ⊆ more) :
    remaining all more ≤ remaining all taken :=
  List.countP_mono_left fun x _ hx => by
    simp only [decide_eq_true_eq] at hx ⊢
    exact fun hm => hx (h hm)

theorem remaining_cons_le (all taken : List α) (a : α) :
    remaining all (a :: taken) ≤ remaining all taken :=
  List.countP_mono_left fun x _ hx => by simp_all

theorem remaining_cons_lt {all taken : List α} {a : α} (ha : a ∈ all) (hn : a ∉ taken) :
    remaining all (a :: taken) < remaining all taken := by
  induction all with
  | nil => simp at ha
  | cons b rest ih =>
    have hle := remaining_cons_le rest taken a
    simp only [remaining, List.countP_cons] at *
    rcases List.mem_cons.1 ha with rfl | ha
    · simp [hn] at *
      omega
    · have := ih ha
      by_cases hb : b = a
      · subst hb
        simp [hn] at *
        omega
      · by_cases hc : b ∈ taken <;> simp_all

theorem remaining_append_lt {all taken : List α} {a : α} (ha : a ∈ all) (hn : a ∉ taken) :
    remaining all (taken ++ [a]) < remaining all taken := by
  have h := remaining_cons_lt ha hn
  simpa [remaining, or_comm] using h

end SoapComponents
