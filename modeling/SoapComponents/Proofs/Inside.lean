import SoapComponents.Tree.Query

/-!
What is inside a document: its nodes, at any depth. A check that holds of all values in a tree holds
of all of them.
-/

set_option autoImplicit false

namespace SoapComponents.Tree

/-- A node and all that is in it, at any depth. -/
inductive Inside (t : Tree) : Tree → Prop
  | self : Inside t t
  | child {u v : Tree} {tag : String} : Inside t u → v ∈ u.children tag → Inside t v

theorem Inside.of_child {t inner u : Tree} {tag : String} (hinner : inner ∈ t.children tag)
    (h : inner.Inside u) : t.Inside u := by
  induction h with
  | self => exact .child .self hinner
  | child _ hmem ih => exact .child ih hmem

mutual

def everywhere (p : Tree → Bool) : Tree → Bool
  | text _ => p (node [])
  | node entries => p (node entries) && everywhereIn p entries
  | many items => everywhereAmong p items

def everywhereIn (p : Tree → Bool) : List (String × Tree) → Bool
  | [] => true
  | (_, t) :: rest => everywhere p t && everywhereIn p rest

def everywhereAmong (p : Tree → Bool) : List Tree → Bool
  | [] => true
  | t :: rest => everywhere p t && everywhereAmong p rest

end

variable {p : Tree → Bool} {t u : Tree} {tag : String}

theorem everywhereIn_iff {entries : List (String × Tree)} :
    everywhereIn p entries = true ↔ ∀ e ∈ entries, e.2.everywhere p = true := by
  induction entries with
  | nil => simp [everywhereIn]
  | cons e rest ih => simp [everywhereIn, ih]

theorem everywhereAmong_iff {items : List Tree} :
    everywhereAmong p items = true ↔ ∀ t ∈ items, t.everywhere p = true := by
  induction items with
  | nil => simp [everywhereAmong]
  | cons t rest ih => simp [everywhereAmong, ih]

theorem everywhere_of_mem_children (h : t.everywhere p = true) (hu : u ∈ t.children tag) :
    u.everywhere p = true := by
  obtain ⟨e, he, hu⟩ := List.mem_flatMap.1 hu
  split at hu
  · obtain ⟨v, hv, hvu⟩ := List.mem_filterMap.1 hu
    cases t with
    | text _ => cases he
    | many _ => cases he
    | node entries =>
      simp only [everywhere, Bool.and_eq_true, everywhereIn_iff] at h
      have hv : v.everywhere p = true := by
        have hvalue := h.2 e he
        generalize e.2 = value at hv hvalue
        cases value with
        | many items =>
          simp only [everywhere, everywhereAmong_iff] at hvalue
          exact hvalue v hv
        | text _ => exact List.mem_singleton.1 hv ▸ hvalue
        | node _ => exact List.mem_singleton.1 hv ▸ hvalue
      unfold asElement? at hvu
      split at hvu
      · exact Option.some.inj hvu ▸ hv
      · obtain rfl := Option.some.inj hvu
        simp only [everywhere] at hv
        simp [everywhere, everywhereIn, hv]
      · cases hvu
  · cases hu

theorem everywhere_of_inside (h : t.everywhere p = true) (hu : t.Inside u) :
    u.everywhere p = true := by
  induction hu with
  | self => exact h
  | child _ hmem ih => exact everywhere_of_mem_children ih hmem

end SoapComponents.Tree
