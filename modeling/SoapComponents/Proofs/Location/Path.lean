import Mathlib.Data.List.Basic
import SoapComponents.Location.Path

/-!
Paths in normal form. What `Path.parse` makes of a text is plain, and a plain path is read back
from its own text, so that a normalized location is normalized already.
-/

set_option autoImplicit false

namespace SoapComponents

namespace Text

theorem splitBy_append {p : Char → Bool} {before after : List Char} {sep : Char}
    (hbefore : ∀ c ∈ before, p c = false) (hsep : p sep = true) :
    splitBy p (before ++ sep :: after) = before :: splitBy p after := by
  induction before with
  | nil => simp [splitBy, hsep]
  | cons c rest ih =>
    have hrest := ih fun c hc => hbefore c (List.mem_cons_of_mem _ hc)
    have hc := hbefore c List.mem_cons_self
    simp [splitBy, hc, hrest]

theorem splitBy_of_none {p : Char → Bool} {cs : List Char} (h : ∀ c ∈ cs, p c = false) :
    splitBy p cs = [cs] := by
  induction cs with
  | nil => rfl
  | cons c rest ih =>
    have hrest := ih fun c hc => h c (List.mem_cons_of_mem _ hc)
    have hc := h c List.mem_cons_self
    simp [splitBy, hc, hrest]

theorem splitBy_intercalate {sep : Char} {pieces : List (List Char)} (hne : pieces ≠ [])
    (h : ∀ piece ∈ pieces, sep ∉ piece) :
    splitBy (· == sep) ([sep].intercalate pieces) = pieces := by
  have hno : ∀ piece ∈ pieces, ∀ c ∈ piece, (c == sep) = false := by
    intro piece hpiece c hc
    refine beq_eq_false_iff_ne.2 ?_
    rintro rfl
    exact h piece hpiece hc
  induction pieces with
  | nil => exact absurd rfl hne
  | cons piece rest ih =>
    cases rest with
    | nil => simpa using splitBy_of_none (hno piece (by simp))
    | cons next more =>
      have hrest := ih (by simp) (fun p hp => h p (List.mem_cons_of_mem _ hp))
        (fun p hp => hno p (List.mem_cons_of_mem _ hp))
      rw [List.intercalate_cons_cons, List.append_assoc, List.singleton_append,
        splitBy_append (hno piece (by simp)) (by simp), hrest]

theorem not_mem_of_mem_splitBy {sep : Char} {cs piece : List Char}
    (h : piece ∈ splitBy (· == sep) cs) : sep ∉ piece := by
  induction cs generalizing piece with
  | nil =>
    obtain rfl : piece = [] := by simpa [splitBy] using h
    simp
  | cons c rest ih =>
    simp only [splitBy] at h
    split at h
    · rcases List.mem_cons.1 h with rfl | h
      · simp
      · exact ih h
    · next hc =>
      have hne : sep ≠ c := by
        rintro rfl
        simp at hc
      split at h
      · next first more heq =>
        rcases List.mem_cons.1 h with rfl | h
        · have hfirst : sep ∉ first := ih (by simp [heq])
          simp [hfirst, hne]
        · exact ih (by simp [heq, h])
      · next heq => exact absurd heq (splitBy_ne_nil _ _)

end Text

namespace Path

open Text

structure PlainSegment (s : String) : Prop where
  ne_empty : s ≠ ""
  ne_dot : s ≠ "."
  no_slash : '/' ∉ s.toList

structure Plain (p : Path) : Prop where
  root : p.root = "" ∨ p.root = "/" ∨ p.root = "//"
  segments : ∀ s ∈ p.segments, PlainSegment s

theorem plainSegment_of_mem {cs : List Char} {s : String} (h : s ∈ segmentsOf cs) :
    PlainSegment s := by
  simp only [segmentsOf, List.mem_filter, List.mem_map] at h
  obtain ⟨⟨piece, hpiece, rfl⟩, hne⟩ := h
  simp only [ne_eq, decide_not, Bool.and_eq_true, Bool.not_eq_true', decide_eq_false_iff_not]
    at hne
  exact ⟨hne.1, hne.2, by simpa using not_mem_of_mem_splitBy hpiece⟩

theorem plain_parse (s : String) : (parse s).Plain := by
  unfold parse
  split <;> exact ⟨by simp, fun _ h => plainSegment_of_mem h⟩

theorem segmentsOf_intercalate {segments : List String} (h : ∀ s ∈ segments, PlainSegment s) :
    segmentsOf (['/'].intercalate (segments.map String.toList)) = segments := by
  have hkept : (segments.filter fun s => s ≠ "" && s ≠ ".") = segments := by
    refine List.filter_eq_self.2 fun s hs => ?_
    simp [(h s hs).ne_empty, (h s hs).ne_dot]
  cases segments with
  | nil => simp [segmentsOf, splitBy]
  | cons s rest =>
    have hsplit : splitBy (· == '/') (['/'].intercalate ((s :: rest).map String.toList)) =
        (s :: rest).map String.toList := by
      refine splitBy_intercalate (by simp) fun piece hpiece => ?_
      obtain ⟨t, ht, rfl⟩ := List.mem_map.1 hpiece
      exact (h t ht).no_slash
    rw [segmentsOf, hsplit, List.map_map]
    simpa [Function.comp_def] using hkept

theorem head_intercalate {segments : List String} (h : ∀ s ∈ segments, PlainSegment s)
    (rest : List Char) : ['/'].intercalate (segments.map String.toList) ≠ '/' :: rest := by
  intro heq
  cases segments with
  | nil => simp at heq
  | cons s more =>
    have hs := h s List.mem_cons_self
    cases hcs : s.toList with
    | nil => exact hs.ne_empty (String.toList_eq_nil_iff.1 hcs)
    | cons c cs =>
      have hc : c = '/' := by
        cases more with
        | nil => simp_all
        | cons t more => simp_all [List.intercalate_cons_cons]
      exact hs.no_slash (by simp [hcs, hc])

theorem parse_toText {p : Path} (h : p.Plain) : parse p.toText = p := by
  obtain ⟨root, segments⟩ := p
  have hsegments := segmentsOf_intercalate h.segments
  have hhead := head_intercalate h.segments
  by_cases hdot : root = "" ∧ segments = []
  · obtain ⟨rfl, rfl⟩ := hdot
    rfl
  · have htext : (toText ⟨root, segments⟩).toList =
        root.toList ++ ['/'].intercalate (segments.map String.toList) := by
      have : (root == "" && segments.isEmpty) = false := by
        simpa [Bool.and_eq_false_iff, ← not_and_or] using hdot
      simp [toText, this, String.toList_intercalate]
    have hroot : root = "" ∨ root = "/" ∨ root = "//" := h.root
    unfold parse
    rw [htext]
    generalize ['/'].intercalate (segments.map String.toList) = cs at hsegments hhead
    rcases hroot with rfl | rfl | rfl
    · split <;> simp_all
    · cases cs with
      | nil => simp_all
      | cons c rest =>
        have hc : c ≠ '/' := fun hc => hhead rest (by rw [hc])
        simp_all
    · cases cs with
      | nil => simp_all
      | cons c rest =>
        have hc : c ≠ '/' := fun hc => hhead rest (by rw [hc])
        simp_all

theorem normalize_toText {p : Path} (h : p.Plain) : normalize p.toText = p.toText := by
  rw [normalize, parse_toText h]

theorem normalize_normalize (s : String) : normalize (normalize s) = normalize s :=
  normalize_toText (plain_parse s)

theorem mem_of_mem_climb {segments : List String} {s : String} (h : s ∈ climb segments) :
    s ∈ segments := by
  have hfold : ∀ (segments found : List String),
      s ∈ segments.foldl (fun found s => if s == ".." then found.dropLast else found ++ [s]) found →
      s ∈ found ∨ s ∈ segments := by
    intro segments
    induction segments with
    | nil => intro found h; exact .inl h
    | cons t rest ih =>
      intro found h
      rcases ih _ h with h | h
      · dsimp only at h
        split at h
        · exact .inl (List.dropLast_subset _ h)
        · rcases List.mem_append.1 h with h | h
          · exact .inl h
          · exact .inr (by simp_all)
      · exact .inr (List.mem_cons_of_mem _ h)
  simpa using hfold segments [] h

theorem Plain.resolve_join {p q : Path} (hp : p.Plain) (hq : q.Plain) :
    (p.parent.join q).resolve.Plain := by
  have hjoin : (p.parent.join q).Plain := by
    unfold join
    split
    · exact hq
    · refine ⟨hp.root, fun s hs => ?_⟩
      rcases List.mem_append.1 hs with hs | hs
      · exact hp.segments s (List.dropLast_subset _ hs)
      · exact hq.segments s hs
  refine ⟨?_, fun s hs => hjoin.segments s (mem_of_mem_climb hs)⟩
  simp only [resolve]
  split
  · exact hjoin.root
  · exact .inr (.inl rfl)

end Path

end SoapComponents
