import SoapComponents.Xml.Event

/-!
Documents as elements. An element has what its start tag says and, inside of it, texts and other
elements in order. Written out as events it is the declarations of its tag, its start, what is
inside of it, and its end.
-/

set_option autoImplicit false

namespace SoapComponents.Xml

def IsName (s : String) : Prop := s ≠ "" ∧ ∀ c ∈ s.toList, isNameChar c = true

-- the list's own test: asked as it stands, it may be decided by going over all characters
instance (s : String) : Decidable (IsName s) :=
  decidable_of_iff (s ≠ "" ∧ s.toList.all isNameChar = true) (by rw [IsName, List.all_eq_true])

theorem IsName.not_mem {s : String} (h : IsName s) {c : Char} (hc : isNameChar c = false) :
    c ∉ s.toList := by
  intro hm
  rw [h.2 c hm] at hc
  cases hc

structure StartTag where
  declared : List (String × String) := []
  name : ExpandedName
  attributes : List (ExpandedName × String) := []

inductive Inner where
  | nil
  | text (content : String) (next : Inner)
  | element (tag : StartTag) (inside next : Inner)

structure Element where
  tag : StartTag
  inside : Inner

namespace StartTag

def events (t : StartTag) : List Event :=
  t.declared.map (fun d => .declare d.1 d.2) ++ [.start t.name t.attributes]

/-- The names in the tag are names; the default namespace is declared without one. -/
def Named (t : StartTag) : Prop :=
  (∀ d ∈ t.declared, d.1 = "" ∨ IsName d.1) ∧ IsName t.name.base ∧
    ∀ a ∈ t.attributes, IsName a.1.base

instance (t : StartTag) : Decidable t.Named := inferInstanceAs (Decidable (_ ∧ _ ∧ _))

end StartTag

namespace Inner

def events : Inner → List Event
  | nil => []
  | text content next => .text content :: next.events
  | element tag inside next => tag.events ++ inside.events ++ .finish :: next.events

def elements : Inner → List Element
  | nil => []
  | text _ next => next.elements
  | element tag inside next => ⟨tag, inside⟩ :: next.elements

def leading : Inner → String
  | text content next => content ++ next.leading
  | _ => ""

def Named : Inner → Prop
  | nil => True
  | text _ next => next.Named
  | element tag inside next => tag.Named ∧ inside.Named ∧ next.Named

instance decidableNamed : (inner : Inner) → Decidable inner.Named
  | nil => inferInstanceAs (Decidable True)
  | text _ next => decidableNamed next
  | element tag inside next =>
    have := decidableNamed inside
    have := decidableNamed next
    inferInstanceAs (Decidable (tag.Named ∧ _ ∧ _))

end Inner

namespace Element

def events (e : Element) : List Event := e.tag.events ++ e.inside.events ++ [.finish]

def children (e : Element) : List Element := e.inside.elements

def Named (e : Element) : Prop := e.tag.Named ∧ e.inside.Named

instance (e : Element) : Decidable e.Named := inferInstanceAs (Decidable (_ ∧ _))

theorem Named.child {e c : Element} (h : e.Named) (hc : c ∈ e.children) : c.Named := by
  have hinner : ∀ inner : Inner, inner.Named → c ∈ inner.elements → c.Named := by
    intro inner
    induction inner with
    | nil => intro _ hc; cases hc
    | text content next ih => exact ih
    | element tag inside next _ ih =>
      rintro ⟨htag, hinside, hnext⟩ hc
      rcases List.mem_cons.1 hc with rfl | hc
      · exact ⟨htag, hinside⟩
      · exact ih hnext hc
  exact hinner e.inside h.2 hc

end Element

/-- A stream of events that brings as many open elements to their end as a number says. -/
inductive Closes : Nat → List Event → Prop
  | nil : Closes 0 []
  | text {n : Nat} {events : List Event} (content : String) : Closes (n + 1) events →
      Closes (n + 1) (.text content :: events)
  | start {n : Nat} {events : List Event} (tag : StartTag) : tag.Named → Closes (n + 2) events →
      Closes (n + 1) (tag.events ++ events)
  | finish {n : Nat} {events : List Event} : Closes n events → Closes (n + 1) (.finish :: events)

theorem Closes.inside {n : Nat} {events : List Event} (h : Closes n events) :
    ∃ inners : List Inner, inners.length = n ∧ (∀ inner ∈ inners, inner.Named) ∧
      events = inners.flatMap fun inner => inner.events ++ [.finish] := by
  induction h with
  | nil => exact ⟨[], rfl, by simp, rfl⟩
  | text content _ ih =>
    obtain ⟨inners, hlength, hnamed, rfl⟩ := ih
    obtain ⟨inner, outer, rfl⟩ := List.exists_cons_of_length_eq_add_one hlength
    have hnamed := List.forall_mem_cons.1 hnamed
    exact ⟨.text content inner :: outer, hlength, List.forall_mem_cons.2 hnamed, rfl⟩
  | start tag htag _ ih =>
    obtain ⟨inners, hlength, hnamed, rfl⟩ := ih
    obtain ⟨inner, rest, rfl⟩ := List.exists_cons_of_length_eq_add_one hlength
    obtain ⟨around, outer, rfl⟩ :=
      List.exists_cons_of_length_eq_add_one (Nat.succ.inj hlength)
    simp only [List.forall_mem_cons] at hnamed
    refine ⟨.element tag inner around :: outer, Nat.succ.inj hlength, ?_, ?_⟩
    · exact List.forall_mem_cons.2 ⟨⟨htag, hnamed.1, hnamed.2.1⟩, hnamed.2.2⟩
    · simp [Inner.events]
  | finish _ ih =>
    obtain ⟨inners, hlength, hnamed, rfl⟩ := ih
    exact ⟨.nil :: inners, by rw [List.length_cons, hlength],
      List.forall_mem_cons.2 ⟨trivial, hnamed⟩, rfl⟩

theorem Closes.element {tag : StartTag} {events : List Event} (htag : tag.Named)
    (h : Closes 1 events) : ∃ e : Element, e.Named ∧ e.events = tag.events ++ events := by
  obtain ⟨inners, hlength, hnamed, rfl⟩ := h.inside
  obtain ⟨inner, rfl⟩ := List.length_eq_one_iff.1 hlength
  exact ⟨⟨tag, inner⟩, ⟨htag, hnamed inner List.mem_cons_self⟩, by simp [Element.events]⟩

end SoapComponents.Xml
