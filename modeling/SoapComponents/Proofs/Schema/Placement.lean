import SoapComponents.Proofs.Table
import SoapComponents.Schema.Draft

/-!
Putting drafts into a graph. A placed draft adds objects and changes nothing else, and the members
of the added objects are those that the draft has, each with the same kind of type.
-/

set_option autoImplicit false

namespace SoapComponents

inductive TypeHead where
  | primitive (name : String)
  | reference (pointer : Reference)
  | object
  deriving DecidableEq

namespace Draft

def head : Draft → TypeHead
  | primitive name => .primitive name
  | reference key => .reference ⟨key, none, none⟩
  | object _ => .object

end Draft

namespace TypeNode

def head : TypeNode → TypeHead
  | primitive name => .primitive name
  | reference pointer => .reference pointer
  | object _ => .object

end TypeNode

def Member.map {τ σ : Type} (f : τ → σ) (m : Member τ) : Member σ := { m with type := f m.type }

namespace TypeGraph

/-- A graph with more objects, all of whose members satisfy `P`, and nothing else changed. -/
structure Grown (P : String × Member TypeNode → Prop) (g g' : TypeGraph) : Prop where
  objects : ∃ more, g'.objects = g.objects ++ more ∧ ∀ o ∈ more, ∀ e ∈ o.members, P e
  elements : g'.elements = g.elements
  complexTypes : g'.complexTypes = g.complexTypes

variable {P : String × Member TypeNode → Prop} {g g' g'' : TypeGraph}

theorem Grown.refl (g : TypeGraph) : Grown P g g where
  objects := ⟨[], by simp⟩
  elements := rfl
  complexTypes := rfl

theorem Grown.trans (h : Grown P g g') (h' : Grown P g' g'') : Grown P g g'' where
  objects := by
    obtain ⟨more, heq, hmore⟩ := h.objects
    obtain ⟨last, heq', hlast⟩ := h'.objects
    refine ⟨more ++ last, by rw [heq', heq, List.append_assoc], fun o ho => ?_⟩
    exact (List.mem_append.1 ho).elim (hmore o) (hlast o)
  elements := h'.elements.trans h.elements
  complexTypes := h'.complexTypes.trans h.complexTypes

theorem grown_addObject {o : ObjectNode} (h : ∀ e ∈ o.members, P e) :
    Grown P g (g.addObject o).1 where
  objects := ⟨[o], rfl, by simpa using h⟩
  elements := rfl
  complexTypes := rfl

theorem Grown.members (h : Grown P g g') (hg : ∀ o ∈ g.objects, ∀ e ∈ o.members, P e) :
    ∀ o ∈ g'.objects, ∀ e ∈ o.members, P e := by
  obtain ⟨more, heq, hmore⟩ := h.objects
  intro o ho
  rw [heq] at ho
  exact (List.mem_append.1 ho).elim (hg o) (hmore o)

end TypeGraph

namespace Draft

/-- Every member declaration in a draft satisfies `Entry`, and every type that it extends `Base`. -/
inductive All (Entry : String × Member TypeHead → Prop) (Base : String → Prop) : Draft → Prop
  | primitive (name : String) : All Entry Base (.primitive name)
  | reference (key : String) : All Entry Base (.reference key)
  | object {derived : Derived Draft} :
      (∀ e ∈ derived.type.members, Entry (e.1, e.2.map head)) →
      (∀ e ∈ derived.type.members, All Entry Base e.2.type) →
      (∀ key, derived.extended = some key → Base key) → All Entry Base (.object derived)

variable {Entry : String × Member TypeHead → Prop} {Base : String → Prop}

def Kept (Entry : String × Member TypeHead → Prop) (e : String × Member TypeNode) : Prop :=
  Entry (e.1, e.2.map TypeNode.head)

theorem place_spec :
    (∀ (g : TypeGraph) (draft : Draft), draft.All Entry Base →
      let r := place g draft
      TypeGraph.Grown (Kept Entry) g r.1 ∧ r.2.1.head = draft.head ∧ ∀ x ∈ r.2.2, Base x.base) ∧
    (∀ (g : TypeGraph) (derived : Derived Draft), (Draft.object derived).All Entry Base →
      let r := placeObject g derived
      TypeGraph.Grown (Kept Entry) g r.1 ∧ ∀ x ∈ r.2.2, Base x.base) ∧
    ∀ (g : TypeGraph) (members : List (String × Member Draft)),
      (∀ e ∈ members, Entry (e.1, e.2.map head)) → (∀ e ∈ members, e.2.type.All Entry Base) →
      let r := placeMembers g members
      TypeGraph.Grown (Kept Entry) g r.1 ∧ (∀ e ∈ r.2.1, Kept Entry e) ∧
        ∀ x ∈ r.2.2, Base x.base := by
  -- types, objects and lists of members are placed in one recursion
  refine place.mutual_induct _ _ _ ?primitive ?reference ?object ?derived ?nil ?cons
  case primitive =>
    intro g name _
    exact ⟨.refl g, rfl, by simp [place]⟩
  case reference =>
    intro g key _
    exact ⟨.refl g, rfl, by simp [place]⟩
  case object =>
    intro g derived g' id extensions hplace ih hall
    have hobject := ih hall
    simp only [hplace] at hobject
    simp only [place, hplace]
    exact ⟨hobject.1, rfl, hobject.2⟩
  case derived =>
    intro g members space qualified base attributes extended g' placed inner hplace g'' id hadd ih
      hall
    cases hall with
    | object hentries hinner hbase =>
      obtain ⟨hgrown, hplaced, hextensions⟩ := ih hentries hinner
      simp only [hplace] at hgrown hplaced hextensions
      have hadded := @TypeGraph.grown_addObject (Kept Entry) g'
        ⟨Table.ofAssignments placed, space, qualified, base, attributes⟩
        fun e he => hplaced e (Table.mem_of_mem_ofAssignments he)
      simp only [hadd] at hadded
      simp only [placeObject, hplace, hadd]
      refine ⟨hgrown.trans hadded, fun x hx => ?_⟩
      rcases List.mem_append.1 hx with hx | hx
      · obtain ⟨y, hy, rfl⟩ : ∃ key, extended = some key ∧ Extension.mk id key = x := by
          simpa using hx
        exact hbase y hy
      · exact hextensions x hx
  case nil =>
    intro g _ _
    exact ⟨.refl g, by simp [placeMembers], by simp [placeMembers]⟩
  case cons =>
    intro g key type minOccurs maxOccurs qualified space rest g' node outer hplace g'' placed inner
      hrest ihtype ihrest hentries hinner
    obtain ⟨hgrown, hhead, houter⟩ := ihtype (hinner _ List.mem_cons_self)
    simp only [hplace] at hgrown hhead houter
    obtain ⟨hgrown', hplaced, hextensions⟩ := ihrest
      (fun e he => hentries e (List.mem_cons_of_mem _ he))
      (fun e he => hinner e (List.mem_cons_of_mem _ he))
    simp only [hrest] at hgrown' hplaced hextensions
    simp only [placeMembers, hplace, hrest]
    refine ⟨hgrown.trans hgrown', fun e he => ?_, fun x hx => ?_⟩
    · rcases List.mem_cons.1 he with rfl | he
      · have hentry := hentries _ List.mem_cons_self
        simp only [Member.map, ← hhead] at hentry
        exact hentry
      · exact hplaced e he
    · exact (List.mem_append.1 hx).elim (houter x) (hextensions x)

end Draft

end SoapComponents
