import SoapComponents.Proofs.Markup.Usage
import SoapComponents.Proofs.Markup.Within

/-!
What is rendered for every item of a repeated member. A loop has one element for each item, the
member's own, unless the member's type is found by going in a circle: there the element is left out,
and what its content has in its place may be none, or several.
-/

set_option autoImplicit false

namespace SoapComponents

namespace Markup

variable {τ σ : Type}

mutual

/-- The markup at the top of a block. Bare content stands in the place of its block. -/
def roots : Markup τ → List (Markup τ)
  | leaf tag path => [leaf tag path]
  | element tag content => [element tag content]
  | bare _ content => rootsAll content
  | loop path body => [loop path body]

def rootsAll : List (Markup τ) → List (Markup τ)
  | [] => []
  | m :: rest => roots m ++ rootsAll rest

end

def IsElement : Markup τ → Prop
  | leaf _ _ | element _ _ => True
  | bare _ _ | loop _ _ => False

/-- One element, and nothing beside it. -/
def OneElement (m : Markup τ) : Prop := ∃ e, m.roots = [e] ∧ e.IsElement

/-- The text of one element: an opening tag and its closing tag, with the value at a path or the
text of markup between them. -/
inductive ElementText : String → Prop
  | value (tag path : String) : ElementText (openTag tag ++ interpolate path ++ closeTag tag)
  | content (tag : String) (content : List (Markup String)) :
      ElementText (enclose tag ("\n".intercalate (printAll content)))

mutual

theorem roots_map (f : τ → σ) : ∀ m : Markup τ, (map f m).roots = m.roots.map (map f)
  | leaf _ _ => rfl
  | element _ _ => rfl
  | bare _ content => rootsAll_mapAll f content
  | loop _ _ => rfl

theorem rootsAll_mapAll (f : τ → σ) :
    ∀ ms : List (Markup τ), rootsAll (mapAll f ms) = (rootsAll ms).map (map f)
  | [] => rfl
  | m :: rest => by
    simp only [mapAll, rootsAll, List.map_append, roots_map f m, rootsAll_mapAll f rest]

end

mutual

theorem roots_eq_nil_iff : ∀ m : Markup τ, m.roots = [] ↔ m.isBlank = true
  | leaf _ _ => by simp [roots, isBlank]
  | element _ _ => by simp [roots, isBlank]
  | bare _ content => by simp only [roots, isBlank, rootsAll_eq_nil_iff content]
  | loop _ _ => by simp [roots, isBlank]

theorem rootsAll_eq_nil_iff : ∀ ms : List (Markup τ), rootsAll ms = [] ↔ isBlankAll ms = true
  | [] => by simp [rootsAll, isBlankAll]
  | m :: rest => by
    simp only [rootsAll, isBlankAll, List.append_eq_nil_iff, Bool.and_eq_true, roots_eq_nil_iff m,
      rootsAll_eq_nil_iff rest]

end

mutual

theorem print_roots : ∀ m : Markup String, print m = "\n".intercalate (m.roots.map print)
  | leaf _ _ => by simp [roots]
  | element _ _ => by simp [roots]
  | bare _ content => by simp only [print, roots, intercalate_printAll content]
  | loop _ _ => by simp [roots]

theorem intercalate_printAll : ∀ ms : List (Markup String),
    "\n".intercalate (printAll ms) = "\n".intercalate ((rootsAll ms).map print)
  | [] => rfl
  | m :: rest => by
    have ih := intercalate_printAll rest
    rw [rootsAll, List.map_append]
    by_cases hm : print m = ""
    · have hroots := (roots_eq_nil_iff m).2 ((print_eq_empty_iff m).1 hm)
      simp only [printAll, hm, beq_self_eq_true, if_true, ih, hroots, List.map_nil,
        List.nil_append]
    · have hroots : m.roots.map print ≠ [] := by
        simpa [roots_eq_nil_iff, ← print_eq_empty_iff] using hm
      simp only [printAll, beq_iff_eq, if_neg hm]
      by_cases hrest : printAll rest = []
      · have hnone := (rootsAll_eq_nil_iff rest).2 ((printAll_eq_nil_iff rest).1 hrest)
        simp [hrest, hnone, print_roots m]
      · have hmore : (rootsAll rest).map print ≠ [] := by
          simpa [rootsAll_eq_nil_iff, ← printAll_eq_nil_iff] using hrest
        rw [String.intercalate_cons_of_ne_nil hrest, ih, print_roots m,
          String.intercalate_append_of_ne_nil hroots hmore]

end

theorem OneElement.print {m : Markup String} (h : m.OneElement) : ElementText m.print := by
  obtain ⟨e, hroots, helement⟩ := h
  rw [print_roots, hroots, List.map_singleton, String.intercalate_singleton]
  cases e with
  | leaf tag path => exact .value tag path
  | element tag content => exact .content tag content
  | bare => cases helement
  | loop => cases helement

theorem OneElement.map (f : τ → σ) {m : Markup τ} (h : m.OneElement) : (map f m).OneElement := by
  obtain ⟨e, hroots, helement⟩ := h
  refine ⟨Markup.map f e, by rw [roots_map, hroots, List.map_singleton], ?_⟩
  cases e <;> trivial

theorem oneElement_bare {tag : τ} {content : List (Markup τ)} (h : ∀ m ∈ content, m.roots ≠ []) :
    (bare tag content).OneElement ↔ ∃ only, content = [only] ∧ only.OneElement := by
  constructor
  · rintro ⟨e, hroots, helement⟩
    rw [roots] at hroots
    match content, h, hroots with
    | [], _, hroots => cases hroots
    | [only], _, hroots => exact ⟨only, rfl, e, by simpa [rootsAll] using hroots, helement⟩
    | first :: second :: rest, h, hroots =>
      -- each block has a root, so there are two of them
      have hfirst := List.length_pos_of_ne_nil (h first (by simp))
      have hsecond := List.length_pos_of_ne_nil (h second (by simp))
      have hlength := congrArg List.length hroots
      simp only [rootsAll, List.length_append, List.length_singleton] at hlength
      omega
  · rintro ⟨only, rfl, e, hroots, helement⟩
    exact ⟨e, by simp [roots, rootsAll, hroots], helement⟩

end Markup

namespace Catalog

variable {c : Catalog} {path field key : String} {opened around : List ObjectId}
  {blocks content : List (Markup TagSite)} {block body : Markup TagSite} {site : TagSite}
  {m : Member TypeNode} {o : ObjectNode}

/-- Unless its type is found by going in a circle, and not inside of itself, a member is rendered as
one element. -/
theorem oneElement_outlineContent
    (h : ∀ id, (c.contentOf key m.type).value = .object id true → id ∈ around) :
    (c.outlineContent path around key m).OneElement := by
  unfold outlineContent
  cases hcontent : (c.contentOf key m.type).value with
  | value => exact ⟨_, rfl, trivial⟩
  | object id bare =>
    dsimp only
    by_cases hid : id ∈ around
    · rw [if_pos hid]
      exact ⟨_, rfl, trivial⟩
    · rw [if_neg hid]
      cases bare with
      | true => exact absurd (h id hcontent) hid
      | false => exact ⟨_, rfl, trivial⟩

theorem outlineContent_circular {id : ObjectId}
    (h : (c.contentOf key m.type).value = .object id true) (hid : id ∉ around) :
    c.outlineContent path around key m =
      .bare ⟨key, m, (c.contentOf key m.type).notices⟩
        (c.outlineMembers path (id :: around) (c.graph.object id).members) :=
  outlineContent_object h hid

theorem ne_nil_of_outlineContent_eq_bare (h : c.outlineContent path around key m = .bare site content) :
    content ≠ [] := by
  unfold outlineContent at h
  dsimp only at h
  cases hcontent : (c.contentOf key m.type).value with
  | value => simp [hcontent] at h
  | object id bare =>
    have hmembers := members_of_contentOf hcontent
    simp only [hcontent] at h
    split at h
    · cases h
    · cases bare with
      | false => cases h
      | true =>
        obtain ⟨-, rfl⟩ := Markup.bare.inj h
        intro hnone
        have hmap := @member_outlineMembers c path (id :: around) (c.graph.object id).members
        rw [hnone] at hmap
        exact hmembers hmap.symm

theorem Placed.bare_ne_nil (h : Placed c blocks around (.bare site content)) : content ≠ [] := by
  generalize hblock : Markup.bare site content = block at h
  cases h with
  | @member path key m =>
    rcases c.outlineMember_cases path around key m with ⟨_, _, heq⟩ | ⟨_, heq⟩
    · cases hblock.trans heq
    · exact ne_nil_of_outlineContent_eq_bare (heq.symm.trans hblock.symm)
  | content => exact ne_nil_of_outlineContent_eq_bare hblock.symm
  | payload => cases hblock

theorem Within.roots_ne_nil : ∀ (block : Markup TagSite) {around : List ObjectId},
    c.Within opened (c.outline path opened o).2 around block → block.roots ≠ []
  | .leaf _ _, _, _ => by simp [Markup.roots]
  | .element _ _, _, _ => by simp [Markup.roots]
  | .loop _ _, _, _ => by simp [Markup.roots]
  | .bare _ [], _, h => absurd rfl h.placed.bare_ne_nil
  | .bare _ (first :: _), _, h => by
    have hfirst := Within.roots_ne_nil first (h.bare List.mem_cons_self)
    simp [Markup.roots, Markup.rootsAll, hfirst]

theorem Placed.loop_body (h : Placed c blocks around (.loop field body)) :
    ∃ path key m, m.isRepeated = true ∧ field = fieldPath path key ∧
      body = c.outlineContent Markup.loopVariable around key m := by
  generalize hblock : Markup.loop field body = block at h
  cases h with
  | @member path key m =>
    unfold outlineMember at hblock
    split at hblock
    · next hrepeated =>
      obtain ⟨rfl, rfl⟩ := Markup.loop.inj hblock
      exact ⟨path, key, m, hrepeated, rfl, rfl⟩
    · exact absurd hblock.symm outlineContent_ne_loop
  | content => exact absurd hblock.symm outlineContent_ne_loop
  | payload => cases hblock

end Catalog

namespace BodyPlan

/-- The loops of a body. Each is for a repeated member, and its text is what the member is rendered
as for an item. This is one element, with its opening and closing tag, whenever the member's type is
not found by going in a circle, or the member lies inside of that type. Else it is the content of
the type without an element of its own: one block for each member of the type, so that it is one
element just when there is one member, and this is rendered as one element. -/
theorem loops_of_body (b : BodyPlan) (root : Root) (propsField : Option String)
    {around : List ObjectId} {field : String} {body : Markup TagSite}
    (h : b.catalog.Within root.visited (b.content root propsField) around (.loop field body)) :
    let c := b.catalog
    body.member.2.isRepeated = true ∧
    (∀ q, (Markup.map (b.tagName q) (.loop field body)).print =
      Markup.iterate field (Markup.map (b.tagName q) body).print) ∧
    (body.OneElement → ∀ q, Markup.ElementText (Markup.map (b.tagName q) body).print) ∧
    ((∀ id, (c.contentOf body.member.1 body.member.2.type).value = .object id true →
      id ∈ around) → body.OneElement) ∧
    ∀ id, (c.contentOf body.member.1 body.member.2.type).value = .object id true → id ∉ around →
      ∃ site content, body = .bare site content ∧
        content.map Markup.member = (c.graph.object id).members ∧
        (body.OneElement ↔ ∃ only, content = [only] ∧ only.OneElement) := by
  intro c
  obtain ⟨path, key, m, hrepeated, rfl, rfl⟩ := h.placed.loop_body
  rw [Catalog.member_outlineContent]
  refine ⟨hrepeated, fun q => rfl, fun hone q => (hone.map _).print,
    Catalog.oneElement_outlineContent, fun id hid hout => ?_⟩
  have hbare := @Catalog.outlineContent_circular c Markup.loopVariable key around m id hid hout
  refine ⟨_, _, hbare, Catalog.member_outlineMembers _, ?_⟩
  have hwithin := h.loop
  rw [hbare] at hwithin ⊢
  exact Markup.oneElement_bare fun block hblock =>
    Catalog.Within.roots_ne_nil block (hwithin.bare hblock)

end BodyPlan

namespace SampleRepeated

def text : Member TypeNode := { type := .primitive "string" }

def foo : Member TypeNode :=
  { type := .reference { name := "urn:t:Foo" }, maxOccurs := "unbounded" }

def bar : Member TypeNode := { type := .object 2, maxOccurs := "unbounded" }

def graph : TypeGraph where
  objects := [
    { members := [("a", text), ("b", text)] },
    { members := [("Foo", foo), ("Bar", bar)] },
    { members := [("x", text)] }]
  elements := [("urn:t:Foo", .reference { name := "urn:t:Foo" })]
  complexTypes := [("urn:t:Foo", 0), ("urn:t:Root", 1)]

def plan : BodyPlan := ⟨graph.catalog, ⟨10, 6⟩, {}, "t", "Root"⟩

def root : Root := .ofId graph 1

def fooBody : Markup TagSite :=
  .bare ⟨"Foo", foo, (graph.catalog.contentOf "Foo" foo.type).notices⟩ [
    .leaf ⟨"a", text, []⟩ "item.a", .leaf ⟨"b", text, []⟩ "item.b"]

def barBody : Markup TagSite := .element ⟨"Bar", bar, []⟩ [.leaf ⟨"x", text, []⟩ "item.x"]

theorem content_root :
    plan.content root none = [.loop "props.foo" fooBody, .loop "props.bar" barBody] := by
  have hnext : graph.catalog.next? (graph.object 1) [1] = none := rfl
  have hfoo : (graph.catalog.contentOf "Foo" foo.type).value = .object 0 true := rfl
  have hbar : (graph.catalog.contentOf "Bar" bar.type).value = .object 2 false := rfl
  have hpaths : Catalog.fieldPath "props" "Foo" = "props.foo" ∧
      Catalog.fieldPath "props" "Bar" = "props.bar" ∧ Catalog.fieldPath "item" "a" = "item.a" ∧
      Catalog.fieldPath "item" "b" = "item.b" ∧ Catalog.fieldPath "item" "x" = "item.x" := by
    decide +kernel
  obtain ⟨hfooPath, hbarPath, haPath, hbPath, hxPath⟩ := hpaths
  have hleaf : ∀ (opened : List ObjectId) (key : String), graph.catalog.outlineMember "item" opened
      key text = .leaf ⟨key, text, []⟩ (Catalog.fieldPath "item" key) := fun opened key => by
    rw [Catalog.outlineMember_single rfl, Catalog.outlineContent_primitive rfl]
  have hfooBody : graph.catalog.outlineContent "item" [1] "Foo" foo = fooBody := by
    rw [Catalog.outlineContent_object hfoo (by decide)]
    show Markup.bare _ (graph.catalog.outlineMembers "item" [0, 1] [("a", text), ("b", text)]) = _
    rw [Catalog.outlineMembers_cons, Catalog.outlineMembers_cons, Catalog.outlineMembers_nil, hleaf,
      hleaf, haPath, hbPath]
    rfl
  have hbarBody : graph.catalog.outlineContent "item" [1] "Bar" bar = barBody := by
    rw [Catalog.outlineContent_object hbar (by decide)]
    show Markup.element _ (graph.catalog.outlineMembers "item" [2, 1] [("x", text)]) = _
    rw [Catalog.outlineMembers_cons, Catalog.outlineMembers_nil, hleaf, hxPath]
    rfl
  show (graph.catalog.outline "props" [1] (graph.object 1)).2 = _
  rw [Catalog.outline_of_next_none hnext]
  show graph.catalog.outlineMembers "props" [1] [("Foo", foo), ("Bar", bar)] = _
  have hrepeated : foo.isRepeated = true ∧ bar.isRepeated = true := by decide
  rw [Catalog.outlineMembers_cons, Catalog.outlineMembers_cons, Catalog.outlineMembers_nil,
    Catalog.outlineMember, Catalog.outlineMember, if_pos hrepeated.1, if_pos hrepeated.2, hfooPath,
    hbarPath]
  rw [Markup.loopVariable, hfooBody, hbarBody]

/-- The items of `Bar` have one element each. -/
theorem bar_loops : plan.catalog.Within root.visited (plan.content root none) [1]
      (.loop "props.bar" barBody) ∧ barBody.OneElement ∧
    ∀ q, Markup.ElementText (Markup.map (plan.tagName q) barBody).print := by
  have hwithin : plan.catalog.Within root.visited (plan.content root none) [1]
      (.loop "props.bar" barBody) := .top (content_root ▸ by simp)
  obtain ⟨_, _, htext, hone, _⟩ := BodyPlan.loops_of_body plan root none hwithin
  have hcontent : (plan.catalog.contentOf "Bar" bar.type).value = .object 2 false := rfl
  have hbar : barBody.OneElement := hone fun id hid => by
    cases hcontent.symm.trans hid
  exact ⟨hwithin, hbar, htext hbar⟩

/-- The items of `Foo` have two elements each, side by side. -/
theorem foo_loops : plan.catalog.Within root.visited (plan.content root none) [1]
      (.loop "props.foo" fooBody) ∧ foo.isRepeated = true ∧ ¬ fooBody.OneElement ∧
    ∀ q, (Markup.map (plan.tagName q) (.loop "props.foo" fooBody)).print =
      "\x7bprops.foo.map((item, i) => (\n" ++
        "    <xml.a>\x7bitem.a\x7d</xml.a>\n    <xml.b>\x7bitem.b\x7d</xml.b>\n))\x7d" := by
  refine ⟨.top (content_root ▸ by simp), rfl, ?_, fun q => ?_⟩
  · rintro ⟨e, hroots, -⟩
    have hlength := congrArg List.length hroots
    simp [fooBody, Markup.roots, Markup.rootsAll] at hlength
  · have hmap : Markup.map (plan.tagName q) (.loop "props.foo" fooBody) =
        .loop "props.foo" (.bare "xml.Foo" [.leaf "xml.a" "item.a", .leaf "xml.b" "item.b"]) := rfl
    rw [hmap]
    decide +kernel

end SampleRepeated

end SoapComponents
