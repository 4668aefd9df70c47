import SoapComponents.Interface.Collection
import SoapComponents.Proofs.Naming
import SoapComponents.Proofs.Markup.Outline
import SoapComponents.Proofs.Markup.Written

/-!
The markup of an object against its fields. Blocks and fields are made by two walks through the
graph; `FollowsFields` says what it is for them to agree, and the walks do.
-/

set_option autoImplicit false

namespace SoapComponents

namespace Member

theorem isRepeated_iff {m : Member TypeNode} (h : m.maxOccurs ≠ "") :
    m.isRepeated = true ↔ m.modifier = .repeated := by
  unfold isRepeated modifier Modifier.ofOccurs
  by_cases h1 : m.maxOccurs = "1"
  · simp only [h1, bne_self_eq_false, Bool.false_eq_true, false_iff]
    split
    · simp_all
    · split <;> simp
  · simp [h, h1]

end Member

namespace Catalog

def isCircular (c : Catalog) : TypeNode → Bool
  | .reference pointer => (c.resolve pointer.name).value.any (·.circular)
  | _ => false

theorem leafHost?_cases (o : ObjectNode) :
    (o.members = [] ∧ ∃ host, o.leafHost? = some host) ∨ (o.members ≠ [] ∧ o.leafHost? = none) := by
  unfold ObjectType.leafHost?
  by_cases h : o.members = []
  · exact .inl ⟨h, by simp [h]⟩
  · exact .inr ⟨h, by simp [h]⟩

/-- A member whose field has a host type, or an unknown one, is a value; one whose field has an
interface is an object with members. -/
theorem contentOf_cases (c : Catalog) (key : String) (type : TypeNode) :
    ((c.contentOf key type).value = .value ∧
      ((∃ host, (c.fieldType key type).value = .host host) ∨
        ∃ name, (c.fieldType key type).value = .unresolved name)) ∨
    ∃ id name, (c.contentOf key type).value = .object id (c.isCircular type) ∧
      (c.fieldType key type).value = .interface name ∧ (c.memberObject type).value = some id ∧
      (c.graph.object id).members ≠ [] := by
  cases type with
  | primitive name => exact .inl ⟨rfl, .inl ⟨_, rfl⟩⟩
  | object id =>
    rcases leafHost?_cases (c.graph.object id) with ⟨hm, host, hh⟩ | ⟨hm, hh⟩
    · refine .inl ⟨?_, .inl ⟨host, ?_⟩⟩
      · simp [contentOf, hm]
      · simp [fieldType, hh]
    · refine .inr ⟨id, Name.pascal key, ?_, ?_, rfl, hm⟩
      · simp [contentOf, hm, isCircular]
      · simp [fieldType, hh]
  | reference pointer =>
    cases hr : (c.resolve pointer.name).value with
    | none =>
      refine .inl ⟨?_, .inr ⟨Name.pascal key, ?_⟩⟩
      · simp [contentOf, hr]
      · simp [fieldType, hr]
    | some r =>
      cases ht : r.target with
      | primitive name =>
        refine .inl ⟨?_, .inl ⟨.ofName name, ?_⟩⟩
        · simp [contentOf, hr, ht]
        · simp [fieldType, hr, ht]
      | object id =>
        rcases leafHost?_cases (c.graph.object id) with ⟨hm, host, hh⟩ | ⟨hm, hh⟩
        · refine .inl ⟨?_, .inl ⟨host, ?_⟩⟩
          · simp [contentOf, hr, ht, hm]
          · simp [fieldType, hr, ht, hh]
        · refine .inr ⟨id, interfaceName r.key pointer.name, ?_, ?_, ?_, hm⟩
          · simp [contentOf, hr, ht, hm, isCircular]
          · simp [fieldType, hr, ht, hh]
          · simp [memberObject, resolveObject, hr, ht, Target.object?]

theorem value_field (c : Catalog) (key : String) (m : Member TypeNode) :
    (c.field key m).value = ⟨Name.camel key, (c.fieldType key m.type).value, m.modifier⟩ := rfl

theorem value_fields (c : Catalog) (o : ObjectNode) :
    (c.fields o).value = o.members.map fun e => (c.field e.1 e.2).value := by
  unfold fields
  induction o.members with
  | nil => rfl
  | cons e rest ih =>
    simp only [List.mapM_cons, Noted.value_bind, Noted.value_pure, ih, List.map_cons]

end Catalog

mutual

/-- The markup of a member with its field: the content at the path of the field, or a loop over
that path when the field is repeated. The object of the member is found at `path`, and `opened`
are the objects around it. -/
inductive FollowsField (c : Catalog) :
    String → List ObjectId → String × Member TypeNode → Field → Markup TagSite → Prop
  | single {path opened key m field block} : field.modifier ≠ .repeated →
      FollowsType c (path ++ "." ++ field.name) opened key m field.type block →
      FollowsField c path opened (key, m) field block
  | loop {path opened key m field body} : field.modifier = .repeated →
      FollowsType c Markup.loopVariable opened key m field.type body →
      FollowsField c path opened (key, m) field (.loop (path ++ "." ++ field.name) body)

/-- The content of a member whose value is found at `path`: the value itself where the field has a
host type or an unknown one, and all members of the member's object where it has an interface. -/
inductive FollowsType (c : Catalog) :
    String → List ObjectId → String → Member TypeNode → FieldType → Markup TagSite → Prop
  | host {path opened key m type notices} :
      FollowsType c path opened key m (.host type) (.leaf ⟨key, m, notices⟩ path)
  | unresolved {path opened key m name notices} :
      FollowsType c path opened key m (.unresolved name) (.leaf ⟨key, m, notices⟩ path)
  | opened {path opened key m name notices id} :
      (c.memberObject m.type).value = some id → id ∈ opened →
      FollowsType c path opened key m (.interface name) (.element ⟨key, m, notices⟩ [])
  | element {path opened key m name notices id content} :
      (c.memberObject m.type).value = some id → id ∉ opened → c.isCircular m.type = false →
      (c.graph.object id).members ≠ [] →
      FollowsFields c path (id :: opened) (c.graph.object id).members
        (c.fields (c.graph.object id)).value content →
      FollowsType c path opened key m (.interface name) (.element ⟨key, m, notices⟩ content)
  | bare {path opened key m name notices id content} :
      (c.memberObject m.type).value = some id → id ∉ opened → c.isCircular m.type = true →
      (c.graph.object id).members ≠ [] →
      FollowsFields c path (id :: opened) (c.graph.object id).members
        (c.fields (c.graph.object id)).value content →
      FollowsType c path opened key m (.interface name) (.bare ⟨key, m, notices⟩ content)

/-- One block for each member with its field, in their order. -/
inductive FollowsFields (c : Catalog) : String → List ObjectId →
    List (String × Member TypeNode) → List Field → List (Markup TagSite) → Prop
  | nil {path opened} : FollowsFields c path opened [] [] []
  | cons {path opened e field block members fields blocks} :
      FollowsField c path opened e field block →
      FollowsFields c path opened members fields blocks →
      FollowsFields c path opened (e :: members) (field :: fields) (block :: blocks)

end

mutual

theorem FollowsField.isBlank_eq_false {c : Catalog} : ∀ {path opened e field block},
    FollowsField c path opened e field block → block.isBlank = false
  | _, _, _, _, _, .single _ h => h.isBlank_eq_false
  | _, _, _, _, _, .loop _ _ => rfl

theorem FollowsType.isBlank_eq_false {c : Catalog} : ∀ {path opened key m type block},
    FollowsType c path opened key m type block → block.isBlank = false
  | _, _, _, _, _, _, .host => rfl
  | _, _, _, _, _, _, .unresolved => rfl
  | _, _, _, _, _, _, .opened _ _ => rfl
  | _, _, _, _, _, _, .element _ _ _ _ _ => rfl
  | _, _, _, _, _, _, .bare _ _ _ hm h => h.isBlankAll_eq_false hm

theorem FollowsFields.isBlankAll_eq_false {c : Catalog} : ∀ {path opened members fields blocks},
    FollowsFields c path opened members fields blocks → members ≠ [] →
      Markup.isBlankAll blocks = false
  | _, _, _, _, _, .nil, hm => absurd rfl hm
  | _, _, _, _, _, .cons h _, _ => by
    have hb := h.isBlank_eq_false
    simp [Markup.isBlankAll, hb]

end

namespace Catalog

theorem outlineContent_follows (c : Catalog) (path : String) (opened : List ObjectId)
    (key : String) (m : Member TypeNode)
    (ih : ∀ id, (c.contentOf key m.type).value = .object id (c.isCircular m.type) → id ∉ opened →
      FollowsFields c path (id :: opened) (c.graph.object id).members
        (c.fields (c.graph.object id)).value
        (c.outlineMembers path (id :: opened) (c.graph.object id).members)) :
    FollowsType c path opened key m (c.fieldType key m.type).value
      (c.outlineContent path opened key m) := by
  rcases c.contentOf_cases key m.type with ⟨hc, htype⟩ | ⟨id, name, hc, htype, hid, hm⟩
  · unfold outlineContent
    simp only [hc]
    rcases htype with ⟨host, htype⟩ | ⟨name, htype⟩
    · rw [htype]
      exact .host
    · rw [htype]
      exact .unresolved
  · unfold outlineContent
    simp only [hc, htype]
    by_cases hopened : id ∈ opened
    · rw [if_pos hopened]
      exact .opened hid hopened
    · have hcontent := ih id hc hopened
      rw [if_neg hopened]
      cases hcirc : c.isCircular m.type with
      | true => exact .bare hid hopened hcirc hm hcontent
      | false => exact .element hid hopened hcirc hm hcontent

theorem outlineMember_follows (c : Catalog) {path : String} {opened : List ObjectId} {key : String}
    {m : Member TypeNode} {field : Field} (hname : field.name = Name.camel key)
    (hrepeated : m.isRepeated = true ↔ field.modifier = .repeated)
    (hcontent : let inner := if m.isRepeated then Markup.loopVariable else fieldPath path key
      FollowsType c inner opened key m field.type (c.outlineContent inner opened key m)) :
    FollowsField c path opened (key, m) field (c.outlineMember path opened key m) := by
  have hpath : fieldPath path key = path ++ "." ++ field.name := by rw [hname, fieldPath]
  unfold outlineMember
  by_cases hr : m.isRepeated = true
  · simp only [hr, if_true] at hcontent ⊢
    rw [hpath]
    exact .loop (hrepeated.1 hr) hcontent
  · simp only [hr, if_false, Bool.false_eq_true] at hcontent ⊢
    rw [hpath] at hcontent ⊢
    exact .single (mt hrepeated.2 hr) hcontent

theorem outlineMembers_follows (c : Catalog)
    (hobjects : ∀ id, ∀ e ∈ (c.graph.object id).members, e.2.maxOccurs ≠ "")
    (path : String) (opened : List ObjectId) (members : List (String × Member TypeNode))
    (hmembers : ∀ e ∈ members, e.2.maxOccurs ≠ "") :
    FollowsFields c path opened members (members.map fun e => (c.field e.1 e.2).value)
      (c.outlineMembers path opened members) := by
  induction path, opened, members using outlineMembers.induct c with
  | case1 path opened =>
    rw [outlineMembers_nil]
    exact .nil
  | case2 path opened key m rest field inner ihInner ih =>
    have hrest := ih fun e he => hmembers e (List.mem_cons_of_mem _ he)
    have hrepeated := Member.isRepeated_iff (hmembers _ List.mem_cons_self)
    have hcontent : FollowsType c inner opened key m (c.field key m).value.type
        (c.outlineContent inner opened key m) := by
      refine c.outlineContent_follows inner opened key m fun id hc hopened => ?_
      rw [value_fields]
      exact ihInner id _ (c.contentOf key m.type).notices (by rw [← hc]) hopened (hobjects id)
    have hname : (c.field key m).value.name = Name.camel key := by rw [value_field]
    have hfield := c.outlineMember_follows hname hrepeated hcontent
    rw [outlineMembers_cons, List.map_cons]
    exact .cons hfield hrest

end Catalog

theorem FollowsFields.isBlank_of_mem {c : Catalog} : ∀ {path opened members fields blocks},
    FollowsFields c path opened members fields blocks → ∀ block ∈ blocks, block.isBlank = false
  | _, _, _, _, _, .nil => by simp
  | _, _, _, _, _, .cons h hs => List.forall_mem_cons.2 ⟨h.isBlank_eq_false, hs.isBlank_of_mem⟩

namespace Catalog

def innermost (c : Catalog) (o : ObjectNode) (chain : List Payload) : ObjectNode :=
  (chain.getLast?.map fun p => c.graph.object p.id).getD o

theorem innermost_cons (c : Catalog) (o : ObjectNode) (p : Payload) (chain : List Payload) :
    c.innermost o (p :: chain) = c.innermost (c.graph.object p.id) chain := by
  cases chain with
  | nil => rfl
  | cons q rest =>
    unfold innermost
    rw [List.getLast?_cons_cons]
    cases h : (q :: rest).getLast? with
    | none => simp at h
    | some last => rfl

theorem node_expand (c : Catalog) (root : Root) :
    (c.expand root).value.node =
      c.innermost root.node (c.payloads root.node root.visited).value := by
  unfold expand innermost
  rw [Noted.value_bind]
  cases (c.payloads root.node root.visited).value.getLast? <;> rfl

end Catalog

namespace BodyPlan

def wrapperTag (b : BodyPlan) (p : Prefixes) (payload : Payload) : String :=
  b.tagName p ⟨payload.key, payload.member, []⟩

theorem print_outline (b : BodyPlan) (p : Prefixes) (path : String) (opened : List ObjectId)
    (o : ObjectNode) :
    let chain := (b.catalog.payloads o opened).value
    "\n".intercalate (Markup.printAll (Markup.mapAll (b.tagName p)
        (b.catalog.outline path opened o).2)) =
      (chain.map (b.wrapperTag p)).foldr Markup.enclose ("\n".intercalate (Markup.printAll
        (Markup.mapAll (b.tagName p) (b.catalog.outlineMembers path
          ((chain.map (·.id)).reverse ++ opened) (b.catalog.innermost o chain).members)))) := by
  induction opened, o using Catalog.outline.induct b.catalog path with
  | case1 opened o notices h =>
    have hn : b.catalog.next? o opened = none := by simp [Catalog.next?, h]
    rw [Catalog.outline_of_next_none hn, Catalog.payloads_of_next_none hn]
    rfl
  | case2 opened o payload notices h hopened =>
    have hn : b.catalog.next? o opened = none := by simp [Catalog.next?, h, Option.filter, hopened]
    rw [Catalog.outline_of_next_none hn, Catalog.payloads_of_next_none hn]
    rfl
  | case3 opened o payload notices h hopened ih =>
    have hn : b.catalog.next? o opened = some payload :=
      Catalog.next?_eq_some.2 ⟨by rw [h], hopened⟩
    have hprint : ∀ (site : TagSite) (content : List (Markup TagSite)),
        "\n".intercalate (Markup.printAll (Markup.mapAll (b.tagName p) [.element site content])) =
          Markup.enclose (b.tagName p site)
            ("\n".intercalate (Markup.printAll (Markup.mapAll (b.tagName p) content))) := by
      intro site content
      simp [Markup.mapAll, Markup.map, Markup.printAll, Markup.print, Markup.enclose_ne_empty]
    simp only [Catalog.outline_of_next hn, Catalog.payloads_of_next hn, Catalog.innermost_cons,
      hprint, ih, List.map_cons, List.foldr_cons, List.reverse_cons, List.append_assoc,
      List.singleton_append]
    rfl

/-- The text of a root: the members of the innermost object, within the tags of the root and of its
payloads. -/
theorem text_write (b : BodyPlan) (root : Root) (propsField : Option String) (p : Prefixes) :
    let q := (b.write root propsField).after p
    let chain := (b.catalog.payloads root.node root.visited).value
    ((b.write root propsField).result p).1 =
      ((b.rootPrefix ++ "." ++ b.rootTag) :: chain.map (b.wrapperTag q)).foldr Markup.enclose
        ("\n".intercalate (Markup.printAll (Markup.mapAll (b.tagName q)
          (b.catalog.outlineMembers (basePath propsField)
            ((chain.map (·.id)).reverse ++ root.visited)
            (b.catalog.expand root).value.node.members)))) := by
  intro q chain
  have htext : ((b.write root propsField).result p).1 =
      Markup.enclose (b.rootPrefix ++ "." ++ b.rootTag)
        ("\n".intercalate (Markup.printAll (Markup.mapAll (b.tagName q)
          (b.catalog.outline (basePath propsField) root.visited root.node).2))) := rfl
  rw [htext, b.print_outline q, ← Catalog.node_expand]
  rfl

/-- The body of a root against the fields of its props. Within the tags of the root and of its
payloads, the body has one block for each field of the innermost object, in their order; each
block has a text, and it follows its field at the path of the props, and so do all blocks in it. -/
theorem body_follows_fields (b : BodyPlan) (root : Root) (propsField : Option String)
    (p : Prefixes)
    (hoccurs : ∀ e ∈ b.catalog.graph.membersBeside root.node, e.2.maxOccurs ≠ "") :
    let q := (b.write root propsField).after p
    let chain := (b.catalog.payloads root.node root.visited).value
    let o := (b.catalog.expand root).value.node
    let text := fun block => (Markup.map (b.tagName q) block).print
    ∃ blocks, FollowsFields b.catalog (basePath propsField)
        ((chain.map (·.id)).reverse ++ root.visited) o.members (b.catalog.fields o).value blocks ∧
      (∀ block ∈ blocks, text block ≠ "") ∧
      ((b.write root propsField).result p).1 =
        ((b.rootPrefix ++ "." ++ b.rootTag) :: chain.map (b.wrapperTag q)).foldr Markup.enclose
          ("\n".intercalate (blocks.map text)) := by
  intro q chain o text
  have hobjects : ∀ id, ∀ e ∈ (b.catalog.graph.object id).members, e.2.maxOccurs ≠ "" :=
    fun id e he => hoccurs e (TypeGraph.mem_membersBeside root.node he)
  have hnode : o = b.catalog.innermost root.node chain := b.catalog.node_expand root
  have hmembers : ∀ e ∈ o.members, e.2.maxOccurs ≠ "" := by
    intro e he
    rw [hnode, Catalog.innermost] at he
    cases hlast : chain.getLast? with
    | none =>
      rw [hlast] at he
      exact hoccurs e (List.mem_append_left _ he)
    | some last =>
      rw [hlast] at he
      exact hobjects last.id e he
  have hfollows := b.catalog.outlineMembers_follows hobjects (basePath propsField)
    ((chain.map (·.id)).reverse ++ root.visited) o.members hmembers
  rw [← Catalog.value_fields] at hfollows
  have hsolid := hfollows.isBlank_of_mem
  refine ⟨_, hfollows, ?_, ?_⟩
  · intro block hblock
    rw [Ne, Markup.print_eq_empty_iff, Markup.isBlank_map, hsolid block hblock]
    exact Bool.false_ne_true
  · rw [b.text_write root propsField p, Markup.printAll_mapAll_eq_map _ hsolid]

/-- Trees, whose children are trees. -/
def treeGraph : TypeGraph where
  objects := [{ members := [
    ("label", { type := .primitive "string" }),
    ("child", { type := .reference { name := "urn:t:Tree" }, maxOccurs := "unbounded" })] }]
  elements := [("urn:t:Root", .reference { name := "urn:t:Tree" })]
  complexTypes := [("urn:t:Tree", 0)]

theorem tree_body_follows_fields :
    let root := Root.ofId treeGraph 0
    (∀ e ∈ treeGraph.membersBeside root.node, e.2.maxOccurs ≠ "") ∧
      ∃ opened blocks, FollowsFields treeGraph.catalog "props" opened
        (treeGraph.catalog.expand root).value.node.members
        (treeGraph.catalog.fields (treeGraph.catalog.expand root).value.node).value blocks := by
  intro root
  have hoccurs : ∀ e ∈ treeGraph.membersBeside root.node, e.2.maxOccurs ≠ "" := by decide
  obtain ⟨blocks, hblocks, _, _⟩ :=
    body_follows_fields ⟨treeGraph.catalog, ⟨10, 4⟩, {}, "t", "Root"⟩ root none {} hoccurs
  exact ⟨hoccurs, _, blocks, hblocks⟩

end BodyPlan

end SoapComponents
