import SoapComponents.Proofs.Markup.Usage
import SoapComponents.Proofs.Markup.Within
import SoapComponents.Proofs.Reference.Named
import SoapComponents.Proofs.Schema.Qualified
import SoapComponents.Proofs.Schema.Typed

/-!
The types that local elements name, from the attribute in the schema to the body of a component.
-/

set_option autoImplicit false

namespace SoapComponents

theorem Content.namedType_of_user {scope : Scope} {written : String}
    (h : Name.isBuiltIn (scope.qualify written).value = false) :
    (namedType scope written).value = .reference (scope.qualify written).value := by
  simp [namedType, h]

theorem Catalog.Means.shows {b : BodyPlan} {key : String} {id : ObjectId} {circular : Bool}
    (h : b.catalog.Means key id circular) (hkey : Name.isBuiltIn key = false) (root : Root)
    (propsField : Option String) {around : List ObjectId} {block : Markup TagSite}
    (hwithin : b.catalog.Within root.visited (b.content root propsField) around block)
    (htype : block.member.2.type = .reference ⟨key, none, none⟩) :
    b.catalog.Shows (b.content root propsField) id circular around block := by
  obtain ⟨r, hr, htarget, hcircular⟩ := h.resolve hkey
  have hcomes : b.catalog.ComesTo block.member.2.type id circular := by
    rw [htype]
    exact .of_resolve hr htarget hcircular
  exact hwithin.placed.shows hcomes

/-- A name of a type means this type where no element has the same name, or none but the type as
it is; and means it in a circle where the element of the name points at it. -/
theorem Catalog.means_of_type {c : Catalog} {key : String} {id : ObjectId}
    (h : c.graph.complexTypes.value? key = some id) (hkey : Name.isBuiltIn key = false) :
    ((∀ node, c.graph.elements.value? key = some node → node = .object id) →
      c.Means key id false) ∧
    ∀ pointer, c.graph.elements.value? key = some (.reference pointer) → pointer.name = key →
      c.Means key id true := by
  refine ⟨fun hown => ?_, fun pointer helement hpointer => ?_⟩
  · cases helement : c.graph.elements.value? key with
    | none => exact .type helement h
    | some node => exact .element (hown node helement ▸ helement)
  · have hmeans : c.Means key id (Name.localPart pointer.name == Name.localPart key) :=
      .pointed helement (hpointer ▸ hkey) (hpointer ▸ h)
    rwa [hpointer, beq_self_eq_true] at hmeans

/-- The named types of local elements in a graph that is built. The member of an element with a
type attribute refers to the name, and the name means the object of the complex type that has it,
unless an element of exactly the same name has another type. In a body, a member that refers to the
name shows the members of what the name means, and does so within its own tag unless an element of
the name points back at it. -/
theorem TypeGraph.named_types_of_build {origin : Option Visit.Origin} {roots : List Tree}
    {outer : Table String} {start : Option String} {g : TypeGraph}
    (h : (TypeGraph.build origin roots outer start).result = .ok g) :
    ∀ owner, ∀ e ∈ (g.object owner).members,
      (∃ schema scope node, .declare schema scope ∈ Visit.all origin roots outer start ∧
        schema.Inside node ∧ Content.declared? scope node = some (e.1, e.2.map TypeNode.head)) ∧
      ∀ scope node written, Content.declared? scope node = some (e.1, e.2.map TypeNode.head) →
        node.given? "ref" = none → node.given? "type" = some written →
        let key := (scope.qualify written).value
        Name.isBuiltIn key = false →
          e.2.type = .reference ⟨key, none, none⟩ ∧
          (∀ id, g.complexTypes.value? key = some id →
            ((∀ node, g.elements.value? key = some node → node = .object id) →
              g.catalog.Means key id false) ∧
            ∀ pointer, g.elements.value? key = some (.reference pointer) → pointer.name = key →
              g.catalog.Means key id true) ∧
          ∀ id circular, g.catalog.Means key id circular →
            (∃ r, (g.catalog.resolve key).value = some r ∧ r.target = .object id ∧
              r.circular = circular) ∧
            ∀ (b : BodyPlan) (root : Root) (propsField : Option String) (p : Prefixes),
              b.catalog = g.catalog →
              let blocks := b.content root propsField
              let q := (b.write root propsField).after p
              ((b.write root propsField).result p).1 = (b.markup q blocks).print ∧
                blocks.map Markup.member = root.node.members ∧
                ∀ around block, g.catalog.Within root.visited blocks around block →
                  block.member.2.type = e.2.type →
                    g.catalog.Shows blocks id circular around block := by
  intro owner e he
  obtain ⟨scope, node, ⟨schema, hdeclare, hinside⟩, hdeclared⟩ := declares_of_build h he
  refine ⟨⟨schema, scope, node, hdeclare, hinside, hdeclared⟩, ?_⟩
  intro scope node written hdeclared href htype key hkey
  have hreference : e.2.type = .reference ⟨key, none, none⟩ := by
    refine TypeNode.eq_reference_of_head ?_
    rw [head_of_declared hdeclared href, headOf_of_type htype, Content.namedType_of_user hkey]
    rfl
  refine ⟨hreference, fun id hid => @Catalog.means_of_type g.catalog key id hid hkey, ?_⟩
  intro id circular hmeans
  refine ⟨hmeans.resolve hkey, ?_⟩
  rintro b root propsField p hb
  rw [← hb] at hmeans ⊢
  rw [hreference]
  exact ⟨rfl, Catalog.member_outline root.node,
    fun around block hwithin htype => hmeans.shows hkey root propsField hwithin htype⟩

namespace SampleTypeName

open Content

def typed (name type : String) : Tree := .node [("name", .text name), ("type", .text type)]

def sequence (name : String) (elements : List Tree) : Tree := .node [
  ("name", .text name), ("sequence", .node [("element", .many elements)])]

def foo : Tree := sequence "Foo" [typed "x" "xs:string"]

def bar : Tree := sequence "Bar" [typed "foo" "t:Foo", typed "y" "t:Bar"]

/-- Types `Foo` and `Bar`, and an element of the name of the first that has the first as its type. -/
def root : Tree := .node [
  ("targetNamespace", .text "t"), ("xmlns:t", .text "t"),
  ("element", typed "Foo" "t:Foo"), ("complexType", .many [foo, bar])]

def scope : Scope := Scope.ofSchema root [] none

def member {τ : Type} (type : τ) : Member τ :=
  { type := type, qualified := some false, space := some "t" }

def object {τ : Type} (members : List (String × τ)) : ObjectType τ where
  members := members.map fun e => (e.1, member e.2)
  space := some "t"
  qualified := some false

def graph : TypeGraph where
  objects := [
    object [("x", .primitive "string")],
    object [("foo", .reference { name := "t:Foo" }), ("y", .reference { name := "t:Bar" })]]
  elements := [("t:Foo", .reference ⟨"t:Foo", some "t", some false⟩)]
  complexTypes := [("t:Foo", 0), ("t:Bar", 1)]
  namespaces := [("t", "t")]
  schemas := ["inline:t"]

/-- The types are registered, and the element is noted. -/
def declared : Building where
  graph := { graph with elements := [] }
  elements := [(typed "Foo" "t:Foo", scope)]

theorem result_declare :
    (Building.step (Building.enter {} scope) (.declare root scope)).result = .ok declared := by
  have hfoo : ∀ groups, (complexType groups groups.depthBound scope foo).result =
      .ok { type := object [("x", .primitive "string")] } :=
    fun _ => result_complexType_of_typed rfl rfl rfl rfl
  have hbar : ∀ groups, (complexType groups groups.depthBound scope bar).result =
      .ok { type := object [("foo", .reference "t:Foo"), ("y", .reference "t:Bar")] } :=
    fun _ => result_complexType_of_typed rfl rfl rfl rfl
  have hfooName : foo.given? "name" = some "Foo" := rfl
  have hbarName : bar.given? "name" = some "Bar" := rfl
  have htypes : root.children "complexType" = [foo, bar] := rfl
  unfold Building.step
  rw [Outcome.result_bind, htypes, List.foldlM_cons, Outcome.result_bind,
    Building.result_registerType hfooName (hfoo _)]
  dsimp only
  rw [List.foldlM_cons, Outcome.result_bind, Building.result_registerType hbarName (hbar _)]
  rfl

theorem result_build : (TypeGraph.build none [root] [] none).result = .ok graph := by
  have hvisits : Visit.all none [root] [] none = [.enter scope, .declare root scope] := rfl
  have hfold : ((Visit.all none [root] [] none).foldlM Building.step {}).result = .ok declared := by
    rw [hvisits, Building.result_foldlM_schema result_declare]
    rfl
  unfold TypeGraph.build Building.gather
  rw [Outcome.result_bind, Outcome.result_bind, hfold]
  rfl

def plan : BodyPlan := ⟨graph.catalog, ⟨10, 4⟩, {}, "t", "Bar"⟩

/-- The type `Bar` has no element of its name, so its name means the type, and a member that refers
to it shows the type within its tag. -/
theorem named_types_of_bar : (TypeGraph.build none [root] [] none).result = .ok graph ∧
    ∃ r, (graph.catalog.resolve "t:Bar").value = some r ∧ r.target = .object 1 ∧
      r.circular = false ∧ ∀ around block,
        graph.catalog.Within [1] (plan.content (Root.ofId graph 1) none) around block →
        block.member.2.type = .reference { name := "t:Bar" } →
        graph.catalog.Shows (plan.content (Root.ofId graph 1) none) 1 false around block := by
  obtain ⟨_, hnamed⟩ := TypeGraph.named_types_of_build result_build 1
    ("y", member (.reference { name := "t:Bar" })) (List.mem_cons_of_mem _ List.mem_cons_self)
  obtain ⟨_, hmeans, hmeant⟩ := hnamed scope (typed "y" "t:Bar") "t:Bar" rfl rfl rfl (by decide)
  obtain ⟨⟨r, hr, htarget, hcircular⟩, hbody⟩ :=
    hmeant 1 false ((hmeans 1 rfl).1 fun node hnode => by cases hnode)
  exact ⟨result_build, r, hr, htarget, hcircular,
    (hbody plan (Root.ofId graph 1) none {} rfl).2.2⟩

/-- The local element `foo` names the type `Foo`, and is written without its tag. -/
theorem type_written_without_tag : ∃ block,
    (TypeGraph.build none [root] [] none).result = .ok graph ∧
      typed "foo" "t:Foo" ∈ (bar.children "sequence").flatMap (·.children "element") ∧
      (scope.qualify "t:Foo").value = "t:Foo" ∧ graph.complexTypes.value? "t:Foo" = some 0 ∧
      block ∈ plan.content (Root.ofId graph 1) none ∧
      block.member = ("foo", member (.reference { name := "t:Foo" })) ∧
      ∀ site content, block ≠ .element site content := by
  let foo : Member TypeNode := member (.reference { name := "t:Foo" })
  let y : Member TypeNode := member (.reference { name := "t:Bar" })
  have hnext : graph.catalog.next? (graph.object 1) [1] = none := rfl
  have hcontent : (graph.catalog.contentOf "foo" foo.type).value = .object 0 true := rfl
  have hblocks : plan.content (Root.ofId graph 1) none =
      graph.catalog.outlineMember "props" [1] "foo" foo ::
        graph.catalog.outlineMembers "props" [1] [("y", y)] := by
    show (graph.catalog.outline "props" [1] (graph.object 1)).2 = _
    rw [Catalog.outline_of_next_none hnext]
    exact Catalog.outlineMembers_cons "foo" foo [("y", y)]
  refine ⟨_, result_build, List.mem_cons_self, rfl, rfl, hblocks ▸ List.mem_cons_self,
    Catalog.member_outlineMember "foo" foo, ?_⟩
  rw [Catalog.outlineMember_single rfl, Catalog.outlineContent_object hcontent (by decide)]
  simp

end SampleTypeName

end SoapComponents
