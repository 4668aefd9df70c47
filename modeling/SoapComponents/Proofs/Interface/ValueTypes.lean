import SoapComponents.Interface.Fields
import SoapComponents.Proofs.Name
import SoapComponents.Proofs.Reference.Named
import SoapComponents.Proofs.Schema.Origins
import SoapComponents.Proofs.Schema.Typed

/-!
Types whose content is text. A type with simple content names the base that its values are of, and
so does this base, until one is built in. The type of a field for such values is that of the local
name of the first base, taken as a built-in one; it is that of the last base just when both names
stand for the same.
-/

set_option autoImplicit false

namespace SoapComponents

theorem Scope.localPart_qualify (scope : Scope) (written : String) :
    Name.localPart (scope.qualify written).value = Name.localPart written := by
  unfold qualify
  cases hprefixed : Name.prefixed? written with
  | none => exact Name.localPart_qualified _ _
  | some parts =>
    obtain ⟨nsPrefix, base⟩ := parts
    have hwritten : Name.localPart written = Name.localPart base := by
      rw [(Name.prefixed?_eq_some hprefixed).1, Name.localPart_prefixed]
    rw [hwritten]
    dsimp only
    split
    · exact Name.localPart_qualified _ _
    · split
      · exact Name.localPart_prefixed _ _
      · exact Name.localPart_qualified _ _

namespace Content

variable {groups : Groups} {depth : Nat} {scope : Scope} {node : Tree} {written : String}

/-- The base that a type with simple content is derived from, as the schema writes it. -/
def valueBase? (node : Tree) : Option String :=
  match (particleTags.filterMap node.element?).head?, node.element? "group",
    (node.element? "simpleContent").bind derivation? with
  | none, none, some derivation =>
    if (derivation.element? "sequence").isSome then none else derivation.given? "base"
  | _, _, _ => none

/-- The values of a type with simple content are of a built-in type: that of the name which it has
for its base, or else that of the type which this name means, and so on. -/
inductive ValuesOf (types : Table (Tree × Scope)) : Tree × Scope → String → Prop
  | builtIn {d : Tree × Scope} {written : String} : valueBase? d.1 = some written →
      Name.isBuiltIn (d.2.qualify written).value = true →
      ValuesOf types d (Name.localPart (d.2.qualify written).value)
  | derived {d base : Tree × Scope} {written name : String} : valueBase? d.1 = some written →
      Name.isBuiltIn (d.2.qualify written).value = false →
      types.value? (d.2.qualify written).value = some base → ValuesOf types base name →
      ValuesOf types d name

theorem ValuesOf.localPart_of_builtIn {types : Table (Tree × Scope)} {d : Tree × Scope}
    {name : String} (h : ValuesOf types d name) (hbase : valueBase? d.1 = some written)
    (hbuiltIn : Name.isBuiltIn (d.2.qualify written).value = true) :
    Name.localPart written = name := by
  cases h with
  | builtIn hown _ =>
    obtain rfl := Option.some.inj (hbase.symm.trans hown)
    exact (Scope.localPart_qualify _ _).symm
  | derived hown huser _ _ =>
    obtain rfl := Option.some.inj (hbase.symm.trans hown)
    exact absurd hbuiltIn (by simp [huser])

theorem ne_empty_of_valueBase? (h : valueBase? node = some written) : written ≠ "" := by
  unfold valueBase? at h
  split at h
  · split at h
    · cases h
    · simpa using (Option.filter_eq_some_iff.1 h).2
  · cases h

theorem result_complexType_of_value (h : valueBase? node = some written) :
    ∃ attributes, (complexType groups depth scope node).result = .ok { type := {
      members := []
      space := scope.target
      qualified := some scope.qualified
      base := some written
      attributes := attributes } } := by
  unfold valueBase? at h
  split at h
  · next derivation hparticle hgroup hderivation =>
    obtain ⟨content, hcontent, hderivation⟩ := Option.bind_eq_some_iff.1 hderivation
    split at h
    · cases h
    · next hsequence =>
      refine ⟨Table.putAll (attributes node) (attributes derivation), ?_⟩
      rw [complexType_eq, hparticle, hgroup, hcontent]
      simp only [simpleContent, hderivation, simpleMembers,
        Option.not_isSome_iff_eq_none.1 hsequence, derivedType, h]
      rfl
  · cases h

end Content

theorem TypeGraph.Origins.leafHost {visits : List Visit} {contents : List (Tree × Scope)}
    {g : TypeGraph} {extensions : List Extension} {id : ObjectId} {d : Tree × Scope}
    {written : String} (h : Origins visits contents g extensions) (hd : contents[id]? = some d)
    (hbase : Content.valueBase? d.1 = some written) :
    (g.object id).leafHost? = some (.ofName (Name.localPart written)) := by
  obtain ⟨derived, ⟨groups, depth, _, _, hread⟩, hobject, hrest⟩ := h.stands id d hd
  obtain ⟨attributes, hresult⟩ := @Content.result_complexType_of_value groups depth d.2 _ _ hbase
  obtain rfl := Except.ok.inj (hresult.symm.trans hread)
  have hgiven : Name.given? (some written) = some written := by
    simp [Name.given?, Option.filter_some, Content.ne_empty_of_valueBase? hbase]
  simp [ObjectType.leafHost?, (hrest rfl).2 rfl, hobject, hgiven]

theorem Catalog.fieldType_of_leafHost {c : Catalog} {key : String} {type : TypeNode} {id : ObjectId}
    {host : HostType} (h : (c.memberObject type).value = some id)
    (hhost : (c.graph.object id).leafHost? = some host) :
    (c.fieldType key type).value = .host host := by
  cases type with
  | primitive name => cases h
  | object other =>
    obtain rfl := Option.some.inj h
    simp [fieldType, hhost]
  | reference pointer =>
    cases hr : (c.resolve pointer.name).value with
    | none => simp [memberObject, resolveObject, hr] at h
    | some r =>
      cases ht : r.target with
      | primitive name => simp [memberObject, resolveObject, hr, ht, Target.object?] at h
      | object other =>
        obtain rfl : other = id := by
          simpa [memberObject, resolveObject, hr, ht, Target.object?] using h
        simp [fieldType, hr, ht, hhost]

/-- The types of text in a graph that is built. Each object stands for one content: the object of a
name for that of the type or element which is declared under the name, and the object of a member
for that of its declaration. A field whose type comes to the object of a type with simple content,
by its name or as it is, has the type of text that the local name of the type's own base stands for.
It is the one of the built-in type that all bases lead to just when the two names stand for the
same, and always where the type is derived from this one itself. -/
theorem TypeGraph.value_types_of_build {origin : Option Visit.Origin} {roots : List Tree}
    {outer : Table String} {start : Option String} {g : TypeGraph}
    (h : (TypeGraph.build origin roots outer start).result = .ok g) :
    let visits := Visit.all origin roots outer start
    let types := Visit.typeContents visits
    ∃ contents : List (Tree × Scope), contents.length = g.objects.length ∧
      (∀ key d, types.value? key = some d → ∃ id, g.complexTypes.value? key = some id ∧
        contents[id]? = some d ∧ (Name.isBuiltIn key = false →
          (∀ node, g.elements.value? key = some node → node = .object id) →
          (g.catalog.memberObject (.reference ⟨key, none, none⟩)).value = some id)) ∧
      (∀ key d, (Visit.elementContents visits).value? key = some (some d) →
        ∃ id, g.elements.value? key = some (.object id) ∧ contents[id]? = some d ∧
          (Name.isBuiltIn key = false →
            (g.catalog.memberObject (.reference ⟨key, none, none⟩)).value = some id)) ∧
      (∀ owner, ∀ e ∈ (g.object owner).members, Visit.Declares visits contents e) ∧
      ∀ id d written, contents[id]? = some d → Content.valueBase? d.1 = some written →
        ∀ key type, (g.catalog.memberObject type).value = some id →
          let found := (g.catalog.fieldType key type).value
          found = .host (.ofName (Name.localPart written)) ∧
          ∀ name, Content.ValuesOf types d name →
            (found = .host (.ofName name) ↔
              HostType.ofName (Name.localPart written) = .ofName name) ∧
            (Name.isBuiltIn (d.2.qualify written).value = true → found = .host (.ofName name)) := by
  intro visits types
  obtain ⟨contents, extensions, horigins, htypes, helements⟩ := origins_of_build h
  have hmeans : ∀ {key id circular}, g.catalog.Means key id circular →
      Name.isBuiltIn key = false →
      (g.catalog.memberObject (.reference ⟨key, none, none⟩)).value = some id := by
    intro key id circular hmeans hkey
    obtain ⟨r, hr, htarget, -⟩ := hmeans.resolve hkey
    simp [Catalog.memberObject, Catalog.resolveObject, hr, htarget, Target.object?]
  refine ⟨contents, horigins.length, fun key d hd => ?_, fun key d hd => ?_, horigins.declares,
    fun id d written hd hbase key type htype => ?_⟩
  · obtain ⟨id, hid, hcontent⟩ := htypes key d hd
    refine ⟨id, hid, hcontent, fun hkey hown => ?_⟩
    cases helement : g.elements.value? key with
    | none => exact hmeans (.type helement hid) hkey
    | some node => exact hmeans (.element (hown node helement ▸ helement)) hkey
  · obtain ⟨id, hid, hcontent⟩ := helements key d hd
    exact ⟨id, hid, hcontent, hmeans (.element hid)⟩
  · have hfound : (g.catalog.fieldType key type).value = .host (.ofName (Name.localPart written)) :=
      Catalog.fieldType_of_leafHost htype (horigins.leafHost hd hbase)
    refine ⟨hfound, fun name hvalues => ⟨by simp [hfound], fun hbuiltIn => ?_⟩⟩
    rw [hfound, hvalues.localPart_of_builtIn hbase hbuiltIn]

namespace SamplePrice

open Content

def typed (name type : String) : Tree := .node [("name", .text name), ("type", .text type)]

def derivedFrom (name base : String) : Tree := .node [
  ("name", .text name),
  ("simpleContent", .node [("extension", .node [("base", .text base)])])]

def amount : Tree := derivedFrom "Amount" "xs:decimal"

def price : Tree := derivedFrom "Price" "t:Amount"

def order : Tree := .node [
  ("sequence", .node [("element", .many [typed "amount" "t:Amount", typed "price" "t:Price"])])]

def element : Tree := .node [("name", .text "Order"), ("complexType", order)]

/-- The type `Amount` is derived from the decimal numbers, and `Price` from `Amount`. -/
def root : Tree := .node [
  ("targetNamespace", .text "t"), ("xmlns:xs", .text Name.schemaSpace), ("xmlns:t", .text "t"),
  ("complexType", .many [amount, price]), ("element", element)]

def scope : Scope := Scope.ofSchema root [] none

def member {τ : Type} (type : τ) : Member τ :=
  { type := type, qualified := some false, space := some "t" }

def object {τ : Type} (members : List (String × τ)) (base : Option String) : ObjectType τ where
  members := members.map fun e => (e.1, member e.2)
  space := some "t"
  qualified := some false
  base := base

def graph : TypeGraph where
  objects := [object [] (some "xs:decimal"), object [] (some "t:Amount"),
    object [("amount", .reference { name := "t:Amount" }),
      ("price", .reference { name := "t:Price" })] none]
  elements := [("t:Order", .object 2)]
  complexTypes := [("t:Amount", 0), ("t:Price", 1), ("t:Order", 2)]
  namespaces := [("xs", Name.schemaSpace), ("t", "t")]
  schemas := ["inline:t"]

theorem visits : Visit.all none [root] [] none = [.enter scope, .declare root scope] := rfl

def orderType : ObjectType Draft :=
  object [("amount", .reference "t:Amount"), ("price", .reference "t:Price")] none

/-- The types are registered, and the element is noted. -/
def declared : Building where
  graph := { graph with
    objects := [object [] (some "xs:decimal"), object [] (some "t:Amount")]
    elements := []
    complexTypes := [("t:Amount", 0), ("t:Price", 1)] }
  elements := [(element, scope)]

theorem result_declare :
    (Building.step (Building.enter {} scope) (.declare root scope)).result = .ok declared := by
  have hamount : ∀ groups, (complexType groups groups.depthBound scope amount).result =
      .ok { type := object [] (some "xs:decimal") } := fun groups => by
    rw [complexType_eq]
    rfl
  have hprice : ∀ groups, (complexType groups groups.depthBound scope price).result =
      .ok { type := object [] (some "t:Amount") } := fun groups => by
    rw [complexType_eq]
    rfl
  have hamountName : amount.given? "name" = some "Amount" := rfl
  have hpriceName : price.given? "name" = some "Price" := rfl
  have htypes : root.children "complexType" = [amount, price] := rfl
  unfold Building.step
  rw [Outcome.result_bind, htypes, List.foldlM_cons, Outcome.result_bind,
    Building.result_registerType hamountName (hamount _)]
  dsimp only
  rw [List.foldlM_cons, Outcome.result_bind, Building.result_registerType hpriceName (hprice _)]
  rfl

theorem result_build : (TypeGraph.build none [root] [] none).result = .ok graph := by
  have hfold : ((Visit.all none [root] [] none).foldlM Building.step {}).result = .ok declared := by
    rw [visits, Building.result_foldlM_schema result_declare]
    rfl
  have horder : (complexType [] (Groups.depthBound []) scope order).result = .ok { type := orderType } :=
    result_complexType_of_typed rfl rfl rfl rfl
  have hread : Registration.ofElement [] (element, scope) =
      .ok (some (.content "t:Order" { type := orderType })) := by
    unfold Registration.ofElement
    rw [show declaredKey? (element, scope) = some "t:Order" from rfl]
    dsimp only
    rw [show Building.content? element = some order from rfl]
    dsimp only
    rw [horder]
    rfl
  have helements : declared.registerElements.result = .ok { declared with graph := graph } := by
    unfold Building.registerElements
    rw [show declared.elements = [(element, scope)] from rfl, List.foldlM_cons, Outcome.result_bind,
      Building.result_registerElement_read, show declared.groups = [] from rfl, hread]
    rfl
  unfold TypeGraph.build Building.gather
  rw [Outcome.result_bind, Outcome.result_bind, hfold]
  dsimp only
  rw [helements]
  rfl

theorem types_price : (Visit.typeContents (Visit.all none [root] [] none)).value? "t:Price" =
    some (price, scope) := rfl

theorem types_amount : (Visit.typeContents (Visit.all none [root] [] none)).value? "t:Amount" =
    some (amount, scope) := rfl

theorem values_amount : ValuesOf (Visit.typeContents (Visit.all none [root] [] none))
    (amount, scope) "decimal" := @ValuesOf.builtIn _ (amount, scope) "xs:decimal" rfl rfl

theorem values_price : ValuesOf (Visit.typeContents (Visit.all none [root] [] none))
    (price, scope) "decimal" :=
  @ValuesOf.derived _ (price, scope) _ "t:Amount" _ rfl rfl types_amount values_amount

/-- A field of type `Amount` is a number, and one of type `Price` has the type of a base with the
name `Amount`. -/
theorem amount_is_number : (TypeGraph.build none [root] [] none).result = .ok graph ∧
    (graph.catalog.fieldType "amount" (.reference { name := "t:Amount" })).value = .host .number ∧
    (graph.catalog.fieldType "price" (.reference { name := "t:Price" })).value =
      .host (.ofName "Amount") := by
  obtain ⟨contents, -, htypes, -, -, hvalues⟩ := TypeGraph.value_types_of_build result_build
  obtain ⟨id, -, hamount, hmeant⟩ := htypes "t:Amount" (amount, scope) types_amount
  obtain ⟨id', -, hprice, hmeant'⟩ := htypes "t:Price" (price, scope) types_price
  have hfree : ∀ key id, key ≠ "t:Order" → ∀ node, graph.elements.value? key = some node →
      node = .object id := by
    intro key id hkey node hnode
    simp [graph, Table.value?, Ne.symm hkey] at hnode
  obtain ⟨-, hname⟩ := hvalues id (amount, scope) "xs:decimal" hamount rfl "amount" _
    (hmeant (by decide) (hfree _ _ (by decide)))
  obtain ⟨hown, -⟩ := hvalues id' (price, scope) "t:Amount" hprice rfl "price" _
    (hmeant' (by decide) (hfree _ _ (by decide)))
  exact ⟨result_build, (hname "decimal" values_amount).2 rfl, hown⟩

/-- The values of `Price` are decimal numbers, and a field of this type is text. -/
theorem price_is_text : (TypeGraph.build none [root] [] none).result = .ok graph ∧
    (Visit.typeContents (Visit.all none [root] [] none)).value? "t:Price" = some (price, scope) ∧
    ValuesOf (Visit.typeContents (Visit.all none [root] [] none)) (price, scope) "decimal" ∧
    graph.complexTypes.value? "t:Price" = some 1 ∧
    ("price", member (.reference { name := "t:Price" })) ∈ (graph.object 2).members ∧
    (graph.catalog.memberObject (.reference { name := "t:Price" })).value = some 1 ∧
    (graph.catalog.fieldType "price" (.reference { name := "t:Price" })).value = .host .string ∧
    HostType.ofName "decimal" = .number := by
  let type : TypeNode := .reference { name := "t:Price" }
  have hmember : ("price", member type) ∈ (graph.object 2).members := by
    simp [graph, TypeGraph.object, object, type]
  have hmeans : graph.catalog.Means "t:Price" 1 false := .type rfl rfl
  obtain ⟨r, hr, htarget, -⟩ := hmeans.resolve (by decide)
  have hobject : (graph.catalog.memberObject type).value = some 1 := by
    simp [type, Catalog.memberObject, Catalog.resolveObject, hr, htarget, Target.object?]
  have hfound : (graph.catalog.fieldType "price" type).value = .host .string :=
    Catalog.fieldType_of_leafHost hobject rfl
  exact ⟨result_build, types_price, values_price, rfl, hmember, hobject, hfound, by decide⟩

end SamplePrice

end SoapComponents
