import SoapComponents.Proofs.Component.Optional
import SoapComponents.Proofs.Reference.Named
import SoapComponents.Proofs.Reference.Lookups

/-!
What a part of a message stands for, and what is left of it in a header. A part says whether it
names an element or a type. A header keeps the key of the entry that was found for its part, but not
the kind of name, and the key is looked up once more as that of an element.
-/

set_option autoImplicit false

namespace SoapComponents

def MessagePart.isSimple (part : MessagePart) : Bool :=
  (Name.schemaSpace ++ ":").toList.isPrefixOf part.key.toList

namespace Catalog

def entryObject? (c : Catalog) (key : String) : TypeNode → Option (ObjectId × Option String)
  | .object id => some (id, none)
  | .primitive _ => none
  | .reference pointer => (c.resolveObject key).value.map fun found => (found.1, pointer.space)

def entryRoot (c : Catalog) (key : String) (id : ObjectId) (space : String) : PartType :=
  if (c.graph.object id).space = some space then ⟨key, Root.ofId c.graph id⟩
  else ⟨key, { c.graph.object id with space := some space }, none⟩

/-- The root that an entry stands for, if it comes to an object in a namespace. -/
def entryPart? (c : Catalog) (key : String) (node : TypeNode) : Option PartType := do
  let (id, elementSpace) ← c.entryObject? key node
  let space ← ((Name.given? elementSpace).or (Name.given? (c.graph.object id).space)).or
    (Name.given? (Name.space? key))
  return c.entryRoot key id space

variable {c : Catalog} {part : MessagePart} {found : PartType}

theorem partObject_eq_ok {key : String} {node : TypeNode} {object : ObjectId × Option String} :
    (c.partObject part key node).result = .ok object ↔ c.entryObject? key node = some object := by
  cases node with
  | object id => simp [partObject, entryObject?]
  | primitive name => simp [partObject, entryObject?]
  | reference pointer =>
    simp only [partObject, Outcome.result_bind, Outcome.result_lift, entryObject?]
    cases (c.resolveObject key).value with
    | none => simp
    | some pair => simp

theorem resolvePart_eq_ok :
    (c.resolvePart part).result = .ok found ↔ part.isSimple = false ∧
      ∃ named, c.lookup part.key (part.kind == .type) [] = some named ∧
        c.entryPart? named.entry.key named.node = some found := by
  rw [result_resolvePart]
  by_cases hsimple : part.isSimple = true
  · have hs : (Name.schemaSpace ++ ":").toList.isPrefixOf part.key.toList = true := hsimple
    rw [if_pos hs]
    simp [hsimple]
  · have hs : ¬ (Name.schemaSpace ++ ":").toList.isPrefixOf part.key.toList = true := hsimple
    rw [if_neg hs]
    simp only [Bool.eq_false_iff.2 hsimple, true_and]
    cases c.lookup part.key (part.kind == .type) [] with
    | none => simp
    | some named =>
      simp only [Option.some.injEq, exists_eq_left', entryPart?]
      cases hobject : c.entryObject? named.entry.key named.node with
      | none =>
        cases hresult : (c.partObject part named.entry.key named.node).result with
        | error failure => simp
        | ok object => simp [partObject_eq_ok.1 hresult] at hobject
      | some object =>
        rw [partObject_eq_ok.2 hobject]
        obtain ⟨id, elementSpace⟩ := object
        dsimp only [Option.bind_eq_bind, Option.bind_some]
        cases ((Name.given? elementSpace).or _).or (Name.given? (Name.space? named.entry.key)) with
        | none => simp
        | some space =>
          dsimp only [Option.bind_some, entryRoot]
          split <;> simp

theorem key_of_entryPart? {key : String} {node : TypeNode}
    (h : c.entryPart? key node = some found) : found.key = key := by
  obtain ⟨object, -, h⟩ := Option.bind_eq_some_iff.1 h
  obtain ⟨space, -, h⟩ := Option.bind_eq_some_iff.1 h
  obtain rfl := Option.some.inj h
  unfold entryRoot
  split <;> rfl

theorem key_of_lookup_again {key : String} {kind : EntryKind} {node : TypeNode} {again : Found}
    (hentry : (c.graph.entries kind).value? key = some node)
    (h : c.lookup key false [] = some again) : again.entry.key = key := by
  cases helement : c.graph.elements.value? key with
  | some node' =>
    rw [lookup_element helement] at h
    obtain rfl := Option.some.inj h
    rfl
  | none =>
    cases kind with
    | elements => cases helement.symm.trans hentry
    | complexTypes =>
      rw [value?_typeEntries] at hentry
      obtain ⟨id, htype, -⟩ := Option.map_eq_some_iff.1 hentry
      rw [lookup_type helement htype] at h
      obtain rfl := Option.some.inj h
      rfl

theorem not_element_of_lookup {g : TypeGraph} {ref : String} {named : Found}
    (h : g.catalog.lookup ref false [] = some named) (hkind : named.entry.kind = .complexTypes) :
    g.elements.value? named.entry.key = none := by
  have hsearch : ∀ p : String → Bool,
      (g.first? p [] .elements).or (g.first? p [] .complexTypes) = some named.pair →
        g.elements.value? named.entry.key = none := by
    intro p hp
    cases helement : g.first? p [] .elements with
    | some found =>
      rw [helement, Option.some_or] at hp
      obtain ⟨e, -, he⟩ := Option.map_eq_some_iff.1 helement
      have hentry := congrArg (fun x => x.1.kind) (he.trans (Option.some.inj hp))
      cases hentry.trans hkind
    | none =>
      -- the type passes the test that no element passes
      rw [helement, Option.none_or] at hp
      obtain ⟨e, htype, he⟩ := Option.map_eq_some_iff.1 hp
      have hkey : e.1 = named.entry.key := congrArg (fun x => x.1.key) he
      have hpass : p named.entry.key = true := by
        have htest := List.find?_some htype
        simpa [hkey] using htest
      cases hvalue : g.elements.value? named.entry.key with
      | none => rfl
      | some node =>
        have hnone := List.find?_eq_none.1 (Option.map_eq_none_iff.1 helement) _
          (Table.mem_of_value? hvalue)
        simp [hpass] at hnone
  have hscan := g.lookup_pair ⟨ref, false, []⟩
  rw [h] at hscan
  rcases Option.or_eq_some_iff.1 hscan.symm with hexact | ⟨-, hlocal⟩
  · exact hsearch (· == ref) hexact
  · exact hsearch (Name.localPart · == Name.localPart ref) hlocal

/-- The entry that a name finds is found by its key once more, as that of an element, unless it is a
type whose key is also that of an element. -/
theorem lookup_again {g : TypeGraph} {ref : String} {preferTypes : Bool} {named : Found}
    (h : g.catalog.lookup ref preferTypes [] = some named)
    (hclear : preferTypes = false ∨ g.elements.value? named.entry.key = none) :
    g.catalog.lookup named.entry.key false [] =
      some { entry := named.entry, node := named.node } := by
  have hvalue := (finds_of_lookup h).value
  obtain ⟨⟨kind, key⟩, node, rivals⟩ := named
  cases kind with
  | elements => exact lookup_element hvalue
  | complexTypes =>
    have hnone : g.elements.value? key = none := by
      rcases hclear with rfl | hnone
      · exact not_element_of_lookup h rfl
      · exact hnone
    dsimp only at hvalue
    rw [value?_typeEntries] at hvalue
    obtain ⟨id, htype, rfl⟩ := Option.map_eq_some_iff.1 hvalue
    exact lookup_type hnone htype

end Catalog

namespace Service

/-- The part of a message that a node declares, if it refers to anything. -/
def declaredPart? (s : Service) (node : Tree) : Option MessagePart :=
  (partReference? node).map fun (kind, written) =>
    ⟨(node.attribute? "name").getD "", kind, written, (s.qualify written).value⟩

def parts (s : Service) (ref : String) : List Tree :=
  ((s.message? ref).map (·.children "part")).getD []

theorem result_request {s : Service} {c : Catalog} {op : Operation} {ref : String}
    {part : MessagePart} (hinput : op.input = some ref)
    (hpart : (s.messagePart? ref).value = some part) :
    (s.request c op).result = (c.resolvePart part).result := by
  simp only [request, hinput, Outcome.result_bind, Outcome.result_lift, hpart]

/-- The node of the part that a header declaration names. -/
def headerPart? (s : Service) (declaration : Tree) : Option Tree := do
  let ref ← declaration.given? "message"
  let name ← declaration.given? "part"
  (s.parts ref).find? fun node => node.attribute? "name" == some name

theorem part_of_header {s : Service} {c : Catalog} {op : Operation} {declaration : Tree}
    {header : Header} (h : (s.header c op declaration).value = some header) :
    ∃ node part named, s.headerPart? declaration = some node ∧ s.declaredPart? node = some part ∧
      c.lookup part.key (node.attribute? "element").isNone [] = some named ∧
      header = ⟨part.name, part.written, named.entry.key⟩ := by
  unfold Service.header at h
  split at h
  · next ref name href hname =>
    dsimp only at h
    split at h
    · cases h
    · next node hnode =>
      split at h
      · cases h
      · next kind written hwritten =>
        simp only [Noted.value_bind] at h
        split at h
        · cases h
        · next named hnamed =>
          obtain rfl := Option.some.inj h
          have hsame : node.attribute? "name" = some name := by simpa using List.find?_some hnode
          refine ⟨node, ⟨name, kind, written, (s.qualify written).value⟩, named, ?_, ?_, hnamed,
            rfl⟩
          · simp only [headerPart?, href, hname, Option.bind_eq_bind, Option.bind_some]
            exact hnode
          · rw [declaredPart?, hwritten, hsame]
            rfl
  · cases h

theorem kind_of_declaredPart? {s : Service} {node : Tree} {part : MessagePart}
    (h : s.declaredPart? node = some part) :
    (part.kind = .element → (node.attribute? "element").isNone = false) ∧
      (node.attribute? "element" = none → part.kind = .type) := by
  obtain ⟨⟨kind, written⟩, href, rfl⟩ := Option.map_eq_some_iff.1 h
  unfold partReference? at href
  split at href
  · next name hname =>
    obtain ⟨hattribute, -⟩ := given?_eq_some.1 hname
    obtain ⟨rfl, rfl⟩ := Prod.mk.inj (Option.some.inj href)
    rw [hattribute]
    exact ⟨fun _ => rfl, by simp⟩
  · obtain ⟨_, -, heq⟩ := Option.map_eq_some_iff.1 href
    obtain ⟨rfl, -⟩ := Prod.mk.inj heq
    exact ⟨by simp, fun _ => rfl⟩

/-- A header comes to what its part stands for, if the part names an element, or a type whose key is
that of no element. -/
theorem resolvePart_of_header {s : Service} {node : Tree} {part : MessagePart} {named : Found}
    {found : PartType} (hpart : s.declaredPart? node = some part)
    (hnamed : s.graph.catalog.lookup part.key (node.attribute? "element").isNone [] = some named)
    (hfound : (s.graph.catalog.resolvePart
      (Header.messagePart ⟨part.name, part.written, named.entry.key⟩)).result = .ok found) :
    found.key = named.entry.key ∧
      (part.isSimple = false → (part.kind = .element ∨ node.attribute? "element" = none ∧
          s.graph.elements.value? named.entry.key = none) →
        (s.graph.catalog.resolvePart part).result = .ok found) := by
  obtain ⟨-, again, hagain, hroot⟩ := Catalog.resolvePart_eq_ok.1 hfound
  have hagain : s.graph.catalog.lookup named.entry.key false [] = some again := hagain
  have hentry := (Catalog.finds_of_lookup hnamed).value
  obtain ⟨helement, htype⟩ := kind_of_declaredPart? hpart
  refine ⟨(Catalog.key_of_entryPart? hroot).trans (Catalog.key_of_lookup_again hentry hagain),
    fun hsimple hclear => Catalog.resolvePart_eq_ok.2 ⟨hsimple, named, ?_, ?_⟩⟩
  · rw [← hnamed]
    rcases hclear with hkind | ⟨hnone, -⟩
    · rw [helement hkind, hkind]
      rfl
    · rw [hnone, htype hnone]
      rfl
  · have hsame := Catalog.lookup_again hnamed (hclear.imp helement And.right)
    obtain rfl := Option.some.inj (hagain.symm.trans hsame)
    exact hroot

end Service

end SoapComponents
