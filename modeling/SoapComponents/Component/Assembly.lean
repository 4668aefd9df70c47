import SoapComponents.Component.Basic
import SoapComponents.Interface.Collection
import SoapComponents.Markup.Namespaces
import SoapComponents.Reference.Reach

/-!
Making the component of an operation. The request decides on the namespaces first; each header then
adds its own and its field in the props, and the body is written when all of them are known.
-/

set_option autoImplicit false

namespace SoapComponents

/-- A component with the names of the types that it was made from. -/
structure Assembled where
  operation : String
  requestType : String
  responseType : Option String
  headers : List Header
  component : Component
  namespaces : NamespaceMap

structure HeaderSpace where
  namespaces : NamespaceMap
  props : Interface
  interfaces : List Interface
  markups : List HeaderMarkup := []

def addUnknown (known added : List Interface) : List Interface :=
  added.foldl (fun known i => if i.name ∈ known.map (·.name) then known else known ++ [i]) known

/-- What makes components: the types, and how prefixes are chosen. -/
structure Assembler where
  service : Service
  catalog : Catalog
  policy : Prefix.Policy

namespace Assembler

def headerRoot (a : Assembler) (header : Header) : Naming (PartType × NamespaceMap) := do
  let found ← Naming.ofOutcome
    (a.catalog.resolvePart ⟨header.part, .element, header.written, header.key⟩)
  return (found, ← NamespaceMap.ofRoot a.catalog a.policy found.key found.root)

def addHeaderRoot (a : Assembler) (space : HeaderSpace) (header : Header) (found : PartType)
    (namespaces : NamespaceMap) : Assigning HeaderSpace := do
  let fieldName := Name.camel header.part
  let plan := namespaces.plan a.catalog a.policy found.key
  let (markup, _) ← plan.write found.root (some fieldName)
  let shapes ← a.catalog.shapes found.key found.root [] none
  let own : Interface := ⟨Name.pascal header.key, shapes.props.fields⟩
  return {
    namespaces := space.namespaces.merge namespaces
    props := { space.props with
      fields := space.props.fields ++ [⟨fieldName, .interface own.name, .one⟩] }
    interfaces := addUnknown space.interfaces (own :: shapes.interfaces)
    markups := space.markups ++ [⟨header, markup⟩] }

def addHeader (a : Assembler) (space : HeaderSpace) (header : Header) : Naming HeaderSpace := do
  match ← ExceptT.lift (ExceptT.run (a.headerRoot header)) with
  | .ok (found, namespaces) => a.addHeaderRoot space header found namespaces
  | .error failure =>
    if failure.isUnresolved || failure.isStructural then
      Noted.tell (.headerDropped header.part failure.message)
      return space
    else throw failure

/-- The shapes of an answer, without the interfaces that are declared already. -/
def responseShapes (a : Assembler) (declared : List Interface) (found : PartType) :
    Noted ResponseShapes := do
  let shapes ← a.catalog.shapes found.key found.root [] none
  return ⟨shapes.props, shapes.interfaces.filter fun i => i.name ∉ declared.map (·.name)⟩

def assembleFrom (a : Assembler) (op : Operation) (request : PartType) : Naming Assembled := do
  let headers ← a.service.headers a.catalog op
  let response ← a.service.response a.catalog op
  let namespaces ← NamespaceMap.ofRoot a.catalog a.policy request.key request.root
  let reachable ← a.catalog.sortedReach request.root []
  let shapes ← a.catalog.shapes request.key request.root reachable none
  let space ← headers.foldlM a.addHeader
    { namespaces := namespaces, props := shapes.props, interfaces := shapes.interfaces }
  let plan := space.namespaces.plan a.catalog a.policy request.key
  let (body, _) ← plan.write request.root none
  let payload ← a.catalog.expand request.root
  let aliases ← a.catalog.typeAliases payload.node
  let responseShapes ← (response.mapM (a.responseShapes space.interfaces) : Noted _)
  return {
    operation := op.name
    requestType := request.key
    responseType := response.map (·.key)
    headers := headers
    namespaces := space.namespaces
    component := {
      requestName := Name.localPart request.key
      tags := space.namespaces.tags
      aliases := aliases
      props := space.props
      interfaces := space.interfaces
      envelope := a.service.envelope
      spaces := space.namespaces.spaces
      body := body
      headers := space.markups
      response := responseShapes } }

def assemble (a : Assembler) (op : Operation) : Naming Assembled := do
  Noted.tell (.operationStarted op.name)
  let request ← Naming.ofOutcome (a.service.request a.catalog op)
  a.assembleFrom op request

/-- Makes the component of an operation, telling but once of each name that several types share. -/
def assembleOnce (a : Assembler) (op : Operation) : Naming Assembled :=
  ExceptT.mk fun prefixes => (ExceptT.run (a.assemble op) prefixes).withoutRepeats

end Assembler

end SoapComponents
