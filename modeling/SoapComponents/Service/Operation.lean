import SoapComponents.Service.Message

/-!
Operations: what they take, what they answer, and the headers that their binding asks for. Only
the input is needed; an answer or a header that cannot be used is told of and left out.
-/

set_option autoImplicit false

namespace SoapComponents

structure Operation where
  name : String
  input : Option String
  output : Option String

namespace Operation

def ofTree (t : Tree) : Operation where
  name := (t.attribute? "name").getD ""
  input := (t.element? "input").bind (·.given? "message")
  output := (t.element? "output").bind (·.given? "message")

end Operation

/-- A header of an operation: the message part, the name that it writes, and the entry that this
name means. -/
structure Header where
  part : String
  written : String
  key : String

namespace Service

def portType? (s : Service) : Option Tree := s.definitions.element? "portType"

def operations (s : Service) : Except Failure (List Operation) :=
  match s.portType? with
  | none => .error .noPortType
  | some portType => .ok ((portType.children "operation").map Operation.ofTree)

def request (s : Service) (c : Catalog) (op : Operation) : Outcome PartType := do
  match op.input with
  | none => throw (.noInput op.name)
  | some ref =>
    match ← ExceptT.lift (s.messagePart? ref) with
    | some part => c.resolvePart part
    | none =>
      let names := s.messages.map fun m => (m.attribute? "name").getD ""
      throw (.typeNotFound ref names .inputMessage)

def response (s : Service) (c : Catalog) (op : Operation) : Noted (Option PartType) := do
  match op.output with
  | none => return none
  | some ref =>
    match ← s.messagePart? ref with
    | none =>
      Noted.tell (.outputUnusable ref op.name)
      return none
    | some part =>
      match ← ExceptT.run (c.resolvePart part) with
      | .ok found => return some found
      | .error failure =>
        Noted.tell (.responseSkipped op.name failure.message)
        return none

def bindingOperation? (s : Service) (op : Operation) : Option Tree :=
  let portName := s.portType?.bind (·.given? "name")
  let bindings := (s.definitions.children "binding").filter fun binding =>
    match portName with
    | none => true
    | some name => Name.localPart ((binding.attribute? "type").getD "") == name
  (bindings.flatMap (·.children "operation")).find? fun t => t.attribute? "name" == some op.name

def header (s : Service) (c : Catalog) (op : Operation) (declaration : Tree) :
    Noted (Option Header) := do
  match declaration.given? "message", declaration.given? "part" with
  | some ref, some partName =>
    let parts := ((s.message? ref).map (·.children "part")).getD []
    match parts.find? fun part => part.attribute? "name" == some partName with
    | none =>
      Noted.tell (.headerPartMissing partName ref)
      return none
    | some part =>
      match partReference? part with
      | none =>
        Noted.tell (.headerUntyped partName)
        return none
      | some (_, written) =>
        let key ← s.qualify written
        match c.lookup key (part.attribute? "element").isNone [] with
        | none =>
          Noted.tell (.headerTypeMissing written partName)
          return none
        | some found =>
          Noted.tellAll (found.notices key)
          return some ⟨partName, written, found.entry.key⟩
  | _, _ =>
    Noted.tell (.headerIncomplete op.name)
    return none

def headerDeclarations (s : Service) (op : Operation) : List Tree :=
  (((s.bindingOperation? op).bind (·.element? "input")).map (·.children "header")).getD []

def headers (s : Service) (c : Catalog) (op : Operation) : Noted (List Header) := do
  return (← (s.headerDeclarations op).mapM (s.header c op)).filterMap id

end Service

end SoapComponents
