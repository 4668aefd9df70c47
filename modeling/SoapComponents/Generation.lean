import SoapComponents.Component.Assembly
import SoapComponents.Component.Print
import SoapComponents.Location.Path
import SoapComponents.Prefix.Document

/-!
A run over the operations of a service. Every operation that comes out well is written; one that
fails is told of and left out, unless it was asked for by name. What was written before a failure
stays.
-/

set_option autoImplicit false

namespace SoapComponents

structure Job where
  location : String
  directory : String
  operation : Option String := none
  /-- Whether to write the namespaces of each component beside it; else the settings decide. -/
  emitMappings : Option Bool := none

structure Progress where
  prefixes : Prefixes := {}
  files : Table String := []
  written : List String := []

abbrev Running := ExceptT Failure (StateT Progress Noted)

namespace Running

def ofOutcome {α : Type} (x : Outcome α) : Running α := ExceptT.mk (StateT.lift (ExceptT.run x))

def naming {α : Type} (x : Naming α) : Running (Except Failure α) := do
  let progress ← get
  let (result, prefixes) ← (StateT.run (ExceptT.run x) progress.prefixes : Noted _)
  set { progress with prefixes := prefixes }
  return result

def write (path content : String) : Running Unit :=
  modify fun progress =>
    { progress with
      files := progress.files.put path content
      written := progress.written ++ [path] }

end Running

namespace Job

def path (j : Job) (operation ending : String) : String :=
  ((Path.parse j.directory).join (Path.parse (operation ++ ending))).toText

def writeComponent (j : Job) (settings : Settings) (a : Assembled) : Running Unit := do
  let target := j.path a.operation ".tsx"
  Running.write target (a.component.print settings.runtimeModule)
  Noted.tell (.componentWritten target)
  if j.emitMappings.getD settings.emitMappings then
    let target := j.path a.operation ".mappings.yaml"
    Running.write target a.namespaces.print
    Noted.tell (.mappingsWritten target)

def select (j : Job) (operations : List Operation) : Except Failure (List Operation) :=
  match Name.given? j.operation with
  | none => .ok operations
  | some name =>
    let selected := operations.filter fun op => Text.lower op.name == Text.lower name
    if selected.isEmpty then .error (.operationNotFound name (operations.map (·.name)))
    else .ok selected

def runOperation (j : Job) (settings : Settings) (a : Assembler) (op : Operation) :
    Running Unit := do
  match ← Running.naming (a.assembleOnce op) with
  | .ok assembled => j.writeComponent settings assembled
  | .error failure =>
    if failure.isGenerating && (Name.given? j.operation).isNone then
      Noted.tell (.operationSkipped op.name failure.message)
    else throw failure

/-- Reads the service and writes its operations. A run that writes nothing is a failure. -/
def run (j : Job) (settings : Settings) (library : Library) : Running Unit := do
  let service ← Running.ofOutcome (Service.load library settings.fetchTimeout j.location)
  let operations ← Running.ofOutcome (Outcome.ofExcept (service.operations >>= j.select))
  let a : Assembler := ⟨service, service.graph.catalog, Prefix.Policy.ofSettings settings⟩
  operations.forM (j.runOperation settings a)
  if (← get).written.isEmpty then throw (.nothingGenerated j.location)

end Job

end SoapComponents
