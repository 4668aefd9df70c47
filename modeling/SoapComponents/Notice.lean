import SoapComponents.Text.Quoted
import SoapComponents.Name

/-!
What is worth telling while a run goes on. A notice is a value like any other: it carries its
data, and its level and wording are functions of it.
-/

set_option autoImplicit false

namespace SoapComponents

inductive Level where
  | debug
  | info
  | warning
  | error
  | critical
  deriving DecidableEq, Repr

namespace Level

def rank : Level → Nat
  | debug => 0
  | info => 1
  | warning => 2
  | error => 3
  | critical => 4

def name : Level → String
  | debug => "DEBUG"
  | info => "INFO"
  | warning => "WARNING"
  | error => "ERROR"
  | critical => "CRITICAL"

def all : List Level := [debug, info, warning, error, critical]

def ofName? (name : String) : Option Level := all.find? (·.name == name)

end Level

inductive Notice where
  -- settings
  | blanksAround (setting raw cleaned : String)
  | notBoolean (setting raw : String) (default : Bool)
  | notInteger (setting raw : String) (default : Int)
  | belowMinimum (setting : String) (value minimum default : Int)
  | unknownLevel (level : String)
  -- documents
  | reading (path : String)
  | fetching (location : String) (seconds : Int)
  -- schemas
  | importWithoutLocation (space : Option String)
  | importWithoutLibrary (location : String)
  | importRepeated (visit : String)
  | importFailed (location reason : String)
  | importWithoutSchema (location : String)
  | importFollowed (location : String)
  | typeRegistered (key : String)
  | elementRegistered (key : String)
  | groupMissing (name : String)
  | baseMissing (key : String)
  | extensionCircular (key : String)
  | prefixUndeclared (nsPrefix name : String)
  | typesAsElements
  | graphBuilt (elements complexTypes schemas : Nat)
  -- references
  | ambiguous (reference name : String) (candidates : List String)
  | loopWithoutType (name : String)
  | loopUnwrapped (name key : String)
  -- prefixes
  | prefixTaken (tagPrefix space : String) (seed : Nat)
  | prefixNumbered (space tagPrefix : String)
  | prefixSeen (tagPrefix space : String)
  -- output
  | fieldUnresolved (reference key : String)
  | shapesDiffer (name : String)
  | flattened (root : String) (fields interfaces : Nat)
  | elementUnresolved (reference key : String)
  -- services
  | loading (location : String)
  | prefixUnknown (nsPrefix name : String)
  | outputUnusable (message operation : String)
  | responseSkipped (operation reason : String)
  | headerIncomplete (operation : String)
  | headerPartMissing (part message : String)
  | headerUntyped (part : String)
  | headerTypeMissing (type part : String)
  | headerDropped (part reason : String)
  | operationStarted (operation : String)
  | operationSkipped (operation reason : String)
  | componentWritten (path : String)
  | mappingsWritten (path : String)
  | runFailed (reason location : String)
  | runFinished (files : Nat) (directory : String)

namespace Notice

def level : Notice → Level
  | reading _ | fetching .. | importWithoutLocation _ | importRepeated _ | importFollowed _
  | typeRegistered _ | elementRegistered _ | typesAsElements | loopUnwrapped .. | prefixTaken ..
  | prefixSeen .. | flattened .. | operationStarted _ | mappingsWritten _ => .debug
  | graphBuilt .. | loading _ | componentWritten _ | runFinished .. => .info
  | operationSkipped .. | runFailed .. => .error
  | _ => .warning

def truth (b : Bool) : String := if b then "True" else "False"

def message : Notice → String
  | blanksAround setting raw cleaned =>
    "Environment variable " ++ setting ++ " had surrounding whitespace: raw=" ++
      Text.quoted raw ++ ", cleaned=" ++ Text.quoted cleaned
  | notBoolean setting raw default =>
    "Environment variable " ++ setting ++ " has unexpected boolean value: " ++
      Text.quoted raw ++ ". Using default: " ++ truth default
  | notInteger setting raw default =>
    "Environment variable " ++ setting ++ " is not a valid integer: " ++
      Text.quoted raw ++ ". Using default: " ++ toString default
  | belowMinimum setting value minimum default =>
    "Environment variable " ++ setting ++ "=" ++ toString value ++
      " is below the minimum of " ++ toString minimum ++ ". Using default: " ++ toString default
  | unknownLevel level => "Unknown log level " ++ Text.quoted level ++ ", using INFO"
  | reading path => "Reading schema file " ++ path
  | fetching location seconds =>
    "Fetching schema " ++ location ++ " (timeout=" ++ toString seconds ++ "s)"
  | importWithoutLocation space =>
    "Import of " ++ space.getD "None" ++ " has no schemaLocation, skipping"
  | importWithoutLibrary location =>
    "No schema client configured, cannot load import " ++ location
  | importRepeated visit => "Import already processed, skipping: " ++ visit
  | importFailed location reason =>
    "Could not load imported schema " ++ location ++ ": " ++ reason
  | importWithoutSchema location =>
    "Imported document " ++ location ++ " has no schema root, skipping"
  | importFollowed location => "Processing imported schema " ++ location
  | typeRegistered key => "Registered complexType " ++ key
  | elementRegistered key => "Registered element " ++ key
  | groupMissing name => "Group " ++ name ++ " not found, skipping"
  | baseMissing key => "Base type " ++ key ++ " not found, inherited properties omitted"
  | extensionCircular key => "Circular extension through " ++ key ++ ", stopping inheritance"
  | prefixUndeclared nsPrefix name =>
    "Unknown namespace prefix " ++ Text.quoted nsPrefix ++ " in " ++ Text.quoted name ++
      ", using target namespace"
  | typesAsElements => "No global elements found, exposing complexTypes as elements"
  | graphBuilt elements complexTypes schemas =>
    "Type graph built: " ++ toString elements ++ " elements, " ++ toString complexTypes ++
      " complexTypes from " ++ toString schemas ++ " schema(s)"
  | ambiguous reference _ candidates =>
    "Reference " ++ reference ++ " matches several types by local name: " ++
      ", ".intercalate candidates ++ "; using " ++ candidates.headD ""
  | loopWithoutType name =>
    "Reference to " ++ name ++ " loops back to itself and no complexType " ++ name ++ " exists"
  | loopUnwrapped name key => "Circular reference through " ++ name ++ ", unwrapping " ++ key
  | prefixTaken tagPrefix space seed =>
    "Prefix " ++ tagPrefix ++ " taken, retrying " ++ space ++ " with seed " ++ toString seed
  | prefixNumbered space tagPrefix =>
    "Prefix hash attempts exhausted for " ++ space ++ ", using numbered prefix " ++ tagPrefix
  | prefixSeen tagPrefix space =>
    "Adding prefix " ++ tagPrefix ++ " -> " ++ space ++ " seen while rendering"
  | fieldUnresolved reference key =>
    "Type " ++ reference ++ " of " ++ key ++ " could not be resolved, using " ++
      Name.pascal (Name.localPart key)
  | shapesDiffer name =>
    "Inline types named " ++ name ++ " differ in shape, keeping the first interface"
  | flattened root fields interfaces =>
    "Flattened " ++ root ++ ": " ++ toString fields ++ " props, " ++ toString interfaces ++
      " interfaces"
  | elementUnresolved reference key =>
    "Unresolved reference " ++ reference ++ " for element " ++ key ++ ", rendering as text"
  | loading location => "Loading WSDL " ++ location
  | prefixUnknown nsPrefix name =>
    "Unknown prefix " ++ Text.quoted nsPrefix ++ " in " ++ Text.quoted name ++
      ", using the WSDL target namespace"
  | outputUnusable message operation =>
    "Output message " ++ message ++ " of " ++ operation ++ " has no usable part"
  | responseSkipped operation reason =>
    "Response of " ++ operation ++ " skipped: " ++ reason
  | headerIncomplete operation =>
    "Header of " ++ operation ++ " lacks message or part, dropped"
  | headerPartMissing part message =>
    "Header part " ++ part ++ " of message " ++ message ++ " not found, dropped"
  | headerUntyped part => "Header part " ++ part ++ " declares no element or type, dropped"
  | headerTypeMissing type part =>
    "Header type " ++ type ++ " not found, header " ++ part ++ " dropped"
  | headerDropped part reason => "Header " ++ part ++ " dropped: " ++ reason
  | operationStarted operation => "Processing operation " ++ operation
  | operationSkipped operation reason => "Operation " ++ operation ++ " skipped: " ++ reason
  | componentWritten path => "Generated " ++ path
  | mappingsWritten path => "Wrote namespace mappings to " ++ path
  | runFailed reason _ => "Generation failed: " ++ reason
  | runFinished files directory =>
    "Generated " ++ toString files ++ " file(s) in " ++ directory

def operation? : Notice → Option String
  | operationSkipped operation _ => some operation
  | _ => none

def location? : Notice → Option String
  | runFailed _ location => some location
  | _ => none

def source? : Notice → Option String
  | reading path => some path
  | fetching location _ => some location
  | _ => none

/-- Leaves out what was told before about a name that several types share: only the first notice
for each name stays. `told` holds the names of earlier notices, and grows. -/
def withoutRepeats (told : List String) : List Notice → List Notice × List String
  | [] => ([], told)
  | ambiguous reference name candidates :: rest =>
    if name ∈ told then withoutRepeats told rest
    else
      let (kept, told) := withoutRepeats (name :: told) rest
      (ambiguous reference name candidates :: kept, told)
  | notice :: rest =>
    let (kept, told) := withoutRepeats told rest
    (notice :: kept, told)

end Notice

end SoapComponents
