import SoapComponents.Generation
import SoapComponents.Text.Decimal

/-!
The command line: a location and a directory, and options between them. Long options may be cut
short as long as it is clear which one is meant. The options in `Argument.classify` are told from
other arguments first; then the arguments are read from left to right.
-/

set_option autoImplicit false

namespace SoapComponents

inductive Flag where
  | help
  | operation
  | emitMappings
  | logLevel
  deriving DecidableEq, Repr

namespace Flag

def names : List (String × Flag) := [
  ("-h", help), ("--help", help), ("-o", operation), ("--operation", operation),
  ("--emit-mappings", emitMappings), ("--log-level", logLevel)]

def beginningWith (text : String) : List Flag :=
  (names.filter fun e => text.toList.isPrefixOf e.1.toList).map (·.2)

end Flag

inductive Argument where
  | value (text : String)
  | separator
  /-- An option with what is attached to it, which may be letters of other options if the option
  is one of a `cluster`. -/
  | option (flag : Flag) (cluster : Bool) (attached : Option String)
  | ambiguous
  | unknown
  deriving DecidableEq, Repr

namespace Argument

def isNegative (cs : List Char) : Bool :=
  let isDigit (c : Char) : Bool := (Text.decimalValue? c).isSome
  match cs with
  | '-' :: rest =>
    (!rest.isEmpty && rest.all isDigit) ||
      (match Text.cutFirst '.' rest with
      | some (whole, fraction) => whole.all isDigit && !fraction.isEmpty && fraction.all isDigit
      | none => false)
  | _ => false

def cutAssigned (text : String) : String × Option String :=
  match Text.cutFirst '=' text.toList with
  | some (name, rest) => (String.ofList name, some (String.ofList rest))
  | none => (text, none)

def exact (text : String) : Option Argument :=
  let (name, attached) := cutAssigned text
  match Table.value? Flag.names text, Table.value? Flag.names name with
  | some flag, _ => some (.option flag false none)
  | none, some flag => some (.option flag false attached)
  | none, none => none

def shortened (text : String) : Option Argument :=
  if "--".toList.isPrefixOf text.toList then
    let (name, attached) := cutAssigned text
    match Flag.beginningWith name with
    | [] => none
    | [flag] => some (.option flag false attached)
    | _ => some .ambiguous
  else
    (Table.value? Flag.names (String.ofList (text.toList.take 2))).map fun flag =>
      .option flag true (some (String.ofList (text.toList.drop 2)))

def classifyOne (text : String) : Argument :=
  if text.toList.head? != some '-' || text == "-" then .value text
  else match (exact text).or (shortened text) with
    | some found => found
    | none => if isNegative text.toList || text.toList.contains ' ' then .value text else .unknown

def classify : List String → List Argument
  | [] => []
  | text :: rest =>
    if text == "--" then .separator :: rest.map .value else classifyOne text :: classify rest

end Argument

structure Request where
  positional : List String := []
  operation : Option String := none
  emitMappings : Option Bool := none
  logLevel : Option Level := none
  hasSurplus : Bool := false

inductive Command where
  | help
  | misused
  | run (job : Job) (logLevel : Option Level)

namespace Request

def assign (r : Request) (flag : Flag) (value : String) : Option Request :=
  match flag with
  | .operation => some { r with operation := some value }
  | .logLevel => (Level.ofName? (Text.upper value)).map fun level => { r with logLevel := some level }
  | _ => none

/-- Whether letters after `-h` can be read. They stand for options up to one that takes what is left
as its value, or up to one that is not known. `isFollowed` says that a value comes next. -/
def isCluster (isFollowed : Bool) : List Char → Bool
  | [] => true
  | 'h' :: '=' :: _ => false
  | 'h' :: rest => isCluster isFollowed rest
  | ['o'] => isFollowed
  | c :: _ => c != '-'

def startsWithValue : List Argument → Bool
  | .value _ :: _ => true
  | _ => false

def command (r : Request) : Command :=
  match r.hasSurplus, r.positional with
  | false, [location, directory] =>
    .run ⟨location, directory, r.operation, r.emitMappings⟩ r.logLevel
  | _, _ => .misused

/-- Reads the arguments. `afterPositional` says that the last one was no option and no value of
one: only then a separator may be the last argument. -/
def read (r : Request) (afterPositional : Bool) : List Argument → Command
  | [] => r.command
  | .value text :: rest =>
    if r.positional.length < 2 then read { r with positional := r.positional ++ [text] } true rest
    else read { r with hasSurplus := true } false rest
  | .separator :: rest =>
    if rest.isEmpty && !afterPositional then read { r with hasSurplus := true } false rest
    else read r false rest
  | .unknown :: rest => read { r with hasSurplus := true } false rest
  | .ambiguous :: _ => .misused
  | .option .help cluster attached :: rest =>
    match attached with
    | none => .help
    | some letters =>
      if cluster && letters != "" && isCluster (startsWithValue rest) letters.toList then .help
      else .misused
  | .option .emitMappings _ attached :: rest =>
    if attached.isSome then .misused else read { r with emitMappings := some true } false rest
  | .option flag _ attached :: rest =>
    match attached, rest with
    | some value, rest =>
      match r.assign flag value with
      | some r => read r false rest
      | none => .misused
    | none, .value value :: rest =>
      match r.assign flag value with
      | some r => read r false rest
      | none => .misused
    | none, _ => .misused

end Request

namespace Command

def usage : String :=
  "usage: wsdl2tsx [-h] [-o OPERATION] [--emit-mappings] [--log-level LEVEL] wsdl out_dir"

/-- Reads the command line. An option that could be several is a mistake wherever it stands. -/
def parse (arguments : List String) : Command :=
  let classified := Argument.classify arguments
  if classified.contains .ambiguous then .misused else Request.read {} false classified

end Command

/-- What a run of the program leaves: its exit code, what it told, and the files. -/
structure Report where
  exitCode : Nat
  level : Level := .info
  notices : List Notice := []
  files : Table String := []
  failure : Option Failure := none

namespace Report

def records (r : Report) : List Notice := r.notices.filter fun n => r.level.rank ≤ n.level.rank

def sources (r : Report) : List String := r.notices.filterMap Notice.source?

def isReported (f : Failure) : Bool := f.isGenerating || f.isLoading

def ofJob (settings : Settings) (library : Library) (job : Job) (level : Level) : Report :=
  let done := StateT.run (ExceptT.run (job.run settings library)) {}
  let (result, progress) := done.value
  match result with
  | .ok _ =>
    let last := .runFinished progress.written.length job.directory
    ⟨0, level, done.notices ++ [last], progress.files, none⟩
  | .error failure =>
    if isReported failure then
      ⟨1, level, done.notices ++ [.runFailed failure.message job.location], progress.files, none⟩
    else ⟨1, level, done.notices, progress.files, some failure⟩

def ofArguments (settings : Settings) (library : Library) (arguments : List String) : Report :=
  match Command.parse arguments with
  | .help => { exitCode := 0 }
  | .misused => { exitCode := 2 }
  | .run job level => ofJob settings library job (level.getD settings.logLevel)

end Report

end SoapComponents
