import SoapComponents.CommandLine
import SoapComponents.Notice.Record

/-!
The program. It reads the settings and the documents that a run asks for, and then writes what the
run leaves. Which documents those are shows only while they are read, so the run is repeated until
all of them are there.
-/

set_option autoImplicit false

namespace SoapComponents

def settingNames : List String := [
  "WSDL2TSX_FETCH_TIMEOUT", "WSDL2TSX_ACCEPT_TYPES", "WSDL2TSX_MAX_PREFIX_ATTEMPTS",
  "WSDL2TSX_PREFIX_STEM_LENGTH", "WSDL2TSX_RUNTIME_MODULE", "WSDL2TSX_EMIT_MAPPINGS",
  "WSDL2TSX_LOG_LEVEL"]

def readSettings : IO (Noted Settings) := do
  let mut found : Table String := []
  for name in settingNames do
    if let some value ← IO.getEnv name then found := found.put name value
  return Settings.read (Table.value? found)

def readSource (location : String) : IO Source := do
  if let .ok true := Url.isRemote location then return .refused "no network"
  try
    return .file (← IO.FS.readBinFile location).toList
  catch
    | .noFileOrDirectory .. => return .unreadable "No such file or directory"
    | .permissionDenied .. => return .unreadable "Permission denied"
    | e => return .unreadable (toString e)

/-- Repeats a run until it asks for no document that is not there. -/
partial def runWith (settings : Settings) (arguments : List String) (library : Library) :
    IO Report := do
  let report := Report.ofArguments settings library arguments
  let wanted := (report.sources.filter fun s => !library.holds s).eraseDups
  if wanted.isEmpty then return report
  let found ← wanted.mapM fun s => do return (s, ← readSource s)
  runWith settings arguments (library ++ found)

def writeFiles (files : Table String) : IO Unit := do
  for (path, content) in files do
    IO.FS.createDirAll (Path.parse path).parent.toText
    IO.FS.writeFile path content

end SoapComponents

open SoapComponents in
def main (arguments : List String) : IO UInt32 := do
  let settings ← readSettings
  let report ← runWith settings.value arguments []
  writeFiles report.files
  for notice in settings.notices ++ report.records do
    IO.eprintln notice.record
  if let some failure := report.failure then IO.eprintln failure.message
  match Command.parse arguments with
  | .help => IO.println Command.usage
  | .misused => IO.eprintln Command.usage
  | .run .. => pure ()
  return report.exitCode.toUInt32
