import SoapComponents.Settings.Setting

/-!
The settings of a run, and the defaults that they have.
-/

set_option autoImplicit false

namespace SoapComponents

structure Settings where
  fetchTimeout : Int
  acceptTypes : List String
  prefixAttempts : Int
  stemLength : Int
  runtimeModule : String
  emitMappings : Bool
  logLevel : Level

namespace Settings

def acceptHeader (s : Settings) : String := ", ".intercalate s.acceptTypes

def read (raw : String → Option String) : Noted Settings := do
  let setting (name : String) : Setting := ⟨name, raw name⟩
  let fetchTimeout ← (setting "WSDL2TSX_FETCH_TIMEOUT").int 30 (some 1)
  let acceptTypes ← types (setting "WSDL2TSX_ACCEPT_TYPES")
  let prefixAttempts ← (setting "WSDL2TSX_MAX_PREFIX_ATTEMPTS").int 10 (some 1)
  let stemLength ← (setting "WSDL2TSX_PREFIX_STEM_LENGTH").int 6 (some 1)
  let runtimeModule ← (setting "WSDL2TSX_RUNTIME_MODULE").clean (some "@wsdl2tsx/runtime")
  let emitMappings ← (setting "WSDL2TSX_EMIT_MAPPINGS").bool false
  let written ← (setting "WSDL2TSX_LOG_LEVEL").clean (some "INFO")
  let level := Text.upper ((Name.given? written).getD "INFO")
  let logLevel ← match Level.ofName? level with
    | some found => pure found
    | none => do
      Noted.tell (.unknownLevel level)
      pure .info
  return ⟨fetchTimeout, acceptTypes, prefixAttempts, stemLength, runtimeModule.getD "", emitMappings,
    logLevel⟩
where
  /-- The media types; their separator is a comma, so that reading them does not fail. -/
  types (s : Setting) : Noted (List String) := do
    let standard := ["application/xml", "text/xml", "*/*"]
    match ← ExceptT.run (s.list standard ",") with
    | .ok found => return found
    | .error _ => return standard

def default : Settings := (read fun _ => none).value

def envelope11 : String := "http://schemas.xmlsoap.org/soap/envelope/"

def envelope12 : String := "http://www.w3.org/2003/05/soap-envelope"

/-- The envelope namespace for the namespace of a binding: version 1.2 when its last segment is
`soap12`, and version 1.1 otherwise. -/
def envelope (binding : Option String) : String :=
  match Name.given? binding with
  | none => envelope11
  | some space =>
    let trimmed := (space.toList.reverse.dropWhile (· == '/')).reverse
    if (Text.splitBy (· == '/') trimmed).getLast? == some "soap12".toList then envelope12
    else envelope11

end Settings

end SoapComponents
