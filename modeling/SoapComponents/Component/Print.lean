import SoapComponents.Component.Basic
import SoapComponents.Text.Indent

/-!
The text of a component. Each part of it is a list of lines; the blocks of markup that stand inside
the envelope are indented as a whole.
-/

set_option autoImplicit false

namespace SoapComponents

def marked (s : String) : String := "\"" ++ s ++ "\""

namespace Field

def line (f : Field) : String :=
  let (mark, brackets) := match f.modifier with
    | .one => ("", "")
    | .optional => ("?", "")
    | .repeated => ("", "[]")
  "    " ++ f.name ++ mark ++ ": " ++ f.type.text ++ brackets ++ ";"

end Field

namespace Interface

def lines (i : Interface) : List String :=
  ["export interface " ++ i.name ++ " \x7b"] ++ i.fields.map Field.line ++ ["\x7d"]

def block (interfaces : List Interface) : List String :=
  interfaces.flatMap fun i => i.lines ++ [""]

end Interface

namespace Component

def headLines (runtime : String) : List String := [
  "// Generated by wsdl2tsx. Do not edit by hand.",
  "import \x7b ns, soap, xml \x7d from " ++ marked runtime ++ ";",
  ""]

def tagLines (c : Component) : List String :=
  c.tags.map fun (tagPrefix, tags) =>
    "const " ++ tagPrefix ++ " = ns(" ++ marked tagPrefix ++ ", [" ++
      ", ".intercalate (tags.map marked) ++ "] as const);"

def aliasLines (c : Component) : List String :=
  let lines := c.aliases.map fun a => "export type " ++ a.name ++ " = " ++ a.type.name ++ ";"
  if lines.isEmpty then [] else lines ++ [""]

def responseLines (c : Component) : List String :=
  match c.response with
  | none => []
  | some r => [""] ++ Interface.block r.interfaces ++ r.props.lines

def envelopeTag (c : Component) : String :=
  "<soap.Envelope xmlns:soap=" ++ marked c.envelope ++
    String.join (c.spaces.map fun e => " xmlns:" ++ e.1 ++ "=" ++ marked e.2) ++ ">"

def inEnvelope (markup : String) : String := Text.indent markup 4

def headerLines (c : Component) : List String :=
  if c.headers.isEmpty then []
  else ["            <soap.Header>"] ++ c.headers.map (fun h => inEnvelope h.markup) ++
    ["            </soap.Header>"]

def functionLines (c : Component) : List String :=
  ["export function " ++ Name.pascal c.requestName ++ "(props: " ++ c.props.name ++ ") \x7b",
    "    return (",
    "        " ++ c.envelopeTag] ++
  c.headerLines ++
  ["            <soap.Body>",
    inEnvelope c.body,
    "            </soap.Body>",
    "        </soap.Envelope>",
    "    );",
    "\x7d"]

def lines (runtime : String) (c : Component) : List String :=
  headLines runtime ++ c.tagLines ++ [""] ++ c.aliasLines ++ Interface.block c.interfaces ++
    c.props.lines ++ c.responseLines ++ [""] ++ c.functionLines ++
    ["", "export default " ++ Name.pascal c.requestName ++ ";"]

def print (runtime : String) (c : Component) : String :=
  String.join ((c.lines runtime).map (· ++ "\n"))

end Component

end SoapComponents
