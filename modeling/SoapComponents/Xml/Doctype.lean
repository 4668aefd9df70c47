import SoapComponents.Xml.Scan

/-!
Document type declarations. What matters of them is the attributes that they give to elements:
which values are lists of tokens, and which attributes an element has without writing them. A
declaration of an entity is refused, and so is every declaration that is not well formed.
-/

set_option autoImplicit false

namespace SoapComponents.Xml

structure AttributeRule where
  name : String
  /-- Whether values are kept as written, without collapsing blanks. -/
  asWritten : Bool
  value : Option String

structure Doctype where
  rules : List (String × List AttributeRule) := []
  /-- Declarations may stand in parts that are not read, so an unknown entity is no error. -/
  incomplete : Bool := false
  /-- Declarations of entities and attributes are passed over from here on. -/
  ignoring : Bool := false

namespace Doctype

def rulesFor (d : Doctype) (element : String) : List AttributeRule :=
  (d.rules.find? (·.1 == element)).elim [] (·.2)

/-- Adds a rule for an element. The first rule that gives an attribute a value stays. -/
def addRule (d : Doctype) (element : String) (rule : AttributeRule) : Doctype :=
  let old := d.rulesFor element
  if rule.value.isSome && old.any (·.name == rule.name) then d
  else { d with rules := (element, old ++ [rule]) :: d.rules.filter (·.1 != element) }

def isPublicChar (c : Char) : Bool :=
  c.isAlphanum || " \n-()+,./:=?;!*#@$_%".toList.contains c || c == '\x27'

def externalName (forNotation : Bool) : Scan Unit := do
  if ← Scan.option "SYSTEM".toList then
    Scan.someBlanks
    let _ ← Scan.quotedText
  else
    Scan.literal "PUBLIC".toList
    Scan.someBlanks
    if !(← Scan.quotedText).all isPublicChar then failure
    let spaced ← Scan.blanks
    if forNotation && ((← get).head?.any (· == '>')) then return
    if !spaced then failure
    let _ ← Scan.quotedText

def occurrence : Scan Unit := do
  match ← get with
  | c :: rest => if c == '?' || c == '*' || c == '+' then set rest
  | [] => failure

mutual

def particle : Nat → Scan Unit
  | 0 => failure
  | fuel + 1 => do
    if ← Scan.option ['('] then group fuel
    else
      let _ ← Scan.name
      occurrence

def group : Nat → Scan Unit
  | 0 => failure
  | fuel + 1 => do
    let _ ← Scan.blanks
    particle fuel
    let _ ← Scan.blanks
    match ← get with
    | '|' :: _ => groupRest fuel '|'
    | ',' :: _ => groupRest fuel ','
    | _ => Scan.literal [')']; occurrence

def groupRest : Nat → Char → Scan Unit
  | 0, _ => failure
  | fuel + 1, separator => do
    if ← Scan.option [separator] then
      let _ ← Scan.blanks
      particle fuel
      let _ ← Scan.blanks
      groupRest fuel separator
    else
      Scan.literal [')']
      occurrence

end

def mixedRest : Nat → Bool → Scan Unit
  | 0, _ => failure
  | fuel + 1, named => do
    let _ ← Scan.blanks
    if ← Scan.option ['|'] then
      let _ ← Scan.blanks
      let _ ← Scan.name
      mixedRest fuel true
    else
      Scan.literal [')']
      if named then Scan.literal ['*']
      else let _ ← Scan.option ['*']

def content (fuel : Nat) : Scan Unit := do
  if ← Scan.option "EMPTY".toList then return
  if ← Scan.option "ANY".toList then return
  Scan.literal ['(']
  let before ← get
  let _ ← Scan.blanks
  if ← Scan.option "#PCDATA".toList then mixedRest fuel false
  else
    set before
    group fuel

def choices (token : Scan (List Char)) : Nat → Scan Unit
  | 0 => failure
  | fuel + 1 => do
    let _ ← Scan.blanks
    let _ ← token
    let _ ← Scan.blanks
    if ← Scan.option ['|'] then choices token fuel else Scan.literal [')']

/-- The type of an attribute. The answer says whether its values are kept as written. -/
def attributeType (fuel : Nat) : Scan Bool := do
  if ← Scan.option ['('] then
    choices Scan.nameToken fuel
    return false
  let keyword := String.ofList (← Scan.plainName)
  if keyword == "CDATA" then return true
  else if ["ID", "IDREF", "IDREFS", "ENTITY", "ENTITIES", "NMTOKEN", "NMTOKENS"].contains keyword
    then return false
  else if keyword == "NOTATION" then
    Scan.someBlanks
    Scan.literal ['(']
    choices Scan.plainName fuel
    return false
  else failure

def attributeDefault (lenient : Bool) : Scan (Option (List Char)) := do
  if ← Scan.option "#REQUIRED".toList then return none
  if ← Scan.option "#IMPLIED".toList then return none
  if ← Scan.option "#FIXED".toList then Scan.someBlanks
  let written ← Scan.quotedText
  let value ← attributeValue? lenient (written.length + 1) written
  return some value

def attributes (fuel₀ : Nat) (element : String) : Nat → Doctype → Scan Doctype
  | 0, _ => failure
  | fuel + 1, d => do
    let spaced ← Scan.blanks
    if ← Scan.option ['>'] then return d
    if !spaced then failure
    let name ← Scan.name
    Scan.someBlanks
    let asWritten ← attributeType fuel₀
    Scan.someBlanks
    let value ← attributeDefault d.incomplete
    let rule : AttributeRule :=
      ⟨String.ofList name, asWritten,
        value.map fun v => String.ofList (if asWritten then v else collapseBlanks v)⟩
    attributes fuel₀ element fuel (if d.ignoring then d else d.addRule element rule)

/-- The declaration of an entity. Only entities that every document knows may be declared, unless
declarations are passed over. -/
def entity (d : Doctype) : Scan Unit := do
  Scan.someBlanks
  let parameter ← Scan.option ['%']
  if parameter then Scan.someBlanks
  let name ← Scan.plainName
  Scan.someBlanks
  match ← get with
  | 'S' :: _ | 'P' :: _ =>
    externalName false
    let spaced ← Scan.blanks
    if !parameter && (← Scan.sees "NDATA".toList) then
      if !spaced then failure
      Scan.literal "NDATA".toList
      Scan.someBlanks
      let _ ← Scan.plainName
  | _ =>
    if (← Scan.quotedText).contains '%' then failure
  let _ ← Scan.blanks
  Scan.literal ['>']
  if !(d.ignoring || (!parameter && (predefined? name).isSome)) then failure

def subset (standalone : Bool) (fuel₀ : Nat) : Nat → Doctype → Scan Doctype
  | 0, _ => failure
  | fuel + 1, d => do
    let _ ← Scan.blanks
    if ← Scan.option [']'] then return d
    if ← Scan.option ['%'] then
      let _ ← Scan.plainName
      Scan.literal [';']
      subset standalone fuel₀ fuel
        { d with incomplete := !standalone, ignoring := d.ignoring || !standalone }
    else if ← Scan.option "<!--".toList then
      Scan.commentRest
      subset standalone fuel₀ fuel d
    else if ← Scan.option "<?".toList then
      Scan.instructionRest
      subset standalone fuel₀ fuel d
    else if ← Scan.option "<!ELEMENT".toList then
      Scan.someBlanks
      let _ ← Scan.name
      Scan.someBlanks
      content fuel₀
      let _ ← Scan.blanks
      Scan.literal ['>']
      subset standalone fuel₀ fuel d
    else if ← Scan.option "<!ATTLIST".toList then
      Scan.someBlanks
      let element ← Scan.name
      let d ← attributes fuel₀ (String.ofList element) fuel₀ d
      subset standalone fuel₀ fuel d
    else if ← Scan.option "<!NOTATION".toList then
      Scan.someBlanks
      let _ ← Scan.plainName
      Scan.someBlanks
      externalName true
      let _ ← Scan.blanks
      Scan.literal ['>']
      subset standalone fuel₀ fuel d
    else
      Scan.literal "<!ENTITY".toList
      entity d
      subset standalone fuel₀ fuel d

def read (standalone : Bool) (fuel : Nat) : Scan Doctype := do
  Scan.someBlanks
  let _ ← Scan.name
  let spaced ← Scan.blanks
  let external := ((← get).head?.any fun c => c == 'S' || c == 'P')
  if external then
    if !spaced then failure
    externalName false
    let _ ← Scan.blanks
  let d : Doctype := { incomplete := external && !standalone }
  let d ← if ← Scan.option ['['] then subset standalone fuel fuel d else pure d
  let _ ← Scan.blanks
  Scan.literal ['>']
  return d

end Doctype

end SoapComponents.Xml
