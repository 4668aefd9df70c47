import SoapComponents.Schema.Draft
import SoapComponents.Schema.Scope

/-!
Reading content models. A complex type becomes a drafted object whose members are the element
declarations of its content: those of nested particles first, then those of groups, then its own.
A reference to a group stands for the group's content, read in the scope of the schema that
defines it. Nothing keeps a group from being read inside itself, over and over: `depth` is how many
groups may still be read inside each other, and what goes deeper fails.
-/

set_option autoImplicit false

namespace SoapComponents

abbrev Groups := Table (Tree × Scope)

namespace Groups

/-- The group of a name, by its qualified name or else the first with its local name. -/
def find? (groups : Groups) (key base : String) : Option (String × Tree × Scope) :=
  match groups.value? key with
  | some found => some (key, found)
  | none => List.find? (fun e => Name.localPart e.1 == base) groups

/-- As many groups as can be read inside each other where none leads back to itself. -/
def depthBound (groups : Groups) : Nat := groups.length

end Groups

namespace Content

def particleTags : List String := ["sequence", "choice", "all"]

def plainTags : List String := ["annotation", "attribute", "attributeGroup", "anyAttribute"]

def attributes (node : Tree) : Table String :=
  Table.ofAssignments <| (node.children "attribute").filterMap fun a =>
    (a.given? "name").map fun name =>
      (name, ((a.given? "type").or (a.given? "base")).getD "xsd:string")

/-- The keys of children that a complex type without a content model should not have. -/
def strayKeys (node : Tree) : List String :=
  (node.entries.filter fun (key, value) =>
    !"xmlns".toList.isPrefixOf key.toList && key != Tree.textKey &&
      (match value with
        | .text _ => key.toList.contains ':'
        | _ => true) &&
      !plainTags.any (Tree.matchesTag key)).map (·.1)

def namedType (scope : Scope) (name : String) : Noted Draft := do
  let key ← scope.qualify name
  return if Name.isBuiltIn key then .primitive (Name.localPart key) else .reference key

def givenOccurs (element : Tree) (name : String) : String := (element.given? name).getD "1"

def referredMember (scope : Scope) (element : Tree) (ref : String) :
    Noted (String × Member Draft) := do
  let key ← scope.qualify ref
  return (Name.localPart ref, {
    type := .reference key
    minOccurs := givenOccurs element "minOccurs"
    maxOccurs := givenOccurs element "maxOccurs"
    qualified := some true
    space := (Name.space? key).or scope.target })

def isQualified (scope : Scope) (element : Tree) : Bool :=
  match element.given? "form" with
  | some form => form == "qualified"
  | none => scope.qualified

def simpleType (scope : Scope) (element : Tree) : Noted Draft :=
  match element.element? "simpleType" with
  | some simple =>
    match (simple.element? "restriction").bind (·.given? "base") with
    | some base => namedType scope base
    | none => pure (.primitive "string")
  | none => pure (.primitive "anyType")

def extendedType (scope : Scope) (content derivation : Tree) : Noted (Option String) := do
  match derivation.given? "base", (content.element? "extension").isSome with
  | some name, true =>
    let key ← scope.qualify name
    return if Name.localPart key == "anyType" then none else some key
  | _, _ => return none

theorem weight_derivation {content derivation : Tree}
    (h : (content.element? "extension").or (content.element? "restriction") = some derivation) :
    derivation.weight < content.weight := by
  rcases Option.or_eq_some_iff.1 h with h | ⟨_, h⟩ <;> exact Tree.weight_of_element? h

mutual

def particle (groups : Groups) (depth : Nat) (scope : Scope) (node : Tree) :
    Outcome (List (String × Member Draft)) := do
  let nested ← (particleTags.flatMap node.children).attach.mapM fun ⟨inner, _⟩ =>
    particle groups depth scope inner
  let grouped ← (node.children "group").attach.mapM fun ⟨inner, _⟩ =>
    group groups depth scope inner
  let own ← (node.children "element").attach.mapM fun ⟨inner, _⟩ =>
    element groups depth scope inner
  return nested.flatten ++ grouped.flatten ++ own.flatten
termination_by (depth, node.weight, 0)
decreasing_by
  · have : inner ∈ particleTags.flatMap node.children := by assumption
    obtain ⟨tag, _, hm⟩ := List.mem_flatMap.1 this
    exact Prod.Lex.right _ (Prod.Lex.left _ _ (Tree.weight_of_mem_children hm))
  · exact Prod.Lex.right _ (Prod.Lex.left _ _ (Tree.weight_of_mem_children (by assumption)))
  · exact Prod.Lex.right _ (Prod.Lex.left _ _ (Tree.weight_of_mem_children (by assumption)))

def group (groups : Groups) (depth : Nat) (scope : Scope) (node : Tree) :
    Outcome (List (String × Member Draft)) := do
  match node.given? "ref" with
  | none => groupBody groups depth scope node
  | some ref =>
    let key ← scope.qualify ref
    match groups.find? key (Name.localPart ref) with
    | none =>
      Outcome.tell (.groupMissing ref)
      return []
    | some (_, definition, definitionScope) =>
      match depth with
      | 0 => throw .tooDeep
      | depth + 1 => groupBody groups depth definitionScope definition
termination_by (depth, node.weight, 1)
decreasing_by
  · exact Prod.Lex.right _ (Prod.Lex.right _ (by omega))
  · exact Prod.Lex.left _ _ (Nat.lt_succ_self _)

def groupBody (groups : Groups) (depth : Nat) (scope : Scope) (node : Tree) :
    Outcome (List (String × Member Draft)) := do
  let own ← (node.children "element").attach.mapM fun ⟨inner, _⟩ =>
    element groups depth scope inner
  if !own.isEmpty then return own.flatten
  match _h : (particleTags.flatMap node.children).head? with
  | some inner => particle groups depth scope inner
  | none => return []
termination_by (depth, node.weight, 0)
decreasing_by
  · exact Prod.Lex.right _ (Prod.Lex.left _ _ (Tree.weight_of_mem_children (by assumption)))
  · obtain ⟨tag, _, hm⟩ := List.mem_flatMap.1 (List.mem_of_mem_head? _h)
    exact Prod.Lex.right _ (Prod.Lex.left _ _ (Tree.weight_of_mem_children hm))

def element (groups : Groups) (depth : Nat) (scope : Scope) (node : Tree) :
    Outcome (List (String × Member Draft)) := do
  match node.given? "ref" with
  | some ref => return [← referredMember scope node ref]
  | none =>
    match node.given? "name" with
    | none => return []
    | some name =>
      let type ← elementType groups depth scope node
      return [(name, {
        type := type
        minOccurs := givenOccurs node "minOccurs"
        maxOccurs := givenOccurs node "maxOccurs"
        qualified := some (isQualified scope node)
        space := scope.target })]
termination_by (depth, node.weight, 2)
decreasing_by exact Prod.Lex.right _ (Prod.Lex.right _ (by omega))

def elementType (groups : Groups) (depth : Nat) (scope : Scope) (node : Tree) :
    Outcome Draft := do
  match node.given? "type" with
  | some name => namedType scope name
  | none =>
    match _h : node.element? "complexType" with
    | some inner => return .object (← complexType groups depth scope inner)
    | none =>
      if (node.element? "sequence").isSome then
        return .object (← complexType groups depth scope node)
      else simpleType scope node
termination_by (depth, node.weight, 1)
decreasing_by
  · exact Prod.Lex.right _ (Prod.Lex.left _ _ (Tree.weight_of_element? _h))
  · exact Prod.Lex.right _ (Prod.Lex.right _ (by omega))

def complexType (groups : Groups) (depth : Nat) (scope : Scope) (node : Tree) :
    Outcome (Derived Draft) := do
  let plain (members : List (String × Member Draft)) : Derived Draft := {
    type := {
      members := members
      space := scope.target
      qualified := some scope.qualified
      attributes := attributes node } }
  match _h₁ : (particleTags.filterMap node.element?).head? with
  | some inner => return plain (← particle groups depth scope inner)
  | none =>
  match _h₂ : node.element? "group" with
  | some inner => return plain (← group groups depth scope inner)
  | none =>
  match _h₃ : node.element? "simpleContent" with
  | some content =>
    match _h₄ : (content.element? "extension").or (content.element? "restriction") with
    | none => return plain []
    | some derivation =>
      let members ← match _h₅ : derivation.element? "sequence" with
        | some inner => particle groups depth scope inner
        | none => pure []
      return {
        type := {
          members := members
          space := scope.target
          qualified := some scope.qualified
          base := derivation.given? "base"
          attributes := Table.putAll (attributes node) (attributes derivation) } }
  | none =>
  match _h₆ : node.element? "complexContent" with
  | some content =>
    match _h₇ : (content.element? "extension").or (content.element? "restriction") with
    | none => return plain []
    | some derivation =>
      let extended ← extendedType scope content derivation
      let nested ← (particleTags.flatMap derivation.children).attach.mapM fun ⟨inner, _⟩ =>
        particle groups depth scope inner
      let grouped ← (derivation.children "group").attach.mapM fun ⟨inner, _⟩ =>
        group groups depth scope inner
      return {
        type := {
          members := nested.flatten ++ grouped.flatten
          space := scope.target
          qualified := some scope.qualified
          base := derivation.given? "base"
          attributes := Table.putAll (attributes node) (attributes derivation) }
        extended := extended }
  | none =>
    match strayKeys node with
    | [] => return plain []
    | stray => throw (.strayChildren ((node.given? "name").getD "(anonymous)") stray)
termination_by (depth, node.weight, 0)
decreasing_by
  · obtain ⟨tag, _, hm⟩ := List.mem_filterMap.1 (List.mem_of_mem_head? _h₁)
    exact Prod.Lex.right _ (Prod.Lex.left _ _ (Tree.weight_of_element? hm))
  · exact Prod.Lex.right _ (Prod.Lex.left _ _ (Tree.weight_of_element? _h₂))
  · exact Prod.Lex.right _ (Prod.Lex.left _ _
      (Nat.lt_trans (Tree.weight_of_element? _h₅)
        (Nat.lt_trans (weight_derivation _h₄) (Tree.weight_of_element? _h₃))))
  · obtain ⟨tag, _, hm⟩ := List.mem_flatMap.1 (by assumption)
    exact Prod.Lex.right _ (Prod.Lex.left _ _
      (Nat.lt_trans (Tree.weight_of_mem_children hm)
        (Nat.lt_trans (weight_derivation _h₇) (Tree.weight_of_element? _h₆))))
  · exact Prod.Lex.right _ (Prod.Lex.left _ _
      (Nat.lt_trans (Tree.weight_of_mem_children (by assumption))
        (Nat.lt_trans (weight_derivation _h₇) (Tree.weight_of_element? _h₆))))

end

end Content

end SoapComponents
