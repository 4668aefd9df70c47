import SoapComponents.Text.Word
import SoapComponents.Name
import SoapComponents.Tree

/-!
Looking into a document without regard to the prefixes that it uses. A key answers to a tag when
it is the tag itself, or the tag after a prefix and a colon.
-/

set_option autoImplicit false

namespace SoapComponents.Tree

open SoapComponents.Text

def isPrefixChar (c : Char) : Bool := isWord c || c == '.' || c == '-'

def isPrefixPart (cs : List Char) : Bool :=
  match cs.reverse with
  | [] => true
  | c :: before => c == ':' && !before.isEmpty && before.all isPrefixChar

def keyIs (key tag : List Char) : Bool :=
  tag.isSuffixOf key && isPrefixPart (key.take (key.length - tag.length))

/-- Whether a key is the tag under some prefix or none. A line feed after it does not count. -/
def matchesTag (key tag : String) : Bool :=
  keyIs key.toList tag.toList ||
    (key.toList.getLast? == some '\n' && keyIs key.toList.dropLast tag.toList)

def entries : Tree → List (String × Tree)
  | node entries => entries
  | _ => []

def items : Tree → List Tree
  | many items => items
  | single => [single]

/-- A value as an element that can be looked into: a node, or the empty node of an empty element. -/
def asElement? : Tree → Option Tree
  | node entries => some (node entries)
  | text "" => some (node [])
  | _ => none

def child? (t : Tree) (tag : String) : Option Tree :=
  (t.entries.find? fun e => matchesTag e.1 tag).map (·.2)

def children (t : Tree) (tag : String) : List Tree :=
  t.entries.flatMap fun e => if matchesTag e.1 tag then e.2.items.filterMap asElement? else []

def element? (t : Tree) (tag : String) : Option Tree := (t.children tag).head?

def attribute? (t : Tree) (name : String) : Option String :=
  match Table.value? t.entries name with
  | some (text value) => some value
  | _ => none

def given? (t : Tree) (name : String) : Option String := Name.given? (t.attribute? name)

def namespaces (t : Tree) : Table String :=
  t.entries.foldl (fun found e =>
    match e with
    | (key, text space) =>
      if "xmlns:".toList.isPrefixOf key.toList then
        Table.put found (String.ofList (key.toList.drop 6)) space
      else if key == "xmlns" then Table.put found "" space
      else found
    | _ => found) []

def imports (schema : Tree) : List Tree := schema.children "import" ++ schema.children "include"

mutual

def weight : Tree → Nat
  | text _ => 1
  | node entries => 1 + weightEntries entries
  | many items => 1 + weightItems items

def weightEntries : List (String × Tree) → Nat
  | [] => 0
  | (_, t) :: rest => weight t + weightEntries rest

def weightItems : List Tree → Nat
  | [] => 0
  | t :: rest => weight t + weightItems rest

end

theorem weight_le_weightEntries {es : List (String × Tree)} {e : String × Tree} (h : e ∈ es) :
    e.2.weight ≤ weightEntries es := by
  induction es with
  | nil => simp at h
  | cons e' rest ih =>
    rcases List.mem_cons.1 h with rfl | h
    · simp [weightEntries]
    · have := ih h
      simp only [weightEntries]
      omega

theorem weight_le_weightItems {ts : List Tree} {t : Tree} (h : t ∈ ts) :
    t.weight ≤ weightItems ts := by
  induction ts with
  | nil => simp at h
  | cons t' rest ih =>
    rcases List.mem_cons.1 h with rfl | h
    · simp [weightItems]
    · have := ih h
      simp only [weightItems]
      omega

theorem weight_of_mem_items {t u : Tree} (h : u ∈ t.items) : u.weight ≤ t.weight := by
  cases t with
  | many items =>
    have := weight_le_weightItems (show u ∈ items from h)
    simp only [weight]
    omega
  | text _ => simp [items] at h; simp [h]
  | node _ => simp [items] at h; simp [h]

theorem weight_asElement? {t u : Tree} (h : t.asElement? = some u) : u.weight ≤ t.weight := by
  unfold asElement? at h
  split at h
  · simp_all
  · obtain rfl := Option.some.inj h
    simp [weight, weightEntries]
  · simp at h

theorem weight_of_mem_children {t u : Tree} {tag : String} (h : u ∈ t.children tag) :
    u.weight < t.weight := by
  obtain ⟨e, he, hu⟩ := List.mem_flatMap.1 h
  split at hu
  · obtain ⟨v, hv, hvu⟩ := List.mem_filterMap.1 hu
    have h₁ := weight_asElement? hvu
    have h₂ := weight_of_mem_items hv
    cases t with
    | node entries =>
      have h₃ := weight_le_weightEntries (show e ∈ entries from he)
      simp only [weight]
      omega
    | text _ => simp [Tree.entries] at he
    | many _ => simp [Tree.entries] at he
  · simp at hu

theorem weight_of_element? {t u : Tree} {tag : String} (h : t.element? tag = some u) :
    u.weight < t.weight :=
  weight_of_mem_children (List.mem_of_mem_head? h)

end SoapComponents.Tree
