import Mathlib.Data.List.Perm.Basic
import SoapComponents.Proofs.Table
import SoapComponents.Proofs.Xml.Element
import SoapComponents.Tree.Query

/-!
The tree of a document, element by element. Each element has a tree of its own, which depends on
the bindings around it, and the tree of a document is that of its root. In the tree of an element
the values under a key are what its tag assigns to the key and then the trees of its children of
that name, in the order of the document.
-/

set_option autoImplicit false

namespace SoapComponents

open Xml

namespace Tree

def valuesOf (entries : List (String × Tree)) (key : String) : List Tree :=
  (Table.value? entries key).elim [] items

def values (t : Tree) (key : String) : List Tree := valuesOf t.entries key

theorem valuesOf_cons (e : String × Tree) (entries : List (String × Tree)) (key : String) :
    valuesOf (e :: entries) key = if e.1 = key then e.2.items else valuesOf entries key := by
  simp only [valuesOf, Table.value?]
  split <;> rfl

theorem addChild_cons (e : String × Tree) (entries : List (String × Tree)) (key : String)
    (value : Tree) :
    addChild (e :: entries) key value =
      if e.1 = key then (e.1, many (e.2.items ++ [value])) :: entries
      else e :: addChild entries key value := by
  obtain ⟨k, v⟩ := e
  cases v <;> rfl

theorem mem_keys_addChild {entries : List (String × Tree)} {key k : String} {value : Tree} :
    k ∈ Table.keys (addChild entries key value) ↔ k = key ∨ k ∈ Table.keys entries := by
  induction entries with
  | nil => simp [addChild, Table.keys]
  | cons e rest ih =>
    simp only [Table.keys] at ih
    by_cases he : e.1 = key
    · simp [addChild_cons, Table.keys, he]
    · simp [addChild_cons, Table.keys, he, ih, or_left_comm]

theorem proper_addChild {entries : List (String × Tree)} (h : Table.Proper entries) (key : String)
    (value : Tree) : Table.Proper (addChild entries key value) := by
  induction entries with
  | nil => simp [addChild, Table.Proper, Table.keys]
  | cons e rest ih =>
    obtain ⟨hfirst, hrest⟩ := List.nodup_cons.1 h
    rw [addChild_cons]
    split
    · exact List.nodup_cons.2 ⟨hfirst, hrest⟩
    · next he =>
      exact List.nodup_cons.2 ⟨fun hm => (mem_keys_addChild.1 hm).elim he hfirst, ih hrest⟩

theorem valuesOf_addChild (entries : List (String × Tree)) (key : String) {value : Tree}
    (hvalue : value.items = [value]) (k : String) :
    valuesOf (addChild entries key value) k =
      valuesOf entries k ++ if key = k then [value] else [] := by
  induction entries with
  | nil => 
    rw [addChild, valuesOf_cons, hvalue]
    rfl
  | cons e rest ih =>
    by_cases hkey : e.1 = key
    · by_cases hk : key = k <;> simp [addChild_cons, valuesOf_cons, items, hkey, hk]
    · by_cases hk : e.1 = k
      · have hne : ¬key = k := fun h => hkey (hk.trans h.symm)
        rw [addChild_cons, if_neg hkey]
        simp [valuesOf_cons, hk, hne]
      · simp [addChild_cons, valuesOf_cons, hkey, hk, ih]

theorem items_addChild (entries : List (String × Tree)) (key : String) {value : Tree}
    (hvalue : value.items = [value]) :
    ((addChild entries key value).flatMap fun e => e.2.items).Perm
      ((entries.flatMap fun e => e.2.items) ++ [value]) := by
  induction entries with
  | nil => simp [addChild, hvalue]
  | cons e rest ih =>
    rw [addChild_cons]
    split
    · simp only [List.flatMap_cons, items, List.append_assoc]
      exact List.perm_append_comm.append_left _
    · simpa using ih.append_left e.2.items

def Listed (entries : List (String × Tree)) : Prop :=
  ∀ e ∈ entries, e.2.items = [e.2] ∨ 2 ≤ e.2.items.length

theorem listed_addChild {entries : List (String × Tree)} (h : Listed entries) (key : String)
    {value : Tree} (hvalue : value.items = [value]) : Listed (addChild entries key value) := by
  induction entries with
  | nil => exact List.forall_mem_singleton.2 (.inl hvalue)
  | cons e rest ih =>
    obtain ⟨hfirst, hrest⟩ := List.forall_mem_cons.1 h
    rw [addChild_cons]
    split
    · refine List.forall_mem_cons.2 ⟨.inr ?_, hrest⟩
      have hlength : 1 ≤ e.2.items.length := by
        rcases hfirst with hfirst | hfirst
        · simp [hfirst]
        · omega
      calc 2 ≤ e.2.items.length + 1 := by omega
        _ = (e.2.items ++ [value]).length := by simp
    · exact List.forall_mem_cons.2 ⟨hfirst, ih hrest⟩

def addChildren (entries named : List (String × Tree)) : List (String × Tree) :=
  named.foldl (fun entries c => addChild entries c.1 c.2) entries

theorem mem_keys_addChildren {entries named : List (String × Tree)} {key : String} :
    key ∈ Table.keys (addChildren entries named) ↔
      key ∈ Table.keys entries ∨ key ∈ Table.keys named := by
  induction named generalizing entries with
  | nil => simp [addChildren, Table.keys]
  | cons c named ih =>
    have hkeys : Table.keys (c :: named) = c.1 :: Table.keys named := rfl
    have hstep : addChildren entries (c :: named) =
        addChildren (addChild entries c.1 c.2) named := rfl
    rw [hstep, ih, mem_keys_addChild, hkeys, List.mem_cons, or_assoc, or_left_comm]

theorem proper_addChildren {entries : List (String × Tree)} (h : Table.Proper entries)
    (named : List (String × Tree)) : Table.Proper (addChildren entries named) :=
  List.foldlRecOn named _ h fun _ h c _ => proper_addChild h c.1 c.2

theorem listed_addChildren {entries : List (String × Tree)} (h : Listed entries)
    {named : List (String × Tree)} (hnamed : ∀ c ∈ named, c.2.items = [c.2]) :
    Listed (addChildren entries named) :=
  List.foldlRecOn named _ h fun _ h c hc => listed_addChild h c.1 (hnamed c hc)

theorem valuesOf_addChildren (entries : List (String × Tree)) {named : List (String × Tree)}
    (hnamed : ∀ c ∈ named, c.2.items = [c.2]) (key : String) :
    valuesOf (addChildren entries named) key =
      valuesOf entries key ++ (named.filter (·.1 = key)).map (·.2) := by
  induction named generalizing entries with
  | nil => simp [addChildren]
  | cons c named ih =>
    obtain ⟨hc, hnamed⟩ := List.forall_mem_cons.1 hnamed
    have hrest := ih (addChild entries c.1 c.2) hnamed
    rw [valuesOf_addChild entries c.1 hc] at hrest
    by_cases hkey : c.1 = key <;> simpa [addChildren, hkey] using hrest

theorem items_addChildren (entries : List (String × Tree)) {named : List (String × Tree)}
    (hnamed : ∀ c ∈ named, c.2.items = [c.2]) :
    ((addChildren entries named).flatMap fun e => e.2.items).Perm
      ((entries.flatMap fun e => e.2.items) ++ named.map (·.2)) := by
  induction named generalizing entries with
  | nil => simp [addChildren]
  | cons c named ih =>
    obtain ⟨hc, hnamed⟩ := List.forall_mem_cons.1 hnamed
    have hrest := (ih (addChild entries c.1 c.2) hnamed).trans
      ((items_addChild entries c.1 hc).append_right _)
    simpa [addChildren] using hrest

end Tree

namespace Tree.Frame

def hear (f : Frame) (content : String) : Frame :=
  if f.childless then { f with leading := f.leading ++ content } else f

def adopt (f child : Frame) : Frame :=
  { f with entries := addChild f.entries child.tag child.value, childless := false }

theorem items_value (f : Frame) : f.value.items = [f.value] := by
  unfold Frame.value
  dsimp only
  split
  · rfl
  · split <;> rfl

end Tree.Frame

namespace Xml

open SoapComponents.Tree (Frame textKey declarationKey writtenName)

def Inner.fill : Frame → Inner → Frame
  | f, nil => f
  | f, text content next => next.fill (f.hear content)
  | f, element tag inside next =>
    next.fill (f.adopt (inside.fill (Frame.start f.scope tag.declared tag.name tag.attributes)))

namespace Element

def scope (around : Table String) (e : Element) : Table String :=
  Table.putAll around e.tag.declared

def start (around : Table String) (e : Element) : Frame :=
  Frame.start around e.tag.declared e.tag.name e.tag.attributes

def key (around : Table String) (e : Element) : String :=
  writtenName (e.scope around) e.tag.name

def tree (around : Table String) (e : Element) : Tree := (e.inside.fill (e.start around)).value

end Element

end Xml

namespace Tree

theorem fold_declared (declared before : List (String × String)) (rest : List Event)
    (frames : List Frame) :
    fold (declared.map (fun d => .declare d.1 d.2) ++ rest) frames before =
      fold rest frames (before ++ declared) := by
  induction declared generalizing before with
  | nil => simp
  | cons d declared ih => simp [fold, ih]

theorem fold_tag (tag : StartTag) (rest : List Event) (f : Frame) (outer : List Frame) :
    fold (tag.events ++ rest) (f :: outer) [] =
      fold rest (Frame.start f.scope tag.declared tag.name tag.attributes :: f :: outer) [] := by
  rw [StartTag.events, List.append_assoc, fold_declared]
  simp [fold]

theorem fold_inside (inside : Inner) (rest : List Event) (f : Frame) (outer : List Frame) :
    fold (inside.events ++ rest) (f :: outer) [] = fold rest (inside.fill f :: outer) [] := by
  induction inside generalizing rest f outer with
  | nil => simp [Inner.events, Inner.fill]
  | text content next ih =>
    simp [Inner.events, Inner.fill, fold, Frame.hear, ih]
  | element tag inside next ihInside ihNext =>
    calc fold ((Inner.element tag inside next).events ++ rest) (f :: outer) []
        = fold (tag.events ++ (inside.events ++ (.finish :: (next.events ++ rest))))
            (f :: outer) [] := by simp [Inner.events]
      _ = fold (.finish :: (next.events ++ rest)) (inside.fill
            (Frame.start f.scope tag.declared tag.name tag.attributes) :: f :: outer) [] := by
          rw [fold_tag, ihInside]
      _ = fold rest ((Inner.element tag inside next).fill f :: outer) [] := by
          simp [fold, ihNext, Inner.fill, Frame.adopt]

end Tree

namespace Xml.Inner

open SoapComponents.Tree (Frame)

@[simp] theorem fill_tag (inside : Inner) (f : Frame) : (inside.fill f).tag = f.tag := by
  induction inside generalizing f with
  | nil => rfl
  | text content next ih => 
    rw [fill, ih, Frame.hear]
    split <;> rfl
  | element tag inside next _ ih => rw [fill, ih]; rfl

theorem fill_leading (inside : Inner) (f : Frame) :
    (inside.fill f).leading = f.leading ++ if f.childless then inside.leading else "" := by
  have hclosed : ∀ (inside : Inner) (f : Frame), f.childless = false →
      (inside.fill f).leading = f.leading := by
    intro inside
    induction inside with
    | nil => intro f _; rfl
    | text content next ih => intro f hf; simp [fill, Frame.hear, hf, ih]
    | element tag inside next _ ih => intro f hf; rw [fill, ih _ rfl]; rfl
  cases hf : f.childless with
  | false => simp [hclosed inside f hf]
  | true =>
    induction inside generalizing f with
    | nil => simp [fill, leading]
    | text content next ih =>
      rw [fill, ih _ (by simp [Frame.hear, hf])]
      simp [Frame.hear, hf, leading, String.append_assoc]
    | element tag inside next _ ih => 
      rw [fill, hclosed _ _ rfl]
      simp [leading, Frame.adopt]

theorem fill_entries (inside : Inner) (f : Frame) :
    (inside.fill f).entries = Tree.addChildren f.entries
      (inside.elements.map fun c => (c.key f.scope, c.tree f.scope)) := by
  induction inside generalizing f with
  | nil => rfl
  | text content next ih =>
    rw [fill, ih, Frame.hear, elements]
    split <;> rfl
  | element tag inside next _ ih =>
    rw [fill, ih]
    simp [elements, Frame.adopt, Element.key, Element.tree, Element.start, Element.scope,
      Frame.start, Tree.addChildren]

end Xml.Inner

namespace Xml.Element

open SoapComponents.Tree (textKey declarationKey writtenName)

def assigned (around : Table String) (e : Element) : List (String × String) :=
  e.tag.declared.map (fun d => (declarationKey d.1, d.2)) ++
    e.tag.attributes.map fun a => (writtenName (e.scope around) a.1, a.2)

def named (around : Table String) (e : Element) : List (String × Tree) :=
  e.children.map fun c => (c.key (e.scope around), c.tree (e.scope around))

def entries (around : Table String) (e : Element) : List (String × Tree) :=
  Tree.addChildren (Table.ofAssignments ((e.assigned around).map fun a => (a.1, .text a.2)))
    (e.named around)

def content (e : Element) : String := Text.trim e.inside.leading

def Bare (e : Element) : Prop := e.tag.declared = [] ∧ e.tag.attributes = [] ∧ e.children = []

instance (e : Element) : Decidable e.Bare :=
  decidable_of_iff (e.tag.declared.isEmpty ∧ e.tag.attributes.isEmpty ∧ e.children.isEmpty)
    (by simp [Bare])

theorem tree_eq (around : Table String) (e : Element) :
    e.tree around =
      if (e.entries around).isEmpty then .text e.content
      else if e.content == "" then .node (e.entries around)
      else .node (Table.put (e.entries around) textKey (.text e.content)) := by
  have hentries : (e.inside.fill (e.start around)).entries = e.entries around := by
    rw [Inner.fill_entries]
    simp [entries, named, children, assigned, start, Tree.Frame.start, scope, Table.ofAssignments,
      Table.putAll, List.foldl_append, Function.comp_def]
  have hleading : (e.inside.fill (e.start around)).leading = e.inside.leading := by
    rw [Inner.fill_leading]
    simp [start, Tree.Frame.start]
  rw [tree, Tree.Frame.value, hentries, hleading]
  rfl

theorem mem_keys_entries {around : Table String} {e : Element} {key : String} :
    key ∈ Table.keys (e.entries around) ↔
      key ∈ Table.keys (e.assigned around) ∨ key ∈ Table.keys (e.named around) := by
  rw [entries, Tree.mem_keys_addChildren, Table.mem_keys_ofAssignments]
  simp [Table.keys]

theorem isEmpty_entries (around : Table String) (e : Element) :
    (e.entries around).isEmpty = true ↔ e.Bare := by
  calc (e.entries around).isEmpty = true
      ↔ Table.keys (e.entries around) = [] := by
        rw [Table.keys, List.map_eq_nil_iff, List.isEmpty_iff]
    _ ↔ Table.keys (e.assigned around) = [] ∧ Table.keys (e.named around) = [] := by
        simp only [List.eq_nil_iff_forall_not_mem, mem_keys_entries, not_or, forall_and]
    _ ↔ e.Bare := by
        simp [Table.keys, assigned, named, Bare, and_assoc]

theorem items_named (around : Table String) (e : Element) :
    ∀ c ∈ e.named around, c.2.items = [c.2] := by
  intro c hc
  obtain ⟨child, _, rfl⟩ := List.mem_map.1 hc
  exact Tree.Frame.items_value _

theorem valuesOf_entries (around : Table String) (e : Element) (key : String) :
    Tree.valuesOf (e.entries around) key =
      ((Table.value? (e.assigned around).reverse key).map Tree.text).toList ++
        (e.children.filter (·.key (e.scope around) = key)).map (·.tree (e.scope around)) := by
  rw [entries, Tree.valuesOf_addChildren _ (e.items_named around)]
  congr 1
  · rw [Tree.valuesOf, ← Table.map_ofAssignments Tree.text, Table.value?_map, Table.ofAssignments,
      Table.value?_putAll]
    cases Table.value? (e.assigned around).reverse key <;> rfl
  · simp [named, List.filter_map, Function.comp_def]

theorem items_entries (around : Table String) (e : Element) :
    ((e.entries around).flatMap fun entry => entry.2.items).Perm
      ((Table.ofAssignments (e.assigned around)).map (fun a => Tree.text a.2) ++
        e.children.map (·.tree (e.scope around))) := by
  have h := Tree.items_addChildren
    (Table.ofAssignments ((e.assigned around).map fun a => (a.1, Tree.text a.2)))
    (e.items_named around)
  rw [← Table.map_ofAssignments Tree.text] at h
  simpa [entries, ← Table.map_ofAssignments Tree.text, List.flatMap_map, Tree.items, named, Function.comp_def,
    ← List.map_eq_flatMap] using h

theorem writtenName_ne_textKey (scope : Table String) {name : ExpandedName}
    (h : IsName name.base) : writtenName scope name ≠ textKey := by
  have hcolon : ∀ p : String, p ++ ":" ++ name.base ≠ textKey := by
    intro p heq
    have hm : ':' ∈ (p ++ ":" ++ name.base).toList := by simp
    rw [heq] at hm
    revert hm
    decide
  have hbase : name.base ≠ textKey := by
    intro heq
    exact h.not_mem (c := '#') (by decide) (by rw [heq]; decide)
  unfold writtenName
  split
  · exact hbase
  · split
    · exact hbase
    · split
      · exact hcolon _
      · split
        · exact hcolon "xml"
        · exact hbase

theorem declarationKey_ne_textKey (nsPrefix : String) : declarationKey nsPrefix ≠ textKey := by
  unfold declarationKey
  split
  · decide
  · intro heq
    have hhead : ("xmlns:" ++ nsPrefix).toList.head? = textKey.toList.head? := by rw [heq]
    simp [textKey] at hhead

theorem textKey_not_mem {around : Table String} {e : Element} (h : e.Named) :
    textKey ∉ Table.keys (e.entries around) := by
  intro hm
  rcases mem_keys_entries.1 hm with hm | hm
  · obtain ⟨entry, hentry, hkey⟩ := List.mem_map.1 hm
    rcases List.mem_append.1 hentry with hd | ha
    · obtain ⟨d, _, rfl⟩ := List.mem_map.1 hd
      exact declarationKey_ne_textKey d.1 hkey
    · obtain ⟨a, hattribute, rfl⟩ := List.mem_map.1 ha
      exact writtenName_ne_textKey _ (h.1.2.2 a hattribute) hkey
  · obtain ⟨entry, hentry, hkey⟩ := List.mem_map.1 hm
    obtain ⟨c, hc, rfl⟩ := List.mem_map.1 hentry
    exact writtenName_ne_textKey _ (h.child hc).1.2.1 hkey

theorem entries_tree {around : Table String} {e : Element} (h : e.Named) :
    (e.tree around).entries = e.entries around ++
      if ¬e.Bare ∧ e.content ≠ "" then [(textKey, Tree.text e.content)] else [] := by
  rw [tree_eq]
  by_cases hbare : e.Bare
  · have hnil := List.isEmpty_iff.1 ((e.isEmpty_entries around).2 hbare)
    simp [hnil, hbare, Tree.entries]
  · rw [if_neg (mt (e.isEmpty_entries around).1 hbare)]
    by_cases hcontent : e.content = ""
    · simp [hcontent, Tree.entries]
    · simp [hcontent, hbare, Tree.entries, Table.put_of_not_mem (textKey_not_mem h)]

/-- The elements of a document, with the bindings around each of them. -/
inductive Occurs (root : Element) : Table String → Element → Prop
  | root : Occurs root [] root
  | child {around : Table String} {e c : Element} : Occurs root around e → c ∈ e.children →
      Occurs root (e.scope around) c

theorem Occurs.named {root e : Element} {around : Table String} (h : Occurs root around e)
    (hroot : root.Named) : e.Named := by
  induction h with
  | root => exact hroot
  | child _ hc ih => exact ih.child hc

/-- What a tree keeps of an element. -/
structure KeptBy (around : Table String) (e : Element) (t : Tree) : Prop where
  distinct : Table.Proper t.entries
  listed : Tree.Listed t.entries
  /-- First what the tag left under the key, then the children of this name. -/
  values : ∀ key, key ≠ textKey → t.values key =
    ((Table.value? (e.assigned around).reverse key).map Tree.text).toList ++
      (e.children.filter (·.key (e.scope around) = key)).map (·.tree (e.scope around))
  /-- Over all keys together nothing is lost and nothing comes twice. -/
  all : ((t.entries.filter (·.1 ≠ textKey)).flatMap fun entry => entry.2.items).Perm
    ((Table.ofAssignments (e.assigned around)).map (fun a => Tree.text a.2) ++
      e.children.map (·.tree (e.scope around)))
  text : ¬e.Bare → t = .node t.entries ∧
    Table.value? t.entries textKey = if e.content = "" then none else some (.text e.content)
  bare : e.Bare → t = .text e.content

theorem proper_tree {around : Table String} {e : Element} (h : e.Named) :
    Table.Proper (e.tree around).entries := by
  have hproper : Table.Proper (e.entries around) :=
    Tree.proper_addChildren (Table.proper_ofAssignments _) _
  rw [entries_tree h]
  split
  · simpa [Table.Proper, Table.keys, List.nodup_append] using
      ⟨hproper, fun _ _ hm heq => textKey_not_mem h (heq ▸ List.mem_map_of_mem hm)⟩
  · simpa using hproper

theorem values_tree {around : Table String} {e : Element} (h : e.Named) {key : String}
    (hkey : key ≠ textKey) : (e.tree around).values key = Tree.valuesOf (e.entries around) key := by
  rw [Tree.values, entries_tree h, Tree.valuesOf, Table.value?_append]
  split
  · simp [Table.value?, Tree.valuesOf, hkey.symm]
  · simp [Table.value?, Tree.valuesOf]

theorem filter_tree {around : Table String} {e : Element} (h : e.Named) :
    (e.tree around).entries.filter (·.1 ≠ textKey) = e.entries around := by
  have hself : (e.entries around).filter (·.1 ≠ textKey) = e.entries around :=
    List.filter_eq_self.2 fun entry hentry => decide_eq_true fun heq =>
      textKey_not_mem h (List.mem_map.2 ⟨entry, hentry, heq⟩)
  rw [entries_tree h, List.filter_append, hself]
  split <;> simp

theorem listed_entries (around : Table String) (e : Element) :
    Tree.Listed (e.entries around) := by
  refine Tree.listed_addChildren (fun entry hentry => ?_) (e.items_named around)
  rw [← Table.map_ofAssignments Tree.text] at hentry
  obtain ⟨a, -, rfl⟩ := List.mem_map.1 hentry
  exact .inl rfl

theorem listed_tree {around : Table String} {e : Element} (h : e.Named) :
    Tree.Listed (e.tree around).entries := by
  rw [entries_tree h]
  refine List.forall_mem_append.2 ⟨e.listed_entries around, ?_⟩
  split
  · exact List.forall_mem_singleton.2 (.inl rfl)
  · exact fun _ hm => absurd hm List.not_mem_nil

theorem tree_of_not_bare (around : Table String) {e : Element} (hbare : ¬e.Bare) :
    e.tree around = .node (e.tree around).entries := by
  rw [tree_eq, if_neg (mt (e.isEmpty_entries around).1 hbare)]
  split <;> rfl

theorem text_tree {around : Table String} {e : Element} (h : e.Named) (hbare : ¬e.Bare) :
    Table.value? (e.tree around).entries textKey =
      if e.content = "" then none else some (.text e.content) := by
  have hnone : Table.value? (e.entries around) textKey = none := by
    cases hvalue : Table.value? (e.entries around) textKey with
    | none => rfl
    | some v => exact absurd (Table.mem_keys_of_value? hvalue) (textKey_not_mem h)
  rw [entries_tree h, Table.value?_append, hnone]
  by_cases hcontent : e.content = "" <;> simp [hcontent, hbare, Table.value?]

theorem tree_keeps (around : Table String) {e : Element} (h : e.Named) :
    e.KeptBy around (e.tree around) where
  distinct := proper_tree h
  listed := listed_tree h
  values key hkey := by rw [values_tree h hkey, valuesOf_entries]
  all := by
    rw [filter_tree h]
    exact e.items_entries around
  text hbare := ⟨tree_of_not_bare around hbare, text_tree h hbare⟩
  bare hbare := by rw [tree_eq, if_pos ((e.isEmpty_entries around).2 hbare)]

end Xml.Element

namespace Tree

open Xml Element

theorem ofEvents?_events (root : Element) :
    ofEvents? root.events = some (node [(root.key [], root.tree [])]) := by
  have hstart : fold root.events [] [] =
      fold (root.inside.events ++ [.finish]) [root.start []] [] := by
    rw [Element.events, StartTag.events, List.append_assoc, List.append_assoc, fold_declared]
    simp [fold, Element.start]
  rw [ofEvents?, hstart, fold_inside]
  simp [fold, Element.tree, Element.key, Element.start, Frame.start, Element.scope]

/-- The tree of a document keeps what each element of the document holds: under every key what
the tag left there and all children of that name in their order, and the text of the element. -/
theorem ofEvents?_keeps (root : Element) (h : root.Named) :
    ofEvents? root.events = some (node [(root.key [], root.tree [])]) ∧
      ∀ around e, root.Occurs around e → e.KeptBy around (e.tree around) :=
  ⟨ofEvents?_events root, fun around _ he => tree_keeps around (he.named h)⟩

/-- Two names in turn, one of them an attribute as well, with text between them. -/
def interleaved : Element where
  tag := ⟨[("p", "urn:p")], ⟨none, "r"⟩, [(⟨none, "a"⟩, "1")]⟩
  inside :=
    .text " note " <| .element ⟨[], ⟨some "urn:p", "a"⟩, []⟩ .nil <|
    .element ⟨[], ⟨none, "a"⟩, []⟩ (.text " x " .nil) <| .text "between" <|
    .element ⟨[], ⟨some "urn:p", "a"⟩, [(⟨none, "b"⟩, "2")]⟩ (.text "y" .nil) <|
    .element ⟨[], ⟨none, "a"⟩, []⟩ .nil .nil

theorem interleaved_kept :
    interleaved.Named ∧ ofEvents? interleaved.events = some (node [("r", interleaved.tree [])]) ∧
      (interleaved.tree []).values "a" = [.text "1", .text "x", .text ""] ∧
      (interleaved.tree []).values "p:a" =
        [.text "", .node [("b", .text "2"), ("#text", .text "y")]] ∧
      (interleaved.tree []).values "#text" = [.text "note"] := by
  have hnamed : interleaved.Named := by decide
  obtain ⟨hevents, hkeeps⟩ := ofEvents?_keeps interleaved hnamed
  have hroot := hkeeps [] interleaved .root
  refine ⟨hnamed, hevents, ?_, ?_, ?_⟩
  · rw [hroot.values "a" (by decide)]
    rfl
  · rw [hroot.values "p:a" (by decide)]
    rfl
  · rfl

end Tree

end SoapComponents
