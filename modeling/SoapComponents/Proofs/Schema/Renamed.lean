import SoapComponents.Proofs.Schema.Lockstep

/-!
Prefixes are as good as others. Where the prefixes of a set of schemas are renamed, in tags, in
their declarations and in the names that are written with them, the same graph is built, but for
the names that are kept as they are written.
-/

set_option autoImplicit false

namespace SoapComponents

open Text

/-- A prefix that a document may choose: written with the characters of prefixes, and not kept for
names that begin like `xml`. -/
def IsNameable (nsPrefix : String) : Prop :=
  Tree.IsPrefix nsPrefix.toList ∧ "xml".toList.isPrefixOf nsPrefix.toList = false

instance (nsPrefix : String) : Decidable (IsNameable nsPrefix) :=
  inferInstanceAs (Decidable (_ ∧ _))

/-- Other prefixes for those that may be chosen, different ones for different ones. -/
structure PrefixRenaming where
  map : String → String
  nameable : ∀ p, IsNameable p → IsNameable (map p)
  injective : ∀ p q, IsNameable p → IsNameable q → map p = map q → p = q

namespace PrefixRenaming

variable (ρ : PrefixRenaming)

def onPrefix (p : String) : String := if IsNameable p then ρ.map p else p

/-- A name with its prefix renamed: a key, or a name that a document writes. -/
def onName (name : String) : String :=
  match Name.prefixed? name with
  | some (p, base) => ρ.onPrefix p ++ ":" ++ base
  | none => name

def onText (key written : String) : String :=
  if key ∈ Content.namingAttributes then ρ.onName written else written

mutual

def onTree : Tree → Tree
  | .text written => .text written
  | .node entries => .node (onEntries entries)
  | .many items => .many (onItems items)

def onEntries : List (String × Tree) → List (String × Tree)
  | [] => []
  | (key, .text written) :: rest => (ρ.onName key, .text (ρ.onText key written)) :: onEntries rest
  | (key, .node entries) :: rest => (ρ.onName key, .node (onEntries entries)) :: onEntries rest
  | (key, .many items) :: rest => (ρ.onName key, .many (onItems items)) :: onEntries rest

def onItems : List Tree → List Tree
  | [] => []
  | t :: rest => onTree t :: onItems rest

end

def onEntry : String × Tree → String × Tree
  | (key, .text written) => (ρ.onName key, .text (ρ.onText key written))
  | (key, t) => (ρ.onName key, ρ.onTree t)

def onRootEntry : String × Tree → String × Tree
  | (key, .text written) =>
    if "xmlns:".toList.isPrefixOf key.toList then
      ("xmlns:" ++ ρ.onPrefix (String.ofList (key.toList.drop 6)), .text written)
    else ρ.onEntry (key, .text written)
  | e => ρ.onEntry e

def onSchema : Tree → Tree
  | .node entries => .node (entries.map ρ.onRootEntry)
  | t => t

def onTable (table : Table String) : Table String := table.map fun e => (ρ.onPrefix e.1, e.2)

section

variable {p q base name : String}

theorem onPrefix_of_nameable (h : IsNameable p) : ρ.onPrefix p = ρ.map p := if_pos h

theorem onPrefix_of_not (h : ¬ IsNameable p) : ρ.onPrefix p = p := if_neg h

theorem onPrefix_cases (p : String) :
    (IsNameable p ∧ IsNameable (ρ.onPrefix p)) ∨ (¬ IsNameable p ∧ ρ.onPrefix p = p) := by
  by_cases h : IsNameable p
  · exact .inl ⟨h, ρ.onPrefix_of_nameable h ▸ ρ.nameable p h⟩
  · exact .inr ⟨h, ρ.onPrefix_of_not h⟩

theorem nameable_onPrefix_iff : IsNameable (ρ.onPrefix p) ↔ IsNameable p := by
  rcases ρ.onPrefix_cases p with ⟨hp, hρ⟩ | ⟨hp, hsame⟩
  · exact iff_of_true hρ hp
  · rw [hsame]

theorem onPrefix_injective (h : ρ.onPrefix p = ρ.onPrefix q) : p = q := by
  have hiff : IsNameable p ↔ IsNameable q := by
    rw [← ρ.nameable_onPrefix_iff, h, ρ.nameable_onPrefix_iff]
  by_cases hp : IsNameable p
  · rw [ρ.onPrefix_of_nameable hp, ρ.onPrefix_of_nameable (hiff.1 hp)] at h
    exact ρ.injective p q hp (hiff.1 hp) h
  · rwa [ρ.onPrefix_of_not hp, ρ.onPrefix_of_not (mt hiff.2 hp)] at h

theorem isPrefix_onPrefix_iff :
    Tree.IsPrefix (ρ.onPrefix p).toList ↔ Tree.IsPrefix p.toList := by
  rcases ρ.onPrefix_cases p with ⟨hp, hρ⟩ | ⟨_, hsame⟩
  · exact iff_of_true hρ.1 hp.1
  · rw [hsame]

theorem colon_onPrefix (h : ':' ∉ p.toList) : ':' ∉ (ρ.onPrefix p).toList := by
  rcases ρ.onPrefix_cases p with ⟨_, hρ⟩ | ⟨_, hsame⟩
  · exact hρ.1.colon
  · rwa [hsame]

theorem onPrefix_empty : ρ.onPrefix "" = "" := ρ.onPrefix_of_not fun h => h.1.1 rfl

theorem isPrefixOf_onPrefix {kept : List Char} (h : "xml".toList.isPrefixOf kept = true) :
    kept.isPrefixOf (ρ.onPrefix p).toList = kept.isPrefixOf p.toList := by
  have hfree : ∀ q, IsNameable q → kept.isPrefixOf q.toList = false := by
    intro q hq
    rw [Bool.eq_false_iff]
    intro hkept
    rw [List.isPrefixOf_iff_prefix] at h hkept
    have hxml := List.isPrefixOf_iff_prefix.2 (h.trans hkept)
    rw [hq.2] at hxml
    cases hxml
  rcases ρ.onPrefix_cases p with ⟨hp, hρ⟩ | ⟨_, hsame⟩
  · rw [hfree _ hp, hfree _ hρ]
  · rw [hsame]

theorem onName_joined (base : String) (h : ':' ∉ p.toList) :
    ρ.onName (p ++ ":" ++ base) = ρ.onPrefix p ++ ":" ++ base := by
  simp only [onName, Name.prefixed?_joined base h]

theorem onName_of_colonless (h : ':' ∉ name.toList) : ρ.onName name = name := by
  simp only [onName, Name.prefixed?_eq_none.2 h]

theorem name_cases (name : String) :
    ':' ∉ name.toList ∨ ∃ p base, name = p ++ ":" ++ base ∧ ':' ∉ p.toList := by
  cases h : Name.prefixed? name with
  | none => exact .inl (Name.prefixed?_eq_none.1 h)
  | some parts => exact .inr ⟨parts.1, parts.2, Name.prefixed?_eq_some h⟩

theorem prefixed?_onName (name : String) :
    Name.prefixed? (ρ.onName name) = (Name.prefixed? name).map fun e => (ρ.onPrefix e.1, e.2) := by
  rcases name_cases name with h | ⟨p, base, rfl, h⟩
  · rw [ρ.onName_of_colonless h, Name.prefixed?_eq_none.2 h]
    rfl
  · rw [ρ.onName_joined base h, Name.prefixed?_joined base h,
      Name.prefixed?_joined base (ρ.colon_onPrefix h)]
    rfl

theorem localPart_onName (name : String) : Name.localPart (ρ.onName name) = Name.localPart name := by
  rcases name_cases name with h | ⟨p, base, rfl, h⟩
  · rw [ρ.onName_of_colonless h]
  · rw [ρ.onName_joined base h, Name.localPart_prefixed, Name.localPart_prefixed]

theorem colon_onName_iff (name : String) : ':' ∈ (ρ.onName name).toList ↔ ':' ∈ name.toList := by
  rcases name_cases name with h | ⟨p, base, rfl, h⟩
  · rw [ρ.onName_of_colonless h]
  · rw [ρ.onName_joined base h]
    simp

theorem onName_eq_iff {text : String} (h : ':' ∉ text.toList) : ρ.onName name = text ↔ name = text := by
  constructor
  · rintro rfl
    exact (ρ.onName_of_colonless (mt (ρ.colon_onName_iff name).2 h)).symm
  · rintro rfl
    exact ρ.onName_of_colonless h

theorem isPrefixOf_onName {kept : List Char} (hxml : "xml".toList.isPrefixOf kept = true)
    (hcolon : ':' ∉ kept) (name : String) :
    kept.isPrefixOf (ρ.onName name).toList = kept.isPrefixOf name.toList := by
  rcases name_cases name with h | ⟨p, base, rfl, h⟩
  · rw [ρ.onName_of_colonless h]
  · have hjoined : ∀ q : String, kept.isPrefixOf (q ++ ":" ++ base).toList =
        kept.isPrefixOf q.toList := by
      intro q
      simpa using Tree.isPrefixOf_cut hcolon q.toList base.toList
    rw [ρ.onName_joined base h, hjoined, hjoined, ρ.isPrefixOf_onPrefix hxml]

theorem matchesTag_onName {tag : String} (htag : Tree.IsTag tag) (key : String) :
    Tree.matchesTag (ρ.onName key) tag = Tree.matchesTag key tag := by
  rcases name_cases key with h | ⟨p, base, rfl, h⟩
  · rw [ρ.onName_of_colonless h]
  · rw [ρ.onName_joined base h, Bool.eq_iff_iff, Tree.matchesTag_joined htag h,
      Tree.matchesTag_joined htag (ρ.colon_onPrefix h), ρ.isPrefix_onPrefix_iff]

end

section

variable {t : Tree} {tag name : String}

theorem onEntries_eq_map (entries : List (String × Tree)) :
    ρ.onEntries entries = entries.map ρ.onEntry := by
  induction entries with
  | nil => rfl
  | cons e rest ih =>
    obtain ⟨key, t⟩ := e
    cases t <;> simp only [onEntries, List.map_cons, onEntry, onTree, ih]

theorem onItems_eq_map (items : List Tree) : ρ.onItems items = items.map ρ.onTree := by
  induction items with
  | nil => rfl
  | cons t rest ih => simp only [onItems, List.map_cons, ih]

theorem entries_onTree (t : Tree) : (ρ.onTree t).entries = t.entries.map ρ.onEntry := by
  cases t with
  | node entries => exact ρ.onEntries_eq_map entries
  | text _ => rfl
  | many _ => rfl

theorem items_onTree (t : Tree) : (ρ.onTree t).items = t.items.map ρ.onTree := by
  cases t with
  | many items => exact ρ.onItems_eq_map items
  | text _ => rfl
  | node _ => rfl

theorem asElement?_onTree (t : Tree) :
    (ρ.onTree t).asElement? = t.asElement?.map ρ.onTree := by
  cases t with
  | node entries => rfl
  | many items => rfl
  | text written =>
    by_cases h : written = ""
    · subst h
      rfl
    · have hnone : (Tree.text written).asElement? = none := by simp [Tree.asElement?, h]
      rw [onTree, hnone]
      rfl

theorem key_onEntry (e : String × Tree) : (ρ.onEntry e).1 = ρ.onName e.1 := by
  obtain ⟨key, t⟩ := e
  cases t <;> rfl

theorem value_onEntry {e : String × Tree} (h : e.1 ∉ Content.namingAttributes) :
    (ρ.onEntry e).2 = ρ.onTree e.2 := by
  obtain ⟨key, t⟩ := e
  cases t with
  | text written => simp only [onEntry, onTree, onText, if_neg h]
  | node _ => rfl
  | many _ => rfl

theorem naming_isTag : ∀ name ∈ Content.namingAttributes, Tree.IsTag name := by decide

theorem not_naming_of_matchesTag {key : String} (htag : Tree.IsTag tag)
    (hnaming : tag ∉ Content.namingAttributes) (h : Tree.matchesTag key tag = true) :
    key ∉ Content.namingAttributes := by
  intro hkey
  have hself : Tree.matchesTag key key = true := by
    rw [Tree.matchesTag_iff (naming_isTag key hkey), Tree.keyIs_iff]
    refine .inl (if_neg fun hlast => ?_)
    exact (naming_isTag key hkey).2.2 (List.mem_of_getLast? hlast)
  exact hnaming (Tree.tag_unique htag (naming_isTag key hkey) h hself ▸ hkey)

def under (tag : String) (e : String × Tree) : List Tree :=
  if Tree.matchesTag e.1 tag then e.2.items.filterMap Tree.asElement? else []

theorem children_eq_under (t : Tree) (tag : String) :
    t.children tag = t.entries.flatMap (under tag) := rfl

theorem under_onEntry (htag : Tree.IsTag tag) (hnaming : tag ∉ Content.namingAttributes)
    (e : String × Tree) : under tag (ρ.onEntry e) = (under tag e).map ρ.onTree := by
  unfold under
  rw [ρ.key_onEntry, ρ.matchesTag_onName htag]
  split
  · next hmatch =>
    rw [ρ.value_onEntry (not_naming_of_matchesTag htag hnaming hmatch), ρ.items_onTree,
      List.filterMap_map, List.map_filterMap]
    exact List.filterMap_congr fun inner _ => ρ.asElement?_onTree inner
  · rfl

theorem children_onTree (htag : Tree.IsTag tag) (hnaming : tag ∉ Content.namingAttributes)
    (t : Tree) : (ρ.onTree t).children tag = (t.children tag).map ρ.onTree := by
  rw [children_eq_under, children_eq_under, ρ.entries_onTree, List.flatMap_map, List.map_flatMap]
  exact List.flatMap_congr fun e _ => ρ.under_onEntry htag hnaming e

theorem value?_map {f : String × Tree → String × Tree} (hkey : ∀ e, (f e).1 = name ↔ e.1 = name)
    (entries : List (String × Tree)) :
    Table.value? (entries.map f) name =
      (Table.value? entries name).map fun value => (f (name, value)).2 := by
  induction entries with
  | nil => rfl
  | cons e rest ih =>
    obtain ⟨key, value⟩ := e
    have hfirst := hkey (key, value)
    simp only [List.map_cons, Table.value?]
    by_cases h : key = name
    · rw [if_pos h, if_pos (hfirst.2 h), h]
      rfl
    · rw [if_neg h, if_neg (mt hfirst.1 h), ih]

theorem attribute?_onTree (hname : ':' ∉ name.toList) (t : Tree) :
    (ρ.onTree t).attribute? name = (t.attribute? name).map (ρ.onText name) := by
  have hkey : ∀ e : String × Tree, (ρ.onEntry e).1 = name ↔ e.1 = name := fun e => by
    rw [ρ.key_onEntry, ρ.onName_eq_iff hname]
  unfold Tree.attribute?
  rw [ρ.entries_onTree, value?_map hkey]
  cases Table.value? t.entries name with
  | none => rfl
  | some value => cases value <;> rfl

theorem onName_eq_empty_iff (written : String) : ρ.onName written = "" ↔ written = "" :=
  ρ.onName_eq_iff (by decide)

theorem given?_onTree (hname : ':' ∉ name.toList) (t : Tree) :
    (ρ.onTree t).given? name = (t.given? name).map (ρ.onText name) := by
  have hempty : ∀ written, ρ.onText name written = "" ↔ written = "" := by
    intro written
    unfold onText
    split
    · exact ρ.onName_eq_empty_iff written
    · rfl
  unfold Tree.given? Name.given?
  rw [ρ.attribute?_onTree hname]
  cases t.attribute? name with
  | none => rfl
  | some written => by_cases h : written = "" <;> simp [Option.filter_some, hempty, h]

theorem given?_of_naming (hname : name ∈ Content.namingAttributes) (t : Tree) :
    (ρ.onTree t).given? name = (t.given? name).map ρ.onName := by
  have hid : ρ.onText name = ρ.onName := funext fun written => if_pos hname
  rw [ρ.given?_onTree (naming_isTag name hname).2.1, hid]

theorem given?_of_plain (hname : name ∉ Content.namingAttributes) (hcolon : ':' ∉ name.toList)
    (t : Tree) : (ρ.onTree t).given? name = t.given? name := by
  have hid : ρ.onText name = id := funext fun written => if_neg hname
  rw [ρ.given?_onTree hcolon, hid, Option.map_id, id]

theorem strayKeys_onTree (t : Tree) :
    Content.strayKeys (ρ.onTree t) = (Content.strayKeys t).map ρ.onName := by
  have hplain : ∀ tag ∈ Content.plainTags, Tree.IsTag tag := by decide
  unfold Content.strayKeys
  rw [ρ.entries_onTree, List.filter_map, List.map_map, List.map_map]
  have hkeys : (Prod.fst ∘ ρ.onEntry) = (ρ.onName ∘ Prod.fst : String × Tree → String) :=
    funext ρ.key_onEntry
  rw [hkeys]
  congr 1
  refine List.filter_congr fun e _ => ?_
  obtain ⟨key, value⟩ := e
  have hdeclares := ρ.isPrefixOf_onName (show "xml".toList.isPrefixOf "xmlns".toList = true by decide)
    (by decide) key
  have htext : (ρ.onName key != Tree.textKey) = (key != Tree.textKey) := by
    rw [Bool.eq_iff_iff, bne_iff_ne, bne_iff_ne, Ne, ρ.onName_eq_iff (by decide)]
  have hcolon : (ρ.onName key).toList.contains ':' = key.toList.contains ':' := by
    rw [Bool.eq_iff_iff, List.contains_iff_mem, List.contains_iff_mem, ρ.colon_onName_iff]
  have htags : Content.plainTags.any (Tree.matchesTag (ρ.onName key)) =
      Content.plainTags.any (Tree.matchesTag key) := by
    rw [Bool.eq_iff_iff, List.any_eq_true, List.any_eq_true]
    exact exists_congr fun tag => and_congr_right fun htag => by
      rw [ρ.matchesTag_onName (hplain tag htag)]
  cases value <;> simp only [Function.comp_apply, onEntry, onTree, hdeclares, htext, hcolon, htags]

end

/-- All names that a node writes have prefixes that are declared. -/
def DeclaresNames (namespaces : Table String) (t : Tree) : Prop :=
  ∀ node, t.Inside node → ∀ name ∈ Content.namingAttributes, ∀ written,
    node.given? name = some written → ∀ p base, Name.prefixed? written = some (p, base) →
      namespaces.holds p = true

/-- A node and the same with its prefixes renamed, in scopes where these mean the same. -/
structure Renamed (ρ : PrefixRenaming) (d d' : Tree × Scope) : Prop where
  tree : d'.1 = ρ.onTree d.1
  target : d'.2.target = d.2.target
  qualified : d'.2.qualified = d.2.qualified
  namespaces : ∀ p, d'.2.namespaces.value? (ρ.onPrefix p) = d.2.namespaces.value? p
  declares : DeclaresNames d.2.namespaces d.1

variable {ρ}

theorem DeclaresNames.child {namespaces : Table String} {t inner : Tree} {tag : String}
    (h : DeclaresNames namespaces t) (hinner : inner ∈ t.children tag) :
    DeclaresNames namespaces inner :=
  fun node hnode => h node (hnode.of_child hinner)

theorem Renamed.sameName {d d' : Tree × Scope} (h : Renamed ρ d d') {name written : String}
    (hname : name ∈ Content.namingAttributes) (hwritten : d.1.given? name = some written) :
    Content.SameName ρ.onName d.2 d'.2 written (ρ.onName written) := by
  refine ⟨rfl, ?_, ρ.localPart_onName written⟩
  unfold Scope.qualify
  rw [ρ.prefixed?_onName]
  cases hparts : Name.prefixed? written with
  | none =>
    have hdefault := h.namespaces ""
    rw [ρ.onPrefix_empty] at hdefault
    simp only [Option.map_none, hdefault, h.target,
      ρ.onName_of_colonless (Name.prefixed?_eq_none.1 hparts)]
  | some parts =>
    obtain ⟨p, base⟩ := parts
    obtain ⟨space, hspace⟩ := Option.isSome_iff_exists.1
      (h.declares d.1 .self name hname written hwritten p base hparts)
    simp only [Option.map_some, h.namespaces p, hspace]

theorem Renamed.child {d d' : Tree × Scope} (h : Renamed ρ d d') {tag : String} {inner : Tree}
    (hinner : inner ∈ d.1.children tag) : Renamed ρ (inner, d.2) (ρ.onTree inner, d'.2) :=
  ⟨rfl, h.target, h.qualified, h.namespaces, h.declares.child hinner⟩

theorem simulates_renamed (groups groups' : Groups) (hgroups : Table.Alike (Renamed ρ) groups groups') :
    Content.Simulates ρ.onName groups groups' (Renamed ρ) := by
  have htags : ∀ tag ∈ "group" :: Content.contentTags,
      Tree.IsTag tag ∧ tag ∉ Content.namingAttributes := by decide
  have hplain : ∀ name ∈ Content.plainAttributes,
      ':' ∉ name.toList ∧ name ∉ Content.namingAttributes := by decide
  rintro ⟨t, scope⟩ ⟨_, scope'⟩ h
  obtain rfl := h.tree
  have hchildren : ∀ tag ∈ "group" :: Content.contentTags, List.Forall₂
      (fun c c' => Renamed ρ (c, scope) (c', scope') ∧ c' = ρ.onTree c) (t.children tag)
      ((ρ.onTree t).children tag) := by
    intro tag htag
    obtain ⟨hproper, hnaming⟩ := htags tag htag
    rw [ρ.children_onTree hproper hnaming, List.forall₂_map_right_iff, List.forall₂_same]
    exact fun inner hinner => ⟨h.child hinner, rfl⟩
  refine ⟨h.target, h.qualified, fun name hname => ?_, fun name hname => ?_, fun tag htag => ?_, ?_,
    ρ.strayKeys_onTree t⟩
  · exact ρ.given?_of_plain (hplain name hname).2 (hplain name hname).1 t
  · rw [ρ.given?_of_naming hname]
    cases hwritten : t.given? name with
    | none => exact .none
    | some written => exact .some (h.sameName hname hwritten)
  · exact (hchildren tag (List.mem_cons_of_mem _ htag)).imp fun _ _ hrel => hrel.1
  · refine forall₂_imp_of_mem (hchildren "group" List.mem_cons_self) fun inner hinner _ hrel =>
      ⟨hrel.1, fun ref ref' href href' => ?_⟩
    obtain ⟨hrel, rfl⟩ := hrel
    have hnaming : "ref" ∈ Content.namingAttributes := by simp [Content.namingAttributes]
    have hsame := hrel.sameName hnaming href
    obtain rfl : ref' = ρ.onName ref := by
      have hgiven := ρ.given?_of_naming hnaming inner
      rw [href] at hgiven
      exact Option.some.inj (href'.symm.trans hgiven)
    rw [hsame.key, hsame.localPart]
    exact Groups.rel_find? hgroups _ _

section

variable (ρ) {name tag : String}

theorem value?_onTable (table : Table String) (p : String) :
    (ρ.onTable table).value? (ρ.onPrefix p) = table.value? p := by
  induction table with
  | nil => rfl
  | cons e rest ih =>
    simp only [onTable, List.map_cons, Table.value?] at ih ⊢
    by_cases h : e.1 = p
    · rw [if_pos h, if_pos (congrArg ρ.onPrefix h)]
    · rw [if_neg h, if_neg (mt ρ.onPrefix_injective h), ih]

theorem put_onTable (table : Table String) (p space : String) :
    Table.put (ρ.onTable table) (ρ.onPrefix p) space = ρ.onTable (table.put p space) := by
  induction table with
  | nil => rfl
  | cons e rest ih =>
    simp only [onTable, List.map_cons, Table.put] at ih ⊢
    by_cases h : e.1 = p
    · rw [if_pos h, if_pos (congrArg ρ.onPrefix h), List.map_cons]
    · rw [if_neg h, if_neg (mt ρ.onPrefix_injective h), ih, List.map_cons]

theorem putAll_onTable (table more : Table String) :
    Table.putAll (ρ.onTable table) (ρ.onTable more) = ρ.onTable (table.putAll more) := by
  induction more generalizing table with
  | nil => rfl
  | cons e rest ih =>
    refine Eq.trans ?_ (ih (table.put e.1 e.2))
    rw [← ρ.put_onTable]
    rfl

theorem onRootEntry_cases (e : String × Tree) :
    (∃ p space, e = ("xmlns:" ++ p, .text space) ∧
      ρ.onRootEntry e = ("xmlns:" ++ ρ.onPrefix p, .text space)) ∨
    (ρ.onRootEntry e = ρ.onEntry e ∧
      ∀ space, e.2 = .text space → "xmlns:".toList.isPrefixOf e.1.toList = false) := by
  obtain ⟨key, t⟩ := e
  cases t with
  | text written =>
    by_cases h : "xmlns:".toList.isPrefixOf key.toList = true
    · obtain ⟨rest, hrest⟩ := List.isPrefixOf_iff_prefix.1 h
      have hkey : key = "xmlns:" ++ String.ofList rest := by
        apply String.toList_inj.1
        simp [← hrest]
      refine .inl ⟨String.ofList rest, written, by rw [hkey], ?_⟩
      have hdrop : key.toList.drop 6 = rest := by rw [← hrest]; rfl
      simp only [onRootEntry, if_pos h, hdrop]
    · exact .inr ⟨if_neg h, fun _ _ => Bool.eq_false_iff.2 h⟩
  | node _ => exact .inr ⟨rfl, fun _ h => by cases h⟩
  | many _ => exact .inr ⟨rfl, fun _ h => by cases h⟩

theorem colon_declaration (p : String) : ':' ∈ ("xmlns:" ++ p).toList := by
  simp

theorem key_onRootEntry (hname : ':' ∉ name.toList) (e : String × Tree) :
    (ρ.onRootEntry e).1 = name ↔ e.1 = name := by
  rcases ρ.onRootEntry_cases e with ⟨p, space, rfl, he⟩ | ⟨he, _⟩
  · rw [he]
    refine iff_of_false ?_ ?_ <;> rintro rfl <;> exact hname (colon_declaration _)
  · rw [he, ρ.key_onEntry, ρ.onName_eq_iff hname]

theorem entries_onSchema (t : Tree) : (ρ.onSchema t).entries = t.entries.map ρ.onRootEntry := by
  cases t <;> rfl

theorem attribute?_onSchema (hname : ':' ∉ name.toList) (hnaming : name ∉ Content.namingAttributes)
    (t : Tree) : (ρ.onSchema t).attribute? name = t.attribute? name := by
  unfold Tree.attribute?
  rw [ρ.entries_onSchema, value?_map (ρ.key_onRootEntry hname)]
  cases Table.value? t.entries name with
  | none => rfl
  | some value =>
    rcases ρ.onRootEntry_cases (name, value) with ⟨p, space, he, _⟩ | ⟨he, _⟩
    · obtain ⟨rfl, _⟩ := Prod.mk.inj he
      exact absurd (colon_declaration p) hname
    · rw [Option.map_some, he, ρ.value_onEntry hnaming]
      cases value <;> rfl

theorem declaration?_prefixed (p space : String) :
    Tree.declaration? ("xmlns:" ++ p, .text space) = some (p, space) := by
  have hprefix : "xmlns:".toList.isPrefixOf ("xmlns:" ++ p).toList = true :=
    List.isPrefixOf_iff_prefix.2 ⟨p.toList, by simp⟩
  have hdrop : ("xmlns:" ++ p).toList.drop 6 = p.toList := by
    rw [String.toList_append]
    rfl
  simp only [Tree.declaration?, if_pos hprefix, hdrop, String.ofList_toList]

theorem not_declaring_onName {key : String}
    (h : "xmlns:".toList.isPrefixOf key.toList = false) :
    "xmlns:".toList.isPrefixOf (ρ.onName key).toList = false := by
  have hxmlns : ρ.onPrefix "xmlns" = "xmlns" :=
    ρ.onPrefix_of_not fun h => absurd h.2 (by decide)
  rcases name_cases key with hcolon | ⟨p, base, rfl, hcolon⟩
  · rwa [ρ.onName_of_colonless hcolon]
  · rw [ρ.onName_joined base hcolon, Bool.eq_false_iff]
    intro hdeclares
    obtain ⟨rest, hrest⟩ := List.isPrefixOf_iff_prefix.1 hdeclares
    -- the first colon is where both prefixes end
    have hcut : Text.cutFirst ':' ("xmlns".toList ++ ':' :: rest) =
        some ((ρ.onPrefix p).toList, base.toList) := by
      rw [← Text.cutFirst_append base.toList (ρ.colon_onPrefix hcolon)]
      exact congrArg (Text.cutFirst ':') (by simpa using hrest)
    rw [Text.cutFirst_append rest (by decide)] at hcut
    obtain ⟨hcut, _⟩ := Prod.mk.inj (Option.some.inj hcut)
    obtain rfl : "xmlns" = p := ρ.onPrefix_injective (hxmlns.trans (String.toList_inj.1 hcut))
    rw [← Bool.not_eq_true] at h
    exact h (List.isPrefixOf_iff_prefix.2 ⟨base.toList, by simp⟩)

theorem declaration?_onRootEntry (e : String × Tree) :
    Tree.declaration? (ρ.onRootEntry e) =
      (Tree.declaration? e).map fun d => (ρ.onPrefix d.1, d.2) := by
  rcases ρ.onRootEntry_cases e with ⟨p, space, rfl, he⟩ | ⟨he, hplain⟩
  · rw [he, declaration?_prefixed, declaration?_prefixed]
    rfl
  · obtain ⟨key, t⟩ := e
    rw [he]
    cases t with
    | node _ => rfl
    | many _ => rfl
    | text written =>
      have hkey := hplain written rfl
      have hdefault : (ρ.onName key == "xmlns") = (key == "xmlns") := by
        rw [Bool.eq_iff_iff, beq_iff_eq, beq_iff_eq, ρ.onName_eq_iff (by decide)]
      simp only [onEntry, Tree.declaration?, ρ.not_declaring_onName hkey, hkey, hdefault,
        Bool.false_eq_true, if_false]
      split
      · next hkey =>
        obtain rfl := beq_iff_eq.1 hkey
        rw [Option.map_some, ρ.onPrefix_empty]
        rfl
      · rfl

theorem namespaces_onSchema (t : Tree) : (ρ.onSchema t).namespaces = ρ.onTable t.namespaces := by
  rw [Tree.namespaces_eq, Tree.namespaces_eq, ρ.entries_onSchema, List.filterMap_map]
  refine Eq.trans ?_ (ρ.putAll_onTable [] _)
  congr 1
  rw [onTable, List.map_filterMap]
  exact List.filterMap_congr fun e _ => ρ.declaration?_onRootEntry e

theorem given?_of_text {written : String} {c : Tree} (h : (Tree.text written).asElement? = some c) :
    c.given? name = none := by
  unfold Tree.asElement? at h
  split at h
  · next heq => cases heq
  · obtain rfl := Option.some.inj h
    rfl
  · cases h

/-- What a schema declares under a tag, but for what has no name: the declaration of a prefix that
is written like a tag is nothing that can be declared. -/
theorem named_onSchema (htag : Tree.IsTag tag) (hnaming : tag ∉ Content.namingAttributes)
    (t : Tree) : ((ρ.onSchema t).children tag).filter (fun c => (c.given? "name").isSome) =
      ((t.children tag).filter fun c => (c.given? "name").isSome).map ρ.onTree := by
  have hname : ∀ c, ((ρ.onTree c).given? "name").isSome = (c.given? "name").isSome := fun c => by
    rw [ρ.given?_of_plain (by decide) (by decide)]
  have hnameless : ∀ key space, (under tag (key, .text space)).filter
      (fun c => (c.given? "name").isSome) = [] := by
    intro key space
    refine List.filter_eq_nil_iff.2 fun c hc => ?_
    unfold under at hc
    split at hc
    · obtain ⟨v, hv, helement⟩ := List.mem_filterMap.1 hc
      obtain rfl := List.mem_singleton.1 hv
      rw [given?_of_text helement]
      exact Bool.false_ne_true
    · cases hc
  rw [children_eq_under, children_eq_under, ρ.entries_onSchema, List.flatMap_map,
    List.filter_flatMap, List.filter_flatMap, List.map_flatMap]
  refine List.flatMap_congr fun e _ => ?_
  rcases ρ.onRootEntry_cases e with ⟨p, space, rfl, he⟩ | ⟨he, _⟩
  · rw [he, hnameless, hnameless, List.map_nil]
  · rw [he, ρ.under_onEntry htag hnaming, List.filter_map]
    congr 1
    exact List.filter_congr fun c _ => hname c

theorem scope_onSchema (t : Tree) (outer : Table String) (start : Option String) :
    let scope := Scope.ofSchema t outer start
    let scope' := Scope.ofSchema (ρ.onSchema t) (ρ.onTable outer) start
    scope'.target = scope.target ∧ scope'.qualified = scope.qualified ∧
      ∀ p, scope'.namespaces.value? (ρ.onPrefix p) = scope.namespaces.value? p := by
  refine ⟨ρ.attribute?_onSchema (by decide) (by decide) t, ?_, fun p => ?_⟩
  · have hform := ρ.attribute?_onSchema (show ':' ∉ "elementFormDefault".toList by decide)
      (by decide) t
    simp only [Scope.ofSchema, hform]
  · simp only [Scope.ofSchema, ρ.namespaces_onSchema, ρ.putAll_onTable, ρ.value?_onTable]

theorem declareAlike_onSchema {t : Tree} {outer : Table String} {start : Option String}
    (h : DeclaresNames (Scope.ofSchema t outer start).namespaces t) :
    DeclareAlike (Renamed ρ) (t, Scope.ofSchema t outer start)
      (ρ.onSchema t, Scope.ofSchema (ρ.onSchema t) (ρ.onTable outer) start) := by
  obtain ⟨htarget, hqualified, hnamespaces⟩ := ρ.scope_onSchema t outer start
  have htags : ∀ tag ∈ Tree.declarationTags, Tree.IsTag tag ∧ tag ∉ Content.namingAttributes := by
    decide
  have hnamed : ∀ scope : Scope, (isNamed ∘ fun c => (c, scope)) =
      fun c : Tree => (c.given? "name").isSome := by
    intro scope
    funext c
    simp [isNamed, declaredKey?]
  refine ⟨htarget, fun tag htag => ?_⟩
  unfold declaredNodes
  rw [List.filter_map, List.filter_map, hnamed, hnamed,
    ρ.named_onSchema (htags tag htag).1 (htags tag htag).2, List.map_map,
    List.forall₂_map_left_iff, List.forall₂_map_right_iff, List.forall₂_same]
  exact fun c hc => ⟨rfl, htarget, hqualified, hnamespaces, h.child (List.mem_filter.1 hc).1⟩

end

end PrefixRenaming

/-- Prefixes are as good as others. Where all names in the schemas have prefixes that are declared
on the schema or around it, and the prefixes are renamed, the build fails just when it failed
before, and gives the same elements and complex types otherwise. Only the bases of objects and the
types of attributes, which are kept as they are written, have the new prefixes. -/
theorem TypeGraph.build_renamed (ρ : PrefixRenaming) {roots : List Tree} {outer : Table String}
    {start : Option String} (h : ∀ root ∈ roots,
      PrefixRenaming.DeclaresNames (Scope.ofSchema root outer start).namespaces root) :
    TypeGraph.BuildAlike ρ.onName (TypeGraph.build none roots outer start)
      (TypeGraph.build none (roots.map ρ.onSchema) (ρ.onTable outer) start) := by
  refine TypeGraph.build_alike PrefixRenaming.simulates_renamed ?_
  rw [List.forall₂_map_right_iff, List.forall₂_same]
  exact fun root hroot => ρ.declareAlike_onSchema (h root hroot)

namespace PrefixRenaming

theorem declaresNames_of_everywhere {namespaces : Table String} {t : Tree}
    (h : t.everywhere (Tree.namesAll fun written =>
      (Name.prefixed? written).all fun parts => namespaces.holds parts.1) = true) :
    DeclaresNames namespaces t := by
  intro node hnode name hname written hwritten p base hparts
  have hdeclared := Tree.of_writes h ⟨node, hnode, name, hname, hwritten⟩
  simpa [hparts] using hdeclared

def exchange (p q : String) (hp : IsNameable p) (hq : IsNameable q) : PrefixRenaming where
  map r := if r = p then q else if r = q then p else r
  nameable r hr := by
    split
    · exact hq
    · split
      · exact hp
      · exact hr
  injective r s _ _ h := by grind

end PrefixRenaming

namespace SampleRenamed

open Content

def typeT : Tree := .node [
  ("name", .text "T"),
  ("xs:sequence", .node [("xs:element", .node [("name", .text "x"), ("type", .text "xs:string")])]),
  ("xs:attribute", .node [("name", .text "a"), ("type", .text "t:A")])]

def root : Tree := .node [
  ("xmlns:xs", .text Name.schemaSpace), ("xmlns:t", .text "t"), ("targetNamespace", .text "t"),
  ("xs:element", .node [("name", .text "E"), ("type", .text "t:T")]),
  ("xs:complexType", typeT)]

def exchanged : PrefixRenaming := .exchange "xs" "t" (by decide +kernel) (by decide +kernel)

def scope : Scope := Scope.ofSchema root [] none

def object {τ : Type} (type : τ) : ObjectType τ where
  members := [("x", { type := type, qualified := some false, space := some "t" })]
  space := some "t"
  qualified := some false
  attributes := [("a", "t:A")]

def graph : TypeGraph where
  objects := [object (.primitive "string")]
  elements := [("t:E", .reference ⟨"t:T", some "t", some false⟩)]
  complexTypes := [("t:T", 0)]
  namespaces := [("xs", Name.schemaSpace), ("t", "t")]
  schemas := ["inline:t"]

theorem result_build : (TypeGraph.build none [root] [] none).result = .ok graph := by
  have hread : ∀ groups, (complexType groups groups.depthBound scope typeT).result =
      .ok { type := object (.primitive "string") } :=
    fun _ => result_complexType_of_typed rfl rfl rfl rfl
  have hname : typeT.given? "name" = some "T" := rfl
  have htypes : root.children "complexType" = [typeT] := rfl
  let declared : Building :=
    { graph := { graph with elements := [] }
      elements := [(.node [("name", .text "E"), ("type", .text "t:T")], scope)] }
  have hdeclare : (Building.step (Building.enter {} scope) (.declare root scope)).result =
      .ok declared := by
    unfold Building.step
    rw [Outcome.result_bind, htypes, List.foldlM_cons, Outcome.result_bind,
      Building.result_registerType hname (hread _)]
    rfl
  have hvisits : Visit.all none [root] [] none = [.enter scope, .declare root scope] := rfl
  have hfold : ((Visit.all none [root] [] none).foldlM Building.step {}).result = .ok declared := by
    rw [hvisits, Building.result_foldlM_schema hdeclare]
    rfl
  unfold TypeGraph.build Building.gather
  rw [Outcome.result_bind, Outcome.result_bind, hfold]
  rfl

/-- The schema written with the prefixes exchanged gives the same type and element, and keeps the
attribute's type as it is now written. -/
theorem built_with_exchanged_prefixes : ∃ g',
    (TypeGraph.build none [exchanged.onSchema root] (exchanged.onTable []) none).result = .ok g' ∧
      TypeGraph.SameBut exchanged.onName graph g' ∧
      (g'.object 0).attributes = [("a", "xs:A")] := by
  have hdeclares : ∀ r ∈ [root],
      PrefixRenaming.DeclaresNames (Scope.ofSchema r [] none).namespaces r := by
    intro r hr
    obtain rfl := List.mem_singleton.1 hr
    exact PrefixRenaming.declaresNames_of_everywhere (by decide +kernel)
  cases TypeGraph.build_renamed exchanged hdeclares with
  | error hfailure _ => cases result_build.symm.trans hfailure
  | @ok g g' hg hg' hsame =>
    obtain rfl := Except.ok.inj (result_build.symm.trans hg)
    have hobject : graph.object 0 = object (.primitive "string") := rfl
    have hattributes := (hsame.object 0).attributes
    have hname : exchanged.onName "t:A" = "xs:A" := by decide +kernel
    rw [hobject] at hattributes
    generalize hfound : (g'.object 0).attributes = found at hattributes
    refine ⟨g', hg', hsame, hfound.trans ?_⟩
    cases hattributes with
    | @cons e e' rest rest' hfirst hrest =>
      cases hrest
      obtain ⟨key, type⟩ := e'
      obtain ⟨rfl, rfl | ⟨hdefault, _⟩⟩ := hfirst
      · rw [hname]
      · exact absurd hdefault (by decide)

end SampleRenamed

end SoapComponents
