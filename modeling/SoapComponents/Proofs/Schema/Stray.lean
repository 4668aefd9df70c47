import SoapComponents.Proofs.Schema.Contents
import SoapComponents.Proofs.Schema.Readings
import SoapComponents.Proofs.Schema.Typed
import SoapComponents.Proofs.Tags
import SoapComponents.Proofs.Tree.Folding

/-!
Complex types without a content model. In the tree of a document a child is told from an attribute
by what stands under its key, so it takes more than the element itself to say which types are
rejected: an attribute with a prefix passes for a child, and a child without a prefix that is
nothing but text for an attribute. Where the two can be told apart, exactly the types that have a
child that they should not have are rejected.
-/

set_option autoImplicit false

namespace SoapComponents

open Xml SoapComponents.Tree

namespace Tree

theorem stem_of_not_mem {cs : List Char} (h : '\n' ∉ cs) : stem cs = cs :=
  if_neg fun hlast => h (List.mem_of_getLast? hlast)

def ScopeNamed (scope : Table String) : Prop := ∀ b ∈ scope, b.1 = "" ∨ IsName b.1

theorem not_isNameChar_feed : isNameChar '\n' = false := by decide

theorem writtenName_cases {scope : Table String} (hscope : ScopeNamed scope)
    (name : ExpandedName) : writtenName scope name = name.base ∨
      ∃ p, IsName p ∧ writtenName scope name = p ++ ":" ++ name.base := by
  unfold writtenName
  split
  · exact .inl rfl
  · split
    · exact .inl rfl
    · split
      · next b hfound =>
        have hmem := List.mem_reverse.1 (List.mem_of_find?_eq_some hfound)
        have hpassed := List.find?_some hfound
        simp only [Bool.and_eq_true, bne_iff_ne] at hpassed
        exact .inr ⟨_, (hscope _ hmem).resolve_left hpassed.2, rfl⟩
      · split
        · exact .inr ⟨"xml", by decide, rfl⟩
        · exact .inl rfl

theorem base_of_matchesTag {scope : Table String} (hscope : ScopeNamed scope)
    {name : ExpandedName} (hname : IsName name.base) {tag : String} (htag : IsTag tag)
    (h : matchesTag (writtenName scope name) tag = true) : name.base = tag := by
  have hstem : stem name.base.toList = name.base.toList :=
    stem_of_not_mem (hname.not_mem not_isNameChar_feed)
  rcases writtenName_cases hscope name with heq | ⟨p, hp, heq⟩
  · rw [heq, matchesTag_iff htag, hstem, keyIs_iff] at h
    rcases h with h | ⟨q, -, hcut⟩
    · exact String.toList_inj.1 h
    · have hcolon : ':' ∈ name.base.toList := by simp [(Text.cutFirst_eq_some hcut).1]
      exact absurd hcolon (hname.not_mem (by decide))
  · rw [heq, matchesTag_joined htag (hp.not_mem (by decide)), hstem] at h
    exact String.toList_inj.1 h.2

end Tree

namespace Xml.Element

theorem Occurs.scope_named {root e : Element} {around : Table String} (hroot : root.Named)
    (h : root.Occurs around e) : ScopeNamed around := by
  induction h with
  | root => exact fun b hb => absurd hb List.not_mem_nil
  | child he _ ih =>
    intro b hb
    exact (Table.mem_putAll hb).elim (ih b) fun hb => (he.named hroot).1.1 b hb

theorem Occurs.inner_named {root e : Element} {around : Table String} (hroot : root.Named)
    (h : root.Occurs around e) : ScopeNamed (e.scope around) := by
  intro b hb
  exact (Table.mem_putAll hb).elim (h.scope_named hroot b) fun hb => (h.named hroot).1.1 b hb

theorem asElement?_entries {around : Table String} {e : Element} {node : Tree}
    (h : (e.tree around).asElement? = some node) : node.entries = (e.tree around).entries := by
  unfold asElement? at h
  split at h
  · next entries hentries =>
    obtain rfl := Option.some.inj h
    rw [hentries]
  · next htext =>
    obtain rfl := Option.some.inj h
    rw [htext]
    rfl
  · cases h

end Xml.Element

namespace Tree

theorem valuesOf_of_mem {entries : List (String × Tree)} (h : Table.Proper entries)
    {entry : String × Tree} (hentry : entry ∈ entries) :
    valuesOf entries entry.1 = entry.2.items := by
  rw [valuesOf, Table.value?_of_mem h hentry]
  rfl

theorem exists_of_mem_valuesOf {entries : List (String × Tree)} {key : String} {u : Tree}
    (h : u ∈ valuesOf entries key) : ∃ v, (key, v) ∈ entries ∧ u ∈ v.items := by
  unfold valuesOf at h
  cases hvalue : Table.value? entries key with
  | none =>
    rw [hvalue] at h
    exact absurd h List.not_mem_nil
  | some v =>
    rw [hvalue] at h
    exact ⟨v, Table.mem_of_value? hvalue, h⟩

end Tree

namespace Xml.Element

/-- An attribute with nothing in it is taken for an empty child of the tag. -/
def AnsweredBy (around : Table String) (e : Element) (tag : String) : Prop :=
  ∃ key, matchesTag key tag = true ∧ Table.value? (e.assigned around).reverse key = some ""

variable {root e : Element} {around : Table String} {node : Tree}

theorem mem_children_iff (hroot : root.Named) (he : root.Occurs around e)
    (hnode : (e.tree around).asElement? = some node) {tag : String} (htag : IsTag tag)
    (htext : matchesTag textKey tag = false) (hnone : ∀ c ∈ e.children, c.tag.name.base ≠ tag)
    {u : Tree} : u ∈ node.children tag ↔ u = .node [] ∧ e.AnsweredBy around tag := by
  have hkept := tree_keeps around (he.named hroot)
  have hvalues : ∀ key, matchesTag key tag = true → (e.tree around).values key =
      ((Table.value? (e.assigned around).reverse key).map Tree.text).toList := by
    intro key hkey
    have hne : key ≠ textKey := fun heq => by simp [heq, htext] at hkey
    have hchildren : e.children.filter (·.key (e.scope around) = key) = [] := by
      refine List.filter_eq_nil_iff.2 fun c hc hckey => hnone c hc ?_
      rw [← of_decide_eq_true hckey] at hkey
      have hcnamed := ((he.named hroot).child hc).1.2.1
      have hcscope := (he.child hc).inner_named hroot
      exact base_of_matchesTag hcscope hcnamed htag hkey
    rw [hkept.values key hne, hchildren, List.map_nil, List.append_nil]
  simp only [Tree.children, List.mem_flatMap, asElement?_entries hnode]
  constructor
  · rintro ⟨entry, hentry, hu⟩
    split at hu
    · next hkey =>
      obtain ⟨v, hv, hvu⟩ := List.mem_filterMap.1 hu
      rw [← valuesOf_of_mem hkept.distinct hentry, ← Tree.values, hvalues entry.1 hkey] at hv
      cases hvalue : Table.value? (e.assigned around).reverse entry.1 with
      | none => simp [hvalue] at hv
      | some content =>
        obtain rfl : v = .text content := by simpa [hvalue] using hv
        by_cases hempty : content = ""
        · subst hempty
          exact ⟨(Option.some.inj hvu).symm, entry.1, hkey, hvalue⟩
        · simp [asElement?, hempty] at hvu
    · exact absurd hu List.not_mem_nil
  · rintro ⟨rfl, key, hkey, hvalue⟩
    have hmem : Tree.text "" ∈ (e.tree around).values key := by simp [hvalues key hkey, hvalue]
    obtain ⟨v, hentry, hv⟩ := exists_of_mem_valuesOf hmem
    refine ⟨(key, v), hentry, ?_⟩
    rw [if_pos hkey]
    exact List.mem_filterMap.2 ⟨_, hv, rfl⟩

/-- What stands under a key passes for a child: the key has a prefix, or a child under it is more
than text, or it has more than one value. -/
def Seen (around : Table String) (e : Element) (key : String) : Prop :=
  (':' ∈ key.toList ∧ (e.tree around).values key ≠ []) ∨
    (∃ c ∈ e.children, c.key (e.scope around) = key ∧ ¬c.Bare) ∨
    2 ≤ ((e.tree around).values key).length

/-- A key passes for a child that a type without a content model should not have. -/
structure Stray (around : Table String) (e : Element) (key : String) : Prop where
  seen : e.Seen around key
  undeclared : "xmlns".toList.isPrefixOf key.toList = false
  unknown : Content.plainTags.any (matchesTag key) = false

theorem key_ne_textKey (h : e.Named) : e.key around ≠ textKey :=
  writtenName_ne_textKey _ h.1.2.1

theorem mem_values_of_child (around : Table String) (h : e.Named) {c : Element} (hc : c ∈ e.children) :
    c.tree (e.scope around) ∈ (e.tree around).values (c.key (e.scope around)) := by
  rw [(tree_keeps _ h).values _ (key_ne_textKey (h.child hc))]
  exact List.mem_append_right _ (List.mem_map_of_mem (List.mem_filter.2 ⟨hc, decide_eq_true rfl⟩))

theorem exists_child_of_node (h : e.Named) {key : String} (hkey : key ≠ textKey)
    {entries : List (String × Tree)} (hmem : .node entries ∈ (e.tree around).values key) :
    ∃ c ∈ e.children, c.key (e.scope around) = key ∧ ¬c.Bare := by
  rw [(tree_keeps _ h).values key hkey] at hmem
  rcases List.mem_append.1 hmem with hmem | hmem
  · simp at hmem
  · obtain ⟨c, hc, htree⟩ := List.mem_map.1 hmem
    obtain ⟨hc, hckey⟩ := List.mem_filter.1 hc
    refine ⟨c, hc, of_decide_eq_true hckey, fun hbare => ?_⟩
    rw [(tree_keeps _ (h.child hc)).bare hbare] at htree
    cases htree

theorem length_values_textKey (around : Table String) (h : e.Named) :
    ((e.tree around).values textKey).length ≤ 1 := by
  by_cases hbare : e.Bare
  · rw [(tree_keeps _ h).bare hbare]
    exact Nat.zero_le 1
  · rw [Tree.values, valuesOf, ((tree_keeps _ h).text hbare).2]
    split <;> simp [items]

theorem Seen.ne_textKey (h : e.Named) {key : String} (hseen : e.Seen around key) :
    key ≠ textKey := by
  rintro rfl
  rcases hseen with ⟨hcolon, -⟩ | ⟨c, hc, hkey, -⟩ | hlength
  · revert hcolon
    decide
  · exact key_ne_textKey (h.child hc) hkey
  · have := length_values_textKey around h
    omega

theorem Seen.values_ne_nil (h : e.Named) {key : String} (hseen : e.Seen around key) :
    (e.tree around).values key ≠ [] := by
  rcases hseen with ⟨-, hvalues⟩ | ⟨c, hc, rfl, -⟩ | hlength
  · exact hvalues
  · exact List.ne_nil_of_mem (mem_values_of_child _ h hc)
  · intro hnil
    simp [hnil] at hlength

def looksLikeChild (key : String) : Tree → Bool
  | .text _ => key.toList.contains ':'
  | _ => true

theorem seen_iff (h : e.Named) {key : String} :
    e.Seen around key ↔ key ≠ textKey ∧
      ∃ v, (key, v) ∈ (e.tree around).entries ∧ looksLikeChild key v = true := by
  have hkept := tree_keeps around h
  constructor
  · intro hseen
    obtain ⟨u, hu⟩ := List.exists_mem_of_ne_nil _ (hseen.values_ne_nil h)
    obtain ⟨v, hentry, -⟩ := exists_of_mem_valuesOf hu
    have hitems : (e.tree around).values key = v.items := valuesOf_of_mem hkept.distinct hentry
    refine ⟨hseen.ne_textKey h, v, hentry, ?_⟩
    cases v with
    | node _ => rfl
    | many _ => rfl
    | text content =>
      rcases hseen with ⟨hcolon, -⟩ | ⟨c, hc, rfl, hbare⟩ | hlength
      · simpa [looksLikeChild] using hcolon
      · have hmem := hitems ▸ mem_values_of_child around h hc
        have htree : c.tree (e.scope around) = .text content := List.mem_singleton.1 hmem
        rw [tree_of_not_bare _ hbare] at htree
        cases htree
      · rw [hitems] at hlength
        simp [items] at hlength
  · rintro ⟨hkey, v, hentry, hlooks⟩
    have hitems : (e.tree around).values key = v.items := valuesOf_of_mem hkept.distinct hentry
    cases v with
    | text content =>
      exact .inl ⟨by simpa [looksLikeChild] using hlooks, by simp [hitems, items]⟩
    | node entries =>
      have hmem : .node entries ∈ (e.tree around).values key := by simp [hitems, items]
      exact .inr (.inl (exists_child_of_node h hkey hmem))
    | many us =>
      rcases hkept.listed _ hentry with hsingle | hlength
      · -- a list of values is none of its own values
        have hself := List.mem_singleton_self (Tree.many us)
        rw [← show us = [Tree.many us] from hsingle] at hself
        have hweight := weight_le_weightItems hself
        simp only [weight] at hweight
        omega
      · exact .inr (.inr (hitems ▸ hlength))

theorem mem_strayKeys_iff (h : e.Named) (hnode : (e.tree around).asElement? = some node)
    {key : String} : key ∈ Content.strayKeys node ↔ e.Stray around key := by
  have hmem : key ∈ Content.strayKeys node ↔ ∃ v, (key, v) ∈ (e.tree around).entries ∧
      "xmlns".toList.isPrefixOf key.toList = false ∧ key ≠ textKey ∧
      looksLikeChild key v = true ∧ Content.plainTags.any (matchesTag key) = false := by
    simp only [Content.strayKeys, asElement?_entries hnode, List.mem_map, List.mem_filter,
      Bool.and_eq_true, Bool.not_eq_true', bne_iff_ne, Prod.exists, and_assoc]
    constructor
    · rintro ⟨_, v, hentry, hundeclared, hkey, hlooks, hunknown, rfl⟩
      refine ⟨v, hentry, hundeclared, hkey, ?_, hunknown⟩
      cases v <;> exact hlooks
    · rintro ⟨v, hentry, hundeclared, hkey, hlooks, hunknown⟩
      refine ⟨key, v, hentry, hundeclared, hkey, ?_, hunknown, rfl⟩
      cases v <;> exact hlooks
  rw [hmem]
  constructor
  · rintro ⟨v, hentry, hundeclared, hkey, hlooks, hunknown⟩
    exact ⟨(seen_iff h).2 ⟨hkey, v, hentry, hlooks⟩, hundeclared, hunknown⟩
  · rintro ⟨hseen, hundeclared, hunknown⟩
    obtain ⟨hkey, v, hentry, hlooks⟩ := (seen_iff h).1 hseen
    exact ⟨v, hentry, hundeclared, hkey, hlooks, hunknown⟩

end Xml.Element

namespace Content

variable {groups : Groups} {depth : Nat} {scope : Scope} {node : Tree}

def modelTags : List String := particleTags ++ ["group", "simpleContent", "complexContent"]

theorem result_particle_empty : (particle groups depth scope (.node [])).result = .ok [] :=
  @result_particle_of_typed groups depth scope (.node []) [] rfl rfl rfl

theorem result_group_empty : (group groups depth scope (.node [])).result = .ok [] := by
  rw [group_of_refless rfl, groupBody_eq]
  rfl

theorem result_complexType_of_none (h : ∀ tag ∈ modelTags, node.children tag = []) :
    (complexType groups depth scope node).result = (contentless scope node).result := by
  have hparticles : particleTags.flatMap node.children = [] :=
    List.flatMap_eq_nil_iff.2 fun tag htag => h tag (List.mem_append_left _ htag)
  have hnone : ∀ tag ∈ modelTags, node.element? tag = none := fun tag htag => by
    rw [element?, h tag htag]
    rfl
  rw [complexType_eq, head?_particles, hparticles]
  simp only [List.head?_nil, hnone "group" (by decide), hnone "simpleContent" (by decide),
    hnone "complexContent" (by decide)]

theorem result_complexType_of_empty (h : ∀ tag ∈ modelTags, ∀ u ∈ node.children tag, u = .node [])
    (hsome : ∃ tag ∈ modelTags, node.children tag ≠ []) :
    (complexType groups depth scope node).result = .ok (plainType scope node []) := by
  have hempty : ∀ tag ∈ modelTags, ∀ u, node.element? tag = some u → u = .node [] :=
    fun tag htag u hu => h tag htag u (List.mem_of_mem_head? hu)
  rw [complexType_eq, head?_particles]
  split
  · next inner hinner =>
    obtain ⟨tag, htag, hmem⟩ := List.mem_flatMap.1 (List.mem_of_mem_head? hinner)
    obtain rfl := h tag (List.mem_append_left _ htag) inner hmem
    rw [map_eq_pure_bind, Outcome.result_bind, result_particle_empty]
    rfl
  · next hparticles =>
    split
    · next inner hinner =>
      obtain rfl := hempty "group" (by decide) inner hinner
      rw [map_eq_pure_bind, Outcome.result_bind, result_group_empty]
      rfl
    · next hgroup =>
      split
      · next content hcontent =>
        obtain rfl := hempty "simpleContent" (by decide) content hcontent
        rfl
      · next hsimple =>
        split
        · next content hcontent =>
          obtain rfl := hempty "complexContent" (by decide) content hcontent
          rfl
        · next hcomplex =>
          obtain ⟨tag, htag, hne⟩ := hsome
          refine absurd ?_ hne
          rcases List.mem_append.1 htag with htag | htag
          · exact List.flatMap_eq_nil_iff.1 (List.head?_eq_none_iff.1 hparticles) tag htag
          · rcases List.mem_cons.1 htag with rfl | htag
            · exact List.head?_eq_none_iff.1 hgroup
            · rcases List.mem_cons.1 htag with rfl | htag
              · exact List.head?_eq_none_iff.1 hsimple
              · obtain rfl := List.mem_singleton.1 htag
                exact List.head?_eq_none_iff.1 hcomplex

end Content

namespace Xml.Element

open Content (modelTags plainTags)

variable {root e : Element} {around : Table String} {node : Tree}

theorem Stray.exists_child (h : e.Named) {key : String} (hstray : e.Stray around key)
    (hattributes : ∀ a ∈ e.tag.attributes, writtenName (e.scope around) a.1 = key →
      ':' ∉ key.toList) :
    ∃ c ∈ e.children, c.key (e.scope around) = key := by
  have hvalues := (tree_keeps around h).values key (hstray.seen.ne_textKey h)
  by_contra hnone
  have hchildren : e.children.filter (·.key (e.scope around) = key) = [] :=
    List.filter_eq_nil_iff.2 fun c hc hkey => hnone ⟨c, hc, of_decide_eq_true hkey⟩
  rw [hchildren, List.map_nil, List.append_nil] at hvalues
  rcases hstray.seen with ⟨hcolon, hne⟩ | ⟨c, hc, hkey, -⟩ | hlength
  · cases hvalue : Table.value? (e.assigned around).reverse key with
    | none => simp [hvalues, hvalue] at hne
    | some content =>
      rcases List.mem_append.1 (List.mem_reverse.1 (Table.mem_of_value? hvalue)) with hd | ha
      · obtain ⟨d, -, hd⟩ := List.mem_map.1 hd
        obtain ⟨rfl, -⟩ := Prod.mk.inj hd
        have hundeclared := hstray.undeclared
        simp only [declarationKey] at hundeclared
        split at hundeclared <;> simp at hundeclared
      · obtain ⟨a, ha, heq⟩ := List.mem_map.1 ha
        exact hattributes a ha (Prod.mk.inj heq).1 hcolon
  · exact hnone ⟨c, hc, hkey⟩
  · rw [hvalues] at hlength
    cases hvalue : Table.value? (e.assigned around).reverse key <;> simp [hvalue] at hlength

/-- The children of a complex type can be told from its attributes. -/
structure ToldApart (around : Table String) (e : Element) : Prop where
  /-- An attribute with a prefix is named like a child that a type may have. -/
  attributes : ∀ a ∈ e.tag.attributes, ':' ∈ (writtenName (e.scope around) a.1).toList →
    plainTags.any (matchesTag (writtenName (e.scope around) a.1)) = true
  models : ∀ tag ∈ modelTags, ¬e.AnsweredBy around tag
  plain : ∀ c ∈ e.children, c.tag.name.base ∈ plainTags →
    plainTags.any (matchesTag (c.key (e.scope around))) = true
  others : ∀ c ∈ e.children, c.tag.name.base ∉ plainTags →
    e.Seen around (c.key (e.scope around)) ∧
      "xmlns".toList.isPrefixOf (c.key (e.scope around)).toList = false

theorem ToldApart.stray_iff (hroot : root.Named) (he : root.Occurs around e)
    (h : e.ToldApart around) :
    (∃ key, e.Stray around key) ↔ ∃ c ∈ e.children, c.tag.name.base ∉ plainTags := by
  constructor
  · rintro ⟨key, hstray⟩
    have hattributes : ∀ a ∈ e.tag.attributes, writtenName (e.scope around) a.1 = key →
        ':' ∉ key.toList := by
      rintro a ha rfl hcolon
      simpa [h.attributes a ha hcolon] using hstray.unknown
    obtain ⟨c, hc, rfl⟩ := hstray.exists_child (he.named hroot) hattributes
    exact ⟨c, hc, fun hplain => by simpa [h.plain c hc hplain] using hstray.unknown⟩
  · rintro ⟨c, hc, hbase⟩
    obtain ⟨hseen, hundeclared⟩ := h.others c hc hbase
    refine ⟨_, hseen, hundeclared, Bool.eq_false_iff.2 fun hany => hbase ?_⟩
    obtain ⟨tag, htag, hmatches⟩ := List.any_eq_true.1 hany
    have hcnamed := ((he.named hroot).child hc).1.2.1
    have hcscope := (he.child hc).inner_named hroot
    have htags : ∀ tag ∈ plainTags, IsTag tag := by decide
    rwa [base_of_matchesTag hcscope hcnamed (htags tag htag) hmatches]

end Xml.Element

namespace Content

variable {groups : Groups} {depth : Nat} {scope : Scope}

theorem result_contentless (node : Tree) :
    (contentless scope node).result = if strayKeys node = [] then .ok (plainType scope node [])
      else .error (.strayChildren ((node.given? "name").getD "(anonymous)") (strayKeys node)) := by
  unfold contentless
  split
  · next h => rw [if_pos h]; rfl
  · next h => rw [if_neg h]; rfl

section

variable {root e : Element} {around : Table String} {node : Tree}

theorem modelTags_isTag : ∀ tag ∈ modelTags, IsTag tag ∧ matchesTag textKey tag = false := by
  decide

theorem result_complexType_of_childless (hroot : root.Named) (he : root.Occurs around e)
    (hnode : (e.tree around).asElement? = some node)
    (hmodel : ∀ c ∈ e.children, c.tag.name.base ∉ modelTags) :
    ((∃ tag ∈ modelTags, e.AnsweredBy around tag) →
      (complexType groups depth scope node).result = .ok (plainType scope node [])) ∧
    ((∀ tag ∈ modelTags, ¬e.AnsweredBy around tag) →
      (complexType groups depth scope node).result = (contentless scope node).result) := by
  have hchildren : ∀ tag ∈ modelTags, ∀ u, u ∈ node.children tag ↔
      u = .node [] ∧ e.AnsweredBy around tag := fun tag htag u =>
    Element.mem_children_iff hroot he hnode (modelTags_isTag tag htag).1
      (modelTags_isTag tag htag).2 fun c hc heq => hmodel c hc (heq ▸ htag)
  constructor
  · rintro ⟨tag, htag, hanswered⟩
    refine result_complexType_of_empty (fun tag htag u hu => ((hchildren tag htag u).1 hu).1) ?_
    exact ⟨tag, htag, List.ne_nil_of_mem ((hchildren tag htag _).2 ⟨rfl, hanswered⟩)⟩
  · intro hnone
    refine result_complexType_of_none fun tag htag => List.eq_nil_iff_forall_not_mem.2 ?_
    exact fun u hu => hnone tag htag ((hchildren tag htag u).1 hu).2

/-- A complex type that has no child of a content model is read as an object without members, or is
rejected for its stray keys. It is rejected just when there are such keys and no empty attribute
stands for a content model; and if its children can be told from its attributes, just when it has
a child that it should not have. -/
theorem complexType_rejected_iff (hroot : root.Named) (he : root.Occurs around e)
    (hnode : (e.tree around).asElement? = some node)
    (hmodel : ∀ c ∈ e.children, c.tag.name.base ∉ modelTags) (groups : Groups)
    (depth : Nat) (scope : Scope) :
    let result := (complexType groups depth scope node).result
    let rejected := result =
      .error (.strayChildren ((node.given? "name").getD "(anonymous)") (strayKeys node))
    (∀ key, key ∈ strayKeys node ↔ e.Stray around key) ∧
      (¬rejected → ∃ derived, result = .ok derived ∧ derived.type.members = []) ∧
      (rejected ↔ (∀ tag ∈ modelTags, ¬e.AnsweredBy around tag) ∧ ∃ key, e.Stray around key) ∧
      (e.ToldApart around → (rejected ↔ ∃ c ∈ e.children, c.tag.name.base ∉ plainTags)) := by
  intro result rejected
  have hkeys : ∀ key, key ∈ strayKeys node ↔ e.Stray around key := fun _ =>
    Element.mem_strayKeys_iff (he.named hroot) hnode
  have hsome : strayKeys node ≠ [] ↔ ∃ key, e.Stray around key :=
    ⟨fun hne => (List.exists_mem_of_ne_nil _ hne).imp fun key => (hkeys key).1,
      fun ⟨key, hkey⟩ => List.ne_nil_of_mem ((hkeys key).2 hkey)⟩
  obtain ⟨hanswered, hnone⟩ :=
    @result_complexType_of_childless groups depth scope root e around node hroot he hnode hmodel
  have hcases : (rejected ∧ (∀ tag ∈ modelTags, ¬e.AnsweredBy around tag) ∧
        ∃ key, e.Stray around key) ∨
      (result = .ok (plainType scope node []) ∧
        ¬((∀ tag ∈ modelTags, ¬e.AnsweredBy around tag) ∧ ∃ key, e.Stray around key)) := by
    by_cases hall : ∀ tag ∈ modelTags, ¬e.AnsweredBy around tag
    · have hresult : result = _ := (hnone hall).trans (result_contentless node)
      by_cases hstray : strayKeys node = []
      · rw [if_pos hstray] at hresult
        exact .inr ⟨hresult, fun h => hsome.2 h.2 hstray⟩
      · rw [if_neg hstray] at hresult
        exact .inl ⟨hresult, hall, hsome.1 hstray⟩
    · refine .inr ⟨hanswered ?_, fun h => hall h.1⟩
      simpa using hall
  have hexact : rejected ↔
      (∀ tag ∈ modelTags, ¬e.AnsweredBy around tag) ∧ ∃ key, e.Stray around key := by
    rcases hcases with ⟨hrejected, hstray⟩ | ⟨hresult, hstray⟩
    · exact iff_of_true hrejected hstray
    · refine iff_of_false (fun hrejected => ?_) hstray
      cases hresult.symm.trans hrejected
  refine ⟨hkeys, fun hnot => ?_, hexact, fun hapart => ?_⟩
  · rcases hcases with ⟨hrejected, -⟩ | ⟨hresult, -⟩
    · exact absurd hrejected hnot
    · exact ⟨_, hresult, rfl⟩
  · rw [hexact, and_iff_right hapart.models, hapart.stray_iff hroot he]

end

end Content

namespace SampleTypes

def xsd : String := "http://www.w3.org/2001/XMLSchema"

def schema (declared : List (String × String)) (type : Element) : Element where
  tag := ⟨declared, ⟨some xsd, "schema"⟩, [(⟨none, "targetNamespace"⟩, "urn:t")]⟩
  inside := .element type.tag type.inside .nil

/-- A type named `Bad` that has an element where a sequence should be. -/
def bad : Element where
  tag := ⟨[], ⟨some xsd, "complexType"⟩, [(⟨none, "name"⟩, "Bad")]⟩
  inside := .element ⟨[], ⟨some xsd, "annotation"⟩, []⟩ .nil <|
    .element ⟨[], ⟨some xsd, "element"⟩, [(⟨none, "name"⟩, "loose")]⟩ .nil .nil

def prefixed : Table String := [("xs", xsd)]

theorem told_apart : bad.ToldApart prefixed where
  attributes := by decide
  models := by
    rintro tag - ⟨key, -, hvalue⟩
    have hmem := List.mem_reverse.1 (Table.mem_of_value? hvalue)
    simp [Element.assigned, bad] at hmem
  plain := by decide
  others := by
    have hall : ∀ c ∈ bad.children, ':' ∈ (c.key (bad.scope prefixed)).toList ∧
        "xmlns".toList.isPrefixOf (c.key (bad.scope prefixed)).toList = false := by decide
    intro c hc _
    obtain ⟨hcolon, hundeclared⟩ := hall c hc
    have hmem := Element.mem_values_of_child prefixed (show bad.Named by decide) hc
    exact ⟨.inl ⟨hcolon, List.ne_nil_of_mem hmem⟩, hundeclared⟩

def scope : Scope := ⟨some "urn:t", prefixed, false, none⟩

theorem bad_rejected :
    (schema prefixed bad).Named ∧ (schema prefixed bad).Occurs prefixed bad ∧
      bad.ToldApart prefixed ∧
      ∃ node, (bad.tree prefixed).asElement? = some node ∧
        (Content.complexType [] 0 scope node).result =
          .error (.strayChildren "Bad" ["xs:element"]) := by
  have hnamed : (schema prefixed bad).Named := by decide
  have hoccurs : (schema prefixed bad).Occurs prefixed bad :=
    .child (e := schema prefixed bad) .root List.mem_cons_self
  refine ⟨hnamed, hoccurs, told_apart, _, rfl, ?_⟩
  exact ((Content.complexType_rejected_iff hnamed hoccurs rfl (by decide) [] 0 scope).2.2.2
    told_apart).2 (by decide)

/-- A type with a note in an attribute of another namespace, and no child at all. -/
def noted : Element where
  tag := ⟨[], ⟨some xsd, "complexType"⟩, [(⟨none, "name"⟩, "T"), (⟨some "urn:x", "note"⟩, "v")]⟩
  inside := .nil

/-- A type with an empty child that does not belong there, in the default namespace. -/
def loose : Element where
  tag := ⟨[], ⟨some xsd, "complexType"⟩, [(⟨none, "name"⟩, "T")]⟩
  inside := .element ⟨[], ⟨some xsd, "any"⟩, []⟩ .nil .nil

/-- A type without children is rejected, and one with a child that it should not have is not. -/
theorem attribute_rejected_and_child_accepted :
    ((schema [("xs", xsd), ("x", "urn:x")] noted).Named ∧
      (schema [("xs", xsd), ("x", "urn:x")] noted).Occurs [("xs", xsd), ("x", "urn:x")] noted ∧
      noted.children = [] ∧
      ∃ node, (noted.tree [("xs", xsd), ("x", "urn:x")]).asElement? = some node ∧
        (Content.complexType [] 0 scope node).result =
          .error (.strayChildren "T" ["x:note"])) ∧
    (schema [("", xsd)] loose).Named ∧
      (schema [("", xsd)] loose).Occurs [("", xsd)] loose ∧
      (∀ c ∈ loose.children, c.tag.name.base ∉ Content.modelTags ++ Content.plainTags) ∧
      loose.children ≠ [] ∧
      ∃ node, (loose.tree [("", xsd)]).asElement? = some node ∧
        (Content.complexType [] 0 scope node).result =
          .ok (Content.plainType scope node []) := by
  have hnone : ∀ entries, (∀ tag ∈ Content.modelTags, ((Tree.node entries).children tag).isEmpty) →
      (Content.complexType [] 0 scope (.node entries)).result =
        (Content.contentless scope (.node entries)).result := fun entries h =>
    Content.result_complexType_of_none fun tag htag => List.isEmpty_iff.1 (h tag htag)
  refine ⟨⟨by decide, ?_, rfl, _, rfl, ?_⟩, by decide, ?_, by decide, List.cons_ne_nil _ _, _, rfl,
    ?_⟩
  · exact .child (e := schema _ noted) .root List.mem_cons_self
  · rw [hnone _ (by decide)]
    rfl
  · exact .child (e := schema _ loose) .root List.mem_cons_self
  · rw [hnone _ (by decide)]
    rfl

end SampleTypes

end SoapComponents
