import SoapComponents.Proofs.Markup.Fields

/-!
The blocks of markup at any depth, each with the objects that lie around it, and how a member is
written wherever its block stands.
-/

set_option autoImplicit false

namespace SoapComponents

namespace Markup

def member : Markup TagSite → String × Member TypeNode
  | leaf site _ | element site _ | bare site _ => (site.key, site.member)
  | loop _ body => body.member

inductive Alone {τ : Type} : List (Markup τ) → Markup τ → Prop
  | here {block : Markup τ} : Alone [block] block
  | inside {tag : τ} {content : List (Markup τ)} {block : Markup τ} :
      Alone content block → Alone [.element tag content] block

theorem Alone.only {τ : Type} {tag : τ} {block : Markup τ} {blocks : List (Markup τ)}
    (h : Alone blocks (.element tag [block])) : Alone blocks block := by
  generalize hb : Markup.element tag [block] = outer at h
  induction h with
  | here =>
    subst hb
    exact .inside .here
  | inside _ ih => exact .inside (ih hb)

end Markup

namespace Catalog

/-- A block that is somewhere in markup. The list has the objects whose content it lies in. -/
inductive Within (c : Catalog) (opened : List ObjectId) (blocks : List (Markup TagSite)) :
    List ObjectId → Markup TagSite → Prop
  | top {block : Markup TagSite} : block ∈ blocks → Within c opened blocks opened block
  | loop {around : List ObjectId} {path : String} {body : Markup TagSite} :
      Within c opened blocks around (.loop path body) → Within c opened blocks around body
  | element {around : List ObjectId} {site : TagSite} {content : List (Markup TagSite)}
      {block : Markup TagSite} :
      Within c opened blocks around (.element site content) → block ∈ content →
      Within c opened blocks ((c.memberObject site.member.type).value.toList ++ around) block
  | bare {around : List ObjectId} {site : TagSite} {content : List (Markup TagSite)}
      {block : Markup TagSite} :
      Within c opened blocks around (.bare site content) → block ∈ content →
      Within c opened blocks ((c.memberObject site.member.type).value.toList ++ around) block

/-- How a member with the members of an object is written: its own tag around them. It is a value
if there are none, and empty inside the same object. Only where the object is found by going in a
circle is the tag left out, and there it stands only around blocks that are alone. -/
inductive Shows (c : Catalog) (blocks : List (Markup TagSite)) (id : ObjectId) (circular : Bool)
    (around : List ObjectId) : Markup TagSite → Prop
  | value {site : TagSite} {path : String} : (c.graph.object id).members = [] →
      Shows c blocks id circular around (.leaf site path)
  | again {site : TagSite} : (c.graph.object id).members ≠ [] → id ∈ around →
      Shows c blocks id circular around (.element site [])
  | element {site : TagSite} {content : List (Markup TagSite)} :
      (c.graph.object id).members ≠ [] → id ∉ around →
      content.map Markup.member = (c.graph.object id).members →
      (circular = true → Markup.Alone blocks (.element site content)) →
      Shows c blocks id circular around (.element site content)
  | bare {site : TagSite} {content : List (Markup TagSite)} : circular = true →
      (c.graph.object id).members ≠ [] → id ∉ around →
      content.map Markup.member = (c.graph.object id).members →
      Shows c blocks id circular around (.bare site content)
  | loop {path : String} {body : Markup TagSite} : Shows c blocks id circular around body →
      Shows c blocks id circular around (.loop path body)

variable {c : Catalog} {path : String} {opened : List ObjectId}

theorem member_outlineContent (key : String) (m : Member TypeNode) :
    (c.outlineContent path opened key m).member = (key, m) := by
  unfold outlineContent
  dsimp only
  split
  · rfl
  · split
    · rfl
    · split <;> rfl

theorem member_outlineMember (key : String) (m : Member TypeNode) :
    (c.outlineMember path opened key m).member = (key, m) := by
  unfold outlineMember
  split
  · exact member_outlineContent key m
  · exact member_outlineContent key m

theorem member_outlineMembers (members : List (String × Member TypeNode)) :
    (c.outlineMembers path opened members).map Markup.member = members := by
  induction members with
  | nil => simp
  | cons e rest ih =>
    obtain ⟨key, m⟩ := e
    rw [outlineMembers_cons, List.map_cons, ih, member_outlineMember]

theorem mem_outlineMembers {members : List (String × Member TypeNode)} {block : Markup TagSite}
    (h : block ∈ c.outlineMembers path opened members) :
    ∃ key m, block = c.outlineMember path opened key m := by
  induction members with
  | nil => simp at h
  | cons e rest ih =>
    obtain ⟨key, m⟩ := e
    rw [outlineMembers_cons] at h
    rcases List.mem_cons.1 h with rfl | h
    · exact ⟨key, m, rfl⟩
    · exact ih h

theorem spec_of_payload? {o : ObjectNode} {p : Payload} (h : (c.payload? o).value = some p) :
    o.members = [(p.key, p.member)] ∧ (c.memberObject p.member.type).value = some p.id := by
  unfold payload? at h
  split at h
  · next key m hmembers =>
    split at h
    · simp at h
    · rw [Noted.value_bind] at h
      split at h
      · next id hid =>
        rw [Noted.value_pure] at h
        split at h
        · simp at h
        · obtain rfl := Option.some.inj h
          exact ⟨hmembers, hid⟩
      · simp at h
  · simp at h

theorem member_outline (o : ObjectNode) :
    (c.outline path opened o).2.map Markup.member = o.members := by
  cases h : c.next? o opened with
  | none => rw [outline_of_next_none h, member_outlineMembers]
  | some p =>
    rw [outline_of_next h, (spec_of_payload? (next?_eq_some.1 h).1).1]
    rfl

theorem memberObject_of_contentOf {key : String} {type : TypeNode} {id : ObjectId} {bare : Bool}
    (h : (c.contentOf key type).value = .object id bare) :
    (c.memberObject type).value = some id := by
  rcases c.contentOf_cases key type with ⟨hvalue, _⟩ | ⟨id', _, hobject, _, hid', _⟩
  · simp [hvalue] at h
  · obtain ⟨rfl, _⟩ := MemberContent.object.inj (hobject.symm.trans h)
    exact hid'

/-- The ways in which a block comes about: for a member, for the content of one, or for what a
wrapper wraps. -/
inductive Placed (c : Catalog) (blocks : List (Markup TagSite)) (around : List ObjectId) :
    Markup TagSite → Prop
  | member {path : String} {key : String} {m : Member TypeNode} :
      Placed c blocks around (c.outlineMember path around key m)
  | content {path : String} {key : String} {m : Member TypeNode} :
      Placed c blocks around (c.outlineContent path around key m)
  | payload {path : String} {p : Payload} {notices : List Notice} :
      (c.memberObject p.member.type).value = some p.id → p.id ∉ around →
      (c.graph.object p.id).members ≠ [] →
      Markup.Alone blocks (.element ⟨p.key, p.member, notices⟩
        (c.outline path (p.id :: around) (c.graph.object p.id)).2) →
      Placed c blocks around (.element ⟨p.key, p.member, notices⟩
        (c.outline path (p.id :: around) (c.graph.object p.id)).2)

theorem placed_outline {blocks : List (Markup TagSite)} {o : ObjectNode} {block : Markup TagSite}
    (hblock : block ∈ (c.outline path opened o).2)
    (halone : (c.outline path opened o).2 = [block] → Markup.Alone blocks block) :
    Placed c blocks opened block := by
  cases h : c.next? o opened with
  | none =>
    rw [outline_of_next_none h] at hblock
    obtain ⟨key, m, rfl⟩ := mem_outlineMembers hblock
    exact .member
  | some p =>
    rw [outline_of_next h] at hblock halone
    obtain rfl := List.mem_singleton.1 hblock
    obtain ⟨hpayload, hopened⟩ := next?_eq_some.1 h
    exact .payload (spec_of_payload? hpayload).2 hopened (members_of_payload? hpayload) (halone rfl)

theorem eq_outlineMembers_of_outlineContent {around : List ObjectId} {key : String}
    {m : Member TypeNode} {site : TagSite} {content : List (Markup TagSite)}
    (h : c.outlineContent path around key m = .element site content ∨
      c.outlineContent path around key m = .bare site content) (hne : content ≠ []) :
    ∃ id, (c.memberObject site.member.type).value = some id ∧ id ∉ around ∧
      content = c.outlineMembers path (id :: around) (c.graph.object id).members := by
  unfold outlineContent at h
  dsimp only at h
  cases hcontent : (c.contentOf key m.type).value with
  | value => simp [hcontent] at h
  | object id bare =>
    simp only [hcontent] at h
    split at h
    · rcases h with h | h
      · exact absurd (Markup.element.inj h).2.symm hne
      · cases h
    · next hout =>
      obtain ⟨rfl, rfl⟩ : site = ⟨key, m, (c.contentOf key m.type).notices⟩ ∧
          content = c.outlineMembers path (id :: around) (c.graph.object id).members := by
        cases bare <;> simp_all
      exact ⟨id, memberObject_of_contentOf hcontent, hout, rfl⟩

theorem outlineContent_ne_loop {around : List ObjectId} {key field : String}
    {m : Member TypeNode} {body : Markup TagSite} :
    c.outlineContent path around key m ≠ .loop field body := by
  unfold outlineContent
  dsimp only
  split
  · simp
  · split
    · simp
    · split <;> simp

theorem outlineMember_cases (c : Catalog) (path : String) (around : List ObjectId) (key : String)
    (m : Member TypeNode) :
    (∃ field inner, c.outlineMember path around key m =
        .loop field (c.outlineContent inner around key m)) ∨
      ∃ inner, c.outlineMember path around key m = c.outlineContent inner around key m := by
  unfold outlineMember
  split
  · exact .inl ⟨_, _, rfl⟩
  · exact .inr ⟨_, rfl⟩

theorem Placed.body {blocks : List (Markup TagSite)} {around : List ObjectId} {field : String}
    {body outer : Markup TagSite} (h : Placed c blocks around outer)
    (houter : outer = .loop field body) : Placed c blocks around body := by
  cases h with
  | @member path key m =>
    rcases c.outlineMember_cases path around key m with ⟨_, inner, heq⟩ | ⟨_, heq⟩
    · obtain ⟨_, rfl⟩ := Markup.loop.inj (heq.symm.trans houter)
      exact .content
    · exact absurd (heq.symm.trans houter) outlineContent_ne_loop
  | content => exact absurd houter outlineContent_ne_loop
  | payload => cases houter

/-- What is inside of a block is there for the members of an object that the block is not in, or is
what a wrapper wraps. -/
theorem Placed.content_eq {blocks : List (Markup TagSite)} {around : List ObjectId}
    {site : TagSite} {content : List (Markup TagSite)} {outer : Markup TagSite}
    (h : Placed c blocks around outer)
    (houter : outer = .element site content ∨ outer = .bare site content) (hne : content ≠ []) :
    ∃ id path, (c.memberObject site.member.type).value = some id ∧ id ∉ around ∧
      (content = c.outlineMembers path (id :: around) (c.graph.object id).members ∨
        outer = .element site content ∧ Markup.Alone blocks outer ∧
          content = (c.outline path (id :: around) (c.graph.object id)).2) := by
  have hmember : ∀ {path key : String} {m : Member TypeNode},
      c.outlineContent path around key m = outer → ∃ id path,
        (c.memberObject site.member.type).value = some id ∧ id ∉ around ∧
          content = c.outlineMembers path (id :: around) (c.graph.object id).members := by
    rintro path key m rfl
    obtain ⟨id, hid, hout, hcontent⟩ := eq_outlineMembers_of_outlineContent houter hne
    exact ⟨id, path, hid, hout, hcontent⟩
  cases h with
  | @member path key m =>
    rcases c.outlineMember_cases path around key m with ⟨_, _, heq⟩ | ⟨_, heq⟩
    · simp [heq] at houter
    · obtain ⟨id, path, hid, hout, hcontent⟩ := hmember heq.symm
      exact ⟨id, path, hid, hout, .inl hcontent⟩
  | content =>
    obtain ⟨id, path, hid, hout, hcontent⟩ := hmember rfl
    exact ⟨id, path, hid, hout, .inl hcontent⟩
  | @payload path p notices hid hout _ halone =>
    rcases houter with houter | houter
    · obtain ⟨rfl, rfl⟩ := Markup.element.inj houter
      exact ⟨p.id, path, hid, hout, .inr ⟨rfl, halone, rfl⟩⟩
    · cases houter

theorem Placed.inner {blocks : List (Markup TagSite)} {around : List ObjectId} {site : TagSite}
    {content : List (Markup TagSite)} {outer block : Markup TagSite}
    (h : Placed c blocks around outer)
    (houter : outer = .element site content ∨ outer = .bare site content)
    (hblock : block ∈ content) :
    Placed c blocks ((c.memberObject site.member.type).value.toList ++ around) block := by
  obtain ⟨id, path, hid, _, rfl | ⟨rfl, halone, rfl⟩⟩ :=
    h.content_eq houter (List.ne_nil_of_mem hblock)
  · obtain ⟨key, m, rfl⟩ := mem_outlineMembers hblock
    rw [hid]
    exact .member
  · rw [hid]
    exact placed_outline hblock fun honly => (honly ▸ halone).only

theorem Within.placed {o : ObjectNode} {around : List ObjectId} {block : Markup TagSite}
    (h : c.Within opened (c.outline path opened o).2 around block) :
    Placed c (c.outline path opened o).2 around block := by
  -- on the way from the top of the markup down to the block
  induction h with
  | top hblock => exact placed_outline hblock fun honly => honly ▸ .here
  | loop _ ih => exact ih.body rfl
  | element _ hblock ih => exact ih.inner (.inl rfl) hblock
  | bare _ hblock ih => exact ih.inner (.inr rfl) hblock

section

variable {blocks : List (Markup TagSite)} {around : List ObjectId} {type : TypeNode}
  {id : ObjectId} {circular : Bool}

structure ComesTo (c : Catalog) (type : TypeNode) (id : ObjectId) (circular : Bool) : Prop where
  object : (c.memberObject type).value = some id
  content : ∀ key, (c.contentOf key type).value =
    if (c.graph.object id).members.isEmpty then .value else .object id circular

theorem shows_outlineContent {key : String} {m : Member TypeNode}
    (h : c.ComesTo m.type id circular) :
    c.Shows blocks id circular around (c.outlineContent path around key m) := by
  have hmembers : (c.outlineMembers path (id :: around) (c.graph.object id).members).map
      Markup.member = (c.graph.object id).members := member_outlineMembers _
  unfold outlineContent
  rw [h.content key]
  by_cases hempty : (c.graph.object id).members = []
  · simpa [hempty] using .value hempty
  · simp only [List.isEmpty_iff, hempty, if_false]
    by_cases haround : id ∈ around
    · rw [if_pos haround]
      exact .again hempty haround
    · rw [if_neg haround]
      cases circular with
      | true => exact .bare rfl hempty haround hmembers
      | false => exact .element hempty haround hmembers (by simp)

theorem Placed.shows {block : Markup TagSite} (h : Placed c blocks around block)
    (htype : c.ComesTo block.member.2.type id circular) :
    c.Shows blocks id circular around block := by
  cases h with
  | @member path key m =>
    rw [member_outlineMember] at htype
    rcases c.outlineMember_cases path around key m with ⟨_, _, heq⟩ | ⟨_, heq⟩
    · rw [heq]
      exact .loop (shows_outlineContent htype)
    · rw [heq]
      exact shows_outlineContent htype
  | @content path key m =>
    rw [member_outlineContent] at htype
    exact shows_outlineContent htype
  | @payload path p notices hid haround hmembers halone =>
    obtain rfl : p.id = id := Option.some.inj (hid.symm.trans htype.object)
    exact .element hmembers haround (member_outline _) fun _ => halone

theorem ComesTo.of_resolve {pointer : Reference} {r : Resolution}
    (h : (c.resolve pointer.name).value = some r) (htarget : r.target = .object id)
    (hcircular : r.circular = circular) : c.ComesTo (.reference pointer) id circular where
  object := by simp [memberObject, resolveObject, h, htarget, Target.object?]
  content := fun key => by simp [contentOf, h, htarget, hcircular]

end

end Catalog

end SoapComponents
