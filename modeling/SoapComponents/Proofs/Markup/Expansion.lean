import Mathlib.Data.Finset.Basic
import SoapComponents.Proofs.Markup.Usage
import SoapComponents.Proofs.Markup.Within
import SoapComponents.Proofs.Reference.Chains

/-!
How the rendering of markup ends. A walk that notes the objects it is inside of in one set, which it
changes in place, goes into no object twice on its way down, has left each of them when it is done,
and so ends within as many nested calls as there are objects. What it renders is the outline.
-/

set_option autoImplicit false

namespace SoapComponents

abbrev Walk := StateT (Finset ObjectId) Option

namespace Walk

variable {α : Type}

def stopped : Walk α := fun _ => none

def inside (id : ObjectId) (x : Walk α) : Walk α := do
  modify (insert id)
  let a ← x
  modify fun s => s.erase id
  return a

theorem run_inside {id : ObjectId} {x : Walk α} {s : Finset ObjectId} {a : α} (hs : id ∉ s)
    (h : x.run (insert id s) = some (a, insert id s)) : (inside id x).run s = some (a, s) := by
  have hleft : (insert id s).erase id = s := Finset.erase_insert hs
  simp [inside, h, hleft]

end Walk

namespace Catalog

variable {c : Catalog} {path : String} {opened : List ObjectId} {s : Finset ObjectId}

/-- What is rendered for a member, with `members` to render the members of objects. -/
def walkContent (c : Catalog)
    (members : String → List (String × Member TypeNode) → Walk (List (Markup TagSite)))
    (path key : String) (m : Member TypeNode) : Walk (Markup TagSite) := do
  let content := c.contentOf key m.type
  let site : TagSite := ⟨key, m, content.notices⟩
  match content.value with
  | .value => return .leaf site path
  | .object id bare =>
    if id ∈ (← get) then return .element site []
    else
      let blocks ← Walk.inside id (members path (c.graph.object id).members)
      return if bare then .bare site blocks else .element site blocks

def walkMember (c : Catalog)
    (members : String → List (String × Member TypeNode) → Walk (List (Markup TagSite)))
    (path key : String) (m : Member TypeNode) : Walk (Markup TagSite) :=
  let field := fieldPath path key
  if m.isRepeated then Markup.loop field <$> c.walkContent members Markup.loopVariable key m
  else c.walkContent members field key m

/-- Renders members, in calls that are nested as deep as a number says. -/
def walkMembers (c : Catalog) :
    Nat → String → List (String × Member TypeNode) → Walk (List (Markup TagSite))
  | 0, _, _ => Walk.stopped
  | depth + 1, path, members =>
    members.mapM fun e => c.walkMember (c.walkMembers depth) path e.1 e.2

def walkRoot (c : Catalog) :
    Nat → String → ObjectNode → Walk (List Notice × List (Markup TagSite))
  | 0, _, _ => Walk.stopped
  | depth + 1, path, o => do
    let notices := (c.payload? o).notices
    let opened ← get
    match (c.payload? o).value.filter (·.id ∉ opened) with
    | none => return (notices, ← c.walkMembers (depth + 1) path o.members)
    | some p =>
      let inner ← Walk.inside p.id (c.walkRoot depth path (c.graph.object p.id))
      return (notices, [.element ⟨p.key, p.member, inner.1⟩ inner.2])

theorem run_walkContent
    {members : String → List (String × Member TypeNode) → Walk (List (Markup TagSite))}
    (hs : ∀ id, id ∈ s ↔ id ∈ opened)
    (hmembers : ∀ id path, id ∉ opened → (c.graph.object id).members ≠ [] →
      (members path (c.graph.object id).members).run (insert id s) =
        some (c.outlineMembers path (id :: opened) (c.graph.object id).members, insert id s))
    (path key : String) (m : Member TypeNode) :
    (c.walkContent members path key m).run s = some (c.outlineContent path opened key m, s) := by
  unfold walkContent outlineContent
  dsimp only
  cases hcontent : (c.contentOf key m.type).value with
  | value => rfl
  | object id bare =>
    dsimp only
    by_cases hid : id ∈ opened
    · simp [(hs id).2 hid, hid]
    · have hout : id ∉ s := fun h => hid ((hs id).1 h)
      have hinside := Walk.run_inside hout
        (hmembers id path hid (members_of_contentOf hcontent))
      cases bare <;> simp [hout, hid, hinside]

theorem run_walkMembers {depth : Nat} (hdepth : c.graph.unvisited opened < depth)
    (hs : ∀ id, id ∈ s ↔ id ∈ opened) (path : String) (members : List (String × Member TypeNode)) :
    (c.walkMembers depth path members).run s = some (c.outlineMembers path opened members, s) := by
  induction depth generalizing opened s path members with
  | zero => exact absurd hdepth (Nat.not_lt_zero _)
  | succ depth ih =>
    have hcontent := @run_walkContent c opened s (c.walkMembers depth) hs
      fun id path hid hmembers => ih
        (Nat.lt_of_lt_of_le (TypeGraph.unvisited_cons_lt hmembers hid) (Nat.le_of_lt_succ hdepth))
        (fun other => by simp [hs]) path _
    rw [walkMembers]
    induction members with
    | nil => simp
    | cons e rest ihrest =>
      obtain ⟨key, m⟩ := e
      have hmember : (c.walkMember (c.walkMembers depth) path key m).run s =
          some (c.outlineMember path opened key m, s) := by
        unfold walkMember outlineMember
        split
        · simp [hcontent]
        · exact hcontent ..
      simp [outlineMembers_cons, hmember, ihrest]

theorem run_walkRoot {depth : Nat} (hdepth : c.graph.unvisited opened < depth)
    (hs : ∀ id, id ∈ s ↔ id ∈ opened) (path : String) (o : ObjectNode) :
    (c.walkRoot depth path o).run s = some (c.outline path opened o, s) := by
  induction depth generalizing opened s o with
  | zero => exact absurd hdepth (Nat.not_lt_zero _)
  | succ depth ih =>
    have hmembers := run_walkMembers hdepth hs path o.members
    rw [walkRoot, outline]
    split
    · next notices hpayload => simp [hpayload, hmembers]
    · next p notices hpayload =>
      have hsome : (c.payload? o).value = some p := by rw [hpayload]
      by_cases hid : p.id ∈ opened
      · simp [hpayload, hmembers, Option.filter, (hs p.id).2 hid, hid]
      · have hout : p.id ∉ s := fun h => hid ((hs p.id).1 h)
        have hinside := Walk.run_inside hout <| ih
          (Nat.lt_of_lt_of_le (TypeGraph.unvisited_cons_lt (members_of_payload? hsome) hid)
            (Nat.le_of_lt_succ hdepth))
          (s := insert p.id s) (fun other => by simp [hs]) (c.graph.object p.id)
        simp [hpayload, Option.filter, hout, hid, hinside]

section

variable {blocks content : List (Markup TagSite)} {around : List ObjectId} {site : TagSite}
  {outer block : Markup TagSite} {o : ObjectNode}

theorem Placed.expands (h : Placed c blocks around outer)
    (houter : outer = .element site content ∨ outer = .bare site content) (hne : content ≠ []) :
    ∃ id, (c.memberObject site.member.type).value = some id ∧ id ∉ around ∧
      content.map Markup.member = (c.graph.object id).members := by
  obtain ⟨id, path, hid, hout, rfl | ⟨_, _, rfl⟩⟩ := h.content_eq houter hne
  · exact ⟨id, hid, hout, member_outlineMembers _⟩
  · exact ⟨id, hid, hout, member_outline _⟩

theorem Within.nodup (hopened : opened.Nodup)
    (h : c.Within opened (c.outline path opened o).2 around block) : around.Nodup := by
  have hinner : ∀ {around : List ObjectId} {site : TagSite} {content : List (Markup TagSite)}
      {outer block : Markup TagSite}, c.Within opened (c.outline path opened o).2 around outer →
      outer = .element site content ∨ outer = .bare site content → block ∈ content →
      around.Nodup → ((c.memberObject site.member.type).value.toList ++ around).Nodup := by
    intro around site content outer block houter hshape hblock hnodup
    obtain ⟨id, hid, hout, _⟩ := houter.placed.expands hshape (List.ne_nil_of_mem hblock)
    rw [hid]
    exact List.nodup_cons.2 ⟨hout, hnodup⟩
  induction h with
  | top _ => exact hopened
  | loop _ ih => exact ih
  | element houter hblock ih => exact hinner houter (.inl rfl) hblock ih
  | bare houter hblock ih => exact hinner houter (.inr rfl) hblock ih

end

end Catalog

namespace BodyPlan

/-- The rendering of a body ends, whatever the graph. A reference is followed to its end, with a
lookup for every element and one more at most. The walk that keeps the objects it is inside of in a
set ends within as many nested calls as there are objects, in all its parts and from every set that
it may begin with, gives the outline, and leaves the set as it was. And inside of the root, blocks
that show the members of an object are never inside of that object. -/
theorem body_ends (b : BodyPlan) (root : Root) (propsField : Option String) :
    let c := b.catalog
    let blocks := b.content root propsField
    (∀ (s : Session) (ref : String), s.Remembers →
      (s.resolve c ref).1 = (c.resolve ref).value ∧
        (s.resolve c ref).2.made.length ≤ s.made.length + (c.graph.elements.length + 1)) ∧
    (∀ depth, c.graph.objects.length < depth → ∀ (s : Finset ObjectId) (opened : List ObjectId),
      (∀ id, id ∈ s ↔ id ∈ opened) → ∀ path,
        (∀ o, (c.walkRoot depth path o).run s = some (c.outline path opened o, s)) ∧
        (∀ members, (c.walkMembers depth path members).run s =
          some (c.outlineMembers path opened members, s)) ∧
        ∀ key m, (c.walkContent (c.walkMembers depth) path key m).run s =
          some (c.outlineContent path opened key m, s)) ∧
    (∀ p, ((b.write root propsField).result p).1 =
      (b.markup ((b.write root propsField).after p) blocks).print) ∧
    ∀ around block, c.Within root.visited blocks around block → around.Nodup ∧
      ∀ site content, block = .element site content ∨ block = .bare site content → content ≠ [] →
        ∃ id, (c.memberObject site.member.type).value = some id ∧ id ∉ around ∧
          content.map Markup.member = (c.graph.object id).members := by
  intro c blocks
  refine ⟨fun s ref hs => Session.resolve_ends c hs ref, ?_, fun p => ?_,
    fun around block hwithin => ⟨hwithin.nodup ?_, fun site content hshape hne => ?_⟩⟩
  · intro depth hdepth s opened hs path
    have hunvisited : ∀ opened : List ObjectId, c.graph.unvisited opened < depth := fun opened =>
      Nat.lt_of_le_of_lt (Nat.le_trans List.countP_le_length (by simp)) hdepth
    refine ⟨fun o => Catalog.run_walkRoot (hunvisited opened) hs path o,
      fun members => Catalog.run_walkMembers (hunvisited opened) hs path members,
      fun key m => Catalog.run_walkContent hs (fun id path _ _ => ?_) path key m⟩
    exact Catalog.run_walkMembers (hunvisited _) (fun other => by simp [hs]) path _
  · rw [b.result_write]
  · cases hid : root.id <;> simp [Root.visited, hid]
  · exact hwithin.placed.expands hshape hne

end BodyPlan

end SoapComponents
