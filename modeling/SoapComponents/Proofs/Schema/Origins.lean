import SoapComponents.Proofs.Schema.Inheritance
import SoapComponents.Proofs.Schema.Members
import SoapComponents.Proofs.Schema.Registrations
import SoapComponents.Proofs.Schema.Sources

/-!
What the objects of a graph were read from. Each object stands for one content: the content of a
type or element that a schema declares, or that of an element declaration inside of one. Objects
keep what they stand for when more is registered, and when inheritance is settled.
-/

set_option autoImplicit false

namespace SoapComponents

variable {visits : List Visit} {contents : List (Tree × Scope)} {d : Tree × Scope}

def Visit.ReadAs (visits : List Visit) (d : Tree × Scope) (derived : Derived Draft) : Prop :=
  ∃ groups depth, (∀ e ∈ groups, Visit.Read visits e.2.2 e.2.1) ∧ Visit.Read visits d.2 d.1 ∧
    (Content.complexType groups depth d.2 d.1).result = .ok derived

/-- A drafted member is as a declaration says, and if its type is an object then this is what the
content of the declaration is read as. -/
def Visit.Drafts (visits : List Visit) (e : String × Member Draft) : Prop :=
  ∃ scope node, Visit.Read visits scope node ∧
    Content.declared? scope node = some (Content.shape e) ∧
    ∀ derived, e.2.type = .object derived → ∃ inner, Building.content? node = some inner ∧
      Visit.ReadAs visits (inner, scope) derived

theorem Visit.ReadAs.drafts {derived : Derived Draft} (h : Visit.ReadAs visits d derived) :
    ∀ e ∈ derived.type.members, Visit.Drafts visits e := by
  obtain ⟨groups, depth, hgroups, hnode, hderived⟩ := h
  intro e he
  obtain ⟨depth, scope, node, hread, helement⟩ :=
    (Content.complexType_readFrom Building.read_down hgroups hnode hderived).members e he
  refine ⟨scope, node, hread, Content.declared_of_element helement, fun inner htype => ?_⟩
  obtain ⟨content, hcontent, hinner⟩ := Content.content_of_element helement htype
  exact ⟨content, hcontent, groups, depth, hgroups,
    Content.holds_of_content Building.read_down hread hcontent, hinner⟩

theorem content_append {id : ObjectId} (h : contents[id]? = some d) (more : List (Tree × Scope)) :
    (contents ++ more)[id]? = some d := by
  rw [List.getElem?_append_left (List.getElem?_eq_some_iff.1 h).1, h]

/-- A member is as a declaration says, and if its type is an object then this stands for the content
of the declaration. -/
def Visit.Declares (visits : List Visit) (contents : List (Tree × Scope))
    (e : String × Member TypeNode) : Prop :=
  ∃ scope node, Visit.Read visits scope node ∧
    Content.declared? scope node = some (Draft.placedShape e) ∧
    ∀ id, e.2.type = .object id → ∃ inner, Building.content? node = some inner ∧
      contents[id]? = some (inner, scope)

theorem Visit.Declares.append {e : String × Member TypeNode} (h : Visit.Declares visits contents e)
    (more : List (Tree × Scope)) : Visit.Declares visits (contents ++ more) e := by
  obtain ⟨scope, node, hread, hdeclared, hobject⟩ := h
  refine ⟨scope, node, hread, hdeclared, fun id hid => ?_⟩
  obtain ⟨inner, hinner, hcontent⟩ := hobject id hid
  exact ⟨inner, hinner, content_append hcontent more⟩

/-- A drafted member comes from a declaration with some content. When its type is put into a graph,
the member is as the declaration says, if the object stands for this content. -/
theorem Visit.Drafts.placed {e : String × Member Draft} (h : Visit.Drafts visits e) :
    ∃ d, (∀ derived, e.2.type = .object derived → Visit.ReadAs visits d derived) ∧
      ∀ contents g, (∀ id, (Draft.place g e.2.type).2.1 = .object id → contents[id]? = some d) →
        Visit.Declares visits contents (e.1, { e.2 with type := (Draft.place g e.2.type).2.1 }) := by
  obtain ⟨scope, decl, hread, hdeclared, hobject⟩ := h
  have hhead := fun g => Draft.head_place g e.2.type
  have hshape : ∀ g, Content.declared? scope decl = some
      (Draft.placedShape (e.1, { e.2 with type := (Draft.place g e.2.type).2.1 })) := fun g => by
    simpa [Draft.placedShape, Content.shape, Member.map, hhead] using hdeclared
  cases htype : e.2.type with
  | object derived =>
    obtain ⟨content, hcontent, hreadAs⟩ := hobject derived htype
    refine ⟨(content, scope), fun other hother => Draft.object.inj hother ▸ hreadAs,
      fun contents g hid => ⟨scope, decl, hread, htype ▸ hshape g, fun id heq => ?_⟩⟩
    exact ⟨content, hcontent, hid id heq⟩
  | primitive name =>
    refine ⟨(decl, scope), fun _ h => ?_, fun contents g _ =>
      ⟨scope, decl, hread, htype ▸ hshape g, fun _ h => ?_⟩⟩ <;> cases h
  | reference key =>
    refine ⟨(decl, scope), fun _ h => ?_, fun contents g _ =>
      ⟨scope, decl, hread, htype ▸ hshape g, fun _ h => ?_⟩⟩ <;> cases h

def Visit.Stands (visits : List Visit) (g : TypeGraph) (extensions : List Extension)
    (id : ObjectId) (d : Tree × Scope) : Prop :=
  ∃ derived, Visit.ReadAs visits d derived ∧ (g.object id).base = derived.type.base ∧
    (derived.extended = none → (∀ x ∈ extensions, x.id ≠ id) ∧
      (derived.type.members = [] → (g.object id).members = []))

/-- The contents that the objects of a graph stand for, in the order of their numbers. -/
structure TypeGraph.Origins (visits : List Visit) (contents : List (Tree × Scope)) (g : TypeGraph)
    (extensions : List Extension) : Prop where
  length : contents.length = g.objects.length
  extending : ∀ x ∈ extensions, x.id < g.objects.length
  stands : ∀ id d, contents[id]? = some d → Visit.Stands visits g extensions id d
  declares : ∀ id, ∀ e ∈ (g.object id).members, Visit.Declares visits contents e

theorem TypeGraph.object_addObject (g : TypeGraph) (o : ObjectNode) (id : ObjectId) :
    (g.addObject o).1.object id = if id = g.objects.length then o else g.object id := by
  simp only [object, addObject, List.getD_eq_getElem?_getD]
  rcases Nat.lt_trichotomy id g.objects.length with hlt | rfl | hgt
  · rw [if_neg (Nat.ne_of_lt hlt), List.getElem?_append_left hlt]
  · simp
  · rw [if_neg (Nat.ne_of_gt hgt), List.getElem?_eq_none (Nat.le_of_lt hgt),
      List.getElem?_eq_none (by simpa using Nat.succ_le_of_lt hgt)]

namespace TypeGraph.Origins

variable {g : TypeGraph} {extensions extensions' : List Extension} {derived : Derived Draft}

theorem add (h : Origins visits contents g extensions) (hread : Visit.ReadAs visits d derived)
    (o : ObjectNode) (hbase : o.base = derived.type.base)
    (hmembers : derived.type.members = [] → o.members = [])
    (hdeclares : ∀ e ∈ o.members, Visit.Declares visits contents e)
    (hextensions : ∀ x ∈ extensions', x ∈ extensions ∨
      x.id = g.objects.length ∧ derived.extended ≠ none) :
    Origins visits (contents ++ [d]) (g.addObject o).1 extensions' := by
  have hlength : (g.addObject o).1.objects.length = g.objects.length + 1 := by simp [addObject]
  refine ⟨by simp [h.length, hlength], fun x hx => ?_, fun id d' hd => ?_, fun id e he => ?_⟩
  · rw [hlength]
    rcases hextensions x hx with hx | ⟨hx, _⟩
    · exact Nat.lt_succ_of_lt (h.extending x hx)
    · exact hx ▸ Nat.lt_succ_self _
  · rw [List.getElem?_append, h.length] at hd
    split at hd
    · next hlt =>
      -- an object that was there: what is new is behind it
      obtain ⟨found, hfound, hbase, hrest⟩ := h.stands id d' hd
      have hold : (g.addObject o).1.object id = g.object id := by
        rw [object_addObject, if_neg (Nat.ne_of_lt hlt)]
      refine ⟨found, hfound, hold.symm ▸ hbase, fun hextended =>
        ⟨fun x hx => ?_, hold.symm ▸ (hrest hextended).2⟩⟩
      rcases hextensions x hx with hx | ⟨hx, _⟩
      · exact (hrest hextended).1 x hx
      · exact hx ▸ (Nat.ne_of_lt hlt).symm
    · next hge =>
      obtain ⟨hid, rfl⟩ : id = g.objects.length ∧ d = d' := by
        rw [List.getElem?_singleton] at hd
        split at hd
        · next hzero =>
          have hle := Nat.le_of_sub_eq_zero hzero
          exact ⟨Nat.le_antisymm hle (Nat.le_of_not_lt hge), Option.some.inj hd⟩
        · cases hd
      have hnew : (g.addObject o).1.object id = o := by rw [object_addObject, if_pos hid]
      refine ⟨derived, hread, hnew.symm ▸ hbase, fun hextended =>
        ⟨fun x hx => ?_, hnew.symm ▸ hmembers⟩⟩
      rcases hextensions x hx with hx | ⟨_, hx⟩
      · exact Nat.ne_of_lt (hid ▸ h.extending x hx)
      · exact absurd hextended hx
  · rw [object_addObject] at he
    split at he
    · exact (hdeclares e he).append _
    · exact (h.declares id e he).append _

theorem placeObject {g : TypeGraph} {members : List (String × Member Draft)}
    {space base extended : Option String} {qualified : Option Bool} {attributes : Table String}
    {more : List (Tree × Scope)}
    (hread : Visit.ReadAs visits d ⟨⟨members, space, qualified, base, attributes⟩, extended⟩)
    (hmore : Origins visits (contents ++ more) (Draft.placeMembers g members).1
      (extensions ++ (Draft.placeMembers g members).2.2))
    (hdeclares : ∀ e ∈ (Draft.placeMembers g members).2.1,
      Visit.Declares visits (contents ++ more) e) :
    let r := Draft.placeObject g ⟨⟨members, space, qualified, base, attributes⟩, extended⟩
    Origins visits (contents ++ (more ++ [d])) r.1 (extensions ++ r.2.2) ∧
      (contents ++ (more ++ [d]))[r.2.1]? = some d := by
  obtain ⟨⟨g', placed, inner⟩, hplace⟩ : ∃ r, Draft.placeMembers g members = r := ⟨_, rfl⟩
  rw [hplace] at hmore hdeclares
  have hempty : members = [] → Table.ofAssignments placed = [] := by
    rintro rfl
    obtain ⟨-, rfl, -⟩ : g = g' ∧ [] = placed ∧ [] = inner := by
      simpa [Draft.placeMembers] using hplace
    rfl
  have hextensions : ∀ x ∈ extensions ++
      ((extended.map (Extension.mk g'.objects.length)).toList ++ inner),
      x ∈ extensions ++ inner ∨ x.id = g'.objects.length ∧ extended ≠ none := by
    intro x hx
    simp only [List.mem_append, Option.mem_toList, Option.map_eq_some_iff] at hx ⊢
    rcases hx with hx | ⟨key, hkey, rfl⟩ | hx
    · exact .inl (.inl hx)
    · exact .inr ⟨rfl, by simp [hkey]⟩
    · exact .inl (.inr hx)
  have hadded := hmore.add hread
    ⟨Table.ofAssignments placed, space, qualified, base, attributes⟩ rfl hempty
    (fun e he => hdeclares e (Table.mem_of_mem_ofAssignments he)) hextensions
  simp only [Draft.placeObject, hplace]
  rw [← List.append_assoc]
  refine ⟨hadded, ?_⟩
  have hid : (g'.addObject ⟨Table.ofAssignments placed, space, qualified, base, attributes⟩).2 =
      (contents ++ more).length := hmore.length.symm
  rw [hid]
  simp

theorem place :
    (∀ (g : TypeGraph) (draft : Draft), ∀ contents extensions d,
      Origins visits contents g extensions →
      (∀ derived, draft = .object derived → Visit.ReadAs visits d derived) →
      let r := Draft.place g draft
      ∃ more, Origins visits (contents ++ more) r.1 (extensions ++ r.2.2) ∧
        ∀ id, r.2.1 = .object id → (contents ++ more)[id]? = some d) ∧
    (∀ (g : TypeGraph) (derived : Derived Draft), ∀ contents extensions d,
      Origins visits contents g extensions → Visit.ReadAs visits d derived →
      let r := Draft.placeObject g derived
      ∃ more, Origins visits (contents ++ more) r.1 (extensions ++ r.2.2) ∧
        (contents ++ more)[r.2.1]? = some d) ∧
    ∀ (g : TypeGraph) (members : List (String × Member Draft)), ∀ contents extensions,
      Origins visits contents g extensions → (∀ e ∈ members, Visit.Drafts visits e) →
      let r := Draft.placeMembers g members
      ∃ more, Origins visits (contents ++ more) r.1 (extensions ++ r.2.2) ∧
        ∀ e ∈ r.2.1, Visit.Declares visits (contents ++ more) e := by
  -- types, objects and lists of members are placed in one recursion
  refine Draft.place.mutual_induct _ _ _ ?primitive ?reference ?object ?derived ?nil ?cons
  case primitive =>
    intro g name contents extensions d h _
    exact ⟨[], by simpa [Draft.place] using h, by simp [Draft.place]⟩
  case reference =>
    intro g key contents extensions d h _
    exact ⟨[], by simpa [Draft.place] using h, by simp [Draft.place]⟩
  case object =>
    intro g derived g' id inner hplace ih contents extensions d h hread
    have hobject := ih contents extensions d h (hread derived rfl)
    simp only [hplace] at hobject
    obtain ⟨more, hmore, hid⟩ := hobject
    simp only [Draft.place, hplace]
    exact ⟨more, hmore, fun other hother => TypeNode.object.inj hother ▸ hid⟩
  case derived =>
    intro g members space qualified base attributes extended _ _ _ _ _ _ _ ih contents extensions d
      h hread
    obtain ⟨more, hmore, hdeclares⟩ := ih contents extensions h hread.drafts
    exact ⟨more ++ [d], placeObject hread hmore hdeclares⟩
  case nil =>
    intro g contents extensions h _
    exact ⟨[], by simpa [Draft.placeMembers] using h, by simp [Draft.placeMembers]⟩
  case cons =>
    intro g key type minOccurs maxOccurs qualified space rest g' node outer hplace g'' placed inner
      hrest ihtype ihrest contents extensions h hdrafts
    obtain ⟨d, hread, hdeclares⟩ := (hdrafts _ List.mem_cons_self).placed
    obtain ⟨more, hmore, htype⟩ := ihtype contents extensions d h hread
    have hfirst := hdeclares (contents ++ more) g htype
    simp only [hplace] at hmore hfirst
    obtain ⟨last, hlast, hothers⟩ := ihrest _ _ hmore fun e he =>
      hdrafts e (List.mem_cons_of_mem _ he)
    simp only [hrest] at hlast hothers
    simp only [Draft.placeMembers, hplace, hrest]
    refine ⟨more ++ last, by simpa using hlast, ?_⟩
    rw [← List.append_assoc]
    exact List.forall_mem_cons.2 ⟨hfirst.append last, hothers⟩

theorem settled (h : Origins visits contents g extensions) :
    Origins visits contents (Inheritance.settleAll extensions g).value extensions := by
  have hkept : Inheritance.KeptByExtending extensions fun g =>
      Origins visits contents g extensions := by
    intro x hx g baseId h
    have hcases := Inheritance.object_setObject_cases g x.id
    refine ⟨by simp [setObject, h.length], fun y hy => ?_, fun id d hd => ?_, fun id e he => ?_⟩
    · simpa [setObject] using h.extending y hy
    · obtain ⟨derived, hread, hbase, hrest⟩ := h.stands id d hd
      refine ⟨derived, hread, ?_, fun hextended => ⟨(hrest hextended).1, ?_⟩⟩
      · rcases hcases id _ with hsame | ⟨rfl, hnew⟩
        · rw [hsame, hbase]
        · rw [hnew, ← hbase]
          rfl
      · rcases hcases id _ with hsame | ⟨rfl, _⟩
        · rw [hsame]
          exact (hrest hextended).2
        · exact absurd rfl ((hrest hextended).1 x hx)
    · rcases hcases id _ with hsame | ⟨rfl, hnew⟩
      · rw [hsame] at he
        exact h.declares id e he
      · rw [hnew] at he
        rcases List.mem_append.1 he with he | he
        · exact h.declares baseId e (List.mem_filter.1 he).1
        · exact h.declares x.id e he
  exact Inheritance.settleAll_keeps_extending hkept h

end TypeGraph.Origins

namespace Visit

def elementEntry? (d : Tree × Scope) : Option (String × Option (Tree × Scope)) :=
  (declaredKey? d).map (·, (Building.content? d.1).map (·, d.2))

/-- The content of the element of a name: the last one that is declared counts. -/
def elementContents (visits : List Visit) : Table (Option (Tree × Scope)) :=
  Table.ofAssignments ((nodes "element" visits).filterMap elementEntry?)

/-- The content of the complex type of a name: the last one that is declared counts, and where none
is, the first element of the name that has a content. -/
def typeContents (visits : List Visit) : Table (Tree × Scope) :=
  Table.putAllNew
    (Table.ofAssignments ((nodes "complexType" visits).filterMap fun d =>
      (declaredKey? d).map (·, d)))
    (((nodes "element" visits).filterMap elementEntry?).filterMap fun e => e.2.map (e.1, ·))

end Visit

namespace Building

open Registration

variable {b b' : Building} {types : Table (Tree × Scope)}
  {elements : Table (Option (Tree × Scope))} {key : String} {derived : Derived Draft}

/-- The contents of all objects of a building, and of its types and elements by name. -/
structure Origins (visits : List Visit) (contents : List (Tree × Scope))
    (types : Table (Tree × Scope)) (elements : Table (Option (Tree × Scope))) (b : Building) :
    Prop extends TypeGraph.Origins visits contents b.graph b.extensions where
  types : ∀ key, Option.Rel (fun d id => contents[id]? = some d) (types.value? key)
    (b.graph.complexTypes.value? key)
  elements : ∀ key d, elements.value? key = some (some d) →
    ∃ id, b.graph.elements.value? key = some (.object id) ∧ contents[id]? = some d

theorem tables_placeObject (g : TypeGraph) (derived : Derived Draft) :
    (Draft.placeObject g derived).1.complexTypes = g.complexTypes ∧
      (Draft.placeObject g derived).1.elements = g.elements := by
  obtain ⟨block, root, -, hplace⟩ := Draft.exists_block.2.1 g derived
  simp [hplace, Block.into]

theorem rel_append {d : Option (Tree × Scope)} {id : Option ObjectId}
    (h : Option.Rel (fun d id => contents[id]? = some d) d id) (more : List (Tree × Scope)) :
    Option.Rel (fun d id => (contents ++ more)[id]? = some d) d id := by
  cases h with
  | none => exact .none
  | some h => exact .some (content_append h more)

theorem Origins.placed (h : Origins visits contents types elements b)
    (hread : Visit.ReadAs visits d derived) :
    let r := Draft.placeObject b.graph derived
    ∃ contents, Origins visits contents types elements
        { b with graph := r.1, extensions := b.extensions ++ r.2.2 } ∧
      contents[r.2.1]? = some d := by
  obtain ⟨more, hmore, hroot⟩ := TypeGraph.Origins.place.2.1 b.graph derived contents b.extensions d
    h.toOrigins hread
  obtain ⟨htypes, helements⟩ := tables_placeObject b.graph derived
  refine ⟨contents ++ more, ⟨hmore, fun k => ?_, fun k d' hd => ?_⟩, hroot⟩
  · exact htypes.symm ▸ rel_append (h.types k) more
  · obtain ⟨id, hid, hcontent⟩ := h.elements k d' hd
    exact ⟨id, helements.symm ▸ hid, content_append hcontent more⟩

theorem Origins.type (h : Origins visits contents types elements b)
    (hread : Visit.ReadAs visits d derived) :
    ∃ contents, Origins visits contents (types.put key d) elements
      (b.register (.type key derived)) := by
  obtain ⟨contents, hplaced, hroot⟩ := h.placed hread
  refine ⟨contents, ⟨hplaced.length, hplaced.extending, hplaced.stands, hplaced.declares⟩,
    fun k => ?_, hplaced.elements⟩
  simp only [register, Table.value?_put]
  split
  · exact .some hroot
  · exact hplaced.types k

theorem Origins.content (h : Origins visits contents types elements b)
    (hread : Visit.ReadAs visits d derived) :
    ∃ contents, Origins visits contents (types.putNew key d) (elements.put key (some d))
      (b.register (.content key derived)) := by
  obtain ⟨contents, hplaced, hroot⟩ := h.placed hread
  refine ⟨contents, ⟨hplaced.length, hplaced.extending, hplaced.stands, hplaced.declares⟩,
    fun k => ?_, fun k d' hd => ?_⟩
  · simp only [register, Table.value?_putNew]
    refine rel_or (hplaced.types k) ?_
    split
    · exact .some hroot
    · exact .none
  · simp only [register, Table.value?_put] at hd ⊢
    split
    · next hk =>
      rw [if_pos hk] at hd
      obtain rfl := Option.some.inj (Option.some.inj hd)
      exact ⟨_, rfl, hroot⟩
    · next hk =>
      rw [if_neg hk] at hd
      exact hplaced.elements k d' hd

theorem Origins.pointer (h : Origins visits contents types elements b) (target : Reference) :
    Origins visits contents types (elements.put key none) (b.register (.pointer key target)) := by
  refine ⟨⟨h.length, h.extending, h.stands, h.declares⟩, h.types, fun k d' hd => ?_⟩
  simp only [register, Table.value?_put] at hd ⊢
  split at hd
  · cases hd
  · next hk =>
    rw [if_neg hk]
    exact h.elements k d' hd

theorem Origins.foldl_types {l : List (Groups × Tree × Scope)}
    (hl : ∀ e ∈ l, (∀ found ∈ e.1, Visit.Read visits found.2.2 found.2.1) ∧
      Visit.Read visits e.2.2 e.2.1)
    (hreadable : Readable ofTypeAlong l) (h : Origins visits contents types elements b) :
    ∃ contents, Origins visits contents
      (Table.putAll types ((l.map Prod.snd).filterMap fun d => (declaredKey? d).map (·, d)))
      elements ((list ofTypeAlong l).foldl register b) := by
  induction l generalizing contents types b with
  | nil => exact ⟨contents, h⟩
  | cons e rest ih =>
    obtain ⟨groups, d⟩ := e
    have hrest := fun {contents types b} => @ih contents types b
      (fun e he => hl e (List.mem_cons_of_mem _ he))
      fun e he => hreadable e (List.mem_cons_of_mem _ he)
    obtain ⟨r, hr⟩ := hreadable _ List.mem_cons_self
    obtain ⟨hgroups, hnode⟩ := hl _ List.mem_cons_self
    rcases @ofType_cases groups d r hr with ⟨hkey, rfl⟩ | ⟨key, derived, hkey, hderived, rfl⟩
    · simpa [list, hr, hkey, Except.toOption] using hrest h
    · have hread : Visit.ReadAs visits d derived := ⟨groups, _, hgroups, hnode, hderived⟩
      obtain ⟨contents, hadded⟩ := @Origins.type _ _ _ _ _ _ key _ h hread
      simpa [list, hr, hkey, Except.toOption, Table.putAll] using hrest hadded

theorem Origins.foldl_elements {groups : Groups} {l : List (Tree × Scope)}
    (hgroups : ∀ found ∈ groups, Visit.Read visits found.2.2 found.2.1)
    (hl : ∀ d ∈ l, ∃ schema, .declare schema d.2 ∈ visits ∧ d.1 ∈ schema.children "element")
    (hreadable : Readable (ofElement groups) l) (h : Origins visits contents types elements b) :
    ∃ contents, Origins visits contents
      (Table.putAllNew types
        ((l.filterMap Visit.elementEntry?).filterMap fun e => e.2.map (e.1, ·)))
      (Table.putAll elements (l.filterMap Visit.elementEntry?))
      ((list (ofElement groups) l).foldl register b) := by
  induction l generalizing contents types elements b with
  | nil => exact ⟨contents, h⟩
  | cons d rest ih =>
    have hrest := fun {contents types elements b} => @ih contents types elements b
      (fun d hd => hl d (List.mem_cons_of_mem _ hd))
      fun d hd => hreadable d (List.mem_cons_of_mem _ hd)
    obtain ⟨r, hr⟩ := hreadable d List.mem_cons_self
    obtain ⟨schema, hdeclare, hnode⟩ := hl d List.mem_cons_self
    rcases ofElement_cases hr with ⟨hkey, rfl⟩ | ⟨key, hkey, ⟨hcontent, rfl⟩ |
      ⟨inner, derived, hcontent, hderived, rfl⟩⟩
    · simpa [list, hr, Visit.elementEntry?, hkey, Except.toOption] using hrest h
    · simpa [list, hr, Visit.elementEntry?, hkey, hcontent, Except.toOption, Table.putAll] using
        hrest (h.pointer (Building.pointer d.2 d.1).value)
    · have hread : Visit.ReadAs visits (inner, d.2) derived :=
        ⟨groups, _, hgroups, read_of_content hdeclare hnode hcontent, hderived⟩
      obtain ⟨contents, hadded⟩ := @Origins.content _ _ _ _ _ _ key _ h hread
      simpa [list, hr, Visit.elementEntry?, hkey, hcontent, Except.toOption, Table.putAll,
        Table.putAllNew] using hrest hadded

theorem Origins.of_renumbered (h : Origins visits contents types elements b)
    (hsame : Renumbered (Equiv.refl _) b b') : Origins visits contents types elements b' := by
  have hobject : ∀ id, b'.graph.object id = b.graph.object id := fun id =>
    (hsame.object id).trans ((Renumbered.refl b).object id).symm
  have hsize : b'.graph.objects.length = b.graph.objects.length := hsame.size
  have hextension : ∀ x, x ∈ b'.extensions ↔ x ∈ b.extensions := fun x => by
    rw [hsame.extensions.mem_iff]
    simp [Extension.renumber]
  refine ⟨⟨h.length.trans hsize.symm, fun x hx => ?_, fun id d hd => ?_, fun id e he => ?_⟩,
    fun key => ?_, fun key d hd => ?_⟩
  · exact hsize.symm ▸ h.extending x ((hextension x).1 hx)
  · obtain ⟨derived, hread, hbase, hrest⟩ := h.stands id d hd
    rw [← hobject] at hbase hrest
    exact ⟨derived, hread, hbase, fun hextended =>
      ⟨fun x hx => (hrest hextended).1 x ((hextension x).1 hx), (hrest hextended).2⟩⟩
  · rw [hobject] at he
    exact h.declares id e he
  · have htypes := h.types key
    rw [hsame.complexTypes]
    simpa using htypes
  · obtain ⟨id, hid, hcontent⟩ := h.elements key d hd
    exact ⟨id, by simp [hsame.elements, hid, TypeNode.renumber], hcontent⟩

end Building

namespace Groups

theorem read_of_typesAlong {known : Groups} {ds : List (Tree × Scope)}
    (hds : ∀ d ∈ ds, .declare d.1 d.2 ∈ visits)
    (hknown : ∀ found ∈ known, Visit.Read visits found.2.2 found.2.1) :
    (∀ e ∈ known.typesAlong ds, (∀ found ∈ e.1, Visit.Read visits found.2.2 found.2.1) ∧
      Visit.Read visits e.2.2 e.2.1) ∧
    ∀ found ∈ Table.putAll known (ds.flatMap declared),
      Visit.Read visits found.2.2 found.2.1 := by
  induction ds generalizing known with
  | nil => exact ⟨by simp [typesAlong], hknown⟩
  | cons d rest ih =>
    have hdeclare := hds d List.mem_cons_self
    have hnext : ∀ found ∈ Table.putAll known (declared d),
        Visit.Read visits found.2.2 found.2.1 := by
      intro found hfound
      rcases Table.mem_putAll hfound with hfound | hfound
      · exact hknown found hfound
      · obtain ⟨t, ht, hkey⟩ := List.mem_filterMap.1 hfound
        obtain ⟨node, hnode, rfl⟩ := List.mem_map.1 ht
        obtain ⟨_, _, rfl⟩ := Option.map_eq_some_iff.1 hkey
        exact Building.read_of_child hdeclare hnode
    obtain ⟨htypes, hall⟩ := ih (fun d hd => hds d (List.mem_cons_of_mem _ hd)) hnext
    refine ⟨fun e he => ?_, by rwa [List.flatMap_cons, putAll_append]⟩
    rcases List.mem_append.1 he with he | he
    · obtain ⟨t, ht, rfl⟩ := List.mem_map.1 he
      obtain ⟨node, hnode, rfl⟩ := List.mem_map.1 ht
      exact ⟨hnext, Building.read_of_child hdeclare hnode⟩
    · exact htypes e he

end Groups

namespace Building

theorem mem_declared {schema : Tree} {scope : Scope} :
    (schema, scope) ∈ Visit.declared visits ↔ .declare schema scope ∈ visits := by
  refine List.mem_filterMap.trans ⟨?_, fun h => ⟨_, h, rfl⟩⟩
  rintro ⟨v, hv, hdeclared⟩
  cases v <;> simp_all [Visit.declaration?]

variable {origin : Option Visit.Origin} {roots : List Tree} {outer : Table String}
  {start : Option String} {b : Building}

theorem origins_of_gather (h : (gather origin roots outer start).result = .ok b) :
    let visits := Visit.all origin roots outer start
    ∃ contents, Origins visits contents (Visit.typeContents visits) (Visit.elementContents visits)
      b := by
  intro visits
  obtain ⟨hiff, hgathered⟩ := @result_gather_along origin roots outer start
  obtain ⟨hpassing, hreadable⟩ := hiff.1 ⟨b, h⟩
  have hdeclared : ∀ d ∈ Visit.declared visits, .declare d.1 d.2 ∈ visits := fun d hd =>
    mem_declared.1 hd
  obtain ⟨htypes, hgroups⟩ := @Groups.read_of_typesAlong visits [] _ hdeclared (by simp)
  have hempty : Origins visits [] [] [] {} :=
    ⟨⟨rfl, by simp, by simp, fun id e he => by simp [TypeGraph.object] at he⟩, fun _ => .none,
      fun _ _ hd => by cases hd⟩
  obtain ⟨contents, htyped⟩ := hempty.foldl_types htypes hpassing.2
  obtain ⟨contents, hfull⟩ := htyped.foldl_elements hgroups (fun d hd => by
    obtain ⟨schema, hschema, hd⟩ := List.mem_flatMap.1 hd
    obtain ⟨node, hnode, rfl⟩ := List.mem_map.1 hd
    exact ⟨schema.1, hdeclared schema hschema, hnode⟩) hreadable
  refine ⟨contents, Origins.of_renumbered ?_ (hgathered b h)⟩
  rw [List.foldl_append]
  rwa [Groups.map_typesAlong] at hfull

end Building

/-- Every object of a graph stands for one content: the objects of types and elements for those that
schemas declare under their names, and the objects of members for those of the declarations that
the members come from. -/
theorem TypeGraph.origins_of_build {origin : Option Visit.Origin} {roots : List Tree}
    {outer : Table String} {start : Option String} {g : TypeGraph}
    (h : (TypeGraph.build origin roots outer start).result = .ok g) :
    let visits := Visit.all origin roots outer start
    ∃ contents extensions, Origins visits contents g extensions ∧
      (∀ key d, (Visit.typeContents visits).value? key = some d →
        ∃ id, g.complexTypes.value? key = some id ∧ contents[id]? = some d) ∧
      ∀ key d, (Visit.elementContents visits).value? key = some (some d) →
        ∃ id, g.elements.value? key = some (.object id) ∧ contents[id]? = some d := by
  intro visits
  obtain ⟨b, hb, hg⟩ := TypeGraph.gather_of_build h
  obtain ⟨contents, horigins⟩ := Building.origins_of_gather hb
  obtain ⟨htypes, helements, hobjects⟩ := Building.finish_spec hg
  have hobject : ∀ id, g.object id =
      (Inheritance.settleAll b.extensions b.graph).value.object id := fun id => by
    rw [object, object, hobjects]
  have hsettled := horigins.toOrigins.settled
  refine ⟨contents, b.extensions, ⟨?_, ?_, fun id d hd => ?_, fun id e he => ?_⟩,
    fun key d hd => ?_, fun key d hd => ?_⟩
  · rw [hsettled.length, hobjects]
  · rw [hobjects]
    exact hsettled.extending
  · obtain ⟨derived, hread, hrest⟩ := hsettled.stands id d hd
    rw [← hobject] at hrest
    exact ⟨derived, hread, hrest⟩
  · rw [hobject] at he
    exact hsettled.declares id e he
  · have htypes' := horigins.types key
    rw [hd, ← htypes] at htypes'
    cases hvalue : g.complexTypes.value? key with
    | none => rw [hvalue] at htypes'; cases htypes'
    | some id =>
      rw [hvalue] at htypes'
      cases htypes' with
      | some hcontent => exact ⟨id, rfl, hcontent⟩
  · obtain ⟨id, hid, hcontent⟩ := horigins.elements key d hd
    rcases helements with hsame | ⟨hnone, _⟩
    · exact ⟨id, hsame ▸ hid, hcontent⟩
    · rw [hnone] at hid
      cases hid

end SoapComponents
