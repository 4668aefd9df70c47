import SoapComponents.Proofs.Schema.SchemaOrder

/-!
Two sets of schemas that are built in step. Where the declarations of one set answer to those of
the other and are read alike, one gives a graph just when the other does, with the same elements
and the same complex types, but for the names that are kept raw.
-/

set_option autoImplicit false

namespace SoapComponents

variable {w : String → String}

/-- The same object, with its base and its attribute types written otherwise. -/
structure ObjectType.Alike (w : String → String) (o o' : ObjectNode) : Prop where
  members : o'.members = o.members
  space : o'.space = o.space
  qualified : o'.qualified = o.qualified
  base : o'.base = o.base.map w
  attributes : Table.Alike (SameAttribute w) o.attributes o'.attributes

/-- The same elements, complex types and objects, with raw names written otherwise. -/
structure TypeGraph.SameBut (w : String → String) (g g' : TypeGraph) : Prop where
  objects : List.Forall₂ (ObjectType.Alike w) g.objects g'.objects
  elements : g'.elements = g.elements
  complexTypes : g'.complexTypes = g.complexTypes

theorem ObjectType.Alike.empty : ObjectType.Alike w {} {} := ⟨rfl, rfl, rfl, rfl, .nil⟩

namespace TypeGraph

variable {g g' : TypeGraph}

theorem SameBut.isEmpty_eq (h : SameBut w g g') : g'.isEmpty = g.isEmpty := by
  rw [isEmpty, isEmpty, h.elements, h.complexTypes]

theorem SameBut.object (h : SameBut w g g') (id : ObjectId) :
    ObjectType.Alike w (g.object id) (g'.object id) := by
  obtain ⟨hobjects, _, _⟩ := h
  unfold TypeGraph.object
  generalize g.objects = os at hobjects
  generalize g'.objects = os' at hobjects
  induction hobjects generalizing id with
  | nil => exact .empty
  | cons hfirst _ ih =>
    cases id with
    | zero => exact hfirst
    | succ id => exact ih id

theorem SameBut.setObject (h : SameBut w g g') (id : ObjectId) {o o' : ObjectNode}
    (ho : ObjectType.Alike w o o') : SameBut w (g.setObject id o) (g'.setObject id o') := by
  refine ⟨?_, h.elements, h.complexTypes⟩
  obtain ⟨hobjects, _, _⟩ := h
  unfold TypeGraph.setObject
  dsimp only
  generalize g.objects = os at hobjects
  generalize g'.objects = os' at hobjects
  induction hobjects generalizing id with
  | nil => exact .nil
  | cons hfirst hrest ih =>
    cases id with
    | zero => exact .cons ho hrest
    | succ id => exact .cons hfirst (ih id)

end TypeGraph

namespace Draft

open TypeGraph

mutual

theorem Alike.place {draft draft' : Draft} {g g' : TypeGraph} (h : Alike w draft draft')
    (hg : SameBut w g g') :
    SameBut w (place g draft).1 (place g' draft').1 ∧ (place g' draft').2 = (place g draft).2 := by
  cases h with
  | primitive name => exact ⟨hg, rfl⟩
  | reference key => exact ⟨hg, rfl⟩
  | object space qualified base extended hmembers hattributes =>
    obtain ⟨hplaced, hsame⟩ := hmembers.placeMembers hg
    have hlength := hplaced.objects.length_eq
    simp only [Draft.place, placeObject, addObject, hsame, hlength]
    exact ⟨⟨List.rel_append hplaced.objects (.cons ⟨rfl, rfl, rfl, rfl, hattributes⟩ .nil),
      hplaced.elements, hplaced.complexTypes⟩, trivial⟩

theorem MembersAlike.placeMembers {members members' : List (String × Member Draft)}
    {g g' : TypeGraph} (h : MembersAlike w members members') (hg : SameBut w g g') :
    SameBut w (placeMembers g members).1 (placeMembers g' members').1 ∧
      (placeMembers g' members').2 = (placeMembers g members).2 := by
  cases h with
  | nil => exact ⟨hg, rfl⟩
  | cons key minOccurs maxOccurs qualified space htype hrest =>
    obtain ⟨hplaced, hsame⟩ := htype.place hg
    obtain ⟨hplaced', hsame'⟩ := hrest.placeMembers hplaced
    simp only [Draft.placeMembers, hsame, hsame']
    exact ⟨hplaced', trivial⟩

end

theorem Alike.placeObject {derived derived' : Derived Draft} {g g' : TypeGraph}
    (h : Alike w (.object derived) (.object derived')) (hg : SameBut w g g') :
    SameBut w (placeObject g derived).1 (placeObject g' derived').1 ∧
      (placeObject g' derived').2 = (placeObject g derived).2 := by
  obtain ⟨hplaced, hsame⟩ := h.place hg
  simp only [Draft.place, Prod.mk.injEq, TypeNode.object.injEq] at hplaced hsame
  exact ⟨hplaced, Prod.ext hsame.1 hsame.2⟩

end Draft

namespace Inheritance

open TypeGraph

variable {extensions : List Extension} {g g' : TypeGraph}

theorem alike_inherit {base base' own own' : ObjectNode} (hbase : ObjectType.Alike w base base')
    (hown : ObjectType.Alike w own own') :
    ObjectType.Alike w (inherit base own) (inherit base' own') where
  members := by simp only [inherit, hbase.members, hown.members]
  space := hown.space
  qualified := hown.qualified
  base := hown.base
  attributes := hown.attributes.putAllNew hbase.attributes

theorem base?_eq_of_sameBut (h : SameBut w g g') (key : String) : base? g' key = base? g key := by
  simp only [base?, h.complexTypes]

/-- The same extensions are settled, in graphs that are the same but for raw names. -/
structure State.Alike (w : String → String) (s s' : State) : Prop where
  graph : SameBut w s.graph s'.graph
  settled : s'.settled = s.settled

theorem State.Alike.mark {s s' : State} (h : State.Alike w s s') (id : ObjectId) :
    State.Alike w (s.mark id) (s'.mark id) :=
  ⟨h.graph, congrArg (id :: ·) h.settled⟩

theorem settle_alike (chain : List String) (e : { e // e ∈ extensions }) (s s' : State)
    (h : State.Alike w s s') :
    State.Alike w (settle extensions chain e s).value (settle extensions chain e s').value := by
  induction chain, e, s using settle.induct extensions generalizing s' with
  | case1 chain e s hsettled =>
    rw [settle, settle, if_pos hsettled, if_pos (h.settled ▸ hsettled)]
    exact h
  | case2 chain e s hsettled hnone =>
    rw [settle, settle, if_neg hsettled, if_neg (h.settled ▸ hsettled)]
    simp only [base?_eq_of_sameBut h.graph, hnone]
    exact h.mark _
  | case3 chain e s hsettled baseId hfound hcircle =>
    rw [settle, settle, if_neg hsettled, if_neg (h.settled ▸ hsettled)]
    simp only [base?_eq_of_sameBut h.graph, hfound, if_pos hcircle]
    exact h.mark _
  | case4 chain e s hsettled baseId hfound hcircle ih =>
    rw [settle, settle, if_neg hsettled, if_neg (h.settled ▸ hsettled)]
    simp only [base?_eq_of_sameBut h.graph, hfound, if_neg hcircle, Noted.value_bind, Noted.value_pure]
    let wait : State → { e // e ∈ extensions } → Noted State := fun s inner =>
      if inner.1.id = baseId then settle extensions (e.1.base :: chain) inner s else pure s
    have hwaited := Noted.value_foldlM_rel (R := State.Alike w) (f := wait) (g := wait)
      (l := extensions.attach) (fun inner _ s s' hs => by
        dsimp only [wait]
        split
        · exact ih s inner s' hs
        · exact hs) h
    refine State.Alike.mark ?_ _
    exact ⟨hwaited.graph.setObject _ (alike_inherit (hwaited.graph.object _)
      (hwaited.graph.object _)), hwaited.settled⟩

theorem settleAll_alike (h : SameBut w g g') :
    SameBut w (settleAll extensions g).value (settleAll extensions g').value :=
  (@Noted.value_foldlM_rel _ _ _ (State.Alike w) _ _ extensions.attach { graph := g }
    { graph := g' } (fun e _ s s' hs => settle_alike [] e s s' hs) ⟨h, rfl⟩).graph

end Inheritance

theorem Groups.rel_find? {R : Tree × Scope → Tree × Scope → Prop} {groups groups' : Groups}
    (h : Table.Alike R groups groups') (key base : String) :
    Option.Rel (Content.FoundAlike R) (groups.find? key base) (groups'.find? key base) := by
  unfold find?
  rcases cases_of_rel (h.rel_value? key) with
    ⟨hnone, hnone'⟩ | ⟨found, found', hfound, hfound', hrel⟩
  · simp only [hnone, hnone']
    clear hnone hnone'
    induction h with
    | nil => exact .none
    | cons hfirst _ ih =>
      simp only [List.find?_cons, hfirst.1]
      split
      · exact .some hfirst
      · exact ih
  · simp only [hfound, hfound']
    exact .some ⟨rfl, hrel⟩

def isNamed (d : Tree × Scope) : Bool := (declaredKey? d).isSome

structure DeclareAlike (R : Tree × Scope → Tree × Scope → Prop) (d d' : Tree × Scope) : Prop where
  target : d'.2.target = d.2.target
  declared : ∀ tag ∈ Tree.declarationTags,
    List.Forall₂ R ((declaredNodes tag d).filter isNamed) ((declaredNodes tag d').filter isNamed)

namespace Building

open TypeGraph

/-- Two buildings on the way. -/
structure Alike (w : String → String) (R : Tree × Scope → Tree × Scope → Prop)
    (b b' : Building) : Prop where
  graph : SameBut w b.graph b'.graph
  groups : Table.Alike R b.groups b'.groups
  extensions : b'.extensions = b.extensions
  elements : List.Forall₂ R (b.elements.filter isNamed) (b'.elements.filter isNamed)

variable {R : Tree × Scope → Tree × Scope → Prop} {b b' : Building}

theorem Alike.empty : Alike w R {} {} := ⟨⟨.nil, rfl, rfl⟩, .nil, rfl, .nil⟩

theorem given?_of_nameless {d : Tree × Scope} (h : isNamed d = false) :
    d.1.given? "name" = none := by
  simpa [isNamed, declaredKey?] using h

theorem foldlM_filter_isNamed {α : Type} {f : α → Tree × Scope → Outcome α}
    (hf : ∀ a d, d.1.given? "name" = none → f a d = pure a) (nodes : List (Tree × Scope)) (a : α) :
    nodes.foldlM f a = (nodes.filter isNamed).foldlM f a := by
  induction nodes generalizing a with
  | nil => rfl
  | cons d rest ih =>
    cases hname : isNamed d with
    | false =>
      rw [List.filter_cons_of_neg (by simp [hname]), List.foldlM_cons,
        hf a d (given?_of_nameless hname), pure_bind, ih]
    | true =>
      rw [List.filter_cons_of_pos hname, List.foldlM_cons, List.foldlM_cons]
      congr 1
      funext a
      exact ih a

section

variable (hR : ∀ groups groups', Table.Alike R groups groups' →
  Content.Simulates w groups groups' R)

include hR

theorem addType_alike (h : Alike w R b b') {d d' : Tree × Scope} (hd : R d d') :
    Outcome.Alike w (fun p p' => Alike w R p.1 p'.1 ∧ p'.2 = p.2) (b.addType d.2 d.1)
      (b'.addType d'.2 d'.1) := by
  have hbound : b'.groups.depthBound = b.groups.depthBound := h.groups.length_eq.symm
  unfold addType
  rw [hbound]
  refine (Content.readAlike (hR _ _ h.groups) b.groups.depthBound d d' hd).complexType.bind
    fun derived derived' hderived => .pure ?_
  obtain ⟨hplaced, hsame⟩ := hderived.placeObject h.graph
  obtain ⟨hid, hextensions⟩ := Prod.mk.inj hsame
  exact ⟨⟨hplaced, h.groups, by rw [h.extensions, hextensions], h.elements⟩, hid⟩

theorem registerType_alike (h : Alike w R b b') {d d' : Tree × Scope} (hd : R d d') :
    Outcome.Alike w (Alike w R) (registerType d.2 b d.1) (registerType d'.2 b' d'.1) := by
  have hsimilar := hR _ _ h.groups d d' hd
  unfold registerType
  rw [hsimilar.plain "name" (by simp [Content.plainAttributes]), hsimilar.target]
  cases d.1.given? "name" with
  | none => exact .pure h
  | some name =>
    refine (addType_alike hR h hd).bind fun p p' hp => ?_
    obtain ⟨hadded, hid⟩ := hp
    refine .ok rfl rfl ⟨⟨hadded.graph.objects, hadded.graph.elements, ?_⟩, hadded.groups,
      hadded.extensions, hadded.elements⟩
    rw [hadded.graph.complexTypes, hid]

theorem rel_content? {d d' : Tree × Scope} (h : Alike w R b b') (hd : R d d') :
    Option.Rel (fun c c' => R (c, d.2) (c', d'.2)) (content? d.1) (content? d'.1) := by
  have hsimilar := hR _ _ h.groups d d' hd
  refine rel_or (hsimilar.rel_element? "complexType" (by simp [Content.contentTags])) ?_
  have htype := isSome_eq_of_rel (hsimilar.rel_given "type" (by simp [Content.namingAttributes]))
  rw [← Option.not_isSome, ← Option.not_isSome, htype,
    isSome_eq_of_rel (hsimilar.rel_element? "sequence" (by simp [Content.contentTags]))]
  split
  · exact .some hd
  · exact .none

theorem pointer_eq {d d' : Tree × Scope} (h : Alike w R b b') (hd : R d d') :
    (pointer d'.2 d'.1).value = (pointer d.2 d.1).value := by
  have hsimilar := hR _ _ h.groups d d' hd
  unfold pointer
  rcases cases_of_rel (hsimilar.rel_given "type" (by simp [Content.namingAttributes])) with
    ⟨hnone, hnone'⟩ | ⟨name, name', hname, hname', hsame⟩
  · simp only [hnone, hnone', Noted.value_bind, Noted.value_pure, hsimilar.target,
      hsimilar.qualified]
  · simp only [hname, hname', Noted.value_bind, Noted.value_pure, hsimilar.target,
      hsimilar.qualified, hsame.key]

theorem registerElement_alike (h : Alike w R b b') {d d' : Tree × Scope} (hd : R d d') :
    Outcome.Alike w (Alike w R) (b.registerElement d) (b'.registerElement d') := by
  have hsimilar := hR _ _ h.groups d d' hd
  unfold registerElement
  dsimp only
  rw [hsimilar.plain "name" (by simp [Content.plainAttributes]), hsimilar.target]
  cases d.1.given? "name" with
  | none => exact .pure h
  | some name =>
    rcases cases_of_rel (rel_content? hR h hd) with
      ⟨hnone, hnone'⟩ | ⟨content, content', hcontent, hcontent', hrel⟩
    · simp only [hnone, hnone']
      refine Outcome.Alike.bind (S := fun target target' => target' = target)
        (.lift (pointer_eq hR h hd)) fun target target' htarget => .ok rfl rfl ?_
      refine ⟨⟨h.graph.objects, ?_, h.graph.complexTypes⟩, h.groups, h.extensions, h.elements⟩
      rw [h.graph.elements, htarget]
    · simp only [hcontent, hcontent']
      refine (addType_alike hR h hrel).bind fun p p' hp => ?_
      obtain ⟨hadded, hid⟩ := hp
      refine .ok rfl rfl ⟨⟨hadded.graph.objects, ?_, ?_⟩, hadded.groups, hadded.extensions,
        hadded.elements⟩
      · rw [hadded.graph.elements, hid]
      · rw [hadded.graph.complexTypes, hid]

omit hR

theorem keyed_of_related (hR : ∀ groups groups', Table.Alike R groups groups' →
    Content.Simulates w groups groups' R) {d d' : Tree × Scope} (hd : R d d') :
    declaredKey? d' = declaredKey? d := by
  have hsimilar := hR [] [] .nil d d' hd
  rw [declaredKey?, declaredKey?, hsimilar.plain "name" (by simp [Content.plainAttributes]),
    hsimilar.target]

theorem declared_filter (d : Tree × Scope) :
    Groups.declared d = ((declaredNodes "group" d).filter isNamed).filterMap
      fun node => (declaredKey? node).map (·, node) := by
  rw [List.filterMap_filter, Groups.declared]
  refine List.filterMap_congr fun node _ => ?_
  cases h : declaredKey? node <;> simp [isNamed, h]

include hR

theorem registerGroups_alike (h : Alike w R b b') {d d' : Tree × Scope} (hd : DeclareAlike R d d') :
    Alike w R (b.registerGroups d.1 d.2) (b'.registerGroups d'.1 d'.2) := by
  refine ⟨h.graph, ?_, h.extensions, h.elements⟩
  rw [groups_registerGroups, groups_registerGroups, declared_filter, declared_filter]
  refine h.groups.putAll (forall₂_filterMap (hd.declared "group" (by simp [Tree.declarationTags]))
    fun node node' hnode => ?_)
  rw [keyed_of_related hR hnode]
  cases declaredKey? node with
  | none => exact .none
  | some key => exact .some ⟨rfl, hnode⟩

theorem registerTypes_alike (h : Alike w R b b') {d d' : Tree × Scope} (hd : DeclareAlike R d d') :
    Outcome.Alike w (Alike w R) ((d.1.children "complexType").foldlM (registerType d.2) b)
      ((d'.1.children "complexType").foldlM (registerType d'.2) b') := by
  have hnodes : ∀ (d : Tree × Scope) (b : Building),
      (d.1.children "complexType").foldlM (registerType d.2) b =
        ((declaredNodes "complexType" d).filter isNamed).foldlM
          (fun b node => registerType node.2 b node.1) b := by
    intro d b
    rw [← foldlM_filter_isNamed (fun b node hname => by simp only [registerType, hname]),
      declaredNodes, List.foldlM_map]
  rw [hnodes, hnodes]
  exact .foldlM (hd.declared "complexType" (by simp [Tree.declarationTags]))
    (fun b b' node node' hb hnode => registerType_alike hR hb hnode) h

theorem step_declare_alike (h : Alike w R b b') {d d' : Tree × Scope} (hd : DeclareAlike R d d') :
    Outcome.Alike w (Alike w R) (b.step (.declare d.1 d.2)) (b'.step (.declare d'.1 d'.2)) := by
  refine (registerTypes_alike hR (registerGroups_alike hR h hd) hd).bind fun typed typed' htyped =>
    .pure ⟨htyped.graph, htyped.groups, htyped.extensions, ?_⟩
  simp only [List.filter_append]
  exact List.rel_append htyped.elements (hd.declared "element" (by simp [Tree.declarationTags]))

theorem registerElements_alike (h : Alike w R b b') :
    Outcome.Alike w (Alike w R) b.registerElements b'.registerElements := by
  have hskip : ∀ (b : Building) (d : Tree × Scope), d.1.given? "name" = none →
      b.registerElement d = pure b := by
    intro b d hname
    simp only [registerElement, hname]
  unfold registerElements
  rw [foldlM_filter_isNamed hskip, foldlM_filter_isNamed hskip b'.elements]
  exact .foldlM h.elements (fun b b' node node' hb hnode => registerElement_alike hR hb hnode) h

inductive VisitAlike (R : Tree × Scope → Tree × Scope → Prop) : Visit → Visit → Prop
  | enter (scope scope' : Scope) : VisitAlike R (.enter scope) (.enter scope')
  | declare {d d' : Tree × Scope} : DeclareAlike R d d' →
      VisitAlike R (.declare d.1 d.2) (.declare d'.1 d'.2)

theorem step_alike (h : Alike w R b b') {v v' : Visit} (hv : VisitAlike R v v') :
    Outcome.Alike w (Alike w R) (b.step v) (b'.step v') := by
  cases hv with
  | enter scope scope' =>
    exact .pure ⟨⟨h.graph.objects, h.graph.elements, h.graph.complexTypes⟩, h.groups, h.extensions,
      h.elements⟩
  | declare hd => exact step_declare_alike hR h hd

theorem gather_alike {roots roots' : List Tree} {outer outer' : Table String}
    {start start' : Option String}
    (h : List.Forall₂ (fun root root' => DeclareAlike R (root, Scope.ofSchema root outer start)
      (root', Scope.ofSchema root' outer' start')) roots roots') :
    Outcome.Alike w (Alike w R) (gather none roots outer start)
      (gather none roots' outer' start') := by
  have hvisits : List.Forall₂ (VisitAlike R) (Visit.effects (Visit.all none roots outer start))
      (Visit.effects (Visit.all none roots' outer' start')) := by
    rw [Visit.effects_all (.inl rfl), Visit.effects_all (.inl rfl)]
    induction h with
    | nil => exact .nil
    | cons hroot _ ih => exact .cons (.enter _ _) (.cons (.declare hroot) ih)
  have hfold := Outcome.Alike.foldlM (w := w) (T := Alike w R) hvisits
    (fun b b' v v' hb hv => step_alike hR hb hv) .empty
  exact (hfold.of_result (result_foldlM_effects _ _) (result_foldlM_effects _ _)).bind
    fun b b' hb => registerElements_alike hR hb

end

theorem Alike.finished (h : Alike w R b b') :
    SameBut w { b.settled with elements := b.offered } { b'.settled with elements := b'.offered } := by
  have hsettled : SameBut w b.settled b'.settled := by
    unfold settled
    rw [h.extensions]
    exact Inheritance.settleAll_alike h.graph
  refine ⟨hsettled.objects, ?_, hsettled.complexTypes⟩
  simp only [offered, h.graph.elements, h.graph.complexTypes]

end Building

/-- Two builds that come to the same but for raw names, or both to a failure. -/
inductive TypeGraph.BuildAlike (w : String → String) (x y : Outcome TypeGraph) : Prop
  | ok {g g' : TypeGraph} : x.result = .ok g → y.result = .ok g' → SameBut w g g' →
      BuildAlike w x y
  | error {failure failure' : Failure} : x.result = .error failure →
      y.result = .error failure' → BuildAlike w x y

theorem TypeGraph.build_alike {R : Tree × Scope → Tree × Scope → Prop}
    (hR : ∀ groups groups', Table.Alike R groups groups' → Content.Simulates w groups groups' R)
    {roots roots' : List Tree} {outer outer' : Table String} {start start' : Option String}
    (h : List.Forall₂ (fun root root' => DeclareAlike R (root, Scope.ofSchema root outer start)
      (root', Scope.ofSchema root' outer' start')) roots roots') :
    BuildAlike w (TypeGraph.build none roots outer start)
      (TypeGraph.build none roots' outer' start') := by
  cases Building.gather_alike hR h with
  | error hfailure hfailure' =>
    exact .error (result_build_of_failure hfailure) (result_build_of_failure hfailure')
  | @ok b b' hb hb' halike =>
    have hbuild := result_build_of_gather hb
    have hbuild' := result_build_of_gather hb'
    have hfinished := halike.finished
    rw [hfinished.isEmpty_eq] at hbuild'
    split at hbuild
    · next hnothing => exact .error hbuild (hbuild'.trans (if_pos hnothing))
    · next hsome => exact .ok hbuild (hbuild'.trans (if_neg hsome)) hfinished

end SoapComponents
