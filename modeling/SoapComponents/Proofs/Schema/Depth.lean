import Mathlib.Data.Nat.Find
import SoapComponents.Proofs.Schema.Readers
import SoapComponents.Remaining

/-!
How deep groups are read inside each other. A reading that is not cut short for want of depth comes
to the same with more of it, and as much as there are groups is enough: what is cut short with room
for each of them has read one inside itself, and is cut short at every depth.
-/

set_option autoImplicit false

namespace SoapComponents

variable {α β : Type}

def CutOf (x y : Except Failure α) : Prop := x = .error .tooDeep ∨ x = y

namespace CutOf

theorem refl (x : Except Failure α) : CutOf x x := .inr rfl

theorem bind {x y : Outcome α} {f g : α → Outcome β} (h : CutOf x.result y.result)
    (hf : ∀ a, CutOf (f a).result (g a).result) :
    CutOf (x >>= f).result (y >>= g).result := by
  rw [Outcome.result_bind, Outcome.result_bind]
  rcases h with h | h
  · rw [h]
    exact .inl rfl
  · rw [h]
    cases y.result with
    | ok a => exact hf a
    | error failure => exact .refl _

theorem map {x y : Outcome α} (f : α → β) (h : CutOf x.result y.result) :
    CutOf (f <$> x).result (f <$> y).result := by
  rw [map_eq_pure_bind, map_eq_pure_bind]
  exact h.bind fun a => .refl _

theorem mapM {f g : α → Outcome β} {l : List α}
    (h : ∀ a ∈ l, CutOf (f a).result (g a).result) : CutOf (l.mapM f).result (l.mapM g).result := by
  induction l with
  | nil => exact .refl _
  | cons a rest ih =>
    rw [List.mapM_cons, List.mapM_cons]
    have hrest := ih fun a' ha' => h a' (List.mem_cons_of_mem _ ha')
    exact (h a List.mem_cons_self).bind fun first => hrest.bind fun more => .refl _

end CutOf

namespace Content

def Call.CutAt (groups : Groups) (depth enough : Nat) : Call → Prop
  | ⟨.particle, scope, node⟩ =>
    CutOf (particle groups depth scope node).result (particle groups enough scope node).result
  | ⟨.group, scope, node⟩ =>
    CutOf (group groups depth scope node).result (group groups enough scope node).result
  | ⟨.groupBody, scope, node⟩ =>
    CutOf (groupBody groups depth scope node).result (groupBody groups enough scope node).result
  | ⟨.element, scope, node⟩ =>
    CutOf (element groups depth scope node).result (element groups enough scope node).result
  | ⟨.elementType, scope, node⟩ =>
    CutOf (elementType groups depth scope node).result (elementType groups enough scope node).result
  | ⟨.complexType, scope, node⟩ =>
    CutOf (complexType groups depth scope node).result (complexType groups enough scope node).result

variable {groups : Groups} {depth enough : Nat} {scope : Scope} {node : Tree}

section

variable (ih : ∀ c : Call, c.node.weight < node.weight → c.CutAt groups depth enough)

include ih

theorem particles_cut :
    CutOf ((particleTags.flatMap node.children).mapM (particle groups depth scope)).result
      ((particleTags.flatMap node.children).mapM (particle groups enough scope)).result :=
  .mapM fun inner h => ih ⟨.particle, scope, inner⟩ (child_of_particle h).weight_lt

theorem groups_cut :
    CutOf ((node.children "group").mapM (group groups depth scope)).result
      ((node.children "group").mapM (group groups enough scope)).result :=
  .mapM fun inner h => ih ⟨.group, scope, inner⟩ (Tree.weight_of_mem_children h)

theorem elements_cut :
    CutOf ((node.children "element").mapM (element groups depth scope)).result
      ((node.children "element").mapM (element groups enough scope)).result :=
  .mapM fun inner h => ih ⟨.element, scope, inner⟩ (Tree.weight_of_mem_children h)

theorem particle_cut :
    CutOf (particle groups depth scope node).result (particle groups enough scope node).result := by
  rw [particle_eq, particle_eq]
  exact (particles_cut ih).bind fun nested => (groups_cut ih).bind fun grouped =>
    (elements_cut ih).bind fun own => .refl _

theorem groupBody_cut :
    CutOf (groupBody groups depth scope node).result (groupBody groups enough scope node).result := by
  rw [groupBody_eq, groupBody_eq]
  refine (elements_cut ih).bind fun own => ?_
  split
  · exact .refl _
  · split
    · next inner hfirst =>
      exact ih ⟨.particle, scope, inner⟩
        (child_of_particle (List.mem_of_mem_head? hfirst)).weight_lt
    · exact .refl _

theorem simpleContent_cut {content : Tree} (hcontent : content.weight < node.weight) :
    CutOf (simpleContent groups depth scope node content).result
      (simpleContent groups enough scope node content).result := by
  unfold simpleContent
  split
  · exact .refl _
  · next derivation hderivation =>
    refine CutOf.bind ?_ fun members => .refl _
    unfold simpleMembers
    split
    · next inner hinner =>
      exact ih ⟨.particle, scope, inner⟩ (Nat.lt_trans (Tree.weight_of_element? hinner)
        (Nat.lt_trans (weight_derivation hderivation) hcontent))
    · exact .refl _

theorem complexContent_cut {content : Tree} (hcontent : content.weight < node.weight) :
    CutOf (complexContent groups depth scope node content).result
      (complexContent groups enough scope node content).result := by
  unfold complexContent
  split
  · exact .refl _
  · next derivation hderivation =>
    have hbelow : ∀ c : Call, c.node.weight < derivation.weight → c.CutAt groups depth enough :=
      fun c hc => ih c (Nat.lt_trans hc (Nat.lt_trans (weight_derivation hderivation) hcontent))
    exact CutOf.bind (.refl _) fun extended => (particles_cut hbelow).bind fun nested =>
      (groups_cut hbelow).bind fun grouped => .refl _

theorem complexType_cut :
    CutOf (complexType groups depth scope node).result (complexType groups enough scope node).result := by
  rw [complexType_eq, complexType_eq]
  split
  · next inner hinner =>
    exact CutOf.map _ (ih ⟨.particle, scope, inner⟩ (child_of_first hinner).weight_lt)
  · split
    · next inner hinner =>
      exact CutOf.map _ (ih ⟨.group, scope, inner⟩ (Tree.weight_of_element? hinner))
    · split
      · next content hcontent => exact simpleContent_cut ih (Tree.weight_of_element? hcontent)
      · split
        · next content hcontent => exact complexContent_cut ih (Tree.weight_of_element? hcontent)
        · exact .refl _

theorem elementType_cut :
    CutOf (elementType groups depth scope node).result (elementType groups enough scope node).result := by
  rw [elementType_eq, elementType_eq]
  split
  · exact .refl _
  · split
    · next inner hinner =>
      exact CutOf.map _ (ih ⟨.complexType, scope, inner⟩ (Tree.weight_of_element? hinner))
    · split
      · exact CutOf.map _ (complexType_cut ih)
      · exact .refl _

theorem element_cut :
    CutOf (element groups depth scope node).result (element groups enough scope node).result := by
  rw [element, element]
  split
  · exact .refl _
  · split
    · exact .refl _
    · exact CutOf.bind (elementType_cut ih) fun type => .refl _

end

theorem cutAt_of_referred
    (h : ∀ key base, CutOf (referredGroup groups depth key base) (referredGroup groups enough key base))
    (c : Call) : c.CutAt groups depth enough := by
  induction hweight : c.node.weight using Nat.strongRecOn generalizing c with
  | _ weight ih =>
    obtain ⟨role, scope, node⟩ := c
    subst hweight
    have hbelow : ∀ c : Call, c.node.weight < node.weight → c.CutAt groups depth enough :=
      fun c hc => ih c.node.weight hc c rfl
    cases role with
    | particle => exact particle_cut hbelow
    | groupBody => exact groupBody_cut hbelow
    | element => exact element_cut hbelow
    | elementType => exact elementType_cut hbelow
    | complexType => exact complexType_cut hbelow
    | group =>
      change CutOf (group groups depth scope node).result (group groups enough scope node).result
      cases href : node.given? "ref" with
      | none =>
        rw [group_of_refless href, group_of_refless href]
        exact groupBody_cut hbelow
      | some ref =>
        rw [result_group_of_ref href, result_group_of_ref href]
        exact h _ _

theorem cutAt_of_le (h : depth ≤ enough) (c : Call) : c.CutAt groups depth enough := by
  induction depth generalizing enough c with
  | zero =>
    refine cutAt_of_referred (fun key base => ?_) c
    cases hfind : groups.find? key base with
    | none => exact .inr (by rw [referredGroup_of_none hfind, referredGroup_of_none hfind])
    | some e => exact .inl (referredGroup_zero hfind)
  | succ depth ih =>
    obtain ⟨enough, rfl⟩ := Nat.exists_eq_add_of_lt h
    refine cutAt_of_referred (fun key base => ?_) c
    cases hfind : groups.find? key base with
    | none => exact .inr (by rw [referredGroup_of_none hfind, referredGroup_of_none hfind])
    | some e =>
      rw [referredGroup_succ hfind, referredGroup_succ hfind]
      exact ih (Nat.le_add_right _ _) ⟨.groupBody, e.2.2, e.2.1⟩

/-- Room for the groups that are not opened is enough, where all that are opened are cut short at
every depth that is left. -/
theorem cutAt_of_room {opened : List String}
    (hroom : remaining (Table.keys groups) opened ≤ enough)
    (hopened : ∀ key ∈ opened, ∀ definition around,
      groups.value? key = some (definition, around) → ∀ less < depth,
        (groupBody groups less around definition).result = .error .tooDeep)
    (c : Call) : c.CutAt groups depth enough := by
  classical
  induction depth using Nat.strongRecOn generalizing opened enough c with
  | _ depth ih =>
    refine cutAt_of_referred (fun key base => ?_) c
    cases hfind : groups.find? key base with
    | none => exact .inr (by rw [referredGroup_of_none hfind, referredGroup_of_none hfind])
    | some e =>
      obtain ⟨key, definition, around⟩ := e
      cases depth with
      | zero => exact .inl (referredGroup_zero hfind)
      | succ depth =>
        have hknown := Groups.value?_of_find? hfind
        rw [referredGroup_succ hfind]
        by_cases hcut : (groupBody groups depth around definition).result = .error .tooDeep
        · exact .inl hcut
        · have hnew : key ∉ opened := fun hmem =>
            hcut (hopened key hmem definition around hknown depth (Nat.lt_succ_self _))
          have hfewer : remaining (Table.keys groups) (key :: opened) <
              remaining (Table.keys groups) opened :=
            remaining_cons_lt (Groups.mem_keys_of_find? hfind) hnew
          obtain ⟨room, rfl⟩ : ∃ room, enough = room + 1 := ⟨enough - 1, by omega⟩
          rw [referredGroup_succ hfind]
          -- at the least depth that does, the group is cut short wherever it leads back to itself
          have hsome : ∃ less, (groupBody groups less around definition).result ≠ .error .tooDeep :=
            ⟨depth, hcut⟩
          have hleast : Nat.find hsome ≤ depth := Nat.find_min' hsome hcut
          have hshort : ∀ other ∈ key :: opened, ∀ definition around,
              groups.value? other = some (definition, around) → ∀ less < Nat.find hsome,
                (groupBody groups less around definition).result = .error .tooDeep := by
            intro other hother definition' around' hvalue less hless
            rcases List.mem_cons.1 hother with rfl | hother
            · obtain ⟨rfl, rfl⟩ := Prod.mk.inj (Option.some.inj (hknown.symm.trans hvalue))
              exact not_not.1 (Nat.find_min hsome hless)
            · exact hopened other hother definition' around' hvalue less (by omega)
          have henough : CutOf (groupBody groups (Nat.find hsome) around definition).result
              (groupBody groups room around definition).result :=
            ih (Nat.find hsome) (by omega) (by omega) hshort ⟨.groupBody, around, definition⟩
          have hmore : CutOf (groupBody groups (Nat.find hsome) around definition).result
              (groupBody groups depth around definition).result :=
            cutAt_of_le hleast ⟨.groupBody, around, definition⟩
          exact .inr ((hmore.resolve_left (Nat.find_spec hsome)).symm.trans
            (henough.resolve_left (Nat.find_spec hsome)))

theorem room_of_depthBound (groups : Groups) :
    remaining (Table.keys groups) [] ≤ groups.depthBound := by
  simp [remaining, Table.keys, Groups.depthBound]

theorem cutAt_depthBound (depth : Nat) (c : Call) : c.CutAt groups depth groups.depthBound :=
  cutAt_of_room (room_of_depthBound groups)
    (fun _ hkey => absurd hkey List.not_mem_nil) c

theorem tooDeep_at_every_depth
    (h : (complexType groups groups.depthBound scope node).result = .error .tooDeep) (depth : Nat) :
    (complexType groups depth scope node).result = .error .tooDeep :=
  (cutAt_depthBound depth ⟨.complexType, scope, node⟩).elim id fun hsame => hsame.trans h

theorem result_complexType_of_depth (h : groups.depthBound ≤ depth) :
    (complexType groups depth scope node).result =
      (complexType groups groups.depthBound scope node).result := by
  rcases cutAt_of_le h ⟨.complexType, scope, node⟩ with hcut | hsame
  · exact (tooDeep_at_every_depth hcut depth).trans hcut.symm
  · exact hsame.symm

end Content

end SoapComponents
