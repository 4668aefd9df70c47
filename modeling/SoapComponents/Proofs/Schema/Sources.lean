import SoapComponents.Proofs.Schema.Declared

/-!
The declarations that members come from. Every member of a type is what one element declaration
comes to, inside the type or in a group, and the type of the member is made of such declarations
itself. So it is with the bases that types extend, each of which some derivation names.
-/

set_option autoImplicit false

namespace SoapComponents

theorem Derived.sizeOf_of_member {derived inner : Derived Draft} {e : String × Member Draft}
    (he : e ∈ derived.type.members) (htype : e.2.type = .object inner) :
    sizeOf inner < sizeOf derived := by
  obtain ⟨⟨members, space, qualified, base, attributes⟩, extended⟩ := derived
  obtain ⟨key, type, minOccurs, maxOccurs, elementQualified, elementSpace⟩ := e
  obtain rfl : type = .object inner := htype
  have hmember := List.sizeOf_lt_of_mem he
  simp only [Prod.mk.sizeOf_spec, Member.mk.sizeOf_spec, Draft.object.sizeOf_spec] at hmember
  simp only [Derived.mk.sizeOf_spec, ObjectType.mk.sizeOf_spec]
  omega

namespace Content

section

-- which nodes are read in which scope
variable {P : Scope → Tree → Prop}

def Declares (P : Scope → Tree → Prop) (e : String × Member TypeHead) : Prop :=
  ∃ scope node, P scope node ∧ declared? scope node = some e

def NamesBase (P : Scope → Tree → Prop) (key : String) : Prop :=
  ∃ scope node base, P scope node ∧ node.given? "base" = some base ∧
    (scope.qualify base).value = key

abbrev IsRead (P : Scope → Tree → Prop) (draft : Draft) : Prop :=
  draft.All (Declares P) (NamesBase P)

variable {groups : Groups} {depth : Nat} {scope : Scope} {node : Tree}

def FromDeclarations (groups : Groups) (P : Scope → Tree → Prop)
    (entries : List (String × Member Draft)) : Prop :=
  ∀ e ∈ entries, ∃ depth scope node, P scope node ∧
    (element groups depth scope node).result = .ok [e]

theorem FromDeclarations.nil : FromDeclarations groups P [] := by simp [FromDeclarations]

theorem FromDeclarations.append {entries more : List (String × Member Draft)}
    (h : FromDeclarations groups P entries) (h' : FromDeclarations groups P more) :
    FromDeclarations groups P (entries ++ more) :=
  fun e he => (List.mem_append.1 he).elim (h e) (h' e)

def Call.ReadsDeclarations (groups : Groups) (P : Scope → Tree → Prop) (depth : Nat) :
    Call → Prop
  | ⟨.particle, scope, node⟩ => P scope node → ∀ entries,
      (particle groups depth scope node).result = .ok entries → FromDeclarations groups P entries
  | ⟨.group, scope, node⟩ => P scope node → ∀ entries,
      (group groups depth scope node).result = .ok entries → FromDeclarations groups P entries
  | ⟨.groupBody, scope, node⟩ => P scope node → ∀ entries,
      (groupBody groups depth scope node).result = .ok entries → FromDeclarations groups P entries
  | _ => True

theorem fromDeclarations_of_mapM {f : Tree → Outcome (List (String × Member Draft))} {l : List Tree}
    {found : List (List (String × Member Draft))} (h : (l.mapM f).result = .ok found)
    (hf : ∀ inner ∈ l, ∀ entries, (f inner).result = .ok entries →
      FromDeclarations groups P entries) : FromDeclarations groups P found.flatten := by
  intro e he
  obtain ⟨entries, hentries, he⟩ := List.mem_flatten.1 he
  obtain ⟨inner, hinner, hread⟩ := Outcome.result_mapM_eq_ok h entries hentries
  exact hf inner hinner entries hread e he

theorem fromDeclarations_of_element (hnode : P scope node) {entries : List (String × Member Draft)}
    (h : (element groups depth scope node).result = .ok entries) :
    FromDeclarations groups P entries := by
  intro e he
  have hlength : entries.length ≤ 1 := by
    rw [← List.length_map shape, shapes_of_element h]
    cases declared? scope node <;> simp
  obtain rfl : entries = [e] := by
    cases entries with
    | nil => cases he
    | cons first rest => simp_all
  exact ⟨depth, scope, node, hnode, h⟩

theorem namesBase_of_extendedType {content derivation : Tree} {key : String}
    (hderivation : P scope derivation)
    (h : (extendedType scope content derivation).value = some key) : NamesBase P key := by
  unfold extendedType at h
  split at h
  · next name hbase _ =>
    refine ⟨scope, derivation, name, hderivation, hbase, ?_⟩
    simp only [Noted.value_bind, Noted.value_pure] at h
    split at h
    · cases h
    · exact Option.some.inj h
  · cases h

/-- An object type whose members come from declarations, and whose base is one that is named. -/
structure ReadFrom (groups : Groups) (P : Scope → Tree → Prop) (derived : Derived Draft) :
    Prop where
  members : FromDeclarations groups P derived.type.members
  extended : ∀ key, derived.extended = some key → NamesBase P key

theorem readFrom_plainType {members : List (String × Member Draft)}
    (h : FromDeclarations groups P members) : ReadFrom groups P (plainType scope node members) where
  members := h
  extended _ hkey := by cases hkey

variable
  (hdown : ∀ scope node child tag, P scope node → child ∈ node.children tag → P scope child)

include hdown

theorem holds_of_child {inner : Tree} (hnode : P scope node) (h : Child node inner) :
    P scope inner := by
  obtain ⟨tag, h⟩ := h
  exact hdown scope node inner tag hnode h

theorem holds_of_content {inner : Tree} (hnode : P scope node)
    (h : Building.content? node = some inner) : P scope inner := by
  rcases self_or_child_of_content h with rfl | hchild
  · exact hnode
  · exact holds_of_child hdown hnode hchild

theorem fromDeclarations_of_parts (hnode : P scope node)
    (ih : ∀ c : Call, c.node.weight < node.weight → c.ReadsDeclarations groups P depth) :
    (∀ nested, ((particleTags.flatMap node.children).mapM
      (particle groups depth scope)).result = .ok nested →
      FromDeclarations groups P nested.flatten) ∧
    (∀ grouped, ((node.children "group").mapM (group groups depth scope)).result = .ok grouped →
      FromDeclarations groups P grouped.flatten) ∧
    ∀ own, ((node.children "element").mapM (element groups depth scope)).result = .ok own →
      FromDeclarations groups P own.flatten := by
  refine ⟨fun nested h => fromDeclarations_of_mapM h fun inner hinner => ?_,
    fun grouped h => fromDeclarations_of_mapM h fun inner hinner => ?_,
    fun own h => fromDeclarations_of_mapM h fun inner hinner entries =>
      fromDeclarations_of_element (hdown scope node inner _ hnode hinner)⟩
  · have hchild := child_of_particle hinner
    exact ih ⟨.particle, scope, inner⟩ hchild.weight_lt (holds_of_child hdown hnode hchild)
  · exact ih ⟨.group, scope, inner⟩ (Tree.weight_of_mem_children hinner)
      (hdown scope node inner _ hnode hinner)

theorem particle_readsDeclarations
    (ih : ∀ c : Call, c.node.weight < node.weight → c.ReadsDeclarations groups P depth) :
    Call.ReadsDeclarations groups P depth ⟨.particle, scope, node⟩ := by
  intro hnode entries h
  obtain ⟨hnested, hgrouped, hown⟩ := fromDeclarations_of_parts hdown hnode ih
  rw [particle_eq] at h
  obtain ⟨nested, hn, h⟩ := Outcome.result_bind_eq_ok.1 h
  obtain ⟨grouped, hg, h⟩ := Outcome.result_bind_eq_ok.1 h
  obtain ⟨own, ho, h⟩ := Outcome.result_bind_eq_ok.1 h
  obtain rfl := Except.ok.inj h
  exact ((hnested nested hn).append (hgrouped grouped hg)).append (hown own ho)

theorem groupBody_readsDeclarations
    (ih : ∀ c : Call, c.node.weight < node.weight → c.ReadsDeclarations groups P depth) :
    Call.ReadsDeclarations groups P depth ⟨.groupBody, scope, node⟩ := by
  intro hnode entries h
  rw [groupBody_eq] at h
  obtain ⟨own, ho, h⟩ := Outcome.result_bind_eq_ok.1 h
  split at h
  · obtain rfl := Except.ok.inj h
    exact (fromDeclarations_of_parts hdown hnode ih).2.2 own ho
  · split at h
    · next inner hinner =>
      have hchild := child_of_particle (List.mem_of_mem_head? hinner)
      exact ih ⟨.particle, scope, inner⟩ hchild.weight_lt (holds_of_child hdown hnode hchild)
        entries h
    · obtain rfl := Except.ok.inj h
      exact .nil

omit hdown in
theorem group_readsDeclarations (hgroups : ∀ e ∈ groups, P e.2.2 e.2.1)
    (hbody : Call.ReadsDeclarations groups P depth ⟨.groupBody, scope, node⟩)
    (hdefinition : ∀ less < depth, ∀ c, Call.ReadsDeclarations groups P less c) :
    Call.ReadsDeclarations groups P depth ⟨.group, scope, node⟩ := by
  intro hnode entries h
  cases href : node.given? "ref" with
  | none =>
    rw [group_of_refless href] at h
    exact hbody hnode entries h
  | some ref =>
    rw [result_group_of_ref href] at h
    rcases cases_of_referredGroup h with ⟨-, rfl⟩ | ⟨⟨key, definition, around⟩, less, hfind, rfl, hfound⟩
    · exact .nil
    · have hmem := Table.mem_of_value? (Groups.value?_of_find? hfind)
      exact hdefinition less (Nat.lt_succ_self _) ⟨.groupBody, around, definition⟩ (hgroups _ hmem)
        entries hfound

variable (hgroups : ∀ e ∈ groups, P e.2.2 e.2.1)

include hgroups

theorem readsDeclarations (depth : Nat) (c : Call) :
    c.ReadsDeclarations groups P depth := by
  induction depth, c using induction_on_size Call.size with
  | step depth c ih ihdefinition =>
    have hsmaller : ∀ c' : Call, c'.node.weight < c.node.weight →
        c'.ReadsDeclarations groups P depth := fun c' hweight =>
      ih c' (Call.size_lt_of_weight hweight)
    obtain ⟨role, scope, node⟩ := c
    cases role with
    | particle => exact particle_readsDeclarations hdown hsmaller
    | groupBody => exact groupBody_readsDeclarations hdown hsmaller
    | group => exact group_readsDeclarations hgroups (ih _ (Nat.lt_succ_self _)) ihdefinition
    | element => trivial
    | elementType => trivial
    | complexType => trivial

theorem simpleContent_readFrom {content : Tree} (hcontent : P scope content)
    {derived : Derived Draft}
    (h : (simpleContent groups depth scope node content).result = .ok derived) :
    ReadFrom groups P derived := by
  unfold simpleContent at h
  split at h
  · obtain rfl := Except.ok.inj h
    exact readFrom_plainType .nil
  · next derivation hd =>
    obtain ⟨members, hmembers, h⟩ := Outcome.result_bind_eq_ok.1 h
    obtain rfl := Except.ok.inj h
    refine ⟨?_, fun key hkey => by cases hkey⟩
    unfold simpleMembers at hmembers
    split at hmembers
    · next inner hinner =>
      have hderivation := holds_of_child hdown hcontent (child_of_derivation hd)
      exact readsDeclarations hdown hgroups depth ⟨.particle, scope, inner⟩
        (holds_of_child hdown hderivation (child_of_element? hinner)) members hmembers
    · obtain rfl := Except.ok.inj hmembers
      exact .nil

theorem complexContent_readFrom {content : Tree} (hcontent : P scope content)
    {derived : Derived Draft}
    (h : (complexContent groups depth scope node content).result = .ok derived) :
    ReadFrom groups P derived := by
  unfold complexContent at h
  split at h
  · obtain rfl := Except.ok.inj h
    exact readFrom_plainType .nil
  · next derivation hd =>
    have hderivation := holds_of_child hdown hcontent (child_of_derivation hd)
    obtain ⟨hnested, hgrouped, -⟩ := fromDeclarations_of_parts hdown hderivation fun c _ =>
      readsDeclarations hdown hgroups depth c
    obtain ⟨extended, hextended, h⟩ := Outcome.result_bind_eq_ok.1 h
    obtain ⟨nested, hn, h⟩ := Outcome.result_bind_eq_ok.1 h
    obtain ⟨grouped, hg, h⟩ := Outcome.result_bind_eq_ok.1 h
    obtain rfl := Except.ok.inj h
    refine ⟨(hnested nested hn).append (hgrouped grouped hg), fun key hkey => ?_⟩
    exact namesBase_of_extendedType hderivation ((Except.ok.inj hextended).trans hkey)

theorem complexType_readFrom (hnode : P scope node) {derived : Derived Draft}
    (h : (complexType groups depth scope node).result = .ok derived) :
    ReadFrom groups P derived := by
  have hread := readsDeclarations hdown hgroups depth
  rw [complexType_eq] at h
  split at h
  · next inner hinner =>
    obtain ⟨members, hmembers, h⟩ := Outcome.result_bind_eq_ok.1 h
    obtain rfl := Except.ok.inj h
    exact readFrom_plainType (hread ⟨.particle, scope, inner⟩
      (holds_of_child hdown hnode (child_of_first hinner)) members hmembers)
  · split at h
    · next inner hinner =>
      obtain ⟨members, hmembers, h⟩ := Outcome.result_bind_eq_ok.1 h
      obtain rfl := Except.ok.inj h
      exact readFrom_plainType (hread ⟨.group, scope, inner⟩
        (holds_of_child hdown hnode (child_of_element? hinner)) members hmembers)
    · split at h
      · next content hcontent =>
        exact simpleContent_readFrom hdown hgroups
          (holds_of_child hdown hnode (child_of_element? hcontent)) h
      · split at h
        · next content hcontent =>
          exact complexContent_readFrom hdown hgroups
            (holds_of_child hdown hnode (child_of_element? hcontent)) h
        · unfold contentless at h
          split at h
          · obtain rfl := Except.ok.inj h
            exact readFrom_plainType .nil
          · cases h

theorem isRead_of_complexType {depth : Nat} {scope : Scope} {node : Tree}
    (hnode : P scope node) {derived : Derived Draft}
    (h : (complexType groups depth scope node).result = .ok derived) :
    IsRead P (.object derived) := by
  obtain ⟨hmembers, hextended⟩ := complexType_readFrom hdown hgroups hnode h
  refine .object (fun e he => ?_) (fun e he => ?_) hextended
  · obtain ⟨depth, scope, node, hnode, helement⟩ := hmembers e he
    exact ⟨scope, node, hnode, declared_of_element helement⟩
  · obtain ⟨depth, scope, node, hnode, helement⟩ := hmembers e he
    cases htype : e.2.type with
    | primitive name => exact .primitive name
    | reference key => exact .reference key
    | object inner =>
      obtain ⟨content, hcontent, hinner⟩ := content_of_element helement htype
      exact isRead_of_complexType (holds_of_content hdown hnode hcontent) hinner
termination_by sizeOf derived
decreasing_by exact Derived.sizeOf_of_member he htype

end

end Content

end SoapComponents
