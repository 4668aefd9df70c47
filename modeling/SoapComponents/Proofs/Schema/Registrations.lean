import Mathlib.Data.List.Perm.Basic
import SoapComponents.Proofs.Schema.Grouped
import SoapComponents.Proofs.Schema.Reordered

/-!
Building as a list of registrations. Where each schema refers to groups of its own or of earlier
schemas only, all types can be read with the groups that are there in the end, and what is gathered
is what the declarations bring into an empty graph, one after another.
-/

set_option autoImplicit false

namespace SoapComponents

def declaredNodes (tag : String) (d : Tree × Scope) : List (Tree × Scope) :=
  (d.1.children tag).map (·, d.2)

def declaredKey? (d : Tree × Scope) : Option String :=
  (d.1.given? "name").map (Name.qualified d.2.target)

def declaredKeys (tag : String) (d : Tree × Scope) : List String :=
  (declaredNodes tag d).filterMap declaredKey?

/-- No name is declared twice for a type, for an element or for a group. -/
def DeclaredOnce (ds : List (Tree × Scope)) : Prop :=
  ∀ tag ∈ ["complexType", "element", "group"], (ds.flatMap (declaredKeys tag)).Nodup

instance (ds : List (Tree × Scope)) : Decidable (DeclaredOnce ds) :=
  inferInstanceAs (Decidable (∀ tag ∈ _, _))

namespace Groups

instance (groups : Groups) (scope : Scope) (t : Tree) : Decidable (groups.Covers scope t) :=
  inferInstanceAs (Decidable (∀ ref ∈ _, _))

def declared (d : Tree × Scope) : Groups :=
  (declaredNodes "group" d).filterMap fun node => (declaredKey? node).map (·, node)

def all (ds : List (Tree × Scope)) : Groups := Table.ofAssignments (ds.flatMap declared)

/-- The types and groups of each schema refer to groups of this schema or of earlier ones. -/
def Ready (known : Groups) : List (Tree × Scope) → Prop
  | [] => True
  | d :: rest =>
    (∀ node ∈ d.1.children "complexType" ++ d.1.children "group",
      Covers (Table.putAll known (declared d)) d.2 node) ∧
    Ready (Table.putAll known (declared d)) rest

/-- The types of schemas, each with the groups that are known when it is read: those of its own
schema and of the schemas before. -/
def typesAlong (known : Groups) : List (Tree × Scope) → List (Groups × Tree × Scope)
  | [] => []
  | d :: rest =>
    let known := Table.putAll known (declared d)
    (declaredNodes "complexType" d).map (known, ·) ++ typesAlong known rest

/-- Known groups on the way through schemas: none of them comes again, and they refer to each other
only. -/
structure Along (known : Groups) (ds : List (Tree × Scope)) : Prop where
  closed : Closed known
  ready : Ready known ds
  fresh : ∀ key ∈ Table.keys known, key ∉ ds.flatMap (declaredKeys "group")
  once : (ds.flatMap (declaredKeys "group")).Nodup

variable {known : Groups} {d : Tree × Scope} {ds : List (Tree × Scope)}

theorem keys_declared (d : Tree × Scope) : Table.keys (declared d) = declaredKeys "group" d := by
  simp only [declared, declaredKeys, Table.keys, List.map_filterMap, Option.map_map]
  congr 1
  funext node
  cases declaredKey? node <;> rfl

theorem keys_flatMap_declared (ds : List (Tree × Scope)) :
    Table.keys (ds.flatMap declared) = ds.flatMap (declaredKeys "group") := by
  unfold Table.keys
  rw [List.map_flatMap]
  congr 1
  funext d
  exact keys_declared d

theorem within_putAll {t u : Groups} (h : ∀ key ∈ Table.keys t, key ∉ Table.keys u) :
    Within t (Table.putAll t u) := by
  intro key found hfound
  have hnone : Table.value? u.reverse key = none := by
    cases hvalue : Table.value? u.reverse key with
    | none => rfl
    | some other =>
      have hmem := Table.mem_keys_of_value? hvalue
      simp only [Table.keys, List.map_reverse, List.mem_reverse] at hmem
      exact absurd hmem (h key (Table.mem_keys_of_value? hfound))
  rw [Table.value?_putAll, hnone, Option.none_or, hfound]

theorem putAll_append (t u v : Groups) :
    Table.putAll t (u ++ v) = Table.putAll (Table.putAll t u) v := List.foldl_append

theorem Along.step (h : Along known (d :: ds)) :
    Along (Table.putAll known (declared d)) ds ∧
      Within (Table.putAll known (declared d))
        (Table.putAll known ((d :: ds).flatMap declared)) := by
  have honce := h.once
  rw [List.flatMap_cons, List.nodup_append] at honce
  obtain ⟨_, honce, hapart⟩ := honce
  have hwithin : Within known (Table.putAll known (declared d)) := by
    refine within_putAll fun key hkey hmem => h.fresh key hkey ?_
    rw [keys_declared] at hmem
    exact List.mem_append_left _ hmem
  have hfresh : ∀ key ∈ Table.keys (Table.putAll known (declared d)),
      key ∉ ds.flatMap (declaredKeys "group") := by
    intro key hkey hmem
    rcases Table.mem_keys_putAll.1 hkey with hkey | hkey
    · exact h.fresh key hkey (List.mem_append_right _ hmem)
    · rw [keys_declared] at hkey
      exact hapart key hkey key hmem rfl
  refine ⟨⟨fun e he => ?_, h.ready.2, hfresh, honce⟩, ?_⟩
  · rcases Table.mem_putAll he with he | he
    · exact (h.closed e he).mono hwithin
    · obtain ⟨node, hnode, hentry⟩ := List.mem_filterMap.1 he
      obtain ⟨t, ht, rfl⟩ := List.mem_map.1 hnode
      obtain ⟨key, _, rfl⟩ := Option.map_eq_some_iff.1 hentry
      exact h.ready.1 t (List.mem_append_right _ ht)
  · rw [List.flatMap_cons, putAll_append]
    refine within_putAll fun key hkey => ?_
    rw [keys_flatMap_declared]
    exact hfresh key hkey

theorem along_start (hready : Ready [] ds) (honce : DeclaredOnce ds) : Along [] ds where
  closed := fun e he => by cases he
  ready := hready
  fresh := fun key hkey => by cases hkey
  once := honce "group" (by simp)

theorem closed_all (h : Along known ds) : Closed (Table.putAll known (ds.flatMap declared)) := by
  induction ds generalizing known with
  | nil => exact h.closed
  | cons d rest ih =>
    rw [List.flatMap_cons, putAll_append]
    exact ih h.step.1

theorem covers_all (h : Along known ds) {node : Tree × Scope}
    (hnode : node ∈ ds.flatMap (declaredNodes "complexType")) :
    Covers (Table.putAll known (ds.flatMap declared)) node.2 node.1 := by
  induction ds generalizing known with
  | nil => cases hnode
  | cons d rest ih =>
    rcases List.mem_append.1 hnode with hnode | hnode
    · obtain ⟨t, ht, rfl⟩ := List.mem_map.1 hnode
      exact (h.ready.1 t (List.mem_append_left _ ht)).mono h.step.2
    · rw [List.flatMap_cons, putAll_append]
      exact ih h.step.1 hnode

theorem within_all_of_perm {ds' : List (Tree × Scope)} (hperm : ds.Perm ds')
    (honce : DeclaredOnce ds) : Within (all ds) (all ds') := by
  have hproper : Table.Proper (ds.flatMap declared) := by
    rw [Table.Proper, keys_flatMap_declared]
    exact honce "group" (by simp)
  have hentries : (ds.flatMap declared).Perm (ds'.flatMap declared) := hperm.flatMap_right _
  have hproper' : Table.Proper (ds'.flatMap declared) :=
    (hentries.map Prod.fst).nodup_iff.1 hproper
  intro key found hfound
  rw [all, Table.ofAssignments, Table.value?_putAll, Table.value?_reverse hproper] at hfound
  rw [all, Table.ofAssignments, Table.value?_putAll, Table.value?_reverse hproper',
    ← Table.value?_eq_of_mem_iff hproper hproper' fun e => hentries.mem_iff, hfound]

end Groups

namespace Registration

def ofType (groups : Groups) (d : Tree × Scope) : Except Failure (Option Registration) :=
  match declaredKey? d with
  | none => .ok none
  | some key =>
    (Content.complexType groups groups.depthBound d.2 d.1).result.map fun derived => some (.type key derived)

def ofElement (groups : Groups) (d : Tree × Scope) : Except Failure (Option Registration) :=
  match declaredKey? d with
  | none => .ok none
  | some key =>
    match Building.content? d.1 with
    | some inner =>
      (Content.complexType groups groups.depthBound d.2 inner).result.map fun derived =>
        some (.content key derived)
    | none => .ok (some (.pointer key (Building.pointer d.2 d.1).value))

theorem ofType_cases {groups : Groups} {d : Tree × Scope} {r : Option Registration}
    (h : ofType groups d = .ok r) :
    (declaredKey? d = none ∧ r = none) ∨
      ∃ key derived, declaredKey? d = some key ∧
        (Content.complexType groups groups.depthBound d.2 d.1).result = .ok derived ∧
        r = some (.type key derived) := by
  unfold ofType at h
  split at h
  · next hkey => exact .inl ⟨hkey, (Except.ok.inj h).symm⟩
  · next key hkey =>
    obtain ⟨derived, hderived, rfl⟩ := eq_ok_of_map h
    exact .inr ⟨key, derived, hkey, hderived, rfl⟩

theorem ofElement_cases {groups : Groups} {d : Tree × Scope} {r : Option Registration}
    (h : ofElement groups d = .ok r) :
    (declaredKey? d = none ∧ r = none) ∨
      ∃ key, declaredKey? d = some key ∧
        ((Building.content? d.1 = none ∧
            r = some (.pointer key (Building.pointer d.2 d.1).value)) ∨
          ∃ inner derived, Building.content? d.1 = some inner ∧
            (Content.complexType groups groups.depthBound d.2 inner).result = .ok derived ∧
            r = some (.content key derived)) := by
  unfold ofElement at h
  split at h
  · next hkey => exact .inl ⟨hkey, (Except.ok.inj h).symm⟩
  · next key hkey =>
    refine .inr ⟨key, hkey, ?_⟩
    split at h
    · next inner hinner =>
      obtain ⟨derived, hderived, rfl⟩ := eq_ok_of_map h
      exact .inr ⟨inner, derived, hinner, hderived, rfl⟩
    · next hinner => exact .inl ⟨hinner, (Except.ok.inj h).symm⟩

def ofTypeAlong (e : Groups × Tree × Scope) : Except Failure (Option Registration) :=
  ofType e.1 e.2

section

variable {α : Type} (read : α → Except Failure (Option Registration)) (nodes : List α)

def Readable : Prop := ∀ d ∈ nodes, ∃ r, read d = .ok r

def list : List Registration := nodes.filterMap fun d => (read d).toOption.join

variable {read nodes}

theorem mem_list {r : Registration} : r ∈ list read nodes ↔ ∃ d ∈ nodes, read d = .ok (some r) := by
  refine List.mem_filterMap.trans (exists_congr fun d => and_congr_right fun _ => ?_)
  cases read d with
  | error _ => simp [Except.toOption]
  | ok found => cases found <;> simp [Except.toOption]

theorem list_append (more : List α) :
    list read (nodes ++ more) = list read nodes ++ list read more := List.filterMap_append

theorem readable_append {more : List α} :
    Readable read (nodes ++ more) ↔ Readable read nodes ∧ Readable read more := by
  simp only [Readable, List.mem_append, or_imp, forall_and]

theorem list_map {β : Type} {f : β → α} {read' : β → Except Failure (Option Registration)}
    {items : List β} (h : ∀ d ∈ items, read' d = read (f d)) :
    (Readable read' items ↔ Readable read (items.map f)) ∧
      list read' items = list read (items.map f) := by
  constructor
  · simp only [Readable, List.mem_map, forall_exists_index, and_imp, forall_apply_eq_imp_iff₂]
    exact forall₂_congr fun d hd => by rw [h d hd]
  · rw [list, list, List.filterMap_map]
    exact List.filterMap_congr fun d hd => by rw [h d hd, Function.comp_apply]

end

theorem list_ofType (known : Groups) (nodes : List (Tree × Scope)) :
    (Readable (ofType known) nodes ↔ Readable ofTypeAlong (nodes.map (known, ·))) ∧
      list (ofType known) nodes = list ofTypeAlong (nodes.map (known, ·)) :=
  @list_map _ ofTypeAlong _ (known, ·) (ofType known) nodes fun _ _ => rfl

variable {groups others : Groups} {d : Tree × Scope}
  {read : Tree × Scope → Except Failure (Option Registration)} {nodes : List (Tree × Scope)}

theorem declaredKey?_covered {d d' : Tree × Scope} (h : Content.Covered groups d d') :
    declaredKey? d' = declaredKey? d := by
  rw [declaredKey?, h.tree, h.target, declaredKey?]

theorem ofType_covered (hknown : Content.KnownAlike groups others) {d d' : Tree × Scope}
    (h : Content.Covered groups d d') : ofType others d' = ofType groups d := by
  unfold ofType
  rw [declaredKey?_covered h, Content.result_complexType_covered hknown h]

theorem ofType_alike (hwithin : groups.Within others) (hclosed : groups.Closed)
    (hcovers : groups.Covers d.2 d.1) : ofType groups d = ofType others d :=
  (ofType_covered (Content.knownAlike_of_within hwithin hclosed)
    (Content.covered_refl hcovers)).symm

theorem covered_content? {d d' : Tree × Scope} {inner : Tree} (h : Content.Covered groups d d')
    (hinner : Building.content? d.1 = some inner) :
    Content.Covered groups (inner, d.2) (inner, d'.2) := by
  rcases Content.self_or_child_of_content hinner with rfl | ⟨tag, hchild⟩
  · exact ⟨rfl, h.target, h.qualified, h.names, h.covers⟩
  · exact h.child hchild

theorem pointer_covered {d d' : Tree × Scope} (h : Content.Covered groups d d') :
    (Building.pointer d'.2 d'.1).value = (Building.pointer d.2 d.1).value := by
  unfold Building.pointer
  rw [h.tree, h.target, h.qualified]
  cases hwritten : d.1.given? "type" with
  | none => rfl
  | some written =>
    have hname := h.names written
      (Tree.writes_of_given (by simp [Content.namingAttributes]) hwritten)
    simp only [Noted.value_bind, Noted.value_pure, hname]

theorem ofElement_covered (hknown : Content.KnownAlike groups others) {d d' : Tree × Scope}
    (h : Content.Covered groups d d') : ofElement others d' = ofElement groups d := by
  unfold ofElement
  rw [declaredKey?_covered h, pointer_covered h, h.tree]
  split
  · rfl
  · cases hinner : Building.content? d.1 with
    | none => rfl
    | some inner =>
      exact congrArg (Except.map _) (Content.result_complexType_covered hknown
        (covered_content? h hinner))

theorem ofElement_alike (hwithin : groups.Within others) (hclosed : groups.Closed)
    (hcovers : groups.Covers d.2 d.1) : ofElement groups d = ofElement others d :=
  (ofElement_covered (Content.knownAlike_of_within hwithin hclosed)
    (Content.covered_refl hcovers)).symm

theorem map_key_list (hkey : ∀ d r, read d = .ok r → r.map key = declaredKey? d)
    (hread : Readable read nodes) : (list read nodes).map key = nodes.filterMap declaredKey? := by
  rw [list, List.map_filterMap]
  refine List.filterMap_congr fun d hd => ?_
  obtain ⟨r, hr⟩ := hread d hd
  rw [hr, ← hkey d r hr]
  rfl

theorem nodup_keys_list (hkey : ∀ d r, read d = .ok r → r.map key = declaredKey? d)
    {ds : List (Tree × Scope)} {tag : String}
    (hread : Readable read (ds.flatMap (declaredNodes tag)))
    (honce : (ds.flatMap (declaredKeys tag)).Nodup) :
    ((list read (ds.flatMap (declaredNodes tag))).map key).Nodup := by
  rw [map_key_list hkey hread, List.filterMap_flatMap]
  exact honce

theorem list_perm {read' : Tree × Scope → Except Failure (Option Registration)}
    {nodes' : List (Tree × Scope)} (hperm : nodes.Perm nodes')
    (hsame : ∀ d ∈ nodes, read d = read' d) :
    (Readable read nodes ↔ Readable read' nodes') ∧ (list read nodes).Perm (list read' nodes') := by
  refine ⟨⟨fun h d hd => ?_, fun h d hd => ?_⟩, ?_⟩
  · have hd := hperm.mem_iff.2 hd
    exact hsame d hd ▸ h d hd
  · exact (hsame d hd).symm ▸ h d (hperm.mem_iff.1 hd)
  · refine (List.Perm.of_eq (List.filterMap_congr fun d hd => ?_)).trans (hperm.filterMap _)
    rw [hsame d hd]

theorem key_ofType (d : Tree × Scope) (r : Option Registration) (h : ofType groups d = .ok r) :
    r.map key = declaredKey? d := by
  rcases ofType_cases h with ⟨hkey, rfl⟩ | ⟨_, _, hkey, _, rfl⟩ <;> exact hkey.symm

theorem key_ofElement (d : Tree × Scope) (r : Option Registration)
    (h : ofElement groups d = .ok r) : r.map key = declaredKey? d := by
  rcases ofElement_cases h with ⟨hkey, rfl⟩ | ⟨_, hkey, ⟨_, rfl⟩ | ⟨_, _, _, _, rfl⟩⟩ <;>
    exact hkey.symm

end Registration

namespace Groups

open Registration

theorem map_typesAlong (known : Groups) (ds : List (Tree × Scope)) :
    (known.typesAlong ds).map Prod.snd = ds.flatMap (declaredNodes "complexType") := by
  induction ds generalizing known with
  | nil => rfl
  | cons d rest ih =>
    rw [typesAlong, List.map_append, ih, List.map_map, List.flatMap_cons]
    exact congrArg (· ++ _) (List.map_id _)

theorem typesAlong_append (known : Groups) (ds more : List (Tree × Scope)) :
    known.typesAlong (ds ++ more) =
      known.typesAlong ds ++ typesAlong (Table.putAll known (ds.flatMap declared)) more := by
  induction ds generalizing known with
  | nil => rfl
  | cons d rest ih =>
    rw [List.cons_append, typesAlong, ih, List.flatMap_cons, putAll_append, typesAlong,
      List.append_assoc]

theorem Along.ofType_eq {known : Groups} {ds : List (Tree × Scope)} (h : Along known ds) :
    ∀ e ∈ known.typesAlong ds,
      ofTypeAlong e = ofType (Table.putAll known (ds.flatMap declared)) e.2 := by
  induction ds generalizing known with
  | nil => simp [typesAlong]
  | cons d rest ih =>
    obtain ⟨halong, hwithin⟩ := h.step
    intro e he
    rcases List.mem_append.1 he with he | he
    · obtain ⟨node, hnode, rfl⟩ := List.mem_map.1 he
      obtain ⟨t, ht, rfl⟩ := List.mem_map.1 hnode
      exact ofType_alike hwithin halong.closed (h.ready.1 t (List.mem_append_left _ ht))
    · rw [List.flatMap_cons, putAll_append]
      exact ih halong e he

theorem Along.list_types {known : Groups} {ds : List (Tree × Scope)} (h : Along known ds) :
    (Readable ofTypeAlong (known.typesAlong ds) ↔
      Readable (ofType (Table.putAll known (ds.flatMap declared)))
        (ds.flatMap (declaredNodes "complexType"))) ∧
    list ofTypeAlong (known.typesAlong ds) =
      list (ofType (Table.putAll known (ds.flatMap declared)))
        (ds.flatMap (declaredNodes "complexType")) := by
  rw [← map_typesAlong known ds]
  exact list_map h.ofType_eq

end Groups

namespace Building

open Registration

def registerRead (b : Building) (r : Option Registration) : Building := r.elim b b.register

theorem result_registerType_read (b : Building) (scope : Scope) (node : Tree) :
    (registerType scope b node).result = (ofType b.groups (node, scope)).map b.registerRead := by
  unfold registerType ofType declaredKey?
  cases node.given? "name" with
  | none => rfl
  | some name =>
    simp only [addType, Option.map_some, bind_assoc, Outcome.result_bind]
    cases (Content.complexType b.groups b.groups.depthBound scope node).result with
    | error _ => rfl
    | ok derived => rfl

theorem result_registerElement_read (b : Building) (d : Tree × Scope) :
    (b.registerElement d).result = (ofElement b.groups d).map b.registerRead := by
  obtain ⟨node, scope⟩ := d
  unfold registerElement ofElement declaredKey?
  dsimp only
  cases node.given? "name" with
  | none => rfl
  | some name =>
    simp only [Option.map_some]
    cases content? node with
    | none => rfl
    | some inner =>
      simp only [addType, bind_assoc, Outcome.result_bind]
      cases (Content.complexType b.groups b.groups.depthBound scope inner).result with
      | error _ => rfl
      | ok derived => rfl

variable {b c : Building} {read : Tree × Scope → Except Failure (Option Registration)}

@[simp] theorem groups_register (b : Building) (r : Registration) :
    (b.register r).groups = b.groups := by
  cases r <;> rfl

theorem groups_registerRead (b : Building) (r : Option Registration) :
    (b.registerRead r).groups = b.groups := by
  cases r with
  | none => rfl
  | some r => exact groups_register b r

theorem result_foldlM_read {f : Building → Tree × Scope → Outcome Building} {groups : Groups}
    {nodes : List (Tree × Scope)}
    (hf : ∀ b, b.groups = groups → ∀ d ∈ nodes, (f b d).result = (read d).map b.registerRead)
    (hb : b.groups = groups) : (nodes.foldlM f b).result = .ok c ↔
      Readable read nodes ∧ c = (list read nodes).foldl register b := by
  induction nodes generalizing b with
  | nil =>
    simp only [List.foldlM_nil, Outcome.result_pure, Except.ok.injEq, Readable, list,
      List.not_mem_nil, false_implies, implies_true, true_and, List.filterMap_nil, List.foldl_nil]
    exact eq_comm
  | cons d rest ih =>
    rw [List.foldlM_cons, Outcome.result_bind, hf b hb d List.mem_cons_self]
    cases hread : read d with
    | error failure =>
      refine iff_of_false (by simp [Except.map]) fun h => ?_
      obtain ⟨r, hr⟩ := h.1 d List.mem_cons_self
      cases hread.symm.trans hr
    | ok r =>
      have hgroups := (groups_registerRead b r).trans hb
      have hlist : (list read (d :: rest)).foldl register b =
          (list read rest).foldl register (b.registerRead r) := by
        cases r <;> simp [list, hread, registerRead, Except.toOption]
      have hreadable : Readable read (d :: rest) ↔ Readable read rest := by
        simp [Readable, hread]
      rw [hlist, hreadable]
      exact ih (fun b hb d hd => hf b hb d (List.mem_cons_of_mem _ hd)) hgroups

end Building

namespace Visit

def declaration? : Visit → Option (Tree × Scope)
  | declare schema scope => some (schema, scope)
  | _ => none

/-- The schemas whose declarations are read, in order. -/
def declared (visits : List Visit) : List (Tree × Scope) := visits.filterMap declaration?

/-- The declarations of a tag in all schemas that are visited. -/
def nodes (tag : String) (visits : List Visit) : List (Tree × Scope) :=
  (declared visits).flatMap (declaredNodes tag)

variable {v : Visit} {visits : List Visit}

theorem declared_cons (h : v.declaration? = none) : declared (v :: visits) = declared visits :=
  List.filterMap_cons_none h

theorem nodes_cons (tag : String) (h : v.declaration? = none) :
    nodes tag (v :: visits) = nodes tag visits := by
  rw [nodes, declared_cons h, nodes]

theorem declared_declare (schema : Tree) (scope : Scope) :
    declared (declare schema scope :: visits) = (schema, scope) :: declared visits := rfl

theorem nodes_declare (tag : String) (schema : Tree) (scope : Scope) :
    nodes tag (declare schema scope :: visits) =
      declaredNodes tag (schema, scope) ++ nodes tag visits := rfl

end Visit

namespace Building

open Registration

variable {visits : List Visit} {groups : Groups} {b b' c : Building}

@[simp] theorem elements_register (b : Building) (r : Registration) :
    (b.register r).elements = b.elements := by
  cases r <;> rfl

theorem groups_foldl (l : List Registration) (b : Building) :
    (l.foldl register b).groups = b.groups := by
  induction l generalizing b with
  | nil => rfl
  | cons r rest ih => rw [List.foldl_cons, ih, groups_register]

theorem elements_foldl (l : List Registration) (b : Building) :
    (l.foldl register b).elements = b.elements := by
  induction l generalizing b with
  | nil => rfl
  | cons r rest ih => rw [List.foldl_cons, ih, elements_register]

theorem Renumbered.of_eq (hobjects : b'.graph.objects = b.graph.objects)
    (helements : b'.graph.elements = b.graph.elements)
    (htypes : b'.graph.complexTypes = b.graph.complexTypes)
    (hextensions : b'.extensions = b.extensions) : Renumbered (Equiv.refl _) b b' := by
  have h := Renumbered.refl b
  refine ⟨congrArg List.length hobjects, h.fixed, fun id => ?_, ?_, ?_, ?_⟩
  · rw [← h.object, TypeGraph.object, TypeGraph.object, hobjects]
  · exact helements ▸ h.elements
  · exact htypes ▸ h.complexTypes
  · exact hextensions ▸ h.extensions

theorem groups_registerGroups (b : Building) (schema : Tree) (scope : Scope) :
    (b.registerGroups schema scope).groups =
      Table.putAll b.groups (Groups.declared (schema, scope)) := by
  simp only [registerGroups, Table.putAll, Groups.declared, declaredNodes, declaredKey?,
    List.filterMap_map, List.foldl_filterMap]
  congr 1
  funext known node
  dsimp only [Function.comp_apply]
  cases node.given? "name" <;> rfl

def Passable (groups : Groups) (visits : List Visit) : Prop :=
  (∀ failure, .fail failure ∉ visits) ∧ Readable (ofType groups) (Visit.nodes "complexType" visits)

def Passing (known : Groups) (visits : List Visit) : Prop :=
  (∀ failure, .fail failure ∉ visits) ∧
    Readable ofTypeAlong (known.typesAlong (Visit.declared visits))

/-- What visits leave: the types that they declare are registered, their groups are known, and the
elements wait. -/
structure Visited (visits : List Visit) (b c : Building) : Prop where
  types : Renumbered (Equiv.refl _)
    ((list ofTypeAlong (b.groups.typesAlong (Visit.declared visits))).foldl register b) c
  groups : c.groups = Table.putAll b.groups ((Visit.declared visits).flatMap Groups.declared)
  elements : c.elements = b.elements ++ Visit.nodes "element" visits

theorem Visited.skip {v : Visit} (hv : v.declaration? = none)
    (hsame : Renumbered (Equiv.refl _) b b') (hgroups : b'.groups = b.groups)
    (helements : b'.elements = b.elements) (h : Visited visits b' c) :
    Visited (v :: visits) b c := by
  constructor
  · rw [Visit.declared_cons hv, ← hgroups]
    exact (hsame.foldl _).trans h.types
  · rw [Visit.declared_cons hv, ← hgroups]
    exact h.groups
  · rw [Visit.nodes_cons _ hv, ← helements]
    exact h.elements

theorem passing_cons {v : Visit} (hv : v.declaration? = none)
    (hfail : ∀ failure, v ≠ .fail failure) :
    Passing groups (v :: visits) ↔ Passing groups visits := by
  simp only [Passing, Visit.declared_cons hv, List.mem_cons, not_or]
  exact and_congr_left' ⟨fun h failure => (h failure).2, fun h failure =>
    ⟨fun heq => hfail failure heq.symm, h failure⟩⟩

theorem passing_declare {schema : Tree} {scope : Scope} {known : Groups}
    (hknown : known = Table.putAll groups (Groups.declared (schema, scope))) :
    Passing groups (.declare schema scope :: visits) ↔
      Readable (ofType known) (declaredNodes "complexType" (schema, scope)) ∧
        Passing known visits := by
  rw [(list_ofType known _).1, Passing, Visit.declared_declare, Groups.typesAlong, ← hknown,
    readable_append]
  simp only [List.mem_cons, not_or, reduceCtorEq, not_false_eq_true, true_and]
  exact and_left_comm

/-- Visits come to something just when they are passing, and then leave the registrations of the
types that they declare. -/
structure Foreseen (visits : List Visit) (b : Building) : Prop where
  made : ∀ c, (visits.foldlM step b).result = .ok c →
    Passing b.groups visits ∧ Visited visits b c
  makes : Passing b.groups visits → ∃ c, (visits.foldlM step b).result = .ok c

theorem Foreseen.nil (b : Building) : Foreseen [] b := by
  refine ⟨fun c hc => ?_, fun _ => ⟨b, rfl⟩⟩
  obtain rfl := Except.ok.inj hc
  exact ⟨⟨by simp, by simp [Readable, Groups.typesAlong, Visit.declared]⟩,
    ⟨Renumbered.refl b, rfl, (List.append_nil _).symm⟩⟩

theorem Foreseen.skip {v : Visit} (hv : v.declaration? = none)
    (hfail : ∀ failure, v ≠ .fail failure) (hstep : (b.step v).result = .ok b')
    (hsame : Renumbered (Equiv.refl _) b b') (hgroups : b'.groups = b.groups)
    (helements : b'.elements = b.elements) (h : Foreseen visits b') :
    Foreseen (v :: visits) b := by
  constructor <;>
    rw [List.foldlM_cons, Outcome.result_bind, hstep, passing_cons hv hfail, ← hgroups]
  · exact fun c hc => ⟨(h.made c hc).1, (h.made c hc).2.skip hv hsame hgroups helements⟩
  · exact h.makes

theorem Foreseen.fail (failure : Failure) : Foreseen (.fail failure :: visits) b :=
  ⟨fun _ hc => (by cases hc), fun hpass => absurd List.mem_cons_self (hpass.1 failure)⟩

theorem result_step_declare {schema : Tree} {scope : Scope} {known : Groups}
    (hknown : known = Table.putAll b.groups (Groups.declared (schema, scope))) :
    (b.step (.declare schema scope)).result = .ok c ↔
      Readable (ofType known) (declaredNodes "complexType" (schema, scope)) ∧
        c = { (list (ofType known) (declaredNodes "complexType" (schema, scope))).foldl register
            (b.registerGroups schema scope) with
          elements := b.elements ++ declaredNodes "element" (schema, scope) } := by
  have hfold : ∀ typed, ((schema.children "complexType").foldlM (registerType scope)
      (b.registerGroups schema scope)).result = .ok typed ↔
        Readable (ofType known) (declaredNodes "complexType" (schema, scope)) ∧
          typed = (list (ofType known) (declaredNodes "complexType" (schema, scope))).foldl
            register (b.registerGroups schema scope) := by
    intro typed
    have hread := @result_foldlM_read (b.registerGroups schema scope) typed (ofType known)
      (fun b d => registerType d.2 b d.1) known (declaredNodes "complexType" (schema, scope))
      (fun b hb d _ => by rw [result_registerType_read, hb])
      ((groups_registerGroups b schema scope).trans hknown.symm)
    rwa [declaredNodes, List.foldlM_map] at hread
  unfold step
  rw [Outcome.result_bind_eq_ok]
  constructor
  · rintro ⟨typed, htyped, hc⟩
    obtain ⟨hreadable, rfl⟩ := (hfold typed).1 htyped
    obtain rfl := Except.ok.inj hc
    refine ⟨hreadable, ?_⟩
    rw [elements_foldl]
    rfl
  · rintro ⟨hreadable, rfl⟩
    refine ⟨_, (hfold _).2 ⟨hreadable, rfl⟩, ?_⟩
    rw [elements_foldl]
    rfl

theorem Foreseen.declare {schema : Tree} {scope : Scope}
    (hrest : ∀ c, c.groups = Table.putAll b.groups (Groups.declared (schema, scope)) →
      Foreseen visits c) :
    Foreseen (.declare schema scope :: visits) b := by
  generalize hknown : Table.putAll b.groups (Groups.declared (schema, scope)) = known at hrest
  have hstep := fun typed => @result_step_declare b typed schema scope known hknown.symm
  have hgroups : ∀ typed, (b.step (.declare schema scope)).result = .ok typed →
      typed.groups = known := by
    intro typed htyped
    obtain ⟨_, rfl⟩ := (hstep typed).1 htyped
    exact (groups_foldl _ _).trans ((groups_registerGroups b schema scope).trans hknown)
  refine ⟨fun c hc => ?_, fun hpass => ?_⟩
  · rw [List.foldlM_cons, Outcome.result_bind_eq_ok] at hc
    obtain ⟨typed, htyped, hc⟩ := hc
    have hknownTyped := hgroups typed htyped
    obtain ⟨hpass, hvisited⟩ := (hrest typed hknownTyped).made c hc
    obtain ⟨htypes, hknownAfter, helements⟩ := hvisited
    rw [hknownTyped] at hpass htypes hknownAfter
    obtain ⟨hreadable, htyped⟩ := (hstep typed).1 htyped
    have hbefore : Renumbered (Equiv.refl _) b (b.registerGroups schema scope) :=
      .of_eq rfl rfl rfl rfl
    have hafter : Renumbered (Equiv.refl _) ((list (ofType known)
        (declaredNodes "complexType" (schema, scope))).foldl register
          (b.registerGroups schema scope)) typed := by
      rw [htyped]
      exact .of_eq rfl rfl rfl rfl
    refine ⟨(passing_declare hknown.symm).2 ⟨hreadable, hpass⟩, ⟨?_, ?_, ?_⟩⟩
    · rw [Visit.declared_declare, Groups.typesAlong, hknown, list_append, ← (list_ofType known _).2,
        List.foldl_append]
      exact (((hbefore.foldl _).trans hafter).foldl _).trans htypes
    · rw [Visit.declared_declare, List.flatMap_cons, Groups.putAll_append, hknown]
      exact hknownAfter
    · rw [helements, htyped, Visit.nodes_declare, List.append_assoc]
  · obtain ⟨hreadable, hpass⟩ := (passing_declare hknown.symm).1 hpass
    have htyped := (hstep _).2 ⟨hreadable, rfl⟩
    obtain ⟨c, hc⟩ := (hrest _ (hgroups _ htyped)).makes (by rwa [hgroups _ htyped])
    exact ⟨c, by rw [List.foldlM_cons, Outcome.result_bind_eq_ok]; exact ⟨_, htyped, hc⟩⟩

theorem foreseen (visits : List Visit) (b : Building) : Foreseen visits b := by
  induction visits generalizing b with
  | nil => exact .nil b
  | cons v rest ih =>
    cases v with
    | enter scope =>
      exact .skip rfl (by simp) rfl (.of_eq rfl rfl rfl rfl) rfl rfl (ih (b.enter scope))
    | load space location => exact .skip rfl (by simp) rfl (.refl b) rfl rfl (ih b)
    | tell notice => exact .skip rfl (by simp) rfl (.refl b) rfl rfl (ih b)
    | fail failure => exact .fail failure
    | declare schema scope => exact .declare fun c _ => ih c

section

variable {origin : Option Visit.Origin} {roots : List Tree} {outer : Table String}
  {start : Option String}

/-- What is gathered: it comes to something just when every visit can be made and every element can
be read, and is then what the types and after them the elements bring into an empty graph. -/
theorem result_gather_along :
    let visits := Visit.all origin roots outer start
    let groups := Groups.all (Visit.declared visits)
    ((∃ b, (gather origin roots outer start).result = .ok b) ↔
      Passing [] visits ∧ Readable (ofElement groups) (Visit.nodes "element" visits)) ∧
    ∀ b, (gather origin roots outer start).result = .ok b →
      Renumbered (Equiv.refl _) ((list ofTypeAlong (Groups.typesAlong [] (Visit.declared visits)) ++
        list (ofElement groups) (Visit.nodes "element" visits)).foldl register {}) b := by
  intro visits groups
  obtain ⟨hto, hof⟩ := foreseen visits {}
  have helements : ∀ c, Visited visits {} c → ∀ b, c.registerElements.result = .ok b ↔
      Readable (ofElement groups) (Visit.nodes "element" visits) ∧
        b = (list (ofElement groups) (Visit.nodes "element" visits)).foldl register c := by
    intro c hc b
    have hread := @result_foldlM_read c b (ofElement groups) registerElement groups c.elements
      (fun b hb d _ => by rw [result_registerElement_read, hb]) hc.groups
    have hwaiting : c.elements = Visit.nodes "element" visits := hc.elements
    rw [hwaiting] at hread
    rw [registerElements, hwaiting]
    exact hread
  refine ⟨⟨?_, ?_⟩, fun b hb => ?_⟩
  · rintro ⟨b, hb⟩
    obtain ⟨c, hc, hb⟩ := Outcome.result_bind_eq_ok.1 hb
    obtain ⟨hpass, hvisited⟩ := hto c hc
    exact ⟨hpass, ((helements c hvisited b).1 hb).1⟩
  · rintro ⟨hpass, hreadable⟩
    obtain ⟨c, hc⟩ := hof hpass
    exact ⟨_, Outcome.result_bind_eq_ok.2
      ⟨c, hc, (helements c (hto c hc).2 _).2 ⟨hreadable, rfl⟩⟩⟩
  · obtain ⟨c, hc, hb⟩ := Outcome.result_bind_eq_ok.1 hb
    obtain ⟨_, hvisited⟩ := hto c hc
    obtain ⟨_, rfl⟩ := (helements c hvisited b).1 hb
    rw [List.foldl_append]
    exact hvisited.types.foldl _

/-- The same where types refer to groups of their own or of earlier schemas only: all of them can be
read with the groups that are there in the end. -/
theorem result_gather
    (honce : DeclaredOnce (Visit.declared (Visit.all origin roots outer start)))
    (hready : Groups.Ready [] (Visit.declared (Visit.all origin roots outer start))) :
    let visits := Visit.all origin roots outer start
    let groups := Groups.all (Visit.declared visits)
    ((∃ b, (gather origin roots outer start).result = .ok b) ↔
      Passable groups visits ∧ Readable (ofElement groups) (Visit.nodes "element" visits)) ∧
    ∀ b, (gather origin roots outer start).result = .ok b →
      Renumbered (Equiv.refl _) ((list (ofType groups) (Visit.nodes "complexType" visits) ++
        list (ofElement groups) (Visit.nodes "element" visits)).foldl register {}) b := by
  intro visits groups
  obtain ⟨hreadable, hlist⟩ := (Groups.along_start hready honce).list_types
  obtain ⟨hiff, hgathered⟩ := @result_gather_along origin roots outer start
  have hpassing : Passing [] visits ↔ Passable groups visits := and_congr_right fun _ => hreadable
  exact ⟨hiff.trans (and_congr_left' hpassing), fun b hb => hlist ▸ hgathered b hb⟩

end

end Building

end SoapComponents
