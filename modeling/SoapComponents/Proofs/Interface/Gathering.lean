import SoapComponents.Proofs.Bounded
import SoapComponents.Proofs.Interface.Closed
import SoapComponents.Proofs.Reference.Chains

/-!
How the collecting of interfaces ends, and what it comes upon. A walk in nested calls has a name for
every object that it comes upon, and goes into an object only if its name is new. So the calls are
nested no deeper than there are names to give, and what the walk has made in the end is what is
collected, however the objects lie within each other.
-/

set_option autoImplicit false

namespace SoapComponents

/-- An object with members that a walk comes upon, and the name of the interface for it. -/
structure Meeting where
  name : String
  node : ObjectNode
  /-- The object is met as the type of a member that holds it itself. -/
  isInline : Bool

/-- How far a walk is: the interfaces that it has made, and the objects that it has met. -/
structure Gathered where
  found : List Interface := []
  met : List Meeting := []

namespace Gathered

def names (g : Gathered) : List String := g.found.map (·.name)

def meet (g : Gathered) (n : Meeting) : Gathered := { g with met := g.met ++ [n] }

def add (g : Gathered) (i : Interface) : Gathered := { g with found := g.found ++ [i] }

end Gathered

namespace NestedObject

def meeting (n : NestedObject) (c : Catalog) : Meeting := ⟨n.name, c.graph.object n.id, n.isInline⟩

end NestedObject

namespace Catalog

def gatherInterface (c : Catalog)
    (members : Gathered → List (String × Member TypeNode) → Bounded Gathered)
    (g : Gathered) (n : Meeting) : Bounded Gathered := do
  let g := g.meet n
  if n.name ∈ g.names then return g
  let fields ← .of (c.fields n.node)
  members (g.add ⟨n.name, fields⟩) n.node.members

def gatherMember (c : Catalog)
    (members : Gathered → List (String × Member TypeNode) → Bounded Gathered)
    (g : Gathered) (e : String × Member TypeNode) : Bounded Gathered := do
  match ← .of (c.nested? e.1 e.2.type) with
  | none => return g
  | some n =>
    .of (c.shapeNotices n g.found)
    c.gatherInterface members g (n.meeting c)

def gatherMembers (c : Catalog) :
    Nat → Gathered → List (String × Member TypeNode) → Bounded Gathered
  | 0, _, _ => failure
  | depth + 1, g, members => members.foldlM (c.gatherMember (c.gatherMembers depth)) g

def gatherNamed (c : Catalog) (depth : Nat) (g : Gathered) (key : String) : Bounded Gathered :=
  match c.graph.complexTypes.value? key with
  | some id =>
    c.gatherInterface (c.gatherMembers depth) g ⟨Name.pascal key, c.graph.object id, false⟩
  | none => return g

def expandWithin (c : Catalog) : Nat → List ObjectId → Root → Bounded Root
  | 0, _, _ => failure
  | steps + 1, seen, r => do
    match ← .of (c.payload? r.node) with
    | none => return r
    | some p =>
      if p.id ∈ seen then return r
      else c.expandWithin steps (p.id :: seen) (Root.ofId c.graph p.id)

/-- Makes the interfaces of a root, of the named types at `reachable`, and of what the payload of the
root leads to. -/
def gatherRoot (c : Catalog) (depth : Nat) (name : String) (root payload : Root)
    (reachable : List String) : Bounded Gathered := do
  let g ← c.gatherInterface (c.gatherMembers depth) {} ⟨Name.pascal name, root.node, false⟩
  let g ← reachable.foldlM (c.gatherNamed depth) g
  if payload.id = root.id then return g else c.gatherMembers depth g payload.node.members

/-- The props and interfaces of a root, with all objects that are met on the way. -/
def shapesWithin (c : Catalog) (depth : Nat) (name : String) (root : Root)
    (reachable : List String) (propsName : Option String) : Bounded (Shapes × List Meeting) := do
  let payload ← c.expandWithin depth root.visited root
  let props : Interface :=
    ⟨(Name.given? propsName).getD (Name.pascal name ++ "Props"), ← .of (c.fields payload.node)⟩
  let g ← c.gatherRoot depth name root payload reachable
  let aliases ← .of (c.typeAliases payload.node)
  let kept := g.found.filter fun i => i.name ∉ aliases.map (·.name)
  .of (Noted.tell (.flattened name props.fields.length kept.length))
  return (⟨props, kept⟩, g.met)

section Collecting

variable {c : Catalog} {o : ObjectNode} {key : String} {m : Member TypeNode}
  {rest : List (String × Member TypeNode)} {found : List Interface}

theorem collect_of_none (known : ∀ e ∈ (key, m) :: rest, e ∈ c.graph.membersBeside o)
    (h : (c.nested? key m.type).value = none) :
    c.collect o ((key, m) :: rest) found known =
      c.nested? key m.type >>= fun _ =>
        c.collect o rest found fun e he => known e (List.mem_cons_of_mem _ he) := by
  rw [collect]
  split
  · next notices hn =>
    rw [hn]
    rfl
  · next hn => simp [hn] at h

theorem collect_of_known {n : NestedObject}
    (known : ∀ e ∈ (key, m) :: rest, e ∈ c.graph.membersBeside o)
    (h : (c.nested? key m.type).value = some n) (hold : n.name ∈ found.map (·.name)) :
    c.collect o ((key, m) :: rest) found known =
      c.nested? key m.type >>= fun _ => c.shapeNotices n found >>= fun _ =>
        c.collect o rest found fun e he => known e (List.mem_cons_of_mem _ he) := by
  rw [collect]
  split
  · next hn => simp [hn] at h
  · next n' notices hn =>
    obtain rfl : n' = n := by simpa [hn] using h
    rw [dif_pos hold, hn]
    rfl

theorem collect_of_new {n : NestedObject}
    (known : ∀ e ∈ (key, m) :: rest, e ∈ c.graph.membersBeside o)
    (known' : ∀ e ∈ (c.graph.object n.id).members ++ rest, e ∈ c.graph.membersBeside o)
    (h : (c.nested? key m.type).value = some n) (hnew : n.name ∉ found.map (·.name)) :
    c.collect o ((key, m) :: rest) found known =
      c.nested? key m.type >>= fun _ => c.fields (c.graph.object n.id) >>= fun fields =>
        c.collect o ((c.graph.object n.id).members ++ rest) (found ++ [⟨n.name, fields⟩]) known' := by
  rw [collect]
  split
  · next hn => simp [hn] at h
  · next n' notices hn =>
    obtain rfl : n' = n := by simpa [hn] using h
    rw [dif_neg hnew, hn]
    rfl

theorem collect_append {a b : List (String × Member TypeNode)}
    (known : ∀ e ∈ a ++ b, e ∈ c.graph.membersBeside o)
    (ha : ∀ e ∈ a, e ∈ c.graph.membersBeside o) (hb : ∀ e ∈ b, e ∈ c.graph.membersBeside o) :
    c.collect o (a ++ b) found known =
      c.collect o a found ha >>= fun found => c.collect o b found hb := by
  induction a, found, ha using collect.induct c o with
  | case1 found ha _ =>
    rw [collect.eq_def c o []]
    rfl
  | case2 found key m rest ha later notices hn _ ih =>
    have hnone : (c.nested? key m.type).value = none := by rw [hn]
    have hknown : ∀ e ∈ rest ++ b, e ∈ c.graph.membersBeside o :=
      fun e he => (List.mem_append.1 he).elim (later e) (hb e)
    rw [collect_of_none ha hnone, bind_assoc, ← ih hknown]
    exact collect_of_none known hnone
  | case3 found key m rest ha later n notices hn hold _ ih =>
    have hsome : (c.nested? key m.type).value = some n := by rw [hn]
    have hknown : ∀ e ∈ rest ++ b, e ∈ c.graph.membersBeside o :=
      fun e he => (List.mem_append.1 he).elim (later e) (hb e)
    rw [collect_of_known ha hsome hold, bind_assoc, bind_assoc, ← ih hknown]
    exact collect_of_known known hsome hold
  | case4 found key m rest ha later n notices hn hnew _ ih =>
    have hsome : (c.nested? key m.type).value = some n := by rw [hn]
    have hmembers : ∀ e ∈ (c.graph.object n.id).members, e ∈ c.graph.membersBeside o :=
      fun e he => TypeGraph.mem_membersBeside o he
    have hrest : ∀ e ∈ (c.graph.object n.id).members ++ rest, e ∈ c.graph.membersBeside o :=
      fun e he => (List.mem_append.1 he).elim (hmembers e) (later e)
    have hknown : ∀ e ∈ (c.graph.object n.id).members ++ rest ++ b, e ∈ c.graph.membersBeside o :=
      fun e he => (List.mem_append.1 he).elim (hrest e) (hb e)
    rw [collect_of_new ha hrest hsome hnew, bind_assoc]
    simp only [bind_assoc, ← ih _ hknown]
    simp only [List.append_assoc] at hknown ⊢
    exact collect_of_new known hknown hsome hnew

end Collecting

end Catalog

def Noted.Plain {α : Type} (x : Noted α) : Prop := ∀ name, .shapesDiffer name ∉ x.notices

namespace Noted.Plain

variable {α β : Type}

theorem pure (a : α) : Plain (Pure.pure a) := fun _ => List.not_mem_nil

theorem bind {x : Noted α} {f : α → Noted β} (hx : x.Plain) (hf : (f x.value).Plain) :
    Plain (x >>= f) := by
  intro name h
  rw [Noted.notices_bind] at h
  exact (List.mem_append.1 h).elim (hx name) (hf name)

theorem map {x : Noted α} (f : α → β) (hx : x.Plain) : Plain (f <$> x) := by
  intro name
  rw [Noted.notices_map]
  exact hx name

theorem mapM {f : α → Noted β} (hf : ∀ a, (f a).Plain) (l : List α) : Plain (l.mapM f) := by
  induction l with
  | nil => exact .pure []
  | cons a rest ih =>
    rw [List.mapM_cons]
    exact (hf a).bind (ih.bind (.pure _))

theorem tell {notice : Notice} (h : ∀ name, notice ≠ .shapesDiffer name) :
    Plain (Noted.tell notice) :=
  fun name hname => h name (List.mem_singleton.1 hname).symm

end Noted.Plain

namespace Catalog

variable {c : Catalog}

theorem plain_unwrap (c : Catalog) (target name : String) (wrapper : Option Reference) :
    (c.unwrap target name wrapper).Plain := by
  unfold unwrap
  split
  · exact (Noted.Plain.tell (by simp)).bind (.pure _)
  · exact (Noted.Plain.tell (by simp)).bind (.pure _)

theorem plain_follow (c : Catalog) (origin : String) (q : Query) (wrapper : Option Reference) :
    (c.finder.follow origin q wrapper).Plain := by
  refine c.follow_induction origin (motive := fun _ _ x => x.Plain) (fun _ _ _ => .pure _)
    (fun q wrapper found _ ih => ?_) q wrapper
  have hfound : (Noted.tellAll (found.notices q.ref)).Plain := by
    intro name
    show _ ∉ found.notices q.ref
    unfold Found.notices
    split <;> simp
  refine hfound.bind ?_
  rw [Finder.goOn]
  split
  · exact .pure _
  · exact c.plain_unwrap _ _ _
  · next pointer hnext => exact ih pointer hnext

theorem plain_resolve (c : Catalog) (ref : String) : (c.resolve ref).Plain := by
  rw [resolve_eq]
  split
  · exact .pure _
  · exact c.plain_follow _ _ _

theorem plain_resolveObject (c : Catalog) (ref : String) : (c.resolveObject ref).Plain := by
  refine (c.plain_resolve ref).bind ?_
  split <;> exact .pure _

theorem plain_nested? (c : Catalog) (key : String) (type : TypeNode) :
    (c.nested? key type).Plain := by
  cases type with
  | primitive name => exact .pure _
  | object id => exact .pure _
  | reference pointer =>
    refine (c.plain_resolveObject pointer.name).bind ?_
    split <;> exact .pure _

theorem plain_payload? (c : Catalog) (o : ObjectNode) : (c.payload? o).Plain := by
  unfold payload?
  split
  · next key m _ =>
    split
    · exact .pure _
    · have hobject : (c.memberObject m.type).Plain := by
        unfold memberObject
        split
        · exact .pure _
        · exact .pure _
        · exact (c.plain_resolveObject _).bind (.pure _)
      refine hobject.bind ?_
      split <;> exact .pure _
  · exact .pure _

theorem payloads_eq (c : Catalog) (o : ObjectNode) (visited : List ObjectId) :
    c.payloads o visited = c.payload? o >>= fun next => match next with
      | none => pure []
      | some p =>
        if p.id ∈ visited then pure []
        else (p :: ·) <$> c.payloads (c.graph.object p.id) (p.id :: visited) := by
  rw [payloads]
  split
  · next notices h =>
    rw [h]
    show _ = Noted.mk _ _
    simp
  · next p notices h =>
    rw [h]
    show _ = Noted.mk _ _
    by_cases hp : p.id ∈ visited <;> simp [hp]

theorem plain_payloads (c : Catalog) (o : ObjectNode) (visited : List ObjectId) :
    (c.payloads o visited).Plain := by
  induction o, visited using payloads.induct c with
  | case1 o visited notices h =>
    rw [payloads_eq]
    refine (c.plain_payload? o).bind ?_
    rw [h]
    exact .pure _
  | case2 o visited payload notices h hvisited =>
    rw [payloads_eq]
    refine (c.plain_payload? o).bind ?_
    simp only [h, if_pos hvisited]
    exact .pure _
  | case3 o visited payload notices h hvisited ih =>
    rw [payloads_eq]
    refine (c.plain_payload? o).bind ?_
    simp only [h, if_neg hvisited]
    exact .map _ ih

theorem plain_fields (c : Catalog) (o : ObjectNode) : (c.fields o).Plain := by
  refine .mapM (fun e => ?_) _
  have htype : (c.fieldType e.1 e.2.type).Plain := by
    unfold fieldType
    split
    · exact .pure _
    · exact .pure _
    · refine (c.plain_resolve _).bind ?_
      split
      · exact (Noted.Plain.tell (by simp)).bind (.pure _)
      · exact .pure _
  exact htype.bind (.pure _)

theorem plain_typeAliases (c : Catalog) (o : ObjectNode) : (c.typeAliases o).Plain := by
  refine Noted.Plain.bind (.mapM (fun e => ?_) _) (.pure _)
  have hhost : (c.builtInHost? e.2.type).Plain := by
    unfold builtInHost?
    split
    · exact .pure _
    · exact .pure _
    · exact (c.plain_resolve _).bind (.pure _)
  exact hhost.bind (.pure _)

theorem mem_notices_shapeNotices {n : NestedObject} {found : List Interface} {name : String} :
    .shapesDiffer name ∈ (c.shapeNotices n found).notices ↔
      n.isInline = true ∧ n.name = name ∧ ∃ i, found.find? (·.name == n.name) = some i ∧
        i.hasFields (c.fields (c.graph.object n.id)).value = false := by
  unfold shapeNotices
  cases hfind : found.find? (·.name == n.name) with
  | none => simp
  | some i =>
    dsimp only
    cases hinline : n.isInline with
    | false => simp
    | true =>
      have hplain := c.plain_fields (c.graph.object n.id) name
      rw [if_pos rfl, Noted.notices_bind, List.mem_append, or_iff_right hplain]
      cases hsame : i.hasFields (c.fields (c.graph.object n.id)).value with
      | true => simp [hsame]
      | false =>
        show Notice.shapesDiffer name ∈ [Notice.shapesDiffer n.name] ↔ _
        rw [List.mem_singleton, Notice.shapesDiffer.injEq, eq_comm]
        simp [hsame]

theorem shapeNotices_of_new {n : NestedObject} {found : List Interface}
    (h : n.name ∉ found.map (·.name)) : c.shapeNotices n found = pure () := by
  have hnone : found.find? (·.name == n.name) = none := by
    rw [List.find?_eq_none]
    exact fun i hi heq => h (List.mem_map.2 ⟨i, hi, by simpa using heq⟩)
  rw [shapeNotices, hnone]

end Catalog

def Catalog.Owns (c : Catalog) (root node : ObjectNode) : Prop :=
  node = root ∨ ∃ id, node = c.graph.object id

theorem Catalog.Owns.members {c : Catalog} {root node : ObjectNode} (h : c.Owns root node) :
    ∀ e ∈ node.members, e ∈ c.graph.membersBeside root := by
  rcases h with rfl | ⟨id, rfl⟩
  · exact fun e he => List.mem_append_left _ he
  · exact fun e he => TypeGraph.mem_membersBeside root he

namespace Gathered

/-- The account of a walk. The interfaces have different names; each object that was met has one of
its name, and each describes the first object of its name. What was told of shapes that differ are
the names of the objects of members that have not the fields of their interface. -/
structure Sound (c : Catalog) (root : ObjectNode) (g : Gathered) (told : List Notice) : Prop where
  nodup : g.names.Nodup
  own : ∀ n ∈ g.met, c.Owns root n.node
  each : ∀ n ∈ g.met, n.name ∈ g.names
  first : ∀ i ∈ g.found, ∃ n, g.met.find? (·.name == i.name) = some n ∧
    i.fields = (c.fields n.node).value
  told : ∀ name, .shapesDiffer name ∈ told ↔ ∃ n ∈ g.met, n.isInline = true ∧ n.name = name ∧
    ∃ i ∈ g.found, i.name = name ∧ i.hasFields (c.fields n.node).value = false

def Leads (c : Catalog) (root : ObjectNode) (g g' : Gathered) (notices : List Notice) : Prop :=
  ∀ told, g.Sound c root told → g'.Sound c root (told ++ notices)

variable {c : Catalog} {root : ObjectNode} {g g' g'' : Gathered} {n : Meeting}
  {notices rest : List Notice}

theorem Leads.trans (h : g.Leads c root g' notices) (h' : g'.Leads c root g'' rest) :
    g.Leads c root g'' (notices ++ rest) := by
  intro told hg
  rw [← List.append_assoc]
  exact h' _ (h told hg)

theorem Sound.told_append (h : g.Sound c root notices)
    (hplain : ∀ name, .shapesDiffer name ∉ rest) : g.Sound c root (notices ++ rest) :=
  { h with told := fun name => by rw [List.mem_append, or_iff_left (hplain name), h.told] }

theorem Leads.plain (h : ∀ name, .shapesDiffer name ∉ notices) : g.Leads c root g notices :=
  fun _ hg => hg.told_append h

theorem Sound.find?_eq_some_iff (h : g.Sound c root notices) {name : String} {i : Interface} :
    g.found.find? (·.name == name) = some i ↔ i ∈ g.found ∧ i.name = name := by
  constructor
  · intro hfind
    exact ⟨List.mem_of_find?_eq_some hfind, by simpa using List.find?_some hfind⟩
  · rintro ⟨hi, rfl⟩
    cases hfind : g.found.find? (·.name == i.name) with
    | none => exact absurd (List.find?_eq_none.1 hfind i hi) (by simp)
    | some j =>
      have hname : j.name = i.name := by simpa using List.find?_some hfind
      rw [List.inj_on_of_nodup_map h.nodup (List.mem_of_find?_eq_some hfind) hi hname]

theorem Sound.find?_meet (h : g.Sound c root notices) {i : Interface} (hi : i ∈ g.found) :
    ∃ first, (g.meet n).met.find? (·.name == i.name) = some first ∧
      i.fields = (c.fields first.node).value := by
  obtain ⟨first, hfind, hfields⟩ := h.first i hi
  exact ⟨first, by rw [meet, List.find?_append, hfind, Option.some_or], hfields⟩

theorem Sound.exists_first_iff (h : g.Sound c root notices) {name : String} {fields : List Field} :
    (∃ i ∈ g.found, i.name = name ∧ i.hasFields fields = false) ↔
      ∃ first, g.met.find? (·.name == name) = some first ∧
        (c.fields first.node).value.map Field.texts ≠ fields.map Field.texts := by
  constructor
  · rintro ⟨i, hi, rfl, hdiffer⟩
    obtain ⟨first, hfirst, hfields⟩ := h.first i hi
    exact ⟨first, hfirst, by simpa [Interface.hasFields, hfields] using hdiffer⟩
  · rintro ⟨first, hfirst, hdiffer⟩
    have hname : first.name = name := by simpa using List.find?_some hfirst
    obtain ⟨i, hi, hiname⟩ := List.mem_map.1 (h.each first (List.mem_of_find?_eq_some hfirst))
    obtain ⟨same, hsame, hfields⟩ := h.first i hi
    obtain rfl : first = same := by
      rw [hiname, hname, hfirst] at hsame
      exact Option.some.inj hsame
    exact ⟨i, hi, hiname.trans hname, by simpa [Interface.hasFields, hfields] using hdiffer⟩

theorem leads_meet_old (hown : c.Owns root n.node)
    (hold : n.name ∈ g.names)
    (htold : ∀ name, .shapesDiffer name ∈ notices ↔ n.isInline = true ∧ n.name = name ∧
      ∃ i, g.found.find? (·.name == n.name) = some i ∧
        i.hasFields (c.fields n.node).value = false) :
    g.Leads c root (g.meet n) notices := by
  intro told hg
  refine ⟨hg.nodup, ?_, ?_, fun i hi => hg.find?_meet hi, fun name => ?_⟩
  · exact List.forall_mem_append.2 ⟨hg.own, List.forall_mem_singleton.2 hown⟩
  · exact List.forall_mem_append.2 ⟨hg.each, List.forall_mem_singleton.2 hold⟩
  · have hmet : ∀ P : Meeting → Prop,
        (∃ m ∈ (g.meet n).met, P m) ↔ (∃ m ∈ g.met, P m) ∨ P n := by
      simp [meet, or_and_right, exists_or]
    rw [List.mem_append, hg.told, htold, hmet]
    refine or_congr_right (and_congr_right fun _ => and_congr_right fun hname => ?_)
    subst hname
    refine exists_congr fun i => ?_
    rw [hg.find?_eq_some_iff, and_assoc]
    rfl

theorem leads_meet_new (hown : c.Owns root n.node)
    (hnew : n.name ∉ g.names) (hplain : ∀ name, .shapesDiffer name ∉ notices) :
    g.Leads c root ((g.meet n).add ⟨n.name, (c.fields n.node).value⟩) notices := by
  intro told hg
  have hnames : ((g.meet n).add ⟨n.name, (c.fields n.node).value⟩).names = g.names ++ [n.name] := by
    simp [names, meet, add]
  have hother : ∀ m ∈ g.met, m.name ≠ n.name := fun m hm heq => hnew (heq ▸ hg.each m hm)
  refine ⟨Interface.nodup_names hg.nodup hnew, ?_, ?_, ?_, fun name => ?_⟩
  · exact List.forall_mem_append.2 ⟨hg.own, List.forall_mem_singleton.2 hown⟩
  · rw [hnames]
    refine List.forall_mem_append.2 ⟨fun m hm => List.mem_append_left _ (hg.each m hm), ?_⟩
    exact List.forall_mem_singleton.2 (List.mem_append_right _ (List.mem_singleton_self _))
  · refine List.forall_mem_append.2 ⟨fun i hi => hg.find?_meet hi, List.forall_mem_singleton.2 ?_⟩
    have hnone : g.met.find? (·.name == n.name) = none :=
      List.find?_eq_none.2 fun m hm => by simpa using hother m hm
    exact ⟨n, by simp [meet, add, hnone], rfl⟩
  · rw [List.mem_append, or_iff_left (hplain name), hg.told]
    constructor
    · rintro ⟨m, hm, hinline, hname, i, hi, hiname, hdiffer⟩
      exact ⟨m, List.mem_append_left _ hm, hinline, hname, i, List.mem_append_left _ hi, hiname,
        hdiffer⟩
    · rintro ⟨m, hm, hinline, rfl, i, hi, hiname, hdiffer⟩
      rcases List.mem_append.1 hm with hm | hm
      · rcases List.mem_append.1 hi with hi | hi
        · exact ⟨m, hm, hinline, rfl, i, hi, hiname, hdiffer⟩
        · obtain rfl := List.mem_singleton.1 hi
          exact absurd hiname.symm (hother m hm)
      · obtain rfl := List.mem_singleton.1 hm
        rcases List.mem_append.1 hi with hi | hi
        · exact absurd (List.mem_map.2 ⟨i, hi, hiname⟩) hnew
        · obtain rfl := List.mem_singleton.1 hi
          simp [Interface.hasFields] at hdiffer

/-- However deep its calls may be nested, from `k` on, a walk ends with the interfaces that are
collected, and keeps its account. -/
def Collects (c : Catalog) (root : ObjectNode) (k : Nat) (g : Gathered)
    (walk : Nat → Bounded Gathered) (collected : Noted (List Interface)) : Prop :=
  ∃ g' : Gathered, (∀ depth, k ≤ depth → (walk depth).Ends g' collected.notices) ∧
    g'.found = collected.value ∧ g.Leads c root g' collected.notices

variable {k : Nat} {walk walk' : Nat → Bounded Gathered} {collected : Noted (List Interface)}

theorem Collects.congr (h : Collects c root k g walk collected)
    (heq : ∀ depth, k ≤ depth → walk' depth = walk depth) : Collects c root k g walk' collected := by
  obtain ⟨g', hends, hfound, hleads⟩ := h
  exact ⟨g', fun depth hdepth => heq depth hdepth ▸ hends depth hdepth, hfound, hleads⟩

theorem Collects.deeper (h : Collects c root k g walk collected) :
    Collects c root (k + 1) g (fun depth => walk (depth - 1)) collected := by
  obtain ⟨g', hends, hfound, hleads⟩ := h
  exact ⟨g', fun depth hdepth => hends (depth - 1) (Nat.le_sub_of_add_le hdepth), hfound, hleads⟩

theorem collects_pure (g : Gathered) : Collects c root k g (fun _ => pure g) (pure g.found) :=
  ⟨g, fun _ _ => Bounded.ends_pure g, rfl, .plain fun _ => List.not_mem_nil⟩

theorem Collects.bind {more : Nat → Gathered → Bounded Gathered}
    {collect : List Interface → Noted (List Interface)} (h : Collects c root k g walk collected)
    (hmore : ∀ g' : Gathered, g'.found = collected.value →
      Collects c root k g' (fun depth => more depth g') (collect collected.value)) :
    Collects c root k g (fun depth => walk depth >>= more depth) (collected >>= collect) := by
  obtain ⟨g', hends, hfound, hleads⟩ := h
  obtain ⟨g'', hends', hfound', hleads'⟩ := hmore g' hfound
  exact ⟨g'', fun depth hdepth => (hends depth hdepth).bind (hends' depth hdepth), hfound',
    hleads.trans hleads'⟩

theorem Collects.of_bind {α : Type} {x : Noted α} {more : Nat → α → Bounded Gathered}
    {collect : α → Noted (List Interface)} (hx : x.Plain)
    (h : Collects c root k g (fun depth => more depth x.value) (collect x.value)) :
    Collects c root k g (fun depth => .of x >>= more depth) (x >>= collect) := by
  obtain ⟨g', hends, hfound, hleads⟩ := h
  exact ⟨g', fun depth hdepth => (Bounded.ends_of x).bind (hends depth hdepth), hfound,
    (Leads.plain hx).trans hleads⟩

theorem Collects.foldlM {α : Type} {walk : Nat → Gathered → α → Bounded Gathered}
    {collect : List Interface → α → Noted (List Interface)} {l : List α}
    (h : ∀ a ∈ l, ∀ g : Gathered,
      Collects c root k g (fun depth => walk depth g a) (collect g.found a)) (g : Gathered) :
    Collects c root k g (fun depth => l.foldlM (walk depth) g) (l.foldlM collect g.found) := by
  induction l generalizing g with
  | nil => exact collects_pure g
  | cons a rest ih =>
    simp only [List.foldlM_cons]
    refine (h a List.mem_cons_self g).bind fun g' hg' => ?_
    rw [← hg']
    exact ih (fun b hb => h b (List.mem_cons_of_mem _ hb)) g'

section Interface

variable {members : Nat → Gathered → List (String × Member TypeNode) → Bounded Gathered}

theorem collects_interface_old (hown : c.Owns root n.node)
    (hold : n.name ∈ g.names) (hnamed : n.isInline = false) :
    Collects c root k g (fun depth => c.gatherInterface (members depth) g n) (pure g.found) := by
  refine ⟨g.meet n, fun depth _ => ?_, rfl, leads_meet_old hown hold (by simp [hnamed])⟩
  have hmet : n.name ∈ (g.meet n).names := hold
  simp only [Catalog.gatherInterface, if_pos hmet]
  exact Bounded.ends_pure _

theorem collects_interface_new (hown : c.Owns root n.node)
    (hnew : n.name ∉ g.names) {collect : List Field → Noted (List Interface)}
    (h : let g' := (g.meet n).add ⟨n.name, (c.fields n.node).value⟩
      Collects c root k g' (fun depth => members depth g' n.node.members)
        (collect (c.fields n.node).value)) :
    Collects c root k g (fun depth => c.gatherInterface (members depth) g n)
      (c.fields n.node >>= collect) := by
  obtain ⟨g', hends, hfound, hleads⟩ := h
  refine ⟨g', fun depth hdepth => ?_, hfound,
    (leads_meet_new hown hnew (c.plain_fields n.node)).trans hleads⟩
  have hmet : n.name ∉ (g.meet n).names := hnew
  simp only [Catalog.gatherInterface, if_neg hmet]
  exact (Bounded.ends_of _).bind (hends depth hdepth)

end Interface

end Gathered

namespace Catalog

variable {c : Catalog} {root o : ObjectNode} {k : Nat} {g : Gathered}

theorem collects_member {key : String} {m : Member TypeNode}
    (he : (key, m) ∈ c.graph.membersBeside root)
    (known : ∀ e ∈ [(key, m)], e ∈ c.graph.membersBeside o)
    (hk : remaining (c.interfaceNames root) g.names ≤ k)
    (ih : ∀ (g : Gathered) (members : List (String × Member TypeNode))
      (_ : ∀ e ∈ members, e ∈ c.graph.membersBeside root)
      (known : ∀ e ∈ members, e ∈ c.graph.membersBeside o),
      remaining (c.interfaceNames root) g.names < k →
        g.Collects c root k (fun depth => c.gatherMembers depth g members)
          (c.collect o members g.found known)) :
    g.Collects c root k (fun depth => c.gatherMember (c.gatherMembers depth) g (key, m))
      (c.collect o [(key, m)] g.found known) := by
  have hnil : ∀ found, c.collect o [] found (fun _ h => absurd h List.not_mem_nil) = pure found :=
    fun found => by rw [collect]
  cases hn : (c.nested? key m.type).value with
  | none =>
    rw [collect_of_none known hn, hnil]
    refine .of_bind (c.plain_nested? key m.type) ?_
    rw [hn]
    exact Gathered.collects_pure g
  | some n =>
    have hown : c.Owns root (n.meeting c).node := .inr ⟨n.id, rfl⟩
    by_cases hold : n.name ∈ g.names
    · rw [collect_of_known known hn hold, hnil]
      refine .of_bind (c.plain_nested? key m.type) ?_
      rw [hn]
      refine ⟨g.meet (n.meeting c), fun depth _ => ?_, rfl,
        Gathered.leads_meet_old hown hold fun name => ?_⟩
      · have hmet : (n.meeting c).name ∈ (g.meet (n.meeting c)).names := hold
        refine (Bounded.ends_of _).bind ?_
        simp only [gatherInterface, if_pos hmet]
        exact Bounded.ends_pure _
      · rw [Noted.notices_bind, Noted.notices_pure, List.append_nil]
        exact mem_notices_shapeNotices
    · have hmembers : ∀ {o : ObjectNode}, ∀ e ∈ (c.graph.object n.id).members ++ [],
          e ∈ c.graph.membersBeside o := fun e he =>
        TypeGraph.mem_membersBeside _ (List.append_nil _ ▸ he)
      have hname := name_of_nested? he hn
      rw [collect_of_new known hmembers hn hold]
      refine .of_bind (c.plain_nested? key m.type) ?_
      rw [hn]
      dsimp only
      rw [shapeNotices_of_new hold]
      have hpure := fun depth : Nat => (pure_bind (m := Bounded) () fun _ =>
        c.gatherInterface (c.gatherMembers depth) g (n.meeting c))
      refine Gathered.Collects.congr ?_ fun depth _ => hpure depth
      refine Gathered.collects_interface_new hown hold ?_
      have hless : remaining (c.interfaceNames root)
          ((g.meet (n.meeting c)).add ⟨n.name, (c.fields (c.graph.object n.id)).value⟩).names < k := by
        refine Nat.lt_of_lt_of_le ?_ hk
        simp only [Gathered.names, Gathered.add, Gathered.meet, List.map_append]
        exact remaining_append_lt hname hold
      have hinner := ih _ _ (hmembers (o := root)) hmembers hless
      simp only [List.append_nil] at hinner ⊢
      exact hinner

theorem collects_members {members : List (String × Member TypeNode)}
    (he : ∀ e ∈ members, e ∈ c.graph.membersBeside root)
    (known : ∀ e ∈ members, e ∈ c.graph.membersBeside o)
    (hk : remaining (c.interfaceNames root) g.names < k) :
    g.Collects c root k (fun depth => c.gatherMembers depth g members)
      (c.collect o members g.found known) := by
  induction k generalizing g members with
  | zero => exact absurd hk (Nat.not_lt_zero _)
  | succ k ih =>
    have hwalk : ∀ (g : Gathered) (members : List (String × Member TypeNode)) depth, k + 1 ≤ depth →
        c.gatherMembers depth g members =
          members.foldlM (c.gatherMember (c.gatherMembers (depth - 1))) g := by
      intro g members depth hdepth
      obtain ⟨less, rfl⟩ := Nat.exists_eq_add_of_le' hdepth
      rfl
    refine Gathered.Collects.congr ?_ fun depth hdepth => hwalk g members depth hdepth
    induction members generalizing g with
    | nil =>
      rw [collect]
      exact Gathered.collects_pure g
    | cons e rest ihrest =>
      obtain ⟨key, m⟩ := e
      have hfirst : ∀ e ∈ [(key, m)], e ∈ c.graph.membersBeside o :=
        List.forall_mem_singleton.2 (known _ List.mem_cons_self)
      have hrest : ∀ e ∈ rest, e ∈ c.graph.membersBeside o :=
        fun e he => known e (List.mem_cons_of_mem _ he)
      have hmember := collects_member (he _ List.mem_cons_self) hfirst (Nat.le_of_lt_succ hk)
        fun g members he known hless => ih he known hless
      have happend : c.collect o ((key, m) :: rest) g.found known =
          c.collect o [(key, m)] g.found hfirst >>= fun found => c.collect o rest found hrest :=
        collect_append (a := [(key, m)]) known hfirst hrest
      rw [happend]
      simp only [List.foldlM_cons]
      refine hmember.deeper.bind fun g' hg' => ?_
      have hgrows := (c.collect_spec o [(key, m)] g.found hfirst).grows
      rw [← hg'] at hgrows ⊢
      exact ihrest (fun e hr => he e (List.mem_cons_of_mem _ hr)) hrest
        (Nat.lt_of_le_of_lt (remaining_mono (hgrows.map _).subset) hk)

theorem collects_addInterface {n : Meeting} (hnamed : n.isInline = false)
    (hown : c.Owns root n.node)
    (hk : (c.interfaceNames root).length < k) :
    g.Collects c root k (fun depth => c.gatherInterface (c.gatherMembers depth) g n)
      (c.addInterface n.name n.node g.found) := by
  unfold addInterface
  split
  · next hold => exact Gathered.collects_interface_old hown hold hnamed
  · next hnew =>
    exact Gathered.collects_interface_new hown hnew
      (collects_members hown.members _ (Nat.lt_of_le_of_lt List.countP_le_length hk))

theorem owns_expand (c : Catalog) (root : Root) : c.Owns root.node (c.expand root).value.node := by
  unfold expand
  rw [Noted.value_bind]
  split
  · exact .inr ⟨_, rfl⟩
  · exact .inl rfl

theorem collects_root (name : String) (root : Root) (reachable : List String)
    (hk : (c.interfaceNames root.node).length < k) :
    Gathered.Collects c root.node k {}
      (fun depth => c.gatherRoot depth name root (c.expand root).value reachable)
      (c.collected name root (c.expand root).value reachable) := by
  refine (collects_addInterface (n := ⟨Name.pascal name, root.node, false⟩) rfl (.inl rfl) hk).bind
    fun g hg => ?_
  rw [← hg]
  refine (Gathered.Collects.foldlM (fun key _ g => ?_) g).bind fun g hg => ?_
  · unfold gatherNamed addNamed
    cases c.graph.complexTypes.value? key with
    | none => exact Gathered.collects_pure g
    | some id => exact collects_addInterface rfl (.inr ⟨id, rfl⟩) hk
  · rw [← hg]
    by_cases hid : (c.expand root).value.id = root.id
    · simp only [if_pos hid]
      exact Gathered.collects_pure g
    · simp only [if_neg hid]
      exact collects_members (c.owns_expand root).members _
        (Nat.lt_of_le_of_lt List.countP_le_length hk)

theorem ends_expandWithin {steps : Nat} {seen : List ObjectId} (r : Root)
    (h : c.graph.unvisited seen < steps) :
    (c.expandWithin steps seen r).Ends
      (((c.payloads r.node seen).value.getLast?.map fun p => Root.ofId c.graph p.id).getD r)
      (c.payloads r.node seen).notices := by
  induction steps generalizing seen r with
  | zero => exact absurd h (Nat.not_lt_zero _)
  | succ steps ih =>
    rw [expandWithin, payloads_eq]
    refine (Bounded.ends_of (c.payload? r.node)).bind ?_
    rw [Noted.value_bind]
    cases hp : (c.payload? r.node).value with
    | none => exact Bounded.ends_pure r
    | some p =>
      dsimp only
      by_cases hseen : p.id ∈ seen
      · simp only [if_pos hseen]
        exact Bounded.ends_pure r
      · have hinner := ih (Root.ofId c.graph p.id) (Nat.lt_of_lt_of_le
          (TypeGraph.unvisited_cons_lt (members_of_payload? hp) hseen) (Nat.le_of_lt_succ h))
        simp only [if_neg hseen, Noted.value_map, Noted.notices_map, List.getLast?_cons]
        cases hlast : (c.payloads (c.graph.object p.id) (p.id :: seen)).value.getLast? <;>
          simpa [Root.ofId, hlast] using hinner

theorem ends_expand (root : Root) (h : c.graph.objects.length < k) :
    (c.expandWithin k root.visited root).Ends (c.expand root).value (c.expand root).notices := by
  have hfew : c.graph.unvisited root.visited < k :=
    Nat.lt_of_le_of_lt (Nat.le_trans List.countP_le_length (by simp)) h
  have hends := c.ends_expandWithin root hfew
  unfold expand
  rw [Noted.value_bind, Noted.notices_bind]
  cases hlast : (c.payloads root.node root.visited).value.getLast? <;>
    simpa [hlast] using hends

/-- The walk of a root ends with the props and interfaces of the root, in calls that are nested no
deeper than there are objects, or names to give. -/
theorem ends_shapesWithin (c : Catalog) (name : String) (root : Root) (reachable : List String)
    (propsName : Option String) :
    let shapes := c.shapes name root reachable propsName
    ∃ g : Gathered, g.Sound c root.node shapes.notices ∧
      g.found = (c.collected name root (c.expand root).value reachable).value ∧
      ∀ depth, c.graph.objects.length < depth → (c.interfaceNames root.node).length < depth →
        (c.shapesWithin depth name root reachable propsName).Ends (shapes.value, g.met)
          shapes.notices := by
  intro shapes
  obtain ⟨g, hends, hfound, hleads⟩ := c.collects_root name root reachable (Nat.lt_succ_self _)
  have hstart : Gathered.Sound c root.node {} [] :=
    ⟨List.nodup_nil, by simp, by simp, by simp, by simp⟩
  have hplain : ∀ {α : Type} {x : Noted α} {g : Gathered}, x.Plain →
      g.Leads c root.node g x.notices := fun hx => .plain hx
  have hexpand : (c.expand root).Plain := by
    refine (c.plain_payloads _ _).bind ?_
    split <;> exact .pure _
  simp only [shapes, shapes_eq, Noted.value_bind, Noted.notices_bind, ← hfound]
  refine ⟨g, ?_, rfl, fun depth hobjects hnames => ?_⟩
  · exact ((hplain hexpand).trans ((hplain (c.plain_fields _)).trans (hleads.trans
      ((hplain (c.plain_typeAliases _)).trans ((hplain (.tell (by simp))).trans
        (hplain (.pure _))))))) [] hstart
  · exact (c.ends_expand root hobjects).bind ((Bounded.ends_of _).bind ((hends depth hnames).bind
      ((Bounded.ends_of _).bind ((Bounded.ends_of _).bind (Bounded.ends_pure _)))))

end Catalog

end SoapComponents
