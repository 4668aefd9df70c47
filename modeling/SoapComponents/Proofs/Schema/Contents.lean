import SoapComponents.Proofs.Schema.Calls
import SoapComponents.Proofs.Schema.Registered

/-!
What is in a content. The members of a type are the element declarations that occur in its content:
in the particles that are nested in it, and in the groups that it refers to, at any depth. Nothing
is left out and nothing is added, and each declaration is read in the scope of the schema that it
is written in, also when a group of another schema brings it.
-/

set_option autoImplicit false

namespace SoapComponents.Content

/-- What stands for a group in a content: the group itself, or the definition that it refers to, in
the scope of the schema that defines it. -/
inductive Body (groups : Groups) (scope : Scope) (node : Tree) : Scope × Tree → Prop
  | own : node.given? "ref" = none → Body groups scope node (scope, node)
  | definition {ref key : String} {definition : Tree} {around : Scope} :
      node.given? "ref" = some ref →
      groups.find? (scope.qualify ref).value (Name.localPart ref) =
        some (key, definition, around) →
      Body groups scope node (around, definition)

/-- The parts of a content: the particles in it, and what stands for the groups in it. -/
inductive Part (groups : Groups) : Scope × Tree → Scope × Tree → Prop
  | particle {scope : Scope} {node inner : Tree} : inner ∈ particleTags.flatMap node.children →
      Part groups (scope, node) (scope, inner)
  | group {scope : Scope} {node inner : Tree} {body : Scope × Tree} :
      inner ∈ node.children "group" → Body groups scope inner body →
      Part groups (scope, node) body

/-- An element declaration occurs in a content, at any depth but not inside of the type of another
element. -/
def Occurs (groups : Groups) (start : Scope × Tree) (scope : Scope) (node : Tree) : Prop :=
  ∃ holder, Relation.ReflTransGen (Part groups) start (scope, holder) ∧
    node ∈ holder.children "element"

def Contains (groups : Groups) (start : Scope × Tree) (e : String × Member TypeHead) : Prop :=
  ∃ scope node, Occurs groups start scope node ∧ declared? scope node = some e

def SingleParticle (node : Tree) : Prop :=
  (∃ inner, particleTags.flatMap node.children = [inner]) ∧ node.children "group" = [] ∧
    node.children "element" = []

/-- All groups in a content are known, and each has one particle for its content. -/
structure Regular (groups : Groups) (start : Scope × Tree) : Prop where
  known : ∀ scope node inner, Relation.ReflTransGen (Part groups) start (scope, node) →
    inner ∈ node.children "group" → ∃ body, Body groups scope inner body
  single : ∀ scope node inner body, Relation.ReflTransGen (Part groups) start (scope, node) →
    inner ∈ node.children "group" → Body groups scope inner body → SingleParticle body.2

/-- Where the content of a complex type is: in the node itself, if it has one particle or group; or
in the derivation of its complex content. -/
inductive Model (node : Tree) : Tree → Prop
  | plain {inner : Tree} : (particleTags ++ ["group"]).flatMap node.children = [inner] →
      ["element", "simpleContent", "complexContent"].flatMap node.children = [] → Model node node
  | derived {content derivation : Tree} :
      (particleTags ++ ["group", "element", "simpleContent"]).flatMap node.children = [] →
      node.children "complexContent" = [content] →
      content.children "extension" ++ content.children "restriction" = [derivation] →
      derivation.children "element" = [] → Model node derivation

variable {groups : Groups} {depth : Nat} {scope : Scope} {node : Tree}
  {start part : Scope × Tree} {e : String × Member TypeHead}

theorem Regular.of_part (h : Regular groups start) (hpart : Part groups start part) :
    Regular groups part where
  known scope node inner hleads := h.known scope node inner (.head hpart hleads)
  single scope node inner body hleads := h.single scope node inner body (.head hpart hleads)

theorem Body.unique {body other : Scope × Tree} (h : Body groups scope node body)
    (hother : Body groups scope node other) : body = other := by
  cases h with
  | own hnone =>
    cases hother with
    | own => rfl
    | definition hsome => cases hnone.symm.trans hsome
  | definition hsome hfind =>
    cases hother with
    | own hnone => cases hnone.symm.trans hsome
    | definition hsome' hfind' =>
      obtain rfl := Option.some.inj (hsome.symm.trans hsome')
      obtain ⟨-, rfl, rfl⟩ := Prod.mk.inj (Option.some.inj (hfind.symm.trans hfind'))
      rfl

theorem regular_of_places (places : List (Scope × Tree)) (hstart : start ∈ places)
    (hparticles : ∀ place ∈ places, ∀ inner ∈ particleTags.flatMap place.2.children,
      (place.1, inner) ∈ places)
    (hgroups : ∀ place ∈ places, ∀ inner ∈ place.2.children "group",
      ∃ body ∈ places, Body groups place.1 inner body ∧ SingleParticle body.2) :
    Regular groups start := by
  have hplaces : ∀ part, Relation.ReflTransGen (Part groups) start part → part ∈ places := by
    intro part hleads
    induction hleads with
    | refl => exact hstart
    | tail _ hpart ih =>
      cases hpart with
      | particle hinner => exact hparticles _ ih _ hinner
      | group hinner hbody =>
        obtain ⟨body, hmem, hother, -⟩ := hgroups _ ih _ hinner
        exact hbody.unique hother ▸ hmem
  refine ⟨fun scope node inner hleads hinner => ?_,
    fun scope node inner body hleads hinner hbody => ?_⟩
  · obtain ⟨body, -, hbody, -⟩ := hgroups _ (hplaces _ hleads) inner hinner
    exact ⟨body, hbody⟩
  · obtain ⟨other, -, hother, hsingle⟩ := hgroups _ (hplaces _ hleads) inner hinner
    exact hbody.unique hother ▸ hsingle

theorem contains_iff : Contains groups (scope, node) e ↔
    (∃ part, Part groups (scope, node) part ∧ Contains groups part e) ∨
      ∃ inner ∈ node.children "element", declared? scope inner = some e := by
  constructor
  · rintro ⟨around, decl, ⟨holder, hleads, hdecl⟩, hdeclared⟩
    rcases Relation.ReflTransGen.cases_head_iff.1 hleads with heq | ⟨part, hpart, hleads⟩
    · obtain ⟨rfl, rfl⟩ := Prod.mk.inj heq
      exact .inr ⟨decl, hdecl, hdeclared⟩
    · exact .inl ⟨part, hpart, around, decl, ⟨holder, hleads, hdecl⟩, hdeclared⟩
  · rintro (⟨part, hpart, around, decl, ⟨holder, hleads, hdecl⟩, hdeclared⟩ |
      ⟨decl, hdecl, hdeclared⟩)
    · exact ⟨around, decl, ⟨holder, .head hpart hleads, hdecl⟩, hdeclared⟩
    · exact ⟨scope, decl, ⟨node, .refl, hdecl⟩, hdeclared⟩

def Gives (groups : Groups) (start : Scope × Tree) (entries : List (String × Member Draft)) :
    Prop :=
  ∀ e, e ∈ entries.map shape ↔ Contains groups start e

theorem mem_shapes_of_mapM {Q : Tree → Prop} {l : List Tree}
    {f : Tree → Outcome (List (String × Member Draft))}
    {found : List (List (String × Member Draft))}
    (h : (l.mapM f).result = .ok found)
    (hf : ∀ node ∈ l, ∀ entries, (f node).result = .ok entries →
      (e ∈ entries.map shape ↔ Q node)) :
    e ∈ found.flatten.map shape ↔ ∃ node ∈ l, Q node := by
  induction l generalizing found with
  | nil =>
    obtain rfl := Except.ok.inj h
    simp
  | cons node rest ih =>
    rw [List.mapM_cons] at h
    obtain ⟨entries, hentries, h⟩ := Outcome.result_bind_eq_ok.1 h
    obtain ⟨more, hmore, h⟩ := Outcome.result_bind_eq_ok.1 h
    obtain rfl := Except.ok.inj h
    rw [List.flatten_cons, List.map_append, List.mem_append, List.exists_mem_cons_iff,
      hf node List.mem_cons_self entries hentries]
    exact or_congr_right (ih hmore fun other hother => hf other (List.mem_cons_of_mem _ hother))

theorem mem_shapes_of_elements {nodes : List Tree} {found : List (List (String × Member Draft))}
    (h : (nodes.mapM (element groups depth scope)).result = .ok found) :
    e ∈ found.flatten.map shape ↔ ∃ node ∈ nodes, declared? scope node = some e :=
  mem_shapes_of_mapM h fun node _ entries hentries => by
    rw [shapes_of_element hentries, Option.mem_toList]

theorem mem_shapes_of_parts {holder : Tree} {nested grouped : List (List (String × Member Draft))}
    (hnested : ((particleTags.flatMap holder.children).mapM
      (particle groups depth scope)).result = .ok nested)
    (hgrouped : ((holder.children "group").mapM (group groups depth scope)).result = .ok grouped)
    (hparticle : ∀ inner ∈ particleTags.flatMap holder.children, ∀ entries,
      (particle groups depth scope inner).result = .ok entries →
      Gives groups (scope, inner) entries)
    (hgroup : ∀ inner ∈ holder.children "group", ∀ entries,
      (group groups depth scope inner).result = .ok entries →
      ∃ body, Body groups scope inner body ∧ Gives groups body entries) :
    e ∈ (nested.flatten ++ grouped.flatten).map shape ↔
      ∃ part, Part groups (scope, holder) part ∧ Contains groups part e := by
  have hnested := mem_shapes_of_mapM hnested fun inner hinner entries hentries =>
    hparticle inner hinner entries hentries e
  have hgrouped := mem_shapes_of_mapM (e := e)
    (Q := fun inner => ∃ body, Body groups scope inner body ∧ Contains groups body e) hgrouped
    fun inner hinner entries hentries => by
      obtain ⟨body, hbody, hgives⟩ := hgroup inner hinner entries hentries
      refine (hgives e).trans ⟨fun h => ⟨body, hbody, h⟩, ?_⟩
      rintro ⟨other, hother, h⟩
      exact hbody.unique hother ▸ h
  rw [List.map_append, List.mem_append, hnested, hgrouped]
  constructor
  · rintro (⟨inner, hinner, h⟩ | ⟨inner, hinner, body, hbody, h⟩)
    · exact ⟨_, .particle hinner, h⟩
    · exact ⟨_, .group hinner hbody, h⟩
  · rintro ⟨part, hpart, h⟩
    cases hpart with
    | particle hinner => exact .inl ⟨_, hinner, h⟩
    | group hinner hbody => exact .inr ⟨_, hinner, _, hbody, h⟩

def Call.Gives (groups : Groups) (depth : Nat) : Call → Prop
  | ⟨.particle, scope, node⟩ => Regular groups (scope, node) → ∀ entries,
      (particle groups depth scope node).result = .ok entries →
      Content.Gives groups (scope, node) entries
  | ⟨.groupBody, scope, node⟩ => SingleParticle node → Regular groups (scope, node) → ∀ entries,
      (groupBody groups depth scope node).result = .ok entries →
      Content.Gives groups (scope, node) entries
  | ⟨.group, scope, node⟩ => ∀ body, Body groups scope node body → SingleParticle body.2 →
      Regular groups body → ∀ entries, (group groups depth scope node).result = .ok entries →
      Content.Gives groups body entries
  | _ => True

theorem gives_of_parts {holder : Tree} (hregular : Regular groups (scope, holder))
    (ih : ∀ c : Call, c.node.weight < holder.weight → c.Gives groups depth) :
    (∀ inner ∈ particleTags.flatMap holder.children, ∀ entries,
      (particle groups depth scope inner).result = .ok entries →
      Gives groups (scope, inner) entries) ∧
    ∀ inner ∈ holder.children "group", ∀ entries,
      (group groups depth scope inner).result = .ok entries →
      ∃ body, Body groups scope inner body ∧ Gives groups body entries := by
  refine ⟨fun inner hinner entries hentries => ?_, fun inner hinner entries hentries => ?_⟩
  · exact ih ⟨.particle, scope, inner⟩ (child_of_particle hinner).weight_lt
      (hregular.of_part (.particle hinner)) entries hentries
  · obtain ⟨body, hbody⟩ := hregular.known scope holder inner .refl hinner
    exact ⟨body, hbody, ih ⟨.group, scope, inner⟩ (Tree.weight_of_mem_children hinner) body hbody
      (hregular.single scope holder inner body .refl hinner hbody)
      (hregular.of_part (.group hinner hbody)) entries hentries⟩

theorem Gives.of_only {entries : List (String × Member Draft)} (h : Gives groups part entries)
    (hpart : Part groups (scope, node) part)
    (honly : ∀ other, Part groups (scope, node) other → other = part)
    (hown : node.children "element" = []) : Gives groups (scope, node) entries := by
  refine fun e => (h e).trans (Iff.trans ⟨fun he => .inl ⟨part, hpart, he⟩, ?_⟩ contains_iff.symm)
  rintro (⟨other, hother, he⟩ | ⟨decl, hdecl, -⟩)
  · exact honly other hother ▸ he
  · rw [hown] at hdecl
    cases hdecl

theorem particle_gives (ih : ∀ c : Call, c.node.weight < node.weight → c.Gives groups depth) :
    Call.Gives groups depth ⟨.particle, scope, node⟩ := by
  intro hregular entries h e
  rw [particle_eq] at h
  obtain ⟨nested, hnested, h⟩ := Outcome.result_bind_eq_ok.1 h
  obtain ⟨grouped, hgrouped, h⟩ := Outcome.result_bind_eq_ok.1 h
  obtain ⟨own, hown, h⟩ := Outcome.result_bind_eq_ok.1 h
  obtain rfl := Except.ok.inj h
  obtain ⟨hparticle, hgroup⟩ := gives_of_parts hregular ih
  rw [List.map_append, List.mem_append, mem_shapes_of_parts hnested hgrouped hparticle hgroup,
    mem_shapes_of_elements hown, contains_iff]

theorem groupBody_gives (ih : ∀ c : Call, c.node.weight < node.weight → c.Gives groups depth) :
    Call.Gives groups depth ⟨.groupBody, scope, node⟩ := by
  intro hsingle hregular entries h
  obtain ⟨⟨inner, hinner⟩, hgroups, helements⟩ := hsingle
  have hmem : inner ∈ particleTags.flatMap node.children := hinner ▸ List.mem_cons_self
  have hpart : Part groups (scope, node) (scope, inner) := .particle hmem
  rw [groupBody_eq, helements, List.mapM_nil, pure_bind] at h
  simp only [hinner, List.head?_cons] at h
  refine ((gives_of_parts hregular ih).1 inner hmem entries h).of_only hpart (fun part hother => ?_)
    helements
  cases hother with
  | particle hother =>
    rw [hinner] at hother
    rw [List.mem_singleton.1 hother]
  | group hother =>
    rw [hgroups] at hother
    cases hother

theorem group_gives
    (hbody : Call.Gives groups depth ⟨.groupBody, scope, node⟩)
    (hdefinition : ∀ less < depth, ∀ c, Call.Gives groups less c) :
    Call.Gives groups depth ⟨.group, scope, node⟩ := by
  intro body hreferred hsingle hregular entries h
  cases hreferred with
  | own hnone =>
    rw [group_of_refless hnone] at h
    exact hbody hsingle hregular entries h
  | @definition ref key definition around hsome hfind =>
    rw [result_group_of_ref hsome] at h
    cases depth with
    | zero =>
      rw [referredGroup_zero hfind] at h
      cases h
    | succ depth =>
      rw [referredGroup_succ hfind] at h
      exact hdefinition depth (Nat.lt_succ_self _) ⟨.groupBody, around, definition⟩ hsingle hregular
        entries h

theorem gives (groups : Groups) (depth : Nat) (c : Call) : c.Gives groups depth := by
  induction depth, c using induction_on_size Call.size with
  | step depth c ih ihdefinition =>
    have hsmaller : ∀ c' : Call, c'.node.weight < c.node.weight → c'.Gives groups depth :=
      fun c' hweight => ih c' (Call.size_lt_of_weight hweight)
    obtain ⟨role, scope, node⟩ := c
    cases role with
    | particle => exact particle_gives hsmaller
    | groupBody => exact groupBody_gives hsmaller
    | group => exact group_gives (ih _ (Nat.lt_succ_self _)) ihdefinition
    | element => trivial
    | elementType => trivial
    | complexType => trivial

theorem element?_of_flatMap {tags : List String} (h : tags.flatMap node.children = [])
    (tag : String) (htag : tag ∈ tags) : node.element? tag = none := by
  rw [Tree.element?, List.flatMap_eq_nil_iff.1 h tag htag]
  rfl

theorem head?_particles (node : Tree) :
    (particleTags.filterMap node.element?).head? = (particleTags.flatMap node.children).head? := by
  rw [List.head?_filterMap, List.head?_flatMap]
  rfl

theorem complexType_plain_gives {inner : Tree}
    (hinner : (particleTags ++ ["group"]).flatMap node.children = [inner])
    (hrest : ["element", "simpleContent", "complexContent"].flatMap node.children = [])
    (hregular : Regular groups (scope, node)) {derived : Derived Draft}
    (h : (complexType groups depth scope node).result = .ok derived) :
    Gives groups (scope, node) derived.type.members := by
  have hown : node.children "element" = [] := List.flatMap_eq_nil_iff.1 hrest _ (by simp)
  obtain ⟨hparticle, hgroup⟩ := gives_of_parts hregular fun c _ => gives groups depth c
  rw [complexType_eq, head?_particles] at h
  rw [List.flatMap_append, List.flatMap_singleton, List.append_eq_singleton_iff] at hinner
  rcases hinner with ⟨hnone, hinner⟩ | ⟨hinner, hnone⟩
  · have hfirst : node.element? "group" = some inner := by rw [Tree.element?, hinner]; rfl
    have hmem : inner ∈ node.children "group" := hinner ▸ List.mem_cons_self
    simp only [hnone, List.head?_nil, hfirst, map_eq_pure_bind] at h
    obtain ⟨members, hmembers, h⟩ := Outcome.result_bind_eq_ok.1 h
    obtain rfl := Except.ok.inj h
    obtain ⟨body, hbody, hgives⟩ := hgroup inner hmem members hmembers
    refine hgives.of_only (.group hmem hbody) (fun other hother => ?_) hown
    cases hother with
    | particle hother =>
      rw [hnone] at hother
      cases hother
    | group hother hotherBody =>
      rw [hinner] at hother
      obtain rfl := List.mem_singleton.1 hother
      exact hotherBody.unique hbody
  · have hmem : inner ∈ particleTags.flatMap node.children := hinner ▸ List.mem_cons_self
    simp only [hinner, List.head?_cons, map_eq_pure_bind] at h
    obtain ⟨members, hmembers, h⟩ := Outcome.result_bind_eq_ok.1 h
    obtain rfl := Except.ok.inj h
    refine (hparticle inner hmem members hmembers).of_only (.particle hmem) (fun other hother => ?_)
      hown
    cases hother with
    | particle hother =>
      rw [hinner] at hother
      rw [List.mem_singleton.1 hother]
    | group hother =>
      rw [hnone] at hother
      cases hother

theorem complexType_derived_gives {content derivation : Tree}
    (hrest : (particleTags ++ ["group", "element", "simpleContent"]).flatMap node.children = [])
    (hcontent : node.children "complexContent" = [content])
    (hderivation : content.children "extension" ++ content.children "restriction" = [derivation])
    (hown : derivation.children "element" = []) (hregular : Regular groups (scope, derivation))
    {derived : Derived Draft} (h : (complexType groups depth scope node).result = .ok derived) :
    Gives groups (scope, derivation) derived.type.members := by
  obtain ⟨hparticle, hgroup⟩ := gives_of_parts hregular fun c _ => gives groups depth c
  have hparticles : particleTags.flatMap node.children = [] :=
    List.flatMap_eq_nil_iff.2 fun tag htag =>
      List.flatMap_eq_nil_iff.1 hrest tag (List.mem_append_left _ htag)
  have hfirst : node.element? "complexContent" = some content := by
    rw [Tree.element?, hcontent]
    rfl
  have hderived : derivation? content = some derivation := by
    rw [derivation?, Tree.element?, Tree.element?, ← List.head?_append, hderivation]
    rfl
  rw [complexType_eq, head?_particles] at h
  simp only [hparticles, List.head?_nil, element?_of_flatMap hrest "group" (by simp),
    element?_of_flatMap hrest "simpleContent" (by simp), hfirst, complexContent,
    hderived] at h
  obtain ⟨extended, -, h⟩ := Outcome.result_bind_eq_ok.1 h
  obtain ⟨nested, hnested, h⟩ := Outcome.result_bind_eq_ok.1 h
  obtain ⟨grouped, hgrouped, h⟩ := Outcome.result_bind_eq_ok.1 h
  obtain rfl := Except.ok.inj h
  intro e
  rw [contains_iff, hown]
  simpa [derivedType] using mem_shapes_of_parts hnested hgrouped hparticle hgroup

theorem complexType_gives {holder : Tree} (hmodel : Model node holder)
    (hregular : Regular groups (scope, holder)) {derived : Derived Draft}
    (h : (complexType groups depth scope node).result = .ok derived) :
    Gives groups (scope, holder) derived.type.members := by
  cases hmodel with
  | plain hinner hrest => exact complexType_plain_gives hinner hrest hregular h
  | derived hrest hcontent hderivation hown =>
    exact complexType_derived_gives hrest hcontent hderivation hown hregular h

end SoapComponents.Content
