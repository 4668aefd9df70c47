import SoapComponents.Proofs.Component.Chosen
import SoapComponents.Proofs.Identifier
import SoapComponents.Proofs.Markup.OpeningTag

/-!
The opening tag of an envelope, as a reader of the module takes it. The namespaces of a component
are written as they are; they are read back just when no mark and no reference is in them.
-/

set_option autoImplicit false

namespace SoapComponents

namespace Component

open Text Opening

variable {named : List Char → Option Nat}

/-- The namespaces that the envelope binds, each with the name of the attribute that binds it. -/
def declarations (c : Component) : List (String × String) :=
  ("xmlns:soap", c.envelope) :: c.spaces.map fun e => ("xmlns:" ++ e.1, e.2)

/-- The envelope's opening tag, if its attributes are the declarations as they are. -/
def opening (c : Component) : Opening :=
  ⟨"soap.Envelope".toList, c.declarations.map fun e => (e.1.toList, codes e.2.toList)⟩

def frontLines (runtime : String) (c : Component) : List String :=
  headLines runtime ++ c.tagLines ++ [""] ++ c.aliasLines ++ Interface.block c.interfaces ++
    c.props.lines ++ c.responseLines ++ [""] ++
    ["export function " ++ Name.pascal c.requestName ++ "(props: " ++ c.props.name ++ ") \x7b",
      "    return ("]

def backLines (c : Component) : List String :=
  c.headerLines ++ ["            <soap.Body>", inEnvelope c.body, "            </soap.Body>",
    "        </soap.Envelope>", "    );", "\x7d", "",
    "export default " ++ Name.pascal c.requestName ++ ";"]

def front (runtime : String) (c : Component) : String :=
  String.join ((c.frontLines runtime).map (· ++ "\n")) ++ "        "

/-- What is written after the opening tag of the envelope. -/
def back (c : Component) : String := "\n" ++ String.join (c.backLines.map (· ++ "\n"))

theorem print_eq (runtime : String) (c : Component) :
    c.print runtime = c.front runtime ++ c.envelopeTag ++ c.back := by
  have hlines : c.lines runtime =
      c.frontLines runtime ++ ("        " ++ c.envelopeTag) :: c.backLines := by
    simp [lines, functionLines, frontLines, backLines]
  simp [print, front, back, hlines, String.append_assoc]

theorem envelopeTag_eq (c : Component) :
    c.envelopeTag = "<soap.Envelope" ++ String.join (c.declarations.map written) ++ ">" := by
  have hspaces : (c.spaces.map fun e => " xmlns:" ++ e.1 ++ "=" ++ marked e.2) =
      (c.spaces.map fun e => ("xmlns:" ++ e.1, e.2)).map written := by
    rw [List.map_map]
    refine List.map_congr_left fun e _ => String.toList_inj.1 ?_
    simp [written]
  have hfirst : ∀ joined : String, "<soap.Envelope xmlns:soap=" ++ marked c.envelope ++ joined =
      "<soap.Envelope" ++ (written ("xmlns:soap", c.envelope) ++ joined) := by
    intro joined
    refine String.toList_inj.1 ?_
    simp [written]
  rw [declarations, List.map_cons, String.join_cons, ← hspaces, ← hfirst]
  rfl

theorem isNameChar_of_isStemChar {d : Char} (h : Prefix.isStemChar d = true) :
    isNameChar d = true ∧ d ≠ '=' ∧ d ≠ ':' := by
  refine ⟨?_, ?_, ?_⟩
  · cases hdigit : d.isDigit with
    | true => simp [isNameChar, hdigit]
    | false =>
      have hlower := Prefix.isLower_of_isStemChar h hdigit
      simp [isNameChar, isNameStart, Char.isAlpha, hlower]
  · rintro rfl
    exact absurd h (by decide)
  · rintro rfl
    exact absurd h (by decide)

theorem isNameStart_iff_isLower {d : Char} (h : Prefix.isStemChar d = true) :
    isNameStart d = true ↔ d.isLower = true := by
  constructor
  · intro hstart
    refine Prefix.isLower_of_isStemChar h (Bool.eq_false_iff.2 fun hdigit => ?_)
    have hrange := isNameStart_iff.1 hstart
    have hvalue := isDigit_iff.1 hdigit
    rcases hrange with hr | hr | rfl | rfl
    · omega
    · omega
    · exact absurd hdigit (by decide)
    · exact absurd hdigit (by decide)
  · intro hlower
    simp [isNameStart, Char.isAlpha, hlower]

theorem isName_declared_iff {r : String} (h : ∀ d ∈ r.toList, Prefix.isStemChar d = true) :
    isName ':' ("xmlns:" ++ r).toList = true ↔ Prefix.IsPlainName r := by
  have hparts : splitBy (· == ':') ("xmlns:" ++ r).toList = ["xmlns".toList, r.toList] := by
    have htext : ("xmlns:" ++ r).toList = "xmlns".toList ++ ':' :: r.toList := by simp
    have hr : ∀ d ∈ r.toList, (d == ':') = false := fun d hd =>
      beq_eq_false_iff_ne.2 (isNameChar_of_isStemChar (h d hd)).2.2
    have hxmlns : ∀ d ∈ "xmlns".toList, (d == ':') = false := by simp
    rw [htext, splitBy_append hxmlns (by decide), splitBy_of_none hr]
  have hchars : r.toList.all isNameChar = true :=
    List.all_eq_true.2 fun d hd => (isNameChar_of_isStemChar (h d hd)).1
  have hfirst : isName ':' ("xmlns:" ++ r).toList = r.toList.head?.any isNameStart := by
    simp only [isName, hparts, List.all_cons, List.all_nil, hchars, Bool.and_true]
    exact Bool.true_and _
  rw [hfirst, Prefix.IsPlainName]
  cases hr : r.toList with
  | nil => simp
  | cons first rest =>
    rw [hr] at h
    have hstart := isNameStart_iff_isLower (h first List.mem_cons_self)
    simp only [List.head?_cons, Option.any_some, hstart, List.cons.injEq]
    constructor
    · intro hlower
      exact ⟨first, rest, ⟨rfl, rfl⟩, hlower, fun d hd => h d (List.mem_cons_of_mem _ hd)⟩
    · rintro ⟨_, _, ⟨rfl, rfl⟩, hlower, -⟩
      exact hlower

theorem spelled_declared {r : String} (h : ∀ d ∈ r.toList, Prefix.isStemChar d = true) :
    Spelled ("xmlns:" ++ r).toList := by
  refine ⟨'x', "mlns:".toList ++ r.toList, by simp, by decide, fun d hd => ?_⟩
  rcases List.mem_append.1 hd with hd | hd
  · have hall : ∀ d ∈ "mlns:".toList, d ≠ '=' ∧ (isNameChar d || d == ':') = true := by
      simp [isNameChar, isNameStart]
    exact hall d hd
  · obtain ⟨hchar, hne, -⟩ := isNameChar_of_isStemChar (h d hd)
    exact ⟨hne, by rw [hchar, Bool.true_or]⟩

/-- The opening tag of an envelope is read as its declarations just when all its prefixes begin
with a letter and no namespace has a mark or a reference. -/
theorem read?_envelope_iff (c : Component) (henvelope : Verbatim named c.envelope.toList)
    (hplain : ∀ e ∈ c.spaces, ∀ d ∈ e.1.toList, Prefix.isStemChar d = true) (rest : List Char) :
    Opening.read? named (c.envelopeTag.toList ++ rest) = some (c.opening, rest) ↔
      ∀ e ∈ c.spaces, Prefix.IsPlainName e.1 ∧ Verbatim named e.2.toList := by
  have hspelled : ∀ e ∈ c.declarations, Spelled e.1.toList := by
    have hsoap : "soap".toList.all Prefix.isStemChar = true := by decide
    refine List.forall_mem_cons.2 ⟨spelled_declared (List.all_eq_true.1 hsoap), fun e he => ?_⟩
    obtain ⟨bound, hbound, rfl⟩ := List.mem_map.1 he
    exact spelled_declared (hplain bound hbound)
  have hread : Opening.read? named (c.envelopeTag.toList ++ rest) =
      (attributes? named .between
        ((String.join (c.declarations.map written)).toList ++ '>' :: rest)).map
          fun found => (⟨"soap.Envelope".toList, found.1⟩, found.2) := by
    obtain ⟨inner, hinner⟩ : ∃ inner,
        (String.join (c.declarations.map written)).toList = ' ' :: inner := by
      rw [declarations, List.map_cons, String.join_cons, String.toList_append, toList_written]
      exact ⟨_, rfl⟩
    have htext : c.envelopeTag.toList ++ rest =
        '<' :: ("soap.Envelope".toList ++ (' ' :: inner ++ '>' :: rest)) := by
      rw [envelopeTag_eq, String.toList_append, String.toList_append, hinner]
      simp
    have htag : ∀ d ∈ "soap.Envelope".toList, (isNameChar d || d == '.') = true := by
      simp [isNameChar, isNameStart]
    have hend : ∀ more, (' ' :: more).takeWhile (fun d => isNameChar d || d == '.') = [] ∧
        (' ' :: more).dropWhile (fun d => isNameChar d || d == '.') = ' ' :: more := fun more =>
      ⟨List.takeWhile_cons_of_neg (by decide), List.dropWhile_cons_of_neg (by decide)⟩
    have hname : isName '.' "soap.Envelope".toList = true := by decide
    rw [htext, Opening.read?, List.takeWhile_append_of_pos htag, List.dropWhile_append_of_pos htag,
      List.cons_append, (hend _).1, (hend _).2, List.append_nil, if_pos hname, hinner]
    rfl
  have hattributes : Opening.read? named (c.envelopeTag.toList ++ rest) = some (c.opening, rest) ↔
      ∀ e ∈ c.declarations, isName ':' e.1.toList = true ∧ Verbatim named e.2.toList := by
    have hjoined := @attributes?_join_eq_some_iff named rest c.declarations hspelled
    rw [hread, ← hjoined, Option.map_eq_some_iff]
    constructor
    · rintro ⟨⟨attributes, last⟩, hfound, heq⟩
      obtain ⟨htag, rfl⟩ := Prod.mk.inj heq
      obtain rfl : attributes = _ := congrArg Opening.attributes htag
      exact hfound
    · intro hfound
      exact ⟨_, hfound, rfl⟩
  rw [hattributes, declarations, List.forall_mem_cons, List.forall_mem_map]
  have hsoap : isName ':' "xmlns:soap".toList = true := by decide
  rw [and_iff_right ⟨hsoap, henvelope⟩]
  exact forall₂_congr fun e he => and_congr_left' (isName_declared_iff (hplain e he))

end Component

theorem Settings.envelope_cases (binding : Option String) :
    envelope binding = envelope11 ∨ envelope binding = envelope12 := by
  unfold envelope
  split
  · exact .inl rfl
  · dsimp only
    split
    · exact .inr rfl
    · exact .inl rfl

theorem Service.verbatim_envelope (s : Service) (named : List Char → Option Nat) :
    Text.Verbatim named s.envelope.toList := by
  have hcases : ∃ binding, s.envelope = Settings.envelope binding := by
    unfold envelope
    dsimp only
    generalize s.namespaces.map Prod.snd = spaces
    cases hfind : List.find? _ _ with
    | none => exact ⟨none, rfl⟩
    | some found =>
      obtain ⟨space, -, hspace⟩ := List.mem_map.1 (List.mem_of_find?_eq_some hfind)
      exact ⟨some space, hspace.symm⟩
  obtain ⟨binding, h⟩ := hcases
  rw [h]
  rcases Settings.envelope_cases binding with h | h
  · rw [h]
    exact Text.verbatim_of_plain (by decide) (by decide)
  · rw [h]
    exact Text.verbatim_of_plain (by decide) (by decide)

namespace Assembler

open Assigning Prefix Text

variable {a : Assembler} {p : Prefixes}

theorem envelope_of_assembleOnce {op : Operation} {assembled : Assembled}
    (h : (a.assembleOnce op).result p = .ok assembled) :
    assembled.component.envelope = a.service.envelope := by
  obtain ⟨request, own, last, q, -, -, -, hcomponent, -⟩ := component_of_assembleOnce h
  rw [hcomponent]
  rfl

theorem envelope_of_assembleAll {ops : List Operation} {assembled : Assembled}
    (h : .ok assembled ∈ (a.assembleAll ops).result p) :
    assembled.component.envelope = a.service.envelope := by
  induction ops generalizing p with
  | nil => cases h
  | cons op rest ih =>
    rw [result_assembleAll_cons] at h
    rcases List.mem_cons.1 h with h | h
    · exact envelope_of_assembleOnce h.symm
    · exact ih h

theorem bySpace_of_assembleAll {ops : List Operation} {assembled : Assembled} (hp : p.Sound)
    (h : .ok assembled ∈ (a.assembleAll ops).result p) :
    ∀ e ∈ assembled.component.spaces,
      ((a.assembleAll ops).after p).bySpace.value? e.2 = some e.1 := by
  intro e he
  obtain ⟨hbacked, hcomplete, hspaces, -⟩ := backed_of_assembleAll hp h
  rw [hspaces] at he
  exact (hbacked.spaces (Table.value?_of_mem hcomplete.proper he)).2

theorem read?_envelope_of_assembleAll {ops : List Operation} {assembled : Assembled}
    (hp : p.Sound) (h : .ok assembled ∈ (a.assembleAll ops).result p)
    (named : List Char → Option Nat) :
    let c := assembled.component
    Opening.read? named (c.envelopeTag ++ c.back).toList = some (c.opening, c.back.toList) ↔
      ∀ e ∈ c.spaces, IsPlainName e.1 ∧ Verbatim named e.2.toList := by
  intro c
  rw [String.toList_append]
  refine c.read?_envelope_iff ?_ (fun e he => ?_) c.back.toList
  · rw [envelope_of_assembleAll h]
    exact a.service.verbatim_envelope named
  · exact (a.assembleAll_extends ops hp).1.plain (bySpace_of_assembleAll hp h e he)

/-- The envelopes of a run, after any run of requests for prefixes, as a reader of the module takes
them. The opening tag of a component is read as binding `xmlns:soap` to the namespace of the
envelope and then each prefix to its namespace, in their order and with no other attribute, just
when every prefix begins with a letter and no namespace has a mark or a reference to a character.
The prefixes do so if stems have at least one character. -/
theorem envelope_of_run (a : Assembler) (taken : Table String)
    (calls : List (Prefix.Policy × String)) (ops : List Operation) (runtime : String)
    (named : List Char → Option Nat) {assembled : Assembled}
    (h : .ok assembled ∈ (a.assembleAll ops).result ((prefixesFor calls).after ⟨[], taken⟩)) :
    let c := assembled.component
    c.print runtime = c.front runtime ++ c.envelopeTag ++ c.back ∧
      (Opening.read? named (c.envelopeTag ++ c.back).toList = some (c.opening, c.back.toList) ↔
        ∀ e ∈ c.spaces, IsPlainName e.1 ∧ Verbatim named e.2.toList) ∧
      (1 ≤ a.policy.stemLength → (∀ call ∈ calls, 1 ≤ call.1.stemLength) →
        ∀ e ∈ c.spaces, IsPlainName e.1) := by
  intro c
  have hp := (prefixesFor_spec calls (Prefixes.sound_of_unasked taken)).1
  refine ⟨c.print_eq runtime, read?_envelope_of_assembleAll hp h named, ?_⟩
  intro hpolicy hcalls e he
  exact a.isPlainName_of_assembleAll taken calls ops hpolicy hcalls
    (bySpace_of_assembleAll hp h e he)

theorem exists_mem_spaces {op : Operation} {request : PartType} {assembled : Assembled}
    {space : String} (hp : p.Sound) (h : (a.assembleOnce op).result p = .ok assembled)
    (hrequest : (a.service.request a.catalog op).result = .ok request)
    (hspace : Name.given? request.root.node.space = some space) :
    ∃ r, (r, space) ∈ assembled.component.spaces := by
  obtain ⟨-, -, -, -, hspaces, -, hbound⟩ := assembleOnce_binds hp h
  obtain ⟨own, -, hown, -⟩ := a.exists_withHeaders op hspace hp
  have hbase := NamespaceMap.base_ofRoot hspace hp hown
  have hall := hbound own (.request hrequest hown) _ (Table.mem_of_value? hbase)
  rw [hspaces]
  exact ⟨_, Table.mem_of_value? hall⟩

end Assembler

namespace NamespaceMap

theorem spaces_ofRoot_of_empty {c : Catalog} {policy : Prefix.Policy} {name : String}
    {root : Root} {space : String} {p : Prefixes} {m : NamespaceMap}
    (hspace : Name.given? root.node.space = some space) (hmembers : root.node.members = [])
    (hnext : c.next? root.node root.visited = none) (hp : p.Sound)
    (h : (ofRoot c policy name root).result p = .ok m) :
    m.spaces = [((p.prefixFor policy space).value.1, space)] := by
  obtain ⟨d, hd, -, -, -, -, hresult, -⟩ := ofRoot_eq c policy name hspace hp
  obtain rfl := Except.ok.inj (h.symm.trans hresult)
  have hstart : d.basePrefix = (p.prefixFor policy space).value.1 ∧
      d.spaces = [((p.prefixFor policy space).value.1, space)] := by
    have htags : c.graph.rootTags root space = [] := by
      rw [TypeGraph.rootTags, hmembers, List.map_nil, TypeGraph.declaredTags]
    unfold declared at hd
    rw [hspace] at hd
    simp only [htags, List.foldlM_nil] at hd
    obtain rfl := Except.ok.inj hd
    exact ⟨rfl, rfl⟩
  have hcontent : (d.plan c policy name).content root none = [] := by
    unfold BodyPlan.content
    rw [Catalog.outline_of_next_none (by exact hnext), hmembers, Catalog.outlineMembers_nil]
  -- the only tag that is noted is that of the root, whose prefix is bound already
  have hnoted : ∀ q, ∃ found, (d.observed c policy name root).result q =
      ({} : Usage).record (Name.localPart name) d.basePrefix found := by
    intro q
    show ∃ found, ((d.plan c policy name).visited root none).result q = _
    unfold BodyPlan.visited
    rw [hcontent]
    exact ⟨_, rfl⟩
  obtain ⟨found, hfound⟩ := hnoted ((declared c policy name root).after p)
  have hsettled : ∀ u, (d.settledMap u).spaces = Table.putAllNew d.spaces u.spaces := fun u => by
    show Table.putAllNew ((listed u).foldl _ { d with tags := [] }).spaces u.spaces = _
    rw [(foldl_addTag_keeps _ _).1]
  rw [hsettled, hfound, Usage.record, hstart.1, hstart.2]
  cases found.filter (· ≠ "") <;> simp [Table.putAllNew, Table.putNew, Table.holds, Table.value?]

end NamespaceMap

namespace SampleSpace

/-- A request in a namespace, with no members. -/
def graph (space : String) : TypeGraph where
  objects := [{ space := some space }]
  elements := [(Name.qualified (some space) "Req", .object 0)]

def definitions : Tree := .node [
  ("message", .node [
    ("name", .text "In"),
    ("part", .node [("name", .text "p"), ("element", .text "a:Req")])])]

def assembler (space : String) : Assembler where
  service := ⟨definitions, [("a", space)], graph space⟩
  catalog := (graph space).catalog
  policy := ⟨10, 6⟩

def operation : Operation := ⟨"Op", some "In", none⟩

def request (space : String) : PartType :=
  ⟨Name.qualified (some space) "Req", Root.ofId (graph space) 0⟩

theorem exists_assembled {space : String} {request : PartType}
    (h : ((assembler space).service.request (assembler space).catalog operation).result =
      .ok request) :
    ∃ made, ((assembler space).assembleOnce operation).result {} = .ok made ∧
      .ok made ∈ ((assembler space).assembleAll [operation]).result {} := by
  obtain ⟨made, hmade⟩ := Assembler.exists_assembleOnce (Prefixes.sound_of_unasked []) h
  refine ⟨made, hmade, ?_⟩
  rw [Assembler.result_assembleAll_cons, hmade]
  exact List.mem_cons_self

def plain : String := "urn:a"

theorem request_plain :
    ((assembler plain).service.request (assembler plain).catalog operation).result =
      .ok (request plain) := rfl

theorem spaces_plain {made : Assembled}
    (h : ((assembler plain).assembleOnce operation).result {} = .ok made) :
    made.component.spaces = [("a7rp", plain)] := by
  obtain ⟨request, hrequest, hfrom, -⟩ := Assembler.request_of_assembleOnce h
  obtain rfl : SampleSpace.request plain = request :=
    Except.ok.inj (request_plain.symm.trans hrequest)
  obtain ⟨own, last, hown, hlast⟩ := Assembler.headers_of_assembleFrom hfrom
  obtain ⟨other, hother, -, -, -, hspaces, -⟩ := Assembler.assembleFrom_spec hown hlast rfl
  obtain rfl : other = made := Except.ok.inj (hother.symm.trans hfrom)
  have hheaders : ((assembler plain).service.headers (assembler plain).catalog operation).value =
      [] := rfl
  rw [Assembler.withHeaders, hheaders] at hlast
  obtain rfl : (assembler plain).startSpace (request plain) own = last := Except.ok.inj hlast
  have hprefix : (Prefixes.prefixFor {} (assembler plain).policy plain).value.1 = "a7rp" := by
    decide +kernel
  rw [hspaces, ← hprefix]
  exact NamespaceMap.spaces_ofRoot_of_empty rfl rfl rfl (Prefixes.sound_of_unasked []) hown

/-- The only namespace of the envelope is bound to its prefix. -/
theorem plain_read : ∃ made,
    .ok made ∈ ((assembler plain).assembleAll [operation]).result
      ((Assigning.prefixesFor []).after ⟨[], []⟩) ∧
    made.component.spaces = [("a7rp", plain)] ∧
    Opening.read? (fun name => (Xml.predefined? name).map Char.toNat)
      (made.component.envelopeTag ++ made.component.back).toList =
        some (made.component.opening, made.component.back.toList) := by
  obtain ⟨made, hmade, hmem⟩ := exists_assembled request_plain
  have hspaces := spaces_plain hmade
  obtain ⟨-, hread, hplain⟩ := Assembler.envelope_of_run (assembler plain) [] [] [operation]
    "@wsdl2tsx/runtime" (fun name => (Xml.predefined? name).map Char.toNat) hmem
  refine ⟨made, hmem, hspaces, hread.2 fun e he => ⟨hplain (by decide) nofun e he, ?_⟩⟩
  rw [hspaces] at he
  obtain rfl := List.mem_singleton.1 he
  exact Text.verbatim_of_plain (by decide) (by decide)

def quoted : String := "urn:a\x22b"

theorem request_quoted :
    ((assembler quoted).service.request (assembler quoted).catalog operation).result =
      .ok (request quoted) := rfl

/-- An envelope with a mark in a namespace is not read as its declarations. -/
theorem quoted_not_read : ∃ made,
    .ok made ∈ ((assembler quoted).assembleAll [operation]).result {} ∧
      ∀ named, Opening.read? named (made.component.envelopeTag ++ made.component.back).toList ≠
        some (made.component.opening, made.component.back.toList) := by
  obtain ⟨made, hmade, hmem⟩ := exists_assembled request_quoted
  have hp := Prefixes.sound_of_unasked []
  obtain ⟨r, hr⟩ := Assembler.exists_mem_spaces hp hmade request_quoted rfl
  refine ⟨made, hmem, fun named hread => ?_⟩
  have hverbatim := ((Assembler.read?_envelope_of_assembleAll hp hmem named).1 hread _ hr).2
  have hmark : '"' ∈ quoted.toList := by decide
  exact hverbatim.unmarked hmark

end SampleSpace

end SoapComponents
