import Mathlib.Data.List.Nodup
import SoapComponents.Proofs.Generation
import SoapComponents.Proofs.Location.Path

/-!
The files of a run. A component is written in the directory of the run, under the name of its
operation. Names are whatever a description says: one with a slash in it leads elsewhere, and
operations of one name, which a description may overload, share one file.
-/

set_option autoImplicit false

namespace SoapComponents

namespace Path

def child (p : Path) (name : String) : Path := { p with segments := p.segments ++ [name] }

theorem Plain.child {p : Path} {name : String} (hp : p.Plain) (hname : PlainSegment name) :
    (p.child name).Plain := by
  refine ⟨hp.root, fun s hs => ?_⟩
  rcases List.mem_append.1 hs with hs | hs
  · exact hp.segments s hs
  · exact List.mem_singleton.1 hs ▸ hname

theorem child_inj {p : Path} {name name' : String} : p.child name = p.child name' ↔ name = name' := by
  simp [child]

theorem parse_of_plainSegment {s : String} (h : PlainSegment s) : parse s = ⟨"", [s]⟩ := by
  have hplain : Plain ⟨"", [s]⟩ := ⟨.inl rfl, fun t ht => List.mem_singleton.1 ht ▸ h⟩
  have htext : toText ⟨"", [s]⟩ = s := by simp [toText]
  simpa only [htext] using parse_toText hplain

end Path

namespace Assembler

variable {a : Assembler} {p : Prefixes} {op : Operation} {assembled : Assembled}

theorem operation_of_assembleOnce (h : (a.assembleOnce op).result p = .ok assembled) :
    assembled.operation = op.name := by
  obtain ⟨request, _, hfrom, _⟩ := request_of_assembleOnce h
  obtain ⟨own, last, hown, hlast⟩ := headers_of_assembleFrom hfrom
  simp only [withHeaders, startSpace] at hlast
  simp only [assembleFrom, Naming.result_bind, Naming.result_lift, Naming.after_lift,
    Naming.result_assigning, Naming.after_assigning, hown, hlast] at hfrom
  exact (congrArg Assembled.operation (Except.ok.inj hfrom)).symm

theorem names_of_assembleAll (a : Assembler) (ops : List Operation) (p : Prefixes) :
    List.Forall₂ (fun op made => ∀ assembled, made = .ok assembled → assembled.operation = op.name)
      ops ((a.assembleAll ops).result p) := by
  induction ops generalizing p with
  | nil => exact .nil
  | cons op rest ih =>
    rw [result_assembleAll_cons]
    exact .cons (fun _ h => operation_of_assembleOnce h) (ih _)

/-- The components of the operations that come out well, in their order. -/
def components (made : List (Except Failure Assembled)) : List Assembled :=
  made.filterMap Except.toOption

end Assembler

namespace Job

variable {j : Job} {settings : Settings} {a : Assembler} {library : Library} {p : Progress}
  {name name' ending ending' : String}

def endings : List String := [".tsx", ".mappings.yaml"]

theorem plainSegment_iff (hending : ending ∈ endings) :
    Path.PlainSegment (name ++ ending) ↔ '/' ∉ name.toList := by
  have hslash : ∀ ending ∈ endings, '/' ∉ ending.toList := by decide
  have hlength : ∀ ending ∈ endings, 1 < ending.length := by decide
  have hlong : 1 < (name ++ ending).length := by
    rw [String.length_append]
    exact Nat.lt_add_left _ (hlength ending hending)
  have htext : '/' ∉ (name ++ ending).toList ↔ '/' ∉ name.toList := by
    simp [String.toList_append, hslash ending hending]
  refine ⟨fun h => htext.1 h.no_slash, fun h => ⟨?_, ?_, htext.2 h⟩⟩
  · rintro heq
    rw [heq] at hlong
    exact absurd hlong (by decide)
  · rintro heq
    rw [heq] at hlong
    exact absurd hlong (by decide)

/-- A file of a component is in the directory of the run, under the name of the operation, just when
there is no slash in this name. -/
theorem parse_path_iff (hending : ending ∈ endings) :
    Path.parse (j.path name ending) = (Path.parse j.directory).child (name ++ ending) ↔
      '/' ∉ name.toList := by
  have hplain := Path.plain_parse (j.path name ending)
  constructor
  · intro h
    rw [h] at hplain
    exact (plainSegment_iff hending).1 (hplain.segments _ (by simp [Path.child]))
  · intro h
    have hsegment := (plainSegment_iff hending).2 h
    have hjoin : (Path.parse j.directory).join (Path.parse (name ++ ending)) =
        (Path.parse j.directory).child (name ++ ending) := by
      rw [Path.parse_of_plainSegment hsegment]
      rfl
    rw [path, hjoin, Path.parse_toText ((Path.plain_parse _).child hsegment)]

theorem path_inj (hending : ending ∈ endings) (hending' : ending' ∈ endings)
    (hname : '/' ∉ name.toList) (hname' : '/' ∉ name'.toList)
    (h : j.path name ending = j.path name' ending') : name = name' ∧ ending = ending' := by
  have hchild := (@parse_path_iff j name ending hending).2 hname
  have hchild' := (@parse_path_iff j name' ending' hending').2 hname'
  have htext : name ++ ending = name' ++ ending' :=
    Path.child_inj.1 (hchild.symm.trans ((congrArg Path.parse h).trans hchild'))
  have hsame : ending = ending' := by
    have hlast := congrArg (fun s : String => s.toList.getLast?) htext
    simp only [String.toList_append] at hlast
    simp only [endings, List.mem_cons, List.not_mem_nil, or_false] at hending hending'
    rcases hending with rfl | rfl <;> rcases hending' with rfl | rfl <;>
      first | rfl | simp [List.getLast?_append] at hlast
  subst hsame
  exact ⟨String.append_left_inj ending |>.1 htext, rfl⟩

theorem after_run_of_ok (hp : p.prefixes.Sound)
    (h : (j.run settings library).result p = .ok ()) :
    ∃ service ops, (Service.load library settings.fetchTimeout j.location).result = .ok service ∧
      (service.operations >>= j.select) = .ok ops ∧
      let a := Assembler.ofService settings service
      (j.run settings library).after p =
        { p with prefixes := (a.assembleAll ops).after p.prefixes }.add
          (j.outputsAll settings ((a.assembleAll ops).result p.prefixes)) := by
  unfold run at h ⊢
  simp only [Running.result_bind, Running.after_bind, Running.result_ofOutcome,
    Running.after_ofOutcome, Outcome.result_ofExcept] at h ⊢
  cases hload : (Service.load library settings.fetchTimeout j.location).result with
  | error failure => simp [hload] at h
  | ok service =>
    simp only [hload] at h ⊢
    cases hops : (service.operations >>= j.select) with
    | error failure => simp [hops] at h
    | ok ops =>
      simp only [hops] at h ⊢
      have ha : (⟨service, service.graph.catalog, Prefix.Policy.ofSettings settings⟩ :
          Assembler) = Assembler.ofService settings service := rfl
      rw [ha] at h ⊢
      refine ⟨service, ops, rfl, hops, ?_⟩
      cases hrun : (ops.forM (j.runOperation settings (Assembler.ofService settings service))).result
          p with
      | error failure =>
        rw [hrun] at h
        cases h
      | ok _ =>
        simp only [Running.result_get, Running.after_get]
        rw [← after_runOperations_of_ok hp hrun]
        generalize (ops.forM (j.runOperation settings (Assembler.ofService settings service))).after
          p = last
        split <;> rfl

theorem outputsAll_eq (j : Job) (settings : Settings) (made : List (Except Failure Assembled)) :
    j.outputsAll settings made = (Assembler.components made).flatMap (j.outputs settings) := by
  induction made with
  | nil => rfl
  | cons first rest ih =>
    rw [outputsAll_cons, ih]
    cases first with
    | error failure => rfl
    | ok assembled => simp [outputsAll, Assembler.components, Except.toOption]

def paths (j : Job) (settings : Settings) (assembled : Assembled) : List String :=
  j.path assembled.operation ".tsx" ::
    if j.emitMappings.getD settings.emitMappings then [j.path assembled.operation ".mappings.yaml"]
    else []

theorem map_fst_outputs (j : Job) (settings : Settings) (assembled : Assembled) :
    (j.outputs settings assembled).map Prod.fst = j.paths settings assembled := by
  unfold outputs paths
  split <;> rfl

theorem nodup_paths_iff {components : List Assembled}
    (hnames : ∀ c ∈ components, '/' ∉ c.operation.toList) :
    (components.map fun c => j.path c.operation ".tsx").Nodup ↔
      (components.map (·.operation)).Nodup := by
  have hmap : (components.map fun c => j.path c.operation ".tsx") =
      (components.map (·.operation)).map fun name => j.path name ".tsx" := by
    rw [List.map_map]
    rfl
  rw [hmap]
  refine ⟨.of_map _, fun hnodup => hnodup.map_on fun name hname name' hname' heq => ?_⟩
  obtain ⟨c, hc, rfl⟩ := List.mem_map.1 hname
  obtain ⟨d, hd, rfl⟩ := List.mem_map.1 hname'
  exact (path_inj (by simp [endings]) (by simp [endings]) (hnames c hc) (hnames d hd) heq).1

theorem content_of_mem_outputs {components : List Assembled}
    (hnames : ∀ c ∈ components, '/' ∉ c.operation.toList)
    (hnodup : (components.map (·.operation)).Nodup) {c : Assembled} (hc : c ∈ components)
    {e : String × String} (he : e ∈ components.flatMap (j.outputs settings))
    (hpath : e.1 = j.path c.operation ".tsx") :
    e.2 = c.component.print settings.runtimeModule := by
  obtain ⟨d, hd, he⟩ := List.mem_flatMap.1 he
  have hcomponent : ".tsx" ∈ endings := by simp [endings]
  have hmappings : ".mappings.yaml" ∈ endings := by simp [endings]
  rcases List.mem_cons.1 he with rfl | he
  · obtain ⟨hname, -⟩ := path_inj hcomponent hcomponent (hnames d hd) (hnames c hc) hpath
    rw [List.inj_on_of_nodup_map hnodup hd hc hname]
  · split at he
    · obtain rfl := List.mem_singleton.1 he
      obtain ⟨-, hending⟩ := path_inj hmappings hcomponent (hnames d hd) (hnames c hc) hpath
      exact absurd hending (by decide)
    · cases he

/-- A run that comes out well writes one component for each operation that does, in the order of the
operations, named for it. The component is in the directory of the run under this name just when
there is no slash in it. Where no name has a slash, the paths of the components are different just
when the names are, and then every component is there in the end. -/
theorem components_of_run (j : Job) (settings : Settings) (library : Library)
    (h : (j.run settings library).result {} = .ok ()) :
    ∃ service ops, (Service.load library settings.fetchTimeout j.location).result = .ok service ∧
      (service.operations >>= j.select) = .ok ops ∧
      let made := ((Assembler.ofService settings service).assembleAll ops).result {}
      let components := Assembler.components made
      let last := (j.run settings library).after {}
      List.Forall₂ (fun op made => ∀ assembled, made = .ok assembled →
        assembled.operation = op.name) ops made ∧
      last.written = components.flatMap (j.paths settings) ∧
      (∀ c ∈ components, Path.parse (j.path c.operation ".tsx") =
          (Path.parse j.directory).child (c.operation ++ ".tsx") ↔ '/' ∉ c.operation.toList) ∧
      ((∀ c ∈ components, '/' ∉ c.operation.toList) →
        ((components.map fun c => j.path c.operation ".tsx").Nodup ↔
          (components.map (·.operation)).Nodup) ∧
        ((components.map (·.operation)).Nodup → ∀ c ∈ components,
          last.files.value? (j.path c.operation ".tsx") =
            some (c.component.print settings.runtimeModule))) := by
  obtain ⟨service, ops, hload, hops, hafter⟩ :=
    after_run_of_ok (Prefixes.sound_of_unasked []) h
  refine ⟨service, ops, hload, hops, Assembler.names_of_assembleAll _ _ _, ?_,
    fun c _ => parse_path_iff (by simp [endings]), fun hnames => ⟨?_, fun hnodup c hc => ?_⟩⟩
  · rw [hafter, outputsAll_eq]
    simp only [Progress.add, List.nil_append, List.map_flatMap, map_fst_outputs]
  · exact nodup_paths_iff hnames
  · rw [hafter, outputsAll_eq]
    show Table.value? (Table.putAll [] _) _ = _
    rw [Table.value?_putAll, show Table.value? ([] : Table String) _ = none from rfl, Option.or_none]
    have hmem : (j.path c.operation ".tsx", c.component.print settings.runtimeModule) ∈
        (Assembler.components (((Assembler.ofService settings service).assembleAll ops).result
          {})).flatMap (j.outputs settings) :=
      List.mem_flatMap.2 ⟨c, hc, List.mem_cons_self⟩
    obtain ⟨content, hcontent⟩ := Option.isSome_iff_exists.1 <| Table.holds_iff_mem_keys.2 <|
      List.mem_map_of_mem (List.mem_reverse.2 hmem)
    refine hcontent.trans (congrArg some ?_)
    exact content_of_mem_outputs hnames hnodup hc
      (List.mem_reverse.1 (Table.mem_of_value? hcontent)) rfl

end Job

namespace SampleFiles

open SampleRun

/-- A description with the operations `Op`, which takes a message, and `Other`, which takes one and
answers with one. -/
def bytes : List UInt8 := [
  60, 100, 101, 102, 105, 110, 105, 116, 105, 111, 110, 115, 32, 116, 97, 114, 103, 101, 116, 78,
  97, 109, 101, 115, 112, 97, 99, 101, 61, 34, 119, 34, 62, 60, 116, 121, 112, 101, 115, 62, 60,
  115, 99, 104, 101, 109, 97, 32, 116, 97, 114, 103, 101, 116, 78, 97, 109, 101, 115, 112, 97, 99,
  101, 61, 34, 119, 34, 62, 60, 99, 111, 109, 112, 108, 101, 120, 84, 121, 112, 101, 32, 110, 97,
  109, 101, 61, 34, 82, 34, 62, 60, 115, 101, 113, 117, 101, 110, 99, 101, 47, 62, 60, 47, 99,
  111, 109, 112, 108, 101, 120, 84, 121, 112, 101, 62, 60, 47, 115, 99, 104, 101, 109, 97, 62, 60,
  47, 116, 121, 112, 101, 115, 62, 60, 109, 101, 115, 115, 97, 103, 101, 32, 110, 97, 109, 101,
  61, 34, 77, 34, 62, 60, 112, 97, 114, 116, 32, 110, 97, 109, 101, 61, 34, 112, 34, 32, 116, 121,
  112, 101, 61, 34, 82, 34, 47, 62, 60, 47, 109, 101, 115, 115, 97, 103, 101, 62, 60, 112, 111,
  114, 116, 84, 121, 112, 101, 62, 60, 111, 112, 101, 114, 97, 116, 105, 111, 110, 32, 110, 97,
  109, 101, 61, 34, 79, 112, 34, 62, 60, 105, 110, 112, 117, 116, 32, 109, 101, 115, 115, 97, 103,
  101, 61, 34, 77, 34, 47, 62, 60, 47, 111, 112, 101, 114, 97, 116, 105, 111, 110, 62, 60, 111,
  112, 101, 114, 97, 116, 105, 111, 110, 32, 110, 97, 109, 101, 61, 34, 79, 116, 104, 101, 114,
  34, 62, 60, 105, 110, 112, 117, 116, 32, 109, 101, 115, 115, 97, 103, 101, 61, 34, 77, 34, 47,
  62, 60, 111, 117, 116, 112, 117, 116, 32, 109, 101, 115, 115, 97, 103, 101, 61, 34, 77, 34, 47,
  62, 60, 47, 111, 112, 101, 114, 97, 116, 105, 111, 110, 62, 60, 47, 112, 111, 114, 116, 84, 121,
  112, 101, 62, 60, 47, 100, 101, 102, 105, 110, 105, 116, 105, 111, 110, 115, 62]

/-- The same, but for the second operation, which is called `Op` too. -/
def bytes' : List UInt8 := [
  60, 100, 101, 102, 105, 110, 105, 116, 105, 111, 110, 115, 32, 116, 97, 114, 103, 101, 116, 78,
  97, 109, 101, 115, 112, 97, 99, 101, 61, 34, 119, 34, 62, 60, 116, 121, 112, 101, 115, 62, 60,
  115, 99, 104, 101, 109, 97, 32, 116, 97, 114, 103, 101, 116, 78, 97, 109, 101, 115, 112, 97, 99,
  101, 61, 34, 119, 34, 62, 60, 99, 111, 109, 112, 108, 101, 120, 84, 121, 112, 101, 32, 110, 97,
  109, 101, 61, 34, 82, 34, 62, 60, 115, 101, 113, 117, 101, 110, 99, 101, 47, 62, 60, 47, 99,
  111, 109, 112, 108, 101, 120, 84, 121, 112, 101, 62, 60, 47, 115, 99, 104, 101, 109, 97, 62, 60,
  47, 116, 121, 112, 101, 115, 62, 60, 109, 101, 115, 115, 97, 103, 101, 32, 110, 97, 109, 101,
  61, 34, 77, 34, 62, 60, 112, 97, 114, 116, 32, 110, 97, 109, 101, 61, 34, 112, 34, 32, 116, 121,
  112, 101, 61, 34, 82, 34, 47, 62, 60, 47, 109, 101, 115, 115, 97, 103, 101, 62, 60, 112, 111,
  114, 116, 84, 121, 112, 101, 62, 60, 111, 112, 101, 114, 97, 116, 105, 111, 110, 32, 110, 97,
  109, 101, 61, 34, 79, 112, 34, 62, 60, 105, 110, 112, 117, 116, 32, 109, 101, 115, 115, 97, 103,
  101, 61, 34, 77, 34, 47, 62, 60, 47, 111, 112, 101, 114, 97, 116, 105, 111, 110, 62, 60, 111,
  112, 101, 114, 97, 116, 105, 111, 110, 32, 110, 97, 109, 101, 61, 34, 79, 112, 34, 62, 60, 105,
  110, 112, 117, 116, 32, 109, 101, 115, 115, 97, 103, 101, 61, 34, 77, 34, 47, 62, 60, 111, 117,
  116, 112, 117, 116, 32, 109, 101, 115, 115, 97, 103, 101, 61, 34, 77, 34, 47, 62, 60, 47, 111,
  112, 101, 114, 97, 116, 105, 111, 110, 62, 60, 47, 112, 111, 114, 116, 84, 121, 112, 101, 62,
  60, 47, 100, 101, 102, 105, 110, 105, 116, 105, 111, 110, 115, 62]

def answering (name : String) : Tree := .node [
  ("name", .text name), ("input", .node [("message", .text "M")]),
  ("output", .node [("message", .text "M")])]

def ports (name : String) : Tree := .node [("operation", .many [good, answering name])]

set_option maxRecDepth 20000 in
theorem parse_bytes :
    Tree.parse bytes = .ok (.node [("definitions", definitions (ports "Other"))]) := (rfl)

set_option maxRecDepth 20000 in
theorem parse_bytes' :
    Tree.parse bytes' = .ok (.node [("definitions", definitions (ports "Op"))]) := (rfl)

def job : Job := { location := "/w", directory := "/out", emitMappings := some false }

section

variable {content : List UInt8} {name : String}

def described (name : String) : Service :=
  { service with definitions := definitions (ports name) }

theorem made_two (name : String) : ∃ c d,
    (assembler.assembleAll [Operation.ofTree good, ⟨name, some "M", some "M"⟩]).result {} =
      [.ok c, .ok d] ∧ c.operation = "Op" ∧ d.operation = name := by
  have hmade : ∀ (op : Operation), op.input = some "M" → ∀ p : Prefixes, p.Sound →
      ∃ assembled, (assembler.assembleOnce op).result p = .ok assembled := by
    rintro ⟨name, input, output⟩ rfl p hp
    cases h : (assembler.assembleOnce ⟨name, some "M", output⟩).result p with
    | error failure => cases (assembler.assembleOnce_eq_error_iff _ hp).1 h
    | ok assembled => exact ⟨assembled, rfl⟩
  have hp : ({} : Prefixes).Sound := Prefixes.sound_of_unasked []
  obtain ⟨c, hc⟩ := hmade (Operation.ofTree good) rfl {} hp
  obtain ⟨d, hd⟩ := hmade ⟨name, some "M", some "M"⟩ rfl _
    (assembler.assembleOnce_extends (Operation.ofTree good) hp).1
  refine ⟨c, d, ?_, Assembler.operation_of_assembleOnce hc, Assembler.operation_of_assembleOnce hd⟩
  rw [Assembler.result_assembleAll_cons, Assembler.result_assembleAll_cons, hc, hd]
  rfl

theorem run_two
    (hparse : Tree.parse content = .ok (.node [("definitions", definitions (ports name))]))
    (hdefinitions : Tree.element? (.node [("definitions", definitions (ports name))]) "definitions" =
      some (definitions (ports name)))
    (hsame : SameButOperations (definitions SampleRun.ports) (definitions (ports name)))
    (hport : (described name).portType? = some (ports name))
    (hops : ((ports name).children "operation").map Operation.ofTree =
      [Operation.ofTree good, ⟨name, some "M", some "M"⟩]) :
    (Service.load [("/w", .file content)] settings.fetchTimeout job.location).result =
        .ok (described name) ∧
      ∃ c d, ((Assembler.ofService settings (described name)).assembleAll
          [Operation.ofTree good, ⟨name, some "M", some "M"⟩]).result {} = [.ok c, .ok d] ∧
        c.operation = "Op" ∧ d.operation = name ∧
        (job.run settings [("/w", .file content)]).result {} = .ok () ∧
        ((job.run settings [("/w", .file content)]).after {}).written =
          [job.path "Op" ".tsx", job.path name ".tsx"] ∧
        ((job.run settings [("/w", .file content)]).after {}).files = Table.putAll [] [
          (job.path "Op" ".tsx", c.component.print settings.runtimeModule),
          (job.path name ".tsx", d.component.print settings.runtimeModule)] := by
  have hload : (Service.load [("/w", .file content)] settings.fetchTimeout job.location).result =
      .ok (described name) :=
    Service.load_exchanged load_service (exchanged hparse) hdefinitions hsame
  have hmade : ((Assembler.ofService settings (described name)).assembleAll
      [Operation.ofTree good, ⟨name, some "M", some "M"⟩]).result {} =
        (assembler.assembleAll [Operation.ofTree good, ⟨name, some "M", some "M"⟩]).result {} := by
    rw [described, Assembler.assembleAll_of_sameButOperations hsame]
    rfl
  obtain ⟨c, d, hresult, hc, hd⟩ := made_two name
  rw [← hmade] at hresult
  have hall : Name.given? job.operation = none := rfl
  have hp : ({} : Progress).prefixes.Sound := Prefixes.sound_of_unasked []
  obtain ⟨hafter, hlast⟩ := Job.run_spec hall hp hload hport
  have hfiles : job.outputsAll settings (((Assembler.ofService settings (described name)).assembleAll
      [Operation.ofTree good, ⟨name, some "M", some "M"⟩]).result ({} : Progress).prefixes) = [
        (job.path "Op" ".tsx", c.component.print settings.runtimeModule),
        (job.path name ".tsx", d.component.print settings.runtimeModule)] := by
    rw [show ({} : Progress).prefixes = {} from rfl, hresult, ← hd, ← hc]
    rfl
  rw [hops, hfiles] at hafter hlast
  refine ⟨hload, c, d, hresult, hc, hd, hlast.trans ?_, ?_, ?_⟩
  · simp [Progress.add]
  · simp [hafter, Progress.add]
  · simp [hafter, Progress.add]

end

/-- Two operations of one name come out well, and what is left is the component of one. -/
theorem overloaded_overwritten :
    (job.run settings [("/w", .file bytes')]).result {} = .ok () ∧
      ((job.run settings [("/w", .file bytes')]).after {}).written =
        ["/out/Op.tsx", "/out/Op.tsx"] ∧
      ∃ content, ((job.run settings [("/w", .file bytes')]).after {}).files =
        [("/out/Op.tsx", content)] := by
  obtain ⟨_, c, d, _, _, _, hok, hwritten, hfiles⟩ :=
    run_two parse_bytes' rfl ⟨rfl, rfl, rfl, rfl, rfl, rfl⟩ rfl rfl
  have hpath : job.path "Op" ".tsx" = "/out/Op.tsx" := by decide +kernel
  rw [hpath] at hwritten hfiles
  refine ⟨hok, hwritten, d.component.print settings.runtimeModule, hfiles.trans ?_⟩
  simp [Table.putAll, Table.put]

/-- Two operations of two names have their files, and each file has its component. -/
theorem two_components :
    (job.run settings [("/w", .file bytes)]).result {} = .ok () ∧ ∃ c d : Assembled,
      c.operation = "Op" ∧ d.operation = "Other" ∧
      ((job.run settings [("/w", .file bytes)]).after {}).written =
        ["/out/Op.tsx", "/out/Other.tsx"] ∧
      ((job.run settings [("/w", .file bytes)]).after {}).files.value? "/out/Op.tsx" =
        some (c.component.print settings.runtimeModule) ∧
      ((job.run settings [("/w", .file bytes)]).after {}).files.value? "/out/Other.tsx" =
        some (d.component.print settings.runtimeModule) := by
  obtain ⟨hload, c, d, hresult, hc, hd, hok, hwritten, -⟩ :=
    run_two parse_bytes rfl ⟨rfl, rfl, rfl, rfl, rfl, rfl⟩ rfl rfl
  have hop : job.path "Op" ".tsx" = "/out/Op.tsx" := by decide +kernel
  have hother : job.path "Other" ".tsx" = "/out/Other.tsx" := by decide +kernel
  obtain ⟨service', ops, hload', hops, -, -, -, hrest⟩ := Job.components_of_run job settings _ hok
  obtain rfl := Except.ok.inj (hload.symm.trans hload')
  obtain rfl : [Operation.ofTree good, ⟨"Other", some "M", some "M"⟩] = ops :=
    Except.ok.inj ((show _ = (described "Other").operations >>= job.select from rfl).trans hops)
  rw [hresult] at hrest
  have hcomponents : Assembler.components [.ok c, .ok d] = [c, d] := rfl
  simp only [hcomponents] at hrest
  obtain ⟨_, hfiles⟩ := hrest (by simp [hc, hd])
  have hfiles := hfiles (by simp [hc, hd])
  refine ⟨hok, c, d, hc, hd, hop ▸ hother ▸ hwritten, ?_, ?_⟩
  · rw [← hop, ← hc]
    exact hfiles c (by simp)
  · rw [← hother, ← hd]
    exact hfiles d (by simp)

end SampleFiles

end SoapComponents
