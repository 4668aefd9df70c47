import SoapComponents.Proofs.Component.Bindings
import SoapComponents.Proofs.Loading
import SoapComponents.Proofs.Running
import SoapComponents.Proofs.Schema.Pruned
import SoapComponents.Proofs.Schema.SchemaOrder
import SoapComponents.Proofs.Schema.Typed

/-!
Runs over operations. An operation that fails leaves a run as it was, so a run writes what it would
write without the operations that fail; and it is a failure just when all of them do.
-/

set_option autoImplicit false

namespace SoapComponents

theorem Failure.OfPart.isGenerating {failure : Failure} (h : failure.OfPart) :
    failure.isGenerating = true := by
  cases h <;> rfl

namespace Assembler

variable {a : Assembler} {p : Prefixes}

theorem isGenerating_of_assembleOnce {op : Operation} {failure : Failure} (hp : p.Sound)
    (h : (a.assembleOnce op).result p = .error failure) : failure.isGenerating = true := by
  rcases Service.request_failure ((a.assembleOnce_eq_error_iff op hp).1 h) with rfl | hpart
  · rfl
  · exact hpart.isGenerating

def ofService (settings : Settings) (service : Service) : Assembler :=
  ⟨service, service.graph.catalog, Prefix.Policy.ofSettings settings⟩

/-- The declarations of operations that came out well, of those that `made` tells of. -/
def succeeding (declarations : List Tree) (made : List (Except Failure Assembled)) : List Tree :=
  (declarations.zip made).filterMap fun e => e.2.toOption.map fun _ => e.1

theorem assembleAll_succeeding (a : Assembler) (declarations : List Tree) (hp : p.Sound) :
    let made := (a.assembleAll (declarations.map Operation.ofTree)).result p
    let ops := (succeeding declarations made).map Operation.ofTree
    (a.assembleAll ops).result p = made.filter Except.isOk ∧
      (a.assembleAll ops).after p =
        (a.assembleAll (declarations.map Operation.ofTree)).after p := by
  induction declarations generalizing p with
  | nil => exact ⟨rfl, rfl⟩
  | cons declaration rest ih =>
    obtain ⟨hsound, _⟩ := a.assembleOnce_extends (Operation.ofTree declaration) hp
    obtain ⟨hresult, hafter⟩ := ih hsound
    intro made ops
    simp only [ops, made, succeeding, List.map_cons, result_assembleAll_cons,
      after_assembleAll_cons, List.zip_cons_cons, List.filterMap_cons, List.filter_cons] at *
    cases h : (a.assembleOnce (Operation.ofTree declaration)).result p with
    | error failure =>
      rw [after_assembleOnce_of_error hp h] at hresult hafter ⊢
      exact ⟨hresult, hafter⟩
    | ok assembled =>
      simp only [Except.toOption, Option.map_some, List.map_cons, result_assembleAll_cons,
        after_assembleAll_cons, h, Except.isOk, Except.toBool, if_true]
      exact ⟨congrArg (_ :: ·) hresult, hafter⟩

end Assembler

namespace Job

variable {j : Job} {settings : Settings} {a : Assembler}

def outputs (j : Job) (settings : Settings) (assembled : Assembled) : List (String × String) :=
  (j.path assembled.operation ".tsx", assembled.component.print settings.runtimeModule) ::
    if j.emitMappings.getD settings.emitMappings then
      [(j.path assembled.operation ".mappings.yaml", assembled.namespaces.print)]
    else []

def outputsAll (j : Job) (settings : Settings) (made : List (Except Failure Assembled)) :
    List (String × String) :=
  made.flatMap fun
    | .ok assembled => j.outputs settings assembled
    | .error _ => []

theorem outputsAll_cons (j : Job) (settings : Settings) (first : Except Failure Assembled)
    (made : List (Except Failure Assembled)) : j.outputsAll settings (first :: made) =
      j.outputsAll settings [first] ++ j.outputsAll settings made := by
  simp [outputsAll]

theorem outputsAll_filter (j : Job) (settings : Settings)
    (made : List (Except Failure Assembled)) :
    j.outputsAll settings (made.filter Except.isOk) = j.outputsAll settings made := by
  induction made with
  | nil => rfl
  | cons first rest ih =>
    cases first with
    | error failure => exact ih
    | ok assembled => exact congrArg (_ ++ ·) ih

theorem outputsAll_eq_nil_iff (j : Job) (settings : Settings)
    (made : List (Except Failure Assembled)) :
    j.outputsAll settings made = [] ↔ ∀ m ∈ made, ∃ failure, m = .error failure := by
  simp only [outputsAll, List.flatMap_eq_nil_iff]
  refine forall_congr' fun m => imp_congr_right fun _ => ?_
  cases m <;> simp [outputs]

theorem writeComponent_spec (j : Job) (settings : Settings) (assembled : Assembled)
    (p : Progress) :
    (j.writeComponent settings assembled).result p = .ok () ∧
      (j.writeComponent settings assembled).after p = p.add (j.outputs settings assembled) := by
  unfold writeComponent outputs
  split
  · simp [Running.result_bind, Running.after_bind, ← Progress.add_append]
  · simp [Running.result_bind, Running.after_bind]

/-- What one operation leaves, in a run that was not asked for one by name: the prefixes that it
was given, and the files of its component, if there is one. -/
theorem runOperation_spec (j : Job) (settings : Settings) (a : Assembler) (op : Operation)
    {p : Progress} (hall : Name.given? j.operation = none)
    (hp : p.prefixes.Sound) :
    (j.runOperation settings a op).result p = .ok () ∧
      (j.runOperation settings a op).after p =
        { p with prefixes := (a.assembleOnce op).after p.prefixes }.add
          (j.outputsAll settings [(a.assembleOnce op).result p.prefixes]) := by
  unfold runOperation
  simp only [Running.result_bind, Running.after_bind, Running.result_naming,
    Running.after_naming]
  cases h : (a.assembleOnce op).result p.prefixes with
  | error failure =>
    have hgenerating := Assembler.isGenerating_of_assembleOnce hp h
    simp [hgenerating, hall, outputsAll]
  | ok assembled => simpa [outputsAll] using j.writeComponent_spec settings assembled _

theorem after_runOperation_of_error {op : Operation} {p : Progress} {failure : Failure}
    (hall : Name.given? j.operation = none) (hp : p.prefixes.Sound)
    (h : (a.assembleOnce op).result p.prefixes = .error failure) :
    (j.runOperation settings a op).after p = p := by
  rw [(j.runOperation_spec settings a op hall hp).2, h, Assembler.after_assembleOnce_of_error hp h]
  simp [outputsAll]

theorem after_runOperation_of_ok {op : Operation} {p : Progress} (hp : p.prefixes.Sound)
    (h : (j.runOperation settings a op).result p = .ok ()) :
    (j.runOperation settings a op).after p =
      { p with prefixes := (a.assembleOnce op).after p.prefixes }.add
        (j.outputsAll settings [(a.assembleOnce op).result p.prefixes]) := by
  by_cases hall : Name.given? j.operation = none
  · exact (j.runOperation_spec settings a op hall hp).2
  · have hasked : (Name.given? j.operation).isNone = false := by
      rw [Option.isNone_eq_false_iff, Option.isSome_iff_ne_none]
      exact hall
    unfold runOperation at h ⊢
    simp only [Running.result_bind, Running.after_bind, Running.result_naming,
      Running.after_naming] at h ⊢
    cases hmade : (a.assembleOnce op).result p.prefixes with
    | error failure => simp [hmade, hasked] at h
    | ok assembled => simpa [outputsAll] using (j.writeComponent_spec settings assembled _).2

theorem after_runOperations_of_ok {ops : List Operation} {p : Progress} (hp : p.prefixes.Sound)
    (h : (ops.forM (j.runOperation settings a)).result p = .ok ()) :
    (ops.forM (j.runOperation settings a)).after p =
      { p with prefixes := (a.assembleAll ops).after p.prefixes }.add
        (j.outputsAll settings ((a.assembleAll ops).result p.prefixes)) := by
  induction ops generalizing p with
  | nil => simp [outputsAll, Assembler.assembleAll]
  | cons op rest ih =>
    have hcons : (op :: rest).forM (j.runOperation settings a) =
        j.runOperation settings a op >>= fun _ => rest.forM (j.runOperation settings a) := rfl
    rw [hcons, Running.result_bind] at h
    rw [hcons, Running.after_bind]
    cases hfirst : (j.runOperation settings a op).result p with
    | error failure => simp [hfirst] at h
    | ok _ =>
      have hafter := after_runOperation_of_ok hp hfirst
      have hsound : ((j.runOperation settings a op).after p).prefixes.Sound := by
        rw [hafter]
        exact (a.assembleOnce_extends op hp).1
      simp only [hfirst] at h ⊢
      rw [ih hsound h, hafter, Assembler.after_assembleAll_cons, Assembler.result_assembleAll_cons,
        j.outputsAll_cons settings _ ((a.assembleAll rest).result _), Progress.add_append]
      rfl

theorem runOperations_spec (j : Job) (settings : Settings) (a : Assembler) (ops : List Operation)
    {p : Progress} (hall : Name.given? j.operation = none) (hp : p.prefixes.Sound) :
    (ops.forM (j.runOperation settings a)).result p = .ok () ∧
      (ops.forM (j.runOperation settings a)).after p =
        { p with prefixes := (a.assembleAll ops).after p.prefixes }.add
          (j.outputsAll settings ((a.assembleAll ops).result p.prefixes)) := by
  have hresult : (ops.forM (j.runOperation settings a)).result p = .ok () := by
    induction ops generalizing p with
    | nil => rfl
    | cons op rest ih =>
      obtain ⟨hresult, hafter⟩ := j.runOperation_spec settings a op hall hp
      have hcons : (op :: rest).forM (j.runOperation settings a) =
          j.runOperation settings a op >>= fun _ => rest.forM (j.runOperation settings a) := rfl
      rw [hcons, Running.result_bind, hresult]
      refine ih ?_
      rw [hafter]
      exact (a.assembleOnce_extends op hp).1
  exact ⟨hresult, after_runOperations_of_ok hp hresult⟩

theorem run_spec {library : Library} {service : Service} {portType : Tree} {p : Progress}
    (hall : Name.given? j.operation = none) (hp : p.prefixes.Sound)
    (hload : (Service.load library settings.fetchTimeout j.location).result = .ok service)
    (hport : service.portType? = some portType) :
    let a := Assembler.ofService settings service
    let ops := (portType.children "operation").map Operation.ofTree
    let last := { p with prefixes := (a.assembleAll ops).after p.prefixes }.add
      (j.outputsAll settings ((a.assembleAll ops).result p.prefixes))
    (j.run settings library).after p = last ∧
      (j.run settings library).result p =
        if last.written.isEmpty then .error (.nothingGenerated j.location) else .ok () := by
  intro a ops last
  obtain ⟨hresult, hafter⟩ := j.runOperations_spec settings a ops hall hp
  have hselected : (service.operations >>= j.select) = .ok ops := by
    have hselect : j.select ops = .ok ops := by simp only [select, hall]
    rw [Service.operations, hport]
    exact hselect
  unfold run
  simp only [Running.result_bind, Running.after_bind, Running.result_ofOutcome,
    Running.after_ofOutcome, hload, hselected, Outcome.result_ofExcept, Running.result_get,
    Running.after_get]
  have ha : (⟨service, service.graph.catalog, Prefix.Policy.ofSettings settings⟩ : Assembler) = a :=
    rfl
  rw [ha, hresult]
  dsimp only
  rw [hafter]
  change Running.after (if last.written.isEmpty then _ else _) last = last ∧
    Running.result (if last.written.isEmpty then _ else _) last = _
  split <;> exact ⟨rfl, rfl⟩

end Job

/-- Service descriptions that differ at most in the operations of their port type. -/
structure SameButOperations (definitions definitions' : Tree) : Prop where
  target : definitions'.attribute? "targetNamespace" = definitions.attribute? "targetNamespace"
  namespaces : definitions'.namespaces = definitions.namespaces
  types : definitions'.element? "types" = definitions.element? "types"
  messages : definitions'.children "message" = definitions.children "message"
  bindings : definitions'.children "binding" = definitions.children "binding"
  portName : (definitions'.element? "portType").bind (·.given? "name") =
    (definitions.element? "portType").bind (·.given? "name")

/-- The same documents, but for one that is a tree here and another one there. -/
structure Visit.Origin.Exchanged (tree tree' : Tree) (location : String)
    (source source' : Visit.Origin) : Prop where
  here : (source.document location).result = .ok tree
  there : (source'.document location).result = .ok tree'
  others : ∀ place, (source'.document place).result = (source.document place).result ∨
    ((source.document place).result = .ok tree ∧ (source'.document place).result = .ok tree')

namespace Service

theorem result_gather_exchanged {source source' : Visit.Origin} {tree tree' definitions
    definitions' : Tree} {location : String}
    (h : Visit.Origin.Exchanged tree tree' location source source')
    (hdefinitions : tree.element? "definitions" = some definitions)
    (hdefinitions' : tree'.element? "definitions" = some definitions') (roots : List Tree)
    (outer : Table String) (start : Option String) :
    (Building.gather (some source') roots outer start).result =
      (Building.gather (some source) roots outer start).result := by
  have hschema := Visit.Origin.schemaless_of_definitions h.here hdefinitions
  have hschema' := Visit.Origin.schemaless_of_definitions h.there hdefinitions'
  have hpruned : Visit.Origin.Pruned (fun _ _ => False) source source' := by
    intro place
    rcases h.others place with hsame | ⟨htree, htree'⟩
    · cases hdocument : (source.document place).result with
      | error failure => exact .inl ⟨failure, rfl, hsame.trans hdocument⟩
      | ok found =>
        refine .inr ⟨found, found, rfl, hsame.trans hdocument, ?_⟩
        cases found.element? "schema" with
        | none => exact .none
        | some schema => exact .some (.refl schema)
    · exact .inr ⟨tree, tree', htree, htree', by rw [hschema, hschema']; exact .none⟩
  exact Building.result_gather_pruned outer (.some hpruned)
    (List.forall₂_same.2 fun root _ => .refl root) (fun _ _ h => h.elim) fun _ _ _ _ _ _ h => h.elim

variable {library library' : Library} {timeout : Int} {location : String} {service : Service}
  {tree tree' definitions' : Tree}

theorem load_exchanged (hload : (load library timeout location).result = .ok service)
    (h : Visit.Origin.Exchanged tree tree' location ⟨library, timeout⟩ ⟨library', timeout⟩)
    (hdefinitions' : tree'.element? "definitions" = some definitions')
    (hsame : SameButOperations service.definitions definitions') :
    (load library' timeout location).result = .ok { service with definitions := definitions' } := by
  rw [result_load, h.here] at hload
  rw [result_load, h.there]
  cases hdefinitions : tree.element? "definitions" with
  | none => simp [hdefinitions] at hload
  | some definitions =>
    simp only [hdefinitions, hdefinitions'] at hload ⊢
    have hgather := result_gather_exchanged h hdefinitions hdefinitions'
    cases hbuild : (TypeGraph.build (some ⟨library, timeout⟩) (schemas definitions)
        definitions.namespaces (some location)).result with
    | error failure => simp [hbuild, Except.map] at hload
    | ok graph =>
      rw [hbuild] at hload
      obtain rfl := Except.ok.inj hload
      have hbuild' : (TypeGraph.build (some ⟨library', timeout⟩) (schemas definitions')
          definitions'.namespaces (some location)).result = .ok graph := by
        rw [← hbuild, schemas, hsame.types, hsame.namespaces]
        simp only [TypeGraph.build, Outcome.result_bind, hgather]
        rfl
      rw [hbuild', hsame.namespaces]
      rfl

theorem alike_of_sameButOperations (h : SameButOperations service.definitions definitions') :
    service.Alike { service with definitions := definitions' } :=
  ⟨rfl, rfl, h.target, h.messages⟩

theorem headers_of_sameButOperations (h : SameButOperations service.definitions definitions')
    (c : Catalog) (op : Operation) :
    ({ service with definitions := definitions' } : Service).headers c op = service.headers c op := by
  have hheader : ({ service with definitions := definitions' } : Service).header c op =
      service.header c op :=
    funext fun declaration => (alike_of_sameButOperations h).header c rfl declaration
  have hdeclared : ({ service with definitions := definitions' } : Service).headerDeclarations op =
      service.headerDeclarations op := by
    simp only [headerDeclarations, bindingOperation?, portType?, h.bindings, h.portName]
  rw [headers, headers, hheader, hdeclared]

end Service

namespace Assembler

variable {settings : Settings} {service : Service} {definitions' : Tree}

theorem assemble_of_sameButOperations (h : SameButOperations service.definitions definitions')
    (op : Operation) :
    (ofService settings { service with definitions := definitions' }).assemble op =
      (ofService settings service).assemble op := by
  have halike := Service.alike_of_sameButOperations h
  simp only [ofService, assemble, assembleFrom, halike.request service.graph.catalog rfl rfl,
    halike.response, halike.envelope, Service.headers_of_sameButOperations h]
  rfl

theorem assembleAll_of_sameButOperations (h : SameButOperations service.definitions definitions')
    (ops : List Operation) :
    (ofService settings { service with definitions := definitions' }).assembleAll ops =
      (ofService settings service).assembleAll ops := by
  simp only [assembleAll, assembleOnce, assemble_of_sameButOperations h]

end Assembler

namespace Job

/-- Operations that fail leave a run as if they were not there. In a run of all operations, one
that fails changes nothing: no prefix is given out for it and nothing is written. The run writes,
in order, the files of the operations that come out well, and is a failure just when there are
none, with nothing written. The run of the same description without the operations that fail gives
out the same prefixes, writes the same files and comes to the same. -/
theorem run_without_failing (j : Job) (settings : Settings) (library : Library) {service : Service}
    {portType : Tree} (hall : Name.given? j.operation = none)
    (hload : (Service.load library settings.fetchTimeout j.location).result = .ok service)
    (hport : service.portType? = some portType) :
    let a := Assembler.ofService settings service
    let ops := (portType.children "operation").map Operation.ofTree
    let made := (a.assembleAll ops).result {}
    (∀ before op rest, ops = before ++ op :: rest →
      ∀ failure, (a.assembleOnce op).result
          ((before.forM (j.runOperation settings a)).after {}).prefixes = .error failure →
        (j.runOperation settings a op).after ((before.forM (j.runOperation settings a)).after {}) =
          (before.forM (j.runOperation settings a)).after {}) ∧
    (j.run settings library).after {} =
      ({ prefixes := (a.assembleAll ops).after {} } : Progress).add (j.outputsAll settings made) ∧
    ((j.run settings library).result {} = .error (.nothingGenerated j.location) ↔
      ∀ m ∈ made, ∃ failure, m = .error failure) ∧
    ((j.run settings library).result {} = .error (.nothingGenerated j.location) ∧
        ((j.run settings library).after {}).written = [] ∧
        ((j.run settings library).after {}).files = [] ∨
      (j.run settings library).result {} = .ok ()) ∧
    ∀ library' tree tree' definitions' portType',
      Visit.Origin.Exchanged tree tree' j.location ⟨library, settings.fetchTimeout⟩
        ⟨library', settings.fetchTimeout⟩ →
      tree'.element? "definitions" = some definitions' →
      SameButOperations service.definitions definitions' →
      definitions'.element? "portType" = some portType' →
      portType'.children "operation" =
        Assembler.succeeding (portType.children "operation") made →
      (j.run settings library').result {} = (j.run settings library).result {} ∧
        (j.run settings library').after {} =
          ({ prefixes := (a.assembleAll ops).after {} } : Progress).add
            (j.outputsAll settings made) := by
  intro a ops made
  have hp : ({} : Progress).prefixes.Sound := Prefixes.sound_of_unasked []
  have hwritten : ∀ (p : Prefixes) (files : List (String × String)),
      (({ prefixes := p } : Progress).add files).written.isEmpty = true ↔ files = [] := by
    intro p files
    simp [Progress.add]
  obtain ⟨hafter, hresult⟩ := j.run_spec hall hp hload hport
  refine ⟨?_, hafter, ?_, ?_, ?_⟩
  · rintro before op rest - failure h
    refine after_runOperation_of_error hall ?_ h
    rw [(j.runOperations_spec settings a before hall hp).2]
    exact (a.assembleAll_extends before hp).1
  · rw [← j.outputsAll_eq_nil_iff settings, hresult]
    split
    · next h => exact iff_of_true rfl ((hwritten _ _).1 h)
    · next h => exact iff_of_false (by simp) (mt (hwritten _ _).2 h)
  · rw [hafter, hresult]
    split
    · next h =>
      have hnone := (hwritten _ _).1 h
      rw [hnone]
      exact .inl ⟨rfl, rfl, rfl⟩
    · exact .inr rfl
  · intro library' tree tree' definitions' portType' h hdefinitions' hsame hport' hkept
    -- the operations that are left make what they made among the others
    have hload' := Service.load_exchanged hload h hdefinitions' hsame
    obtain ⟨hafter', hresult'⟩ := j.run_spec hall hp hload' hport'
    obtain ⟨hmade, hprefixes⟩ := a.assembleAll_succeeding (portType.children "operation") hp
    rw [hkept, Assembler.assembleAll_of_sameButOperations hsame, hmade, hprefixes,
      j.outputsAll_filter] at hafter' hresult'
    exact ⟨hresult'.trans hresult.symm, hafter'⟩

end Job

namespace SampleRun

/-- A description with a type `R`, a message `M` of it and two operations: `Bad` has no input, and
that of `Op` is `M`. -/
def bytes : List UInt8 := [
  60, 100, 101, 102, 105, 110, 105, 116, 105, 111, 110, 115, 32, 116, 97, 114, 103, 101, 116, 78,
  97, 109, 101, 115, 112, 97, 99, 101, 61, 34, 119, 34, 62, 60, 116, 121, 112, 101, 115, 62, 60,
  115, 99, 104, 101, 109, 97, 32, 116, 97, 114, 103, 101, 116, 78, 97, 109, 101, 115, 112, 97, 99,
  101, 61, 34, 119, 34, 62, 60, 99, 111, 109, 112, 108, 101, 120, 84, 121, 112, 101, 32, 110, 97,
  109, 101, 61, 34, 82, 34, 62, 60, 115, 101, 113, 117, 101, 110, 99, 101, 47, 62, 60, 47, 99, 111,
  109, 112, 108, 101, 120, 84, 121, 112, 101, 62, 60, 47, 115, 99, 104, 101, 109, 97, 62, 60, 47,
  116, 121, 112, 101, 115, 62, 60, 109, 101, 115, 115, 97, 103, 101, 32, 110, 97, 109, 101, 61, 34,
  77, 34, 62, 60, 112, 97, 114, 116, 32, 110, 97, 109, 101, 61, 34, 112, 34, 32, 116, 121, 112,
  101, 61, 34, 82, 34, 47, 62, 60, 47, 109, 101, 115, 115, 97, 103, 101, 62, 60, 112, 111, 114,
  116, 84, 121, 112, 101, 62, 60, 111, 112, 101, 114, 97, 116, 105, 111, 110, 32, 110, 97, 109,
  101, 61, 34, 66, 97, 100, 34, 47, 62, 60, 111, 112, 101, 114, 97, 116, 105, 111, 110, 32, 110,
  97, 109, 101, 61, 34, 79, 112, 34, 62, 60, 105, 110, 112, 117, 116, 32, 109, 101, 115, 115, 97,
  103, 101, 61, 34, 77, 34, 47, 62, 60, 47, 111, 112, 101, 114, 97, 116, 105, 111, 110, 62, 60, 47,
  112, 111, 114, 116, 84, 121, 112, 101, 62, 60, 47, 100, 101, 102, 105, 110, 105, 116, 105, 111,
  110, 115, 62]

def bytes' : List UInt8 := [
  60, 100, 101, 102, 105, 110, 105, 116, 105, 111, 110, 115, 32, 116, 97, 114, 103, 101, 116, 78,
  97, 109, 101, 115, 112, 97, 99, 101, 61, 34, 119, 34, 62, 60, 116, 121, 112, 101, 115, 62, 60,
  115, 99, 104, 101, 109, 97, 32, 116, 97, 114, 103, 101, 116, 78, 97, 109, 101, 115, 112, 97, 99,
  101, 61, 34, 119, 34, 62, 60, 99, 111, 109, 112, 108, 101, 120, 84, 121, 112, 101, 32, 110, 97,
  109, 101, 61, 34, 82, 34, 62, 60, 115, 101, 113, 117, 101, 110, 99, 101, 47, 62, 60, 47, 99, 111,
  109, 112, 108, 101, 120, 84, 121, 112, 101, 62, 60, 47, 115, 99, 104, 101, 109, 97, 62, 60, 47,
  116, 121, 112, 101, 115, 62, 60, 109, 101, 115, 115, 97, 103, 101, 32, 110, 97, 109, 101, 61, 34,
  77, 34, 62, 60, 112, 97, 114, 116, 32, 110, 97, 109, 101, 61, 34, 112, 34, 32, 116, 121, 112,
  101, 61, 34, 82, 34, 47, 62, 60, 47, 109, 101, 115, 115, 97, 103, 101, 62, 60, 112, 111, 114,
  116, 84, 121, 112, 101, 62, 60, 111, 112, 101, 114, 97, 116, 105, 111, 110, 32, 110, 97, 109,
  101, 61, 34, 79, 112, 34, 62, 60, 105, 110, 112, 117, 116, 32, 109, 101, 115, 115, 97, 103, 101,
  61, 34, 77, 34, 47, 62, 60, 47, 111, 112, 101, 114, 97, 116, 105, 111, 110, 62, 60, 47, 112, 111,
  114, 116, 84, 121, 112, 101, 62, 60, 47, 100, 101, 102, 105, 110, 105, 116, 105, 111, 110, 115,
  62]

def library : Library := [("/w", .file bytes)]

def library' : Library := [("/w", .file bytes')]

def bad : Tree := .node [("name", .text "Bad")]

def good : Tree := .node [("name", .text "Op"), ("input", .node [("message", .text "M")])]

def typed : Tree := .node [("name", .text "R"), ("sequence", .text "")]

def schema : Tree := .node [("targetNamespace", .text "w"), ("complexType", typed)]

def definitions (portType : Tree) : Tree := .node [
  ("targetNamespace", .text "w"),
  ("types", .node [("schema", schema)]),
  ("message", .node [
    ("name", .text "M"), ("part", .node [("name", .text "p"), ("type", .text "R")])]),
  ("portType", portType)]

def ports : Tree := .node [("operation", .many [bad, good])]

def ports' : Tree := .node [("operation", good)]

set_option maxRecDepth 20000 in
theorem parse_bytes : Tree.parse bytes = .ok (.node [("definitions", definitions ports)]) := (rfl)

set_option maxRecDepth 20000 in
theorem parse_bytes' : Tree.parse bytes' = .ok (.node [("definitions", definitions ports')]) := (rfl)

def job : Job := { location := "/w", directory := "/out" }

def settings : Settings := (Settings.read fun _ => none).value

theorem result_document (place : String) :
    (∀ held, ((⟨[("/w", .file held)], 30⟩ : Visit.Origin).document place).result =
        Tree.parse held) ∨
      (place ≠ "/w" ∧ ∀ held held',
        ((⟨[("/w", .file held)], 30⟩ : Visit.Origin).document place).result =
          ((⟨[("/w", .file held')], 30⟩ : Visit.Origin).document place).result) := by
  have hremote : Url.isRemote "/w" = .ok false := by decide +kernel
  have hnormal : Path.normalize "/w" = "/w" := by decide +kernel
  simp only [Visit.Origin.result_document, Table.value?]
  by_cases hplace : place = "/w"
  · subst hplace
    simp only [hremote, hnormal]
    exact .inl fun held => rfl
  · cases Url.isRemote place with
    | error flaw => exact .inr ⟨hplace, fun _ _ => rfl⟩
    | ok remote =>
      cases remote with
      | true =>
        dsimp only
        simp only [if_neg (Ne.symm hplace)]
        exact .inr ⟨hplace, fun _ _ => trivial⟩
      | false =>
        dsimp only
        split
        · exact .inl fun held => rfl
        · exact .inr ⟨hplace, fun _ _ => rfl⟩

theorem exchanged {content : List UInt8} {portType : Tree}
    (hparse : Tree.parse content = .ok (.node [("definitions", definitions portType)])) :
    Visit.Origin.Exchanged (.node [("definitions", definitions ports)])
      (.node [("definitions", definitions portType)]) "/w" ⟨library, 30⟩
      ⟨[("/w", .file content)], 30⟩ := by
  have hthere : ∀ held, ((⟨[("/w", .file held)], 30⟩ : Visit.Origin).document "/w").result =
      Tree.parse held := by
    rcases result_document "/w" with h | ⟨hne, _⟩
    · exact h
    · exact absurd rfl hne
  refine ⟨(hthere bytes).trans parse_bytes, (hthere content).trans hparse, fun place => ?_⟩
  rcases result_document place with h | ⟨_, h⟩
  · exact .inr ⟨(h bytes).trans parse_bytes, (h content).trans hparse⟩
  · exact .inl (h content bytes)

def scope : Scope := Scope.ofSchema schema [] (some "/w")

def graph : TypeGraph where
  objects := [{ members := [], space := some "w", qualified := some false }]
  elements := [("w:R", .object 0)]
  complexTypes := [("w:R", 0)]
  namespaces := []
  schemas := ["/w"]

theorem result_build :
    (TypeGraph.build (some ⟨library, 30⟩) [schema] [] (some "/w")).result = .ok graph := by
  have hvisits : Visit.all (some ⟨library, 30⟩) [schema] [] (some "/w") =
      [.enter scope, .declare schema scope] := by
    obtain ⟨depth, hdepth⟩ : ∃ depth, Visit.depthBound (some ⟨library, 30⟩) [schema] = depth + 1 :=
      ⟨_, rfl⟩
    rw [Visit.all, hdepth]
    rfl
  have htype : ∀ groups, (Content.complexType groups groups.depthBound scope typed).result =
      .ok { type := { members := [], space := some "w", qualified := some false } } :=
    fun _ => Content.result_complexType_of_typed rfl rfl rfl (show [] = List.map some [] from rfl)
  have hname : typed.given? "name" = some "R" := rfl
  have htypes : schema.children "complexType" = [typed] := rfl
  have hdeclare : ((Building.enter {} scope).step (.declare schema scope)).result =
      .ok { graph := { graph with elements := [] } } := by
    unfold Building.step
    rw [Outcome.result_bind, htypes, List.foldlM_cons, Outcome.result_bind,
      Building.result_registerType hname (htype _)]
    rfl
  have hfold : ((Visit.all (some ⟨library, 30⟩) [schema] [] (some "/w")).foldlM Building.step
      {}).result = .ok { graph := { graph with elements := [] } } := by
    rw [hvisits, Building.result_foldlM_schema hdeclare]
    rfl
  have hgather : (Building.gather (some ⟨library, 30⟩) [schema] [] (some "/w")).result =
      .ok { graph := { graph with elements := [] } } := by
    unfold Building.gather
    rw [Outcome.result_bind, hfold]
    rfl
  rw [TypeGraph.result_build_of_gather hgather]
  rfl

def service : Service := ⟨definitions ports, [], graph⟩

theorem load_service : (Service.load library 30 "/w").result = .ok service := by
  have hdefinitions : (Tree.node [("definitions", definitions ports)]).element? "definitions" =
      some (definitions ports) := rfl
  have hschemas : Service.schemas (definitions ports) = [schema] := rfl
  have hnamespaces : (definitions ports).namespaces = [] := rfl
  simp only [Service.result_load, (exchanged parse_bytes').here, hdefinitions, hschemas,
    hnamespaces, result_build]
  rfl

def assembler : Assembler := .ofService settings service

theorem bad_fails {p : Prefixes} (hp : p.Sound) :
    (assembler.assembleOnce (Operation.ofTree bad)).result p = .error (.noInput "Bad") :=
  (assembler.assembleOnce_eq_error_iff _ hp).2 rfl

theorem good_made {p : Prefixes} (hp : p.Sound) :
    ∃ assembled, (assembler.assembleOnce (Operation.ofTree good)).result p = .ok assembled := by
  cases h : (assembler.assembleOnce (Operation.ofTree good)).result p with
  | error failure => cases (assembler.assembleOnce_eq_error_iff _ hp).1 h
  | ok assembled => exact ⟨assembled, rfl⟩

/-- `Bad` fails and `Op` does not, so the run comes out well, and comes to the same without `Bad`. -/
theorem run_without_bad :
    (job.run settings library).result {} = .ok () ∧
      (job.run settings library').result {} = .ok () ∧
      (job.run settings library').after {} = (job.run settings library).after {} := by
  have hp : ({} : Prefixes).Sound := Prefixes.sound_of_unasked []
  obtain ⟨_, hafter, hnothing, hresult, hwithout⟩ :=
    @Job.run_without_failing job settings library service ports rfl load_service rfl
  obtain ⟨assembled, hgood⟩ := good_made hp
  have hmade : (assembler.assembleAll [Operation.ofTree bad, Operation.ofTree good]).result {} =
      [.error (.noInput "Bad"), .ok assembled] := by
    rw [Assembler.result_assembleAll_cons, Assembler.result_assembleAll_cons, bad_fails hp,
      Assembler.after_assembleOnce_of_error hp (bad_fails hp), hgood]
    rfl
  have hok : (job.run settings library).result {} = .ok () := by
    refine hresult.resolve_left fun h => ?_
    have hnone := hnothing.1 h.1
    simp only [show (ports.children "operation").map Operation.ofTree =
      [Operation.ofTree bad, Operation.ofTree good] from rfl] at hnone
    obtain ⟨failure, hfailure⟩ := hnone (.ok assembled) (hmade ▸ by simp)
    cases hfailure
  obtain ⟨hresult', hafter'⟩ := hwithout library' _ _ (definitions ports') ports'
    (exchanged parse_bytes') rfl
    ⟨rfl, rfl, rfl, rfl, rfl, rfl⟩ rfl (by
      show _ = Assembler.succeeding [bad, good] ((assembler.assembleAll
        [Operation.ofTree bad, Operation.ofTree good]).result {})
      rw [hmade]
      rfl)
  exact ⟨hok, hresult'.trans hok, hafter'.trans hafter.symm⟩

end SampleRun

end SoapComponents
