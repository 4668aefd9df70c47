import SoapComponents.Proofs.Component.Optional

/-!
The bindings of envelopes over a run. A map that is merged into another never overrules a binding,
and it need not: all maps of a run bind what its prefixes do. So each envelope has the bindings of
the request and of all headers in it, and envelopes of one run never disagree.
-/

set_option autoImplicit false

namespace SoapComponents

open Assigning

namespace Table

variable {β : Type}

theorem Proper.putNew {t : Table β} (h : t.Proper) (key : String) (value : β) :
    (t.putNew key value).Proper := by
  unfold Table.putNew
  split
  · exact h
  · next hkey =>
    have hnew : key ∉ t.keys := fun hm => hkey (holds_iff_mem_keys.2 hm)
    simp only [Proper, keys, List.map_append, List.map_cons, List.map_nil, List.nodup_append] at *
    refine ⟨h, by simp, ?_⟩
    rintro k hk _ hm rfl
    exact hnew (List.mem_singleton.1 hm ▸ hk)

theorem Proper.putAllNew {t : Table β} (h : t.Proper) (u : Table β) : (putAllNew t u).Proper := by
  induction u generalizing t with
  | nil => exact h
  | cons e rest ih => exact ih (h.putNew e.1 e.2)

end Table

namespace NamespaceMap

variable {m n other : NamespaceMap} {p : Prefixes} {policy : Prefix.Policy}

structure Complete (m : NamespaceMap) : Prop where
  proper : m.spaces.Proper
  held : ∀ r ∈ m.tags.keys, m.spaces.holds r = true

theorem proper_register {r space : String} (h : m.spaces.Proper)
    (hn : m.register r space = .ok n) : n.spaces.Proper := by
  unfold register at hn
  split at hn
  · split at hn
    · obtain rfl := Except.ok.inj hn
      exact h
    · cases hn
  · obtain rfl := Except.ok.inj hn
    exact h.put r space

theorem proper_declare {tag : DeclaredTag} (h : m.spaces.Proper)
    (hn : (declare policy m tag).result p = .ok n) : n.spaces.Proper := by
  obtain ⟨r, rfl | ⟨o, hregister, rfl⟩⟩ := declare_cases hn
  · exact h
  · have hregistered : o.spaces.Proper := proper_register (m := m.typed tag r) h hregister
    exact hregistered

theorem proper_declares {tags : List DeclaredTag} (h : m.spaces.Proper)
    (hn : (tags.foldlM (declare policy) m).result p = .ok n) : n.spaces.Proper := by
  induction tags generalizing m p with
  | nil =>
    obtain rfl := Except.ok.inj hn
    exact h
  | cons tag rest ih =>
    rw [List.foldlM_cons] at hn
    obtain ⟨o, ho, hrest⟩ := Naming.result_bind_eq_ok hn
    exact ih (proper_declare h ho) hrest

theorem proper_declared {c : Catalog} {name : String} {root : Root} {d : NamespaceMap}
    (h : (declared c policy name root).result p = .ok d) : d.spaces.Proper := by
  unfold declared at h
  split at h
  · cases h
  · next space _ =>
    obtain ⟨base, _, h⟩ := Naming.result_bind_eq_ok h
    have hstart : Table.Proper [(base, space)] := by simp [Table.Proper, Table.keys]
    exact proper_declares hstart h

theorem complete_ofRoot {c : Catalog} {name : String} {root : Root} (hp : p.Sound)
    (h : (ofRoot c policy name root).result p = .ok m) : m.Complete := by
  obtain ⟨_, _, hspace⟩ := ofRoot_spec c policy name root hp
  obtain ⟨space, hs⟩ := hspace m h
  obtain ⟨d, hd, hroot, hback, hsound, _, hresult, _⟩ := ofRoot_eq c policy name hs hp
  obtain ⟨_, _, hbound, _⟩ := observed_spec hback hsound (given?_eq_some.1 hs).2 hroot c policy
    name root
  obtain rfl := Except.ok.inj (h.symm.trans hresult)
  refine ⟨?_, d.holds_settledMap hbound⟩
  have hspaces := (foldl_addTag_keeps (listed ((d.observed c policy name root).result
    ((declared c policy name root).after p))) { d with tags := [] }).1
  simp only [settledMap, hspaces]
  exact (proper_declared hd).putAllNew _

theorem Complete.merge (h : m.Complete) (ho : other.Complete) : (m.merge other).Complete := by
  have hspaces : (m.merge other).spaces = Table.putAllNew m.spaces other.spaces := by
    rw [merge_eq]
    exact (foldl_addTag_keeps other.pairs
      { m with spaces := Table.putAllNew m.spaces other.spaces }).1
  refine ⟨?_, fun r hr => ?_⟩
  · rw [hspaces]
    exact h.proper.putAllNew _
  · have hkeys : r ∈ (m.joined other).tags.keys := by
      rw [merge_eq] at hr
      exact hr
    rw [Table.holds, spaces_merge, Option.isSome_or, Bool.or_eq_true]
    rcases mem_keys_foldl_addTag hkeys with hr | hr
    · obtain ⟨e, he, rfl⟩ := List.mem_map.1 hr
      obtain ⟨listed, hlisted, he⟩ := List.mem_flatMap.1 he
      obtain ⟨tag, _, rfl⟩ := List.mem_map.1 he
      exact .inr (ho.held _ (List.mem_map_of_mem hlisted))
    · exact .inl (h.held r hr)

theorem bound_merge (hp : p.Sound) (hm : m.Backed p) (ho : other.Backed p) {r space : String}
    (h : other.spaces.value? r = some space) : (m.merge other).spaces.value? r = some space := by
  rw [spaces_merge, h]
  cases hv : m.spaces.value? r with
  | none => rfl
  | some old =>
    have hsame : old = space := hp.space_unique (hm.spaces hv).2 (ho.spaces h).2
    rw [hsame, Option.some_or]

/-- Two maps of one run bind two prefixes to one namespace only if the prefixes are the same, and
one prefix to two namespaces only if these are the same. -/
theorem Backed.one_to_one (hp : p.Sound) (hm : m.Backed p) (hn : n.Backed p)
    {r r' space space' : String} (h : m.spaces.value? r = some space)
    (h' : n.spaces.value? r' = some space') : r = r' ↔ space = space' := by
  have hs := (hm.spaces h).2
  have hs' := (hn.spaces h').2
  constructor
  · rintro rfl
    exact hp.space_unique hs hs'
  · rintro rfl
    exact Option.some.inj (hs.symm.trans hs')

theorem Complete.nodup_spaces (h : m.Complete) (hp : p.Sound) (hm : m.Backed p) :
    (m.spaces.map Prod.snd).Nodup := by
  have hpairs : m.spaces.Nodup := List.Nodup.of_map Prod.fst h.proper
  refine hpairs.map_on fun e he f hf heq => ?_
  have hv := Table.value?_of_mem h.proper he
  have hv' := Table.value?_of_mem h.proper hf
  exact Prod.ext ((hm.one_to_one hp hm hv hv').2 heq) heq

end NamespaceMap

namespace Assembler

variable {a : Assembler} {p : Prefixes}

/-- The maps that the component of an operation is made with: that of its request, and that of
every header which is kept, made when the headers before it are added. -/
inductive Account (a : Assembler) (p : Prefixes) (op : Operation) : NamespaceMap → Prop
  | request {request : PartType} {own : NamespaceMap} :
      (a.service.request a.catalog op).result = .ok request →
      (NamespaceMap.ofRoot a.catalog a.policy request.key request.root).result p = .ok own →
      Account a p op own
  | header {request found : PartType} {own namespaces : NamespaceMap} {before after : List Header}
      {header : Header} :
      (a.service.request a.catalog op).result = .ok request →
      (NamespaceMap.ofRoot a.catalog a.policy request.key request.root).result p = .ok own →
      (a.service.headers a.catalog op).value = before ++ header :: after →
      (a.headerRoot header).result ((before.foldlM a.addHeader (a.startSpace request own)).after
        ((NamespaceMap.ofRoot a.catalog a.policy request.key request.root).after p)) =
          .ok (found, namespaces) →
      Account a p op namespaces

theorem complete_headerRoot {header : Header} {found : PartType} {namespaces : NamespaceMap}
    (hp : p.Sound) (h : (a.headerRoot header).result p = .ok (found, namespaces)) :
    namespaces.Complete := by
  obtain ⟨part, _, hroot⟩ := Naming.result_bind_eq_ok h
  obtain ⟨account, haccount, hroot⟩ := Naming.result_bind_eq_ok hroot
  obtain ⟨-, rfl⟩ := Prod.mk.inj (Except.ok.inj hroot)
  exact NamespaceMap.complete_ofRoot hp haccount

theorem complete_addHeader {space next : HeaderSpace} {header : Header} (hp : p.Sound)
    (hc : space.namespaces.Complete) (h : (a.addHeader space header).result p = .ok next) :
    next.namespaces.Complete := by
  cases hr : (a.headerRoot header).result p with
  | error failure =>
    simp only [addHeader, Naming.result_bind, Naming.result_liftExcept, hr] at h
    split at h
    · obtain rfl := Except.ok.inj h
      exact hc
    · cases h
  | ok pair =>
    obtain ⟨found, namespaces⟩ := pair
    obtain ⟨made, hmade, hmerged⟩ := @addHeader_of_ok a p space _ _ _ hr
    obtain rfl := Except.ok.inj (h.symm.trans hmade)
    rw [hmerged]
    exact hc.merge (complete_headerRoot hp hr)

/-- With any number of headers, all prefixes with tags are bound, and every header that is kept
has its bindings among those of the component. -/
theorem addHeaders_bind (headers : List Header) {space last : HeaderSpace} (hp : p.Sound)
    (hl : space.namespaces.WellListed) (hb : space.namespaces.Backed p)
    (hc : space.namespaces.Complete)
    (h : (headers.foldlM a.addHeader space).result p = .ok last) :
    last.namespaces.Complete ∧ ∀ before header after, headers = before ++ header :: after →
      ∀ found namespaces, (a.headerRoot header).result
        ((before.foldlM a.addHeader space).after p) = .ok (found, namespaces) →
        ∀ r s, namespaces.spaces.value? r = some s → last.namespaces.spaces.value? r = some s := by
  induction headers generalizing space p with
  | nil =>
    obtain rfl := Except.ok.inj h
    exact ⟨hc, by simp⟩
  | cons first rest ih =>
    rw [List.foldlM_cons] at h
    obtain ⟨next, hnext, hrest⟩ := Naming.result_bind_eq_ok h
    obtain ⟨hsound, _, habsorbed⟩ := a.addHeader_spec space first hp hl hb
    have hgrown := habsorbed next hnext
    obtain ⟨hcomplete, hbound⟩ := ih hsound hgrown.wellListed hgrown.backed
      (complete_addHeader hp hc hnext) hrest
    refine ⟨hcomplete, fun before header after heq found namespaces hroot r s hr => ?_⟩
    cases before with
    | nil =>
      -- what the first header binds is bound when it is merged, and kept by all that follow
      obtain ⟨rfl, rfl⟩ := List.cons.inj heq
      have hroot : (a.headerRoot first).result p = .ok (found, namespaces) := hroot
      obtain ⟨made, hmade, hmerged⟩ := @addHeader_of_ok a p space _ _ _ hroot
      obtain rfl := Except.ok.inj (hnext.symm.trans hmade)
      obtain ⟨hsound', hext, hback⟩ := a.headerRoot_spec first hp
      have hfirst : next.namespaces.spaces.value? r = some s := by
        rw [hmerged]
        exact NamespaceMap.bound_merge hsound' (hb.mono hext) (hback found namespaces hroot) hr
      obtain ⟨_, _, hlast⟩ := a.addHeaders_spec rest next hsound hgrown.wellListed hgrown.backed
      exact (hlast last hrest).grows.spaces hfirst
    | cons other more =>
      obtain ⟨rfl, rfl⟩ := List.cons.inj heq
      refine hbound more header after rfl found namespaces ?_ r s hr
      rw [List.foldlM_cons, Naming.after_bind, hnext] at hroot
      exact hroot

/-- The bindings of one component: those of the prefixes of the run, each once, and among them
those of every map that it is made with. -/
theorem assembleOnce_binds {op : Operation} {assembled : Assembled} (hp : p.Sound)
    (h : (a.assembleOnce op).result p = .ok assembled) :
    ((a.assembleOnce op).after p).Sound ∧ p.Extends ((a.assembleOnce op).after p) ∧
      assembled.namespaces.Backed ((a.assembleOnce op).after p) ∧
      assembled.namespaces.Complete ∧
      assembled.component.spaces = assembled.namespaces.spaces ∧
      assembled.component.tags = assembled.namespaces.tags ∧
      ∀ m, a.Account p op m → ∀ e ∈ m.spaces,
        assembled.namespaces.spaces.value? e.1 = some e.2 := by
  obtain ⟨request, hrequest, hfrom, hafter⟩ := request_of_assembleOnce h
  obtain ⟨own, last, hown, hlast⟩ := headers_of_assembleFrom hfrom
  obtain ⟨made, hmade, hafterFrom, hnamespaces, htags, hspaces, _⟩ :=
    assembleFrom_spec hown hlast rfl
  obtain rfl : made = assembled := Except.ok.inj (hmade.symm.trans hfrom)
  obtain ⟨_, _, hspace⟩ :=
    NamespaceMap.ofRoot_spec a.catalog a.policy request.key request.root hp
  obtain ⟨space, hs⟩ := hspace own hown
  obtain ⟨_, m, _, hm, hsound, hext, haccount, _⟩ :=
    NamespaceMap.ofRoot_accounted a.catalog a.policy request.key hs hp
  obtain rfl : own = m := Except.ok.inj (hown.symm.trans hm)
  obtain ⟨hsound', hext', habsorbed⟩ := a.addHeaders_spec (a.service.headers a.catalog op).value
    (a.startSpace request own) hsound haccount.wellListed haccount.backed
  have hgrown := habsorbed last hlast
  have honly := (last.namespaces.plan a.catalog a.policy request.key).write_onlyAsks
    request.root none
  obtain ⟨hcomplete, hbound⟩ := addHeaders_bind _ hsound haccount.wellListed haccount.backed
    (NamespaceMap.complete_ofRoot hp hown) hlast
  rw [hafter, hafterFrom, hnamespaces, htags, hspaces]
  refine ⟨honly.sound hsound', (hext.trans hext').trans (honly.extends hsound'),
    hgrown.backed.mono (honly.extends hsound'), hcomplete, rfl, rfl, ?_⟩
  intro m haccounted e he
  cases haccounted with
  | request hrequest' hown' =>
    obtain rfl := Except.ok.inj (hrequest.symm.trans hrequest')
    obtain rfl := Except.ok.inj (hown.symm.trans hown')
    have hproper := (NamespaceMap.complete_ofRoot hp hown).proper
    exact hgrown.grows.spaces (Table.value?_of_mem hproper he)
  | @header _ _ _ _ before _ _ hrequest' hown' hheaders hroot =>
    obtain rfl := Except.ok.inj (hrequest.symm.trans hrequest')
    obtain rfl := Except.ok.inj (hown.symm.trans hown')
    have hbefore := (a.addHeaders_spec before (a.startSpace request own) hsound
      haccount.wellListed haccount.backed).1
    have hproper := (complete_headerRoot hbefore hroot).proper
    exact hbound _ _ _ hheaders _ _ hroot _ _ (Table.value?_of_mem hproper he)

theorem after_assembleOnce_of_error {op : Operation} {failure : Failure} (hp : p.Sound)
    (h : (a.assembleOnce op).result p = .error failure) : (a.assembleOnce op).after p = p := by
  have hrequest := (a.assembleOnce_eq_error_iff op hp).1 h
  rw [after_assembleOnce]
  simp only [assemble, Naming.after_bind, Naming.result_lift, Naming.after_lift,
    Naming.result_ofOutcome, Naming.after_ofOutcome, hrequest]

theorem assembleOnce_extends (a : Assembler) (op : Operation) (hp : p.Sound) :
    ((a.assembleOnce op).after p).Sound ∧ p.Extends ((a.assembleOnce op).after p) := by
  cases h : (a.assembleOnce op).result p with
  | error failure =>
    rw [after_assembleOnce_of_error hp h]
    exact ⟨hp, .refl p⟩
  | ok assembled =>
    obtain ⟨hsound, hext, _⟩ := assembleOnce_binds hp h
    exact ⟨hsound, hext⟩

/-- The components of several operations, made one after the other; those that fail are passed
over. -/
def assembleAll (a : Assembler) (ops : List Operation) :
    Assigning (List (Except Failure Assembled)) :=
  ops.mapM fun op => ExceptT.run (a.assembleOnce op)

theorem after_assembleAll_cons (a : Assembler) (op : Operation) (rest : List Operation)
    (p : Prefixes) : (a.assembleAll (op :: rest)).after p =
      (a.assembleAll rest).after ((a.assembleOnce op).after p) := by
  simp only [assembleAll, List.mapM_cons, after_bind, after_pure]
  rfl

theorem result_assembleAll_cons (a : Assembler) (op : Operation) (rest : List Operation)
    (p : Prefixes) : (a.assembleAll (op :: rest)).result p =
      (a.assembleOnce op).result p ::
        (a.assembleAll rest).result ((a.assembleOnce op).after p) := by
  simp only [assembleAll, List.mapM_cons, result_bind, result_pure]
  rfl

theorem assembleAll_extends (a : Assembler) (ops : List Operation) (hp : p.Sound) :
    ((a.assembleAll ops).after p).Sound ∧ p.Extends ((a.assembleAll ops).after p) := by
  induction ops generalizing p with
  | nil => exact ⟨hp, .refl p⟩
  | cons op rest ih =>
    obtain ⟨hsound, hext⟩ := a.assembleOnce_extends op hp
    obtain ⟨hsound', hext'⟩ := ih hsound
    rw [after_assembleAll_cons]
    exact ⟨hsound', hext.trans hext'⟩

/-- What a run comes to at some place is what its operation there comes to, with the prefixes that
the operations before it have left. -/
theorem getElem?_assembleAll (a : Assembler) (before : List Operation) (op : Operation)
    (rest : List Operation) (p : Prefixes) :
    ((a.assembleAll (before ++ op :: rest)).result p)[before.length]? =
      some ((a.assembleOnce op).result ((a.assembleAll before).after p)) := by
  induction before generalizing p with
  | nil => rw [List.nil_append, result_assembleAll_cons]; rfl
  | cons first more ih =>
    rw [List.cons_append, result_assembleAll_cons, after_assembleAll_cons]
    exact ih _

theorem backed_of_assembleAll {ops : List Operation} (hp : p.Sound) {assembled : Assembled}
    (h : .ok assembled ∈ (a.assembleAll ops).result p) :
    assembled.namespaces.Backed ((a.assembleAll ops).after p) ∧ assembled.namespaces.Complete ∧
      assembled.component.spaces = assembled.namespaces.spaces ∧
      assembled.component.tags = assembled.namespaces.tags := by
  induction ops generalizing p with
  | nil => cases h
  | cons op rest ih =>
    obtain ⟨hsound, _⟩ := a.assembleOnce_extends op hp
    rw [result_assembleAll_cons] at h
    rw [after_assembleAll_cons]
    rcases List.mem_cons.1 h with h | h
    · obtain ⟨_, _, hbacked, hcomplete, hspaces, htags, _⟩ := assembleOnce_binds hp h.symm
      exact ⟨hbacked.mono (a.assembleAll_extends rest hsound).2, hcomplete, hspaces, htags⟩
    · exact ih hsound h

/-- The bindings of the envelopes of a run, after any run of requests for prefixes. In each
component prefixes and namespaces are one-to-one, every prefix with tags is bound, and all bindings
of the request and of the headers that are kept are there; and no two components of the run bind a
prefix to two namespaces or a namespace to two prefixes. -/
theorem bindings_of_run (a : Assembler) (taken : Table String)
    (calls : List (Prefix.Policy × String)) (ops : List Operation) :
    let p := (prefixesFor calls).after ⟨[], taken⟩
    let made := (a.assembleAll ops).result p
    (∀ assembled, .ok assembled ∈ made →
      (assembled.component.spaces.map Prod.fst).Nodup ∧
      (assembled.component.spaces.map Prod.snd).Nodup ∧
      ∀ e ∈ assembled.component.tags, e.1 ∈ assembled.component.spaces.map Prod.fst) ∧
    (∀ before op rest, ops = before ++ op :: rest →
      ∀ assembled, made[before.length]? = some (.ok assembled) →
        ∀ m, a.Account ((a.assembleAll before).after p) op m →
          ∀ e ∈ m.spaces, e ∈ assembled.component.spaces) ∧
    ∀ one other, .ok one ∈ made → .ok other ∈ made →
      ∀ e ∈ one.component.spaces, ∀ f ∈ other.component.spaces, e.1 = f.1 ↔ e.2 = f.2 := by
  intro p made
  have hp : p.Sound := (prefixesFor_spec calls (Prefixes.sound_of_unasked taken)).1
  have hq : ((a.assembleAll ops).after p).Sound := (a.assembleAll_extends ops hp).1
  refine ⟨fun assembled h => ?_, ?_, ?_⟩
  · obtain ⟨hbacked, hcomplete, hspaces, htags⟩ := backed_of_assembleAll hp h
    rw [hspaces, htags]
    refine ⟨hcomplete.proper, hcomplete.nodup_spaces hq hbacked, fun e he => ?_⟩
    exact Table.holds_iff_mem_keys.1 (hcomplete.held e.1 (List.mem_map_of_mem he))
  · rintro before op rest rfl assembled h m haccount e he
    have hmade : (a.assembleOnce op).result ((a.assembleAll before).after p) = .ok assembled :=
      Option.some.inj ((a.getElem?_assembleAll before op rest p).symm.trans h)
    obtain ⟨_, _, _, _, hspaces, _, hbound⟩ :=
      assembleOnce_binds (a.assembleAll_extends before hp).1 hmade
    rw [hspaces]
    exact Table.mem_of_value? (hbound m haccount e he)
  · intro one other hone hother e he f hf
    obtain ⟨hbacked, hcomplete, hspaces, _⟩ := backed_of_assembleAll hp hone
    obtain ⟨hbacked', hcomplete', hspaces', _⟩ := backed_of_assembleAll hp hother
    rw [hspaces] at he
    rw [hspaces'] at hf
    exact hbacked.one_to_one hq hbacked' (Table.value?_of_mem hcomplete.proper he)
      (Table.value?_of_mem hcomplete'.proper hf)

end Assembler

end SoapComponents
