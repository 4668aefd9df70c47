import SoapComponents.Proofs.Outcome
import SoapComponents.Proofs.Schema.Placement
import SoapComponents.Schema.Inheritance

/-!
What inheritance changes in a graph: objects get members of other objects, and nothing else
happens. Whatever such a step keeps is kept when all extensions are settled.
-/

set_option autoImplicit false

namespace SoapComponents.Inheritance

variable {extensions : List Extension} {K : TypeGraph → Prop}

def KeptByInheriting (K : TypeGraph → Prop) : Prop :=
  ∀ g baseId id, K g → K (g.setObject id (inherit (g.object baseId) (g.object id)))

def KeptByExtending (extensions : List Extension) (K : TypeGraph → Prop) : Prop :=
  ∀ x ∈ extensions, ∀ g baseId, K g →
    K (g.setObject x.id (inherit (g.object baseId) (g.object x.id)))

theorem settle_keeps (hK : KeptByExtending extensions K) (chain : List String)
    (e : { e // e ∈ extensions }) (s : State) (hs : K s.graph) :
    K (settle extensions chain e s).value.graph := by
  -- along the recursion: bases are settled first, and each case but the last only marks
  induction chain, e, s using settle.induct extensions with
  | case1 chain e s hsettled =>
    rw [settle, if_pos hsettled]
    exact hs
  | case2 chain e s hsettled hbase =>
    rw [settle, if_neg hsettled]
    simp only [hbase]
    exact hs
  | case3 chain e s hsettled baseId hbase hchain =>
    rw [settle, if_neg hsettled]
    simp only [hbase, if_pos hchain]
    exact hs
  | case4 chain e s hsettled baseId hbase hchain ih =>
    rw [settle, if_neg hsettled]
    simp only [hbase, if_neg hchain]
    rw [Noted.value_bind]
    refine hK e.1 e.2 _ baseId ?_
    refine @Noted.value_foldlM_keeps _ _ _ (fun s : State => K s.graph) _ _
      (fun inner _ s hs => ?_) hs
    split
    · exact ih s inner hs
    · exact hs

theorem settleAll_keeps_extending (hK : KeptByExtending extensions K) {g : TypeGraph} (hg : K g) :
    K (settleAll extensions g).value := by
  unfold settleAll
  exact @Noted.value_foldlM_keeps _ _ _ (fun s : State => K s.graph) _ _
    (fun e _ s hs => settle_keeps hK [] e s hs) hg

theorem settleAll_keeps (hK : KeptByInheriting K) {g : TypeGraph} (hg : K g) :
    K (settleAll extensions g).value :=
  settleAll_keeps_extending (fun x _ g baseId => hK g baseId x.id) hg

theorem entries_settleAll (g : TypeGraph) :
    (settleAll extensions g).value.elements = g.elements ∧
      (settleAll extensions g).value.complexTypes = g.complexTypes := by
  have hK : KeptByInheriting fun g' : TypeGraph =>
      g'.elements = g.elements ∧ g'.complexTypes = g.complexTypes := fun _ _ _ h => h
  exact settleAll_keeps hK ⟨rfl, rfl⟩

theorem object_mem {g : TypeGraph} {id : ObjectId} {e : String × Member TypeNode}
    (h : e ∈ (g.object id).members) : ∃ o ∈ g.objects, e ∈ o.members := by
  have hlt := TypeGraph.lt_of_members_ne_nil (List.ne_nil_of_mem h)
  refine ⟨g.objects[id], List.getElem_mem hlt, ?_⟩
  simpa [TypeGraph.object, hlt] using h

theorem members_settleAll {P : String × Member TypeNode → Prop} {g : TypeGraph}
    (hg : ∀ o ∈ g.objects, ∀ e ∈ o.members, P e) :
    ∀ o ∈ (settleAll extensions g).value.objects, ∀ e ∈ o.members, P e := by
  refine @settleAll_keeps extensions (fun g => ∀ o ∈ g.objects, ∀ e ∈ o.members, P e)
    (fun g baseId id hg o ho => ?_) g hg
  rcases List.mem_or_eq_of_mem_set ho with ho | rfl
  · exact hg o ho
  · intro e he
    rcases List.mem_append.1 he with he | he
    · obtain ⟨o, ho, he⟩ := object_mem (List.mem_filter.1 he).1
      exact hg o ho e he
    · obtain ⟨o, ho, he⟩ := object_mem he
      exact hg o ho e he

end SoapComponents.Inheritance
