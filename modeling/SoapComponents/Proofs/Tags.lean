import Mathlib.Data.List.Induction
import SoapComponents.Proofs.Name
import SoapComponents.Tree.Query

/-!
What the keys of a node say. A key is cut at its first colon: what follows is the tag, and what
goes before is a prefix, so no key answers to two tags; or the key declares a prefix.
-/

set_option autoImplicit false

namespace SoapComponents.Tree

open Text

def IsTag (tag : String) : Prop := tag ≠ "" ∧ ':' ∉ tag.toList ∧ '\n' ∉ tag.toList

instance (tag : String) : Decidable (IsTag tag) := inferInstanceAs (Decidable (_ ∧ _ ∧ _))

def IsPrefix (cs : List Char) : Prop := cs ≠ [] ∧ ∀ c ∈ cs, isPrefixChar c = true

-- the list's own test: asked as it stands, it may be decided by going over all characters
instance (cs : List Char) : Decidable (IsPrefix cs) :=
  decidable_of_iff (cs ≠ [] ∧ cs.all isPrefixChar = true) (by rw [IsPrefix, List.all_eq_true])

theorem IsPrefix.colon {cs : List Char} (h : IsPrefix cs) : ':' ∉ cs := by
  intro hm
  have hcolon : isPrefixChar ':' = false := by decide +kernel
  simp [h.2 _ hm] at hcolon

def stem (key : List Char) : List Char :=
  if key.getLast? = some '\n' then key.dropLast else key

theorem isPrefixPart_iff {cs : List Char} :
    isPrefixPart cs = true ↔ cs = [] ∨ ∃ p, IsPrefix p ∧ cs = p ++ [':'] := by
  induction cs using List.reverseRecOn with
  | nil => simp [isPrefixPart]
  | append_singleton p c _ =>
    simp only [isPrefixPart, List.reverse_append, List.reverse_singleton, List.singleton_append,
      Bool.and_eq_true, Bool.not_eq_true', List.isEmpty_reverse, List.isEmpty_eq_false_iff,
      List.all_reverse, List.all_eq_true, beq_iff_eq]
    constructor
    · rintro ⟨⟨rfl, hne⟩, hall⟩
      exact .inr ⟨p, ⟨hne, hall⟩, rfl⟩
    · rintro (hnil | ⟨q, hq, heq⟩)
      · simp at hnil
      · obtain ⟨rfl, hc⟩ := List.append_inj' heq rfl
        exact ⟨⟨List.singleton_inj.1 hc, hq.1⟩, hq.2⟩

theorem keyIs_iff {key tag : List Char} :
    keyIs key tag = true ↔ key = tag ∨ ∃ p, IsPrefix p ∧ cutFirst ':' key = some (p, tag) := by
  simp only [keyIs, Bool.and_eq_true, List.isSuffixOf_iff_suffix, isPrefixPart_iff]
  constructor
  · rintro ⟨⟨before, rfl⟩, hbefore⟩
    rw [List.length_append, Nat.add_sub_cancel, List.take_left'] at hbefore <;> try rfl
    rcases hbefore with rfl | ⟨p, hp, rfl⟩
    · exact .inl rfl
    · exact .inr ⟨p, hp, by simp [cutFirst_append tag hp.colon]⟩
  · rintro (rfl | ⟨p, hp, hcut⟩)
    · simp
    · obtain ⟨rfl, _⟩ := cutFirst_eq_some hcut
      refine ⟨⟨p ++ [':'], by simp⟩, .inr ⟨p, hp, ?_⟩⟩
      have hlength : (p ++ ':' :: tag).length - tag.length = (p ++ [':']).length := by
        simp only [List.length_append, List.length_cons, List.length_nil]
        omega
      rw [hlength, show p ++ ':' :: tag = p ++ [':'] ++ tag by simp, List.take_left' rfl]

theorem matchesTag_iff {key tag : String} (htag : IsTag tag) :
    matchesTag key tag = true ↔ keyIs (stem key.toList) tag.toList = true := by
  obtain ⟨hne, _, hfeed⟩ := htag
  simp only [matchesTag, stem, Bool.or_eq_true, Bool.and_eq_true, beq_iff_eq]
  split
  · next hlast =>
    refine ⟨?_, fun h => .inr ⟨hlast, h⟩⟩
    rintro (h | ⟨_, h⟩)
    · -- the tag ends the key, so it would end in the line feed
      obtain ⟨before, hkey⟩ := List.isSuffixOf_iff_suffix.1 (Bool.and_eq_true_iff.1 h).1
      have hsome : tag.toList.getLast?.isSome = true := by simpa using hne
      rw [← hkey, List.getLast?_append, Option.or_of_isSome hsome] at hlast
      exact absurd (List.mem_of_getLast? hlast) hfeed
    · exact h
  · next hlast => simp [hlast]

theorem tag_unique {key tag other : String} (htag : IsTag tag) (hother : IsTag other)
    (h : matchesTag key tag = true) (h' : matchesTag key other = true) : tag = other := by
  rw [matchesTag_iff htag, keyIs_iff] at h
  rw [matchesTag_iff hother, keyIs_iff] at h'
  have hnone : ∀ {t p : List Char}, ':' ∉ stem key.toList →
      cutFirst ':' (stem key.toList) ≠ some (p, t) := by
    intro t p hcolon hcut
    exact hcolon ((cutFirst_eq_some hcut).1 ▸ by simp)
  rcases h with h | ⟨p, _, h⟩ <;> rcases h' with h' | ⟨p', _, h'⟩
  · exact String.toList_inj.1 (h.symm.trans h')
  · exact absurd h' (hnone (h ▸ htag.2.1))
  · exact absurd h (hnone (h' ▸ hother.2.1))
  · exact String.toList_inj.1 (Prod.mk.inj (Option.some.inj (h.symm.trans h'))).2

theorem isPrefixOf_cut {kept : List Char} (h : ':' ∉ kept) (before after : List Char) :
    kept.isPrefixOf (before ++ ':' :: after) = kept.isPrefixOf before := by
  induction before generalizing kept with
  | nil =>
    cases kept with
    | nil => rfl
    | cons k rest =>
      have hk : k ≠ ':' := fun heq => h (by simp [heq])
      simp [List.isPrefixOf, hk]
  | cons c before ih =>
    cases kept with
    | nil => rfl
    | cons k rest =>
      simp only [List.cons_append, List.isPrefixOf]
      rw [ih fun hm => h (List.mem_cons_of_mem _ hm)]

theorem stem_append {before rest : List Char} {c : Char} (h : c ≠ '\n') :
    stem (before ++ c :: rest) = before ++ c :: stem rest := by
  induction rest using List.reverseRecOn with
  | nil => simp [stem, h]
  | append_singleton rest last _ =>
    have hcons : before ++ c :: (rest ++ [last]) = (before ++ c :: rest) ++ [last] := by simp
    rw [hcons]
    unfold stem
    simp only [List.dropLast_concat, List.getLast?_concat]
    split <;> simp

theorem matchesTag_joined {p base tag : String} (htag : IsTag tag) (hp : ':' ∉ p.toList) :
    matchesTag (p ++ ":" ++ base) tag = true ↔
      IsPrefix p.toList ∧ stem base.toList = tag.toList := by
  have hstem : stem (p ++ ":" ++ base).toList = p.toList ++ ':' :: stem base.toList := by
    simpa using @stem_append p.toList base.toList ':' (by decide)
  rw [matchesTag_iff htag, hstem, keyIs_iff, cutFirst_append _ hp]
  constructor
  · rintro (h | ⟨q, hq, h⟩)
    · exact absurd (h ▸ by simp) htag.2.1
    · obtain ⟨rfl, hbase⟩ := Prod.mk.inj (Option.some.inj h)
      exact ⟨hq, hbase⟩
  · rintro ⟨hleft, hbase⟩
    exact .inr ⟨p.toList, hleft, by rw [hbase]⟩

def declaration? : String × Tree → Option (String × String)
  | (key, text space) =>
    if "xmlns:".toList.isPrefixOf key.toList then some (String.ofList (key.toList.drop 6), space)
    else if key == "xmlns" then some ("", space)
    else none
  | _ => none

theorem namespaces_eq (t : Tree) :
    t.namespaces = Table.putAll [] (t.entries.filterMap declaration?) := by
  unfold namespaces Table.putAll
  rw [List.foldl_filterMap]
  congr 1
  funext found e
  obtain ⟨key, value⟩ := e
  cases value with
  | text space =>
    dsimp only [declaration?]
    split
    · rfl
    · split <;> rfl
  | node _ => rfl
  | many _ => rfl

end SoapComponents.Tree
