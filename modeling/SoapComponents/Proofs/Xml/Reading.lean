import SoapComponents.Library
import SoapComponents.Proofs.Name
import SoapComponents.Proofs.Tree.Folding

/-!
What the reader of documents delivers. Whatever it accepts is one element, all names in it are
names, and so every document that it accepts has a tree.
-/

set_option autoImplicit false

namespace SoapComponents.Xml

open SoapComponents.Text

variable {α β : Type}

def Scan.Gives (x : Scan α) (Q : α → Prop) : Prop :=
  ∀ cs a rest, x.run cs = some (a, rest) → Q a

namespace Scan.Gives

variable {x : Scan α} {f : α → Scan β} {P : α → Prop} {Q : β → Prop}

theorem pure {a : α} (h : P a) : Gives (Pure.pure a) P := by
  intro cs b rest hrun
  obtain ⟨rfl, -⟩ := Prod.mk.inj (Option.some.inj hrun)
  exact h

theorem fails : Gives (failure : Scan α) P := by
  intro cs a rest hrun
  cases hrun

theorem bind (hx : x.Gives P) (hf : ∀ a, P a → (f a).Gives Q) : (x >>= f).Gives Q := by
  intro cs b rest hrun
  rw [StateT.run_bind] at hrun
  obtain ⟨⟨a, middle⟩, ha, hb⟩ := Option.bind_eq_some_iff.1 hrun
  exact hf a (hx cs a middle ha) middle b rest hb

theorem skip (hf : ∀ a, (f a).Gives Q) : (x >>= f).Gives Q :=
  bind (P := fun _ => True) (fun _ _ _ _ => trivial) fun a _ => hf a

theorem ite {c : Prop} [Decidable c] {x y : Scan α} (hx : x.Gives P) (hy : y.Gives P) :
    (if c then x else y).Gives P := by
  split
  · exact hx
  · exact hy

end Scan.Gives

def IsQualified (s : String) : Prop :=
  IsName s ∨ ∃ nsPrefix base, IsName nsPrefix ∧ IsName base ∧ s = nsPrefix ++ ":" ++ base

theorem isNameChar_of_start {c : Char} (h : isNameStart c = true) : isNameChar c = true := by
  simp [isNameChar, h]

theorem not_isNameChar_colon : isNameChar ':' = false := by decide

namespace Scan

open Gives

theorem plainName_gives : plainName.Gives fun cs => IsName (String.ofList cs) := by
  intro cs a rest hrun
  cases cs with
  | nil => cases hrun
  | cons c cs =>
    have hrun : (if isNameStart c then takeWhile isNameChar else failure : Scan (List Char)).run
        (c :: cs) = some (a, rest) := hrun
    split at hrun
    · next hc =>
      obtain ⟨rfl, -⟩ := Prod.mk.inj (Option.some.inj hrun)
      refine ⟨?_, ?_⟩
      · simp [isNameChar_of_start hc]
      · simpa using fun c hc => List.all_eq_true.1 List.all_takeWhile c hc
    · cases hrun

theorem name_gives : name.Gives fun cs => IsQualified (String.ofList cs) := by
  refine bind plainName_gives fun first hfirst => skip fun colon => ite ?_ (pure (.inl hfirst))
  refine bind plainName_gives fun second hsecond => pure (.inr ⟨_, _, hfirst, hsecond, ?_⟩)
  simp [String.append_assoc]

theorem tagRest_gives (lenient : Bool) (fuel : Nat) {found : List (String × String)}
    (hfound : ∀ a ∈ found, IsQualified a.1) :
    (tagRest lenient fuel found).Gives fun r => ∀ a ∈ r.1, IsQualified a.1 := by
  induction fuel generalizing found with
  | zero => exact fails
  | succ fuel ih =>
    have hreverse : ∀ a ∈ found.reverse, IsQualified a.1 := by simpa using hfound
    unfold tagRest
    refine skip fun spaced => skip fun _ => ite (pure hreverse) <| skip fun _ =>
      ite (pure hreverse) <| ite (skip fun _ => ?_) ?_
    all_goals
      refine bind name_gives fun name hname => skip fun _ => skip fun _ => skip fun _ =>
        skip fun _ => skip fun _ => ih ?_
      exact List.forall_mem_cons.2 ⟨hname, hfound⟩

end Scan

namespace Doctype

open Scan Scan.Gives

def Named (d : Doctype) : Prop := ∀ r ∈ d.rules, ∀ a ∈ r.2, IsQualified a.name

theorem Named.rulesFor {d : Doctype} (h : d.Named) (element : String) :
    ∀ a ∈ d.rulesFor element, IsQualified a.name := by
  unfold Doctype.rulesFor
  cases hfind : d.rules.find? (·.1 == element) with
  | none => simp
  | some r => exact h r (List.mem_of_find?_eq_some hfind)

theorem Named.addRule {d : Doctype} (h : d.Named) (element : String) {rule : AttributeRule}
    (hrule : IsQualified rule.name) : (d.addRule element rule).Named := by
  unfold Doctype.addRule
  dsimp only
  split
  · exact h
  · refine List.forall_mem_cons.2 ⟨?_, fun r hr => h r (List.mem_filter.1 hr).1⟩
    intro a ha
    rcases List.mem_append.1 ha with ha | ha
    · exact h.rulesFor element a ha
    · obtain rfl := List.mem_singleton.1 ha
      exact hrule

theorem attributes_gives (fuel₀ : Nat) (element : String) (fuel : Nat) {d : Doctype}
    (h : d.Named) : (attributes fuel₀ element fuel d).Gives Named := by
  induction fuel generalizing d with
  | zero => exact fails
  | succ fuel ih =>
    unfold attributes
    refine skip fun spaced => skip fun _ => ite (pure h) <| ite (skip fun _ => ?_) ?_
    all_goals
      refine bind name_gives fun name hname => skip fun _ => skip fun _ => skip fun _ =>
        skip fun _ => ih ?_
      split
      · exact h
      · exact h.addRule element hname

theorem subset_gives (standalone : Bool) (fuel₀ fuel : Nat) {d : Doctype} (h : d.Named) :
    (subset standalone fuel₀ fuel d).Gives Named := by
  induction fuel generalizing d with
  | zero => exact fails
  | succ fuel ih =>
    unfold subset
    refine skip fun _ => skip fun ending => ite (pure h) <|
      skip fun parameter => ite (skip fun _ => skip fun _ => ih h) <|
      skip fun comment => ite (skip fun _ => ih h) <|
      skip fun instruction => ite (skip fun _ => ih h) <|
      skip fun element => ite
        (skip fun _ => skip fun _ => skip fun _ => skip fun _ => skip fun _ => skip fun _ => ih h) <|
      skip fun attributes => ite ?attributes <|
      skip fun declared => ite
        (skip fun _ => skip fun _ => skip fun _ => skip fun _ => skip fun _ => skip fun _ => ih h) <|
      skip fun _ => skip fun _ => ih h
    exact skip fun _ => skip fun element => bind (attributes_gives _ _ _ h) fun _ hd => ih hd

theorem read_gives (standalone : Bool) (fuel : Nat) : (read standalone fuel).Gives Named := by
  have hrest : ∀ external : Bool, (do
      let d : Doctype := { incomplete := external && !standalone }
      let d ← if ← Scan.option ['['] then subset standalone fuel fuel d else pure d
      let _ ← Scan.blanks
      Scan.literal ['>']
      return d : Scan Doctype).Gives Named := by
    intro external
    have hempty : Named { incomplete := external && !standalone } := by simp [Named]
    refine skip fun _ => ite ?_ ?_
    · exact bind (subset_gives _ _ _ hempty) fun d hd => skip fun _ => skip fun _ => pure hd
    · exact bind (pure hempty) fun d hd => skip fun _ => skip fun _ => pure hd
  unfold read
  refine skip fun _ => skip fun _ => skip fun spaced => skip fun _ => ite ?_ (hrest _)
  exact ite (skip fun _ => skip fun _ => skip fun _ => hrest _)
    (skip fun _ => skip fun _ => hrest _)

end Doctype

/-- Tokens that bring as many open elements to their end as a number says. -/
inductive Token.Closes : Nat → List Token → Prop
  | nil : Closes 0 []
  | text {n : Nat} {tokens : List Token} (content : String) : Closes (n + 1) tokens →
      Closes (n + 1) (.text content :: tokens)
  | start {n : Nat} {tokens : List Token} {name : String} {attributes : List (String × String)} :
      IsQualified name → (∀ a ∈ attributes, IsQualified a.1) → Closes (n + 2) tokens →
      Closes (n + 1) (.start name attributes :: tokens)
  | finish {n : Nat} {tokens : List Token} : Closes n tokens → Closes (n + 1) (.finish :: tokens)

namespace Scan

open Gives

theorem content_gives (lenient : Bool) (fuel : Nat) (opened : List String) :
    (content lenient fuel opened).Gives (Token.Closes opened.length) := by
  induction fuel generalizing opened with
  | zero => exact fails
  | succ fuel ih =>
    cases opened with
    | nil => exact pure .nil
    | cons name outer =>
      have htext : ∀ text : String, (do
          return .text text :: (← content lenient fuel (name :: outer)) : Scan (List Token)).Gives
            (Token.Closes (name :: outer).length) := fun text =>
        bind (ih _) fun tokens htokens => pure (.text text htokens)
      unfold content
      refine skip fun comment => ite (skip fun _ => ih _) <|
        skip fun data => ite (skip fun text => htext _) <|
        skip fun instruction => ite (skip fun _ => ih _) <|
        skip fun ending => ite ?finish <|
        skip fun starting => ite ?start <|
        skip fun reference => ite ?reference <| skip fun text => ite (skip fun _ => ?_) ?_
      case finish =>
        exact skip fun _ => skip fun _ => skip fun _ => bind (ih outer) fun tokens htokens =>
          pure (.finish htokens)
      case start =>
        refine bind name_gives fun inner hinner => skip fun _ =>
          bind (tagRest_gives lenient _ (by simp)) fun ⟨attributes, empty⟩ hattributes =>
          ite (bind (ih _) fun tokens htokens => ?_) (bind (ih _) fun tokens htokens => ?_)
        · exact pure (.start hinner hattributes (.finish htokens))
        · exact pure (.start hinner hattributes htokens)
      case reference =>
        refine skip fun found => ?_
        cases found with
        | inl c => exact htext _
        | inr name => exact fails
      all_goals exact htext _

theorem ending_gives (fuel : Nat) {doctype : Doctype} {root : List Char}
    {attributes : List (String × String)} {rest : List Token} (hdoctype : doctype.Named)
    (hroot : IsQualified (String.ofList root)) (hattributes : ∀ a ∈ attributes, IsQualified a.1)
    (hrest : Token.Closes 1 rest) :
    (do
      Scan.misc fuel
      if !(← get).isEmpty then failure
      return (doctype, .start (String.ofList root) attributes :: rest) :
        Scan (Doctype × List Token)).Gives fun d => d.1.Named ∧ ∃ name attributes rest,
          d.2 = .start name attributes :: rest ∧ IsQualified name ∧
            (∀ a ∈ attributes, IsQualified a.1) ∧ Token.Closes 1 rest := by
  refine skip fun _ => skip fun _ => ite (skip fun _ => pure ?_) (pure ?_)
  all_goals exact ⟨hdoctype, _, _, rest, rfl, hroot, hattributes, hrest⟩

theorem document_gives (fuel : Nat) : (document fuel).Gives fun d => d.1.Named ∧
    ∃ name attributes rest, d.2 = .start name attributes :: rest ∧ IsQualified name ∧
      (∀ a ∈ attributes, IsQualified a.1) ∧ Token.Closes 1 rest := by
  have hempty : Doctype.Named {} := by simp [Doctype.Named]
  unfold document
  refine skip fun declaration => skip fun _ => skip fun doctype => ite
    (bind (Doctype.read_gives _ _) fun d hd => skip fun _ => bind (pure hd) ?_)
    (bind (pure hempty) ?_)
  -- with a type declaration or without one, what is left is the root
  all_goals
    intro doctype hdoctype
    refine skip fun _ => bind name_gives fun root hroot =>
      bind (tagRest_gives _ _ (by simp)) fun tag hattributes => ?_
    have hend := fun rest => @ending_gives fuel doctype root tag.1 rest hdoctype hroot hattributes
    refine ite (bind (pure ?_) hend) (bind (content_gives _ _ [_]) hend)
    exact .finish .nil

end Scan

theorem IsQualified.cut {name before after : List Char}
    (h : IsQualified (String.ofList name)) (hcut : cutFirst ':' name = some (before, after)) :
    IsName (String.ofList after) := by
  rcases h with h | ⟨nsPrefix, base, hbefore, hbase, heq⟩
  · have hcolon : ':' ∈ (String.ofList name).toList := by simp [(cutFirst_eq_some hcut).1]
    exact absurd hcolon (h.not_mem not_isNameChar_colon)
  · have hname : name = nsPrefix.toList ++ ':' :: base.toList := by
      have := congrArg String.toList heq
      simpa using this
    rw [hname, cutFirst_append _ (hbefore.not_mem not_isNameChar_colon)] at hcut
    obtain ⟨-, rfl⟩ := Prod.mk.inj (Option.some.inj hcut)
    simpa using hbase

theorem IsQualified.uncut {name : String} (h : IsQualified name)
    (hcut : cutFirst ':' name.toList = none) : IsName name := by
  rcases h with h | ⟨nsPrefix, base, -, -, rfl⟩
  · exact h
  · exact absurd (by simp) (cutFirst_eq_none.1 hcut)

theorem suppliedAttributes_named {d : Doctype} (hd : d.Named) (element : String)
    {written : List (String × String)} (h : ∀ a ∈ written, IsQualified a.1) :
    ∀ a ∈ suppliedAttributes d element written, IsQualified a.1 := by
  intro a ha
  rcases List.mem_append.1 ha with ha | ha
  · obtain ⟨w, hw, rfl⟩ := List.mem_map.1 ha
    dsimp only
    split
    · split <;> exact h w hw
    · exact h w hw
  · obtain ⟨rule, hrule, ha⟩ := List.mem_filterMap.1 ha
    split at ha
    · split at ha
      · cases ha
      · obtain rfl := Option.some.inj ha
        exact hd.rulesFor element rule hrule
    · cases ha

theorem declaredPrefix?_named {name nsPrefix : String} (h : IsQualified name)
    (hdeclared : declaredPrefix? name = some nsPrefix) : nsPrefix = "" ∨ IsName nsPrefix := by
  unfold declaredPrefix? at hdeclared
  split at hdeclared
  · exact .inl (Option.some.inj hdeclared).symm
  · split at hdeclared
    · next hcut =>
      split at hdeclared
      · obtain rfl := Option.some.inj hdeclared
        exact .inr (IsQualified.cut (by simpa using h) hcut)
      · cases hdeclared
    · cases hdeclared

theorem expand?_named {bindings : Bindings} {defaulted : Bool} {name : String}
    {expanded : ExpandedName} (h : IsQualified name)
    (hexpand : expand? bindings defaulted name = some expanded) : IsName expanded.base := by
  unfold expand? at hexpand
  split at hexpand
  · next hcut =>
    have hbase := IsQualified.cut (by simpa using h) hcut
    split at hexpand
    · obtain rfl := Option.some.inj hexpand
      exact hbase
    · obtain ⟨space, -, rfl⟩ := Option.map_eq_some_iff.1 hexpand
      exact hbase
  · next hcut =>
    split at hexpand
    all_goals
      obtain rfl := Option.some.inj hexpand
      exact h.uncut hcut

theorem of_check {c : Prop} [Decidable c] {rest : Unit → Option α} {a : α}
    (h : (if c then none >>= rest else rest ()) = some a) : rest () = some a := by
  split at h
  · cases h
  · exact h

theorem mem_of_mapM {f : α → Option β} {l : List α} {found : List β}
    (h : l.mapM f = some found) : ∀ b ∈ found, ∃ a ∈ l, f a = some b := by
  induction l generalizing found with
  | nil =>
    obtain rfl := Option.some.inj h
    simp
  | cons a l ih =>
    rw [List.mapM_cons] at h
    obtain ⟨b, hb, h⟩ := Option.bind_eq_some_iff.1 h
    obtain ⟨rest, hrest, h⟩ := Option.bind_eq_some_iff.1 h
    obtain rfl := Option.some.inj h
    intro b' hb'
    rcases List.mem_cons.1 hb' with rfl | hb'
    · exact ⟨a, List.mem_cons_self, hb⟩
    · obtain ⟨a', ha', heq⟩ := ih hrest b' hb'
      exact ⟨a', List.mem_cons_of_mem _ ha', heq⟩

theorem startEvents_tag {d : Doctype} (hd : d.Named) {bindings inner : Bindings} {name : String}
    (hname : IsQualified name) {written : List (String × String)}
    (hwritten : ∀ a ∈ written, IsQualified a.1) {found : List Event}
    (h : startEvents d bindings name written = some (found, inner)) :
    ∃ tag : StartTag, tag.Named ∧ found = tag.events := by
  have hnamed := suppliedAttributes_named hd name hwritten
  unfold startEvents at h
  obtain ⟨expanded, hexpanded, h⟩ := Option.bind_eq_some_iff.1 (of_check (of_check h))
  obtain ⟨element, helement, h⟩ := Option.bind_eq_some_iff.1 (of_check h)
  obtain ⟨rfl, -⟩ := Prod.mk.inj (Option.some.inj h)
  refine ⟨⟨_, element, expanded⟩, ⟨?_, expand?_named hname helement, ?_⟩, rfl⟩
  · intro declaration hdeclaration
    obtain ⟨a, ha, h⟩ := List.mem_filterMap.1 hdeclaration
    obtain ⟨nsPrefix, hdeclared, rfl⟩ := Option.map_eq_some_iff.1 h
    exact declaredPrefix?_named (hnamed a ha) hdeclared
  · intro given hgiven
    obtain ⟨a, ha, h⟩ := mem_of_mapM hexpanded given hgiven
    obtain ⟨name, hexpand, rfl⟩ := Option.map_eq_some_iff.1 h
    exact expand?_named (hnamed a (List.mem_filter.1 ha).1) hexpand

theorem eventsOf_closes {d : Doctype} (hd : d.Named) {n : Nat} {tokens : List Token}
    (h : Token.Closes n tokens) {scopes : List Bindings} {found : List Event}
    (hevents : eventsOf d scopes tokens = some found) : Closes n found := by
  induction h generalizing scopes found with
  | nil =>
    obtain rfl := Option.some.inj hevents
    exact .nil
  | text content _ ih =>
    obtain ⟨rest, hrest, h⟩ := Option.bind_eq_some_iff.1 hevents
    obtain rfl := Option.some.inj h
    exact .text content (ih hrest)
  | start hname hattributes _ ih =>
    obtain ⟨⟨first, inner⟩, hfirst, h⟩ := Option.bind_eq_some_iff.1 hevents
    obtain ⟨rest, hrest, h⟩ := Option.bind_eq_some_iff.1 h
    obtain rfl := Option.some.inj h
    obtain ⟨tag, htag, rfl⟩ := startEvents_tag hd hname hattributes hfirst
    exact .start tag htag (ih hrest)
  | finish _ ih =>
    obtain ⟨rest, hrest, h⟩ := Option.bind_eq_some_iff.1 hevents
    obtain rfl := Option.some.inj h
    exact .finish (ih hrest)

theorem events?_element {cs : List Char} {found : List Event} (h : events? cs = some found) :
    ∃ root : Element, root.Named ∧ root.events = found := by
  unfold events? at h
  split at h
  · obtain ⟨⟨⟨doctype, tokens⟩, left⟩, hrun, h⟩ := Option.bind_eq_some_iff.1 h
    obtain ⟨hdoctype, name, attributes, rest, rfl, hname, hattributes, hrest⟩ :=
      Scan.document_gives _ _ _ _ hrun
    obtain ⟨⟨first, inner⟩, hfirst, h⟩ := Option.bind_eq_some_iff.1 h
    obtain ⟨inside, hinside, h⟩ := Option.bind_eq_some_iff.1 h
    obtain rfl := Option.some.inj h
    obtain ⟨tag, htag, rfl⟩ := startEvents_tag hdoctype hname hattributes hfirst
    exact Closes.element htag (eventsOf_closes hdoctype hrest hinside)
  · cases h

theorem events_element {bytes : List UInt8} {found : List Event}
    (h : events bytes = .ok found) : ∃ root : Element, root.Named ∧ root.events = found := by
  unfold events at h
  cases hdecode : decode bytes with
  | error e => rw [hdecode] at h; cases h
  | ok cs =>
    rw [hdecode] at h
    cases hfound : events? cs with
    | none => simp [hfound, bind, Except.bind] at h
    | some events =>
      simp only [hfound, bind, Except.bind, Except.ok.injEq] at h
      exact h ▸ events?_element hfound

end SoapComponents.Xml

namespace SoapComponents.Tree

open Xml

theorem parse_eq_ok_iff {bytes : List UInt8} {t : Tree} :
    parse bytes = .ok t ↔ ∃ root : Element, root.Named ∧ Xml.events bytes = .ok root.events ∧
      t = node [(root.key [], root.tree [])] := by
  unfold parse
  constructor
  · intro h
    split at h
    · cases h
    · cases h
    · cases h
    · next found hfound =>
      obtain ⟨root, hroot, rfl⟩ := events_element hfound
      rw [ofEvents?_events] at h
      exact ⟨root, hroot, hfound, (Except.ok.inj h).symm⟩
  · rintro ⟨root, -, hevents, rfl⟩
    rw [hevents]
    simp only [ofEvents?_events]

end SoapComponents.Tree
