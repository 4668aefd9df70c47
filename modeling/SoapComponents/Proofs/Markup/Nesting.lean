import SoapComponents.Proofs.Identifier
import SoapComponents.Proofs.Markup.Plans
import SoapComponents.Proofs.Markup.Repeated

/-!
The tags in the text of a body. A scanner goes through a text and reads its brackets: the tags, and
the two ends of loops. Of names that have no marks of their own it reads what the markup was printed
from, whatever the indentation; so every bracket that closes closes the latest one that is open, and
the tag of the root is around all others.
-/

set_option autoImplicit false

namespace SoapComponents

namespace Text

def marks : List Char := ['<', '>', '/', '{', '}', '(', ')', '\n']

/-- A text that cannot be taken for anything but a name. -/
def Unmarked (s : String) : Prop := ∀ c ∈ s.toList, c ∉ marks

instance (s : String) : Decidable (Unmarked s) := List.decidableBAll (· ∉ marks) s.toList

theorem Unmarked.append {s t : String} (hs : Unmarked s) (ht : Unmarked t) : Unmarked (s ++ t) := by
  intro c hc
  rw [String.toList_append, List.mem_append] at hc
  exact hc.elim (hs c) (ht c)

theorem unmarked_of_forall {p : Char → Bool} {s : String} (hmarks : marks.any p = false)
    (h : ∀ c ∈ s.toList, p c = true) : Unmarked s :=
  fun c hc hmark => List.any_eq_false.1 hmarks c hmark (h c hc)

end Text

open Text

namespace Markup

/-- A tag in a text, or an end of a loop. -/
inductive Bracket where
  | opening (tag : String)
  | closing (tag : String)
  | loop
  | done
  deriving DecidableEq, Repr

namespace Bracket

def ofTag : List Char → Bracket
  | '/' :: name => closing (String.ofList name)
  | name => opening (String.ofList name)

/-- What is open after one more bracket. One that closes has to close the latest that is open. -/
def next : List Bracket → Bracket → Option (List Bracket)
  | opened, opening tag => some (opening tag :: opened)
  | opened, loop => some (loop :: opened)
  | opening tag :: opened, closing closed => if tag = closed then some opened else none
  | loop :: opened, done => some opened
  | _, _ => none

def opened? : Bracket → Option String
  | opening tag => some tag
  | _ => none

end Bracket

/-- The brackets are all closed in their order, each by its own. -/
def Balanced (brackets : List Bracket) : Prop := brackets.foldlM Bracket.next [] = some []

instance (brackets : List Bracket) : Decidable (Balanced brackets) :=
  inferInstanceAs (Decidable (_ = _))

inductive Place where
  /-- Between brackets, perhaps with nothing but blanks before it in the line. -/
  | between (fresh : Bool)
  | tag (read : List Char)
  | code (read : List Char)
  | inside (left : List Char) (bracket : Bracket)

structure Scan where
  place : Place
  found : List Bracket

namespace Scan

def loopHead : String := "(item, i) => ("

def loopEnd : String := ")\x7d"

/-- Reads one character. Blanks count for nothing at the beginning of a line, and a line may end
between brackets only. -/
def step (s : Scan) (c : Char) : Option Scan :=
  match s.place with
  | .between fresh =>
    if c = '\n' then some ⟨.between true, s.found⟩
    else if c = ' ' ∧ fresh = true then some s
    else if c = '<' then some ⟨.tag [], s.found⟩
    else if c = '{' then some ⟨.code [], s.found⟩
    else if c = ')' then some ⟨.inside loopEnd.toList .done, s.found⟩
    else none
  | .tag read =>
    if c = '>' then some ⟨.between false, s.found ++ [.ofTag read]⟩
    else if c ∉ marks ∨ c = '/' ∧ read = [] then some ⟨.tag (read ++ [c]), s.found⟩
    else none
  | .code read =>
    if c = '}' then some ⟨.between false, s.found⟩
    else if c = '(' ∧ ".map".toList <:+ read then some ⟨.inside loopHead.toList .loop, s.found⟩
    else if c ∉ marks then some ⟨.code (read ++ [c]), s.found⟩
    else none
  | .inside left bracket =>
    if c = '\n' then none
    else match left with
      | [last] => if c = last then some ⟨.between false, s.found ++ [bracket]⟩ else none
      | d :: more => if c = d then some ⟨.inside more bracket, s.found⟩ else none
      | [] => none

def run (s : Scan) (cs : List Char) : Option Scan := cs.foldlM step s

theorem run_cons (s : Scan) (c : Char) (cs : List Char) :
    s.run (c :: cs) = s.step c >>= fun t => t.run cs := List.foldlM_cons

theorem run_step {s t : Scan} {c : Char} (h : s.step c = some t) (cs : List Char) :
    s.run (c :: cs) = t.run cs := by
  rw [run_cons, h]
  rfl

theorem run_append {s t : Scan} {a : List Char} (h : s.run a = some t) (b : List Char) :
    s.run (a ++ b) = t.run b := by
  rw [run, List.foldlM_append]
  show s.run a >>= _ = _
  rw [h]
  rfl

end Scan

/-- The brackets of a text. There are none to be read if the text ends within one. -/
def brackets? (text : String) : Option (List Bracket) :=
  match (Scan.mk (.between true) []).run text.toList with
  | some ⟨.between _, found⟩ => some found
  | _ => none

namespace Scan

variable {s : Scan} {fresh : Bool} {found : List Bracket}

theorem step_newline (found : List Bracket) (fresh : Bool) :
    step ⟨.between fresh, found⟩ '\n' = some ⟨.between true, found⟩ := rfl

theorem place_of_newline {t : Scan} (h : s.step '\n' = some t) : t.place = .between true := by
  obtain ⟨place, found⟩ := s
  cases place with
  | between fresh =>
    obtain rfl := Option.some.inj h
    rfl
  | tag read => simp [step, marks] at h
  | code read => simp [step, marks] at h
  | inside left bracket => simp [step] at h

theorem run_blanks (hs : s.place = .between true) {pad : List Char} (hpad : ∀ c ∈ pad, c = ' ') :
    s.run pad = some s := by
  induction pad with
  | nil => rfl
  | cons c rest ih =>
    obtain ⟨hc, hrest⟩ := List.forall_mem_cons.1 hpad
    have hstep : s.step c = some s := by simp [step, hs, hc]
    rw [run_step hstep]
    exact ih hrest

theorem run_indentFrom {pad : List Char} (hpad : ∀ c ∈ pad, c = ' ') (cs : List Char)
    (hs : fresh = true → s.place = .between true) :
    s.run (indentFrom pad fresh cs) = s.run cs := by
  induction cs generalizing s fresh with
  | nil => rfl
  | cons c rest ih =>
    rw [indentFrom]
    split
    · next hc =>
      subst hc
      rw [run_cons, run_cons]
      cases hstep : s.step '\n' with
      | none => rfl
      | some t => exact ih fun _ => place_of_newline hstep
    · have hline : ∀ t : Scan, t.run (c :: indentFrom pad false rest) = t.run (c :: rest) := by
        intro t
        rw [run_cons, run_cons]
        cases t.step c with
        | none => rfl
        | some u => exact ih (fun h => by cases h)
      cases fresh with
      | false => exact hline s
      | true =>
        rw [if_pos rfl, run_append (run_blanks (hs rfl) hpad)]
        exact hline s

theorem run_indent (hs : s.place = .between true) (block : String) (levels : Nat) :
    s.run (Text.indent block levels).toList = s.run block.toList := by
  rw [Text.indent, String.toList_ofList]
  exact run_indentFrom (fun c hc => (List.mem_replicate.1 hc).2) _ fun _ => hs

theorem run_name {place : List Char → Place}
    (hplace : ∀ read, ∀ c ∉ marks, step ⟨place read, found⟩ c = some ⟨place (read ++ [c]), found⟩)
    {name : List Char} (hname : ∀ c ∈ name, c ∉ marks) (read : List Char) :
    run ⟨place read, found⟩ name = some ⟨place (read ++ name), found⟩ := by
  induction name generalizing read with
  | nil => simp [run]
  | cons c rest ih =>
    obtain ⟨hc, hrest⟩ := List.forall_mem_cons.1 hname
    rw [run_step (hplace read c hc)]
    simpa using ih hrest (read ++ [c])

theorem ne_of_not_mark {c mark : Char} (hc : c ∉ marks) (hmark : mark ∈ marks) : c ≠ mark :=
  fun h => hc (h ▸ hmark)

theorem run_tag {name : String} (h : Unmarked name) (read : List Char) (found : List Bracket) :
    run ⟨.tag read, found⟩ name.toList = some ⟨.tag (read ++ name.toList), found⟩ := by
  refine run_name (fun read c hc => ?_) h read
  have hend : c ≠ '>' := ne_of_not_mark hc (by decide)
  simp [step, hend, hc]

theorem run_code {path : String} (h : Unmarked path) (read : List Char) (found : List Bracket) :
    run ⟨.code read, found⟩ path.toList = some ⟨.code (read ++ path.toList), found⟩ := by
  refine run_name (fun read c hc => ?_) h read
  have hend : c ≠ '}' := ne_of_not_mark hc (by decide)
  have hloop : c ≠ '(' := ne_of_not_mark hc (by decide)
  simp [step, hend, hloop, hc]

theorem run_openTag {tag : String} (h : Unmarked tag) (fresh : Bool) (found : List Bracket) :
    run ⟨.between fresh, found⟩ (openTag tag).toList =
      some ⟨.between false, found ++ [.opening tag]⟩ := by
  have htag : Bracket.ofTag tag.toList = .opening tag := by
    unfold Bracket.ofTag
    split
    · next name hname =>
      refine absurd ?_ (h '/' (by rw [hname]; exact List.mem_cons_self))
      decide
    · rw [String.ofList_toList]
  have hlist : (openTag tag).toList = '<' :: (tag.toList ++ ['>']) := by simp [openTag]
  have hstart : step ⟨.between fresh, found⟩ '<' = some ⟨.tag [], found⟩ := rfl
  rw [hlist, run_step hstart, run_append (run_tag h [] found), List.nil_append, ← htag]
  rfl

theorem run_closeTag {tag : String} (h : Unmarked tag) (fresh : Bool) (found : List Bracket) :
    run ⟨.between fresh, found⟩ (closeTag tag).toList =
      some ⟨.between false, found ++ [.closing tag]⟩ := by
  have htag : Bracket.ofTag ('/' :: tag.toList) = .closing tag := by
    rw [Bracket.ofTag, String.ofList_toList]
  have hlist : (closeTag tag).toList = '<' :: '/' :: (tag.toList ++ ['>']) := by simp [closeTag]
  have hstart : step ⟨.between fresh, found⟩ '<' = some ⟨.tag [], found⟩ := rfl
  have hslash : step ⟨.tag [], found⟩ '/' = some ⟨.tag ['/'], found⟩ := rfl
  rw [hlist, run_step hstart, run_step hslash, run_append (run_tag h ['/'] found), ← htag]
  rfl

theorem run_interpolate {path : String} (h : Unmarked path) (fresh : Bool)
    (found : List Bracket) :
    run ⟨.between fresh, found⟩ (interpolate path).toList = some ⟨.between false, found⟩ := by
  have hlist : (interpolate path).toList = '{' :: (path.toList ++ ['}']) := by simp [interpolate]
  have hstart : step ⟨.between fresh, found⟩ '{' = some ⟨.code [], found⟩ := rfl
  rw [hlist, run_step hstart, run_append (run_code h [] found)]
  rfl

theorem run_loopHead {path : String} (h : Unmarked path) (fresh : Bool) (found : List Bracket) :
    run ⟨.between fresh, found⟩ ('{' :: ((path ++ ".map").toList ++ '(' :: loopHead.toList)) =
      some ⟨.between false, found ++ [.loop]⟩ := by
  have hpath : Unmarked (path ++ ".map") := h.append (by decide)
  have hstart : step ⟨.between fresh, found⟩ '{' = some ⟨.code [], found⟩ := rfl
  have hhead : step ⟨.code ([] ++ (path ++ ".map").toList), found⟩ '(' =
      some ⟨.inside loopHead.toList .loop, found⟩ := by
    simp [step]
  rw [run_step hstart, run_append (run_code hpath [] found), run_step hhead]
  rfl

theorem run_loopEnd (fresh : Bool) (found : List Bracket) :
    run ⟨.between fresh, found⟩ (')' :: loopEnd.toList) = some ⟨.between false, found ++ [.done]⟩ := by
  cases fresh <;> rfl

end Scan

def Reads (text : String) (read : List Bracket) : Prop :=
  ∀ found, ∃ fresh, (Scan.mk (.between true) found).run text.toList =
    some ⟨.between fresh, found ++ read⟩

variable {text inner tag path : String} {read : List Bracket}

theorem Reads.brackets?_eq (h : Reads text read) : brackets? text = some read := by
  obtain ⟨fresh, hrun⟩ := h []
  rw [brackets?, hrun]
  rfl

theorem reads_empty : Reads "" [] := fun found => ⟨true, by simp [Scan.run]⟩

theorem Reads.run_between (h : Reads text read) (fresh : Bool) (found : List Bracket)
    (rest : List Char) :
    (Scan.mk (.between fresh) found).run ('\n' :: (text.toList ++ '\n' :: rest)) =
      (Scan.mk (.between true) (found ++ read)).run rest := by
  obtain ⟨fresh', hrun⟩ := h found
  rw [Scan.run_step (Scan.step_newline _ _), Scan.run_append hrun,
    Scan.run_step (Scan.step_newline _ _)]

theorem Reads.indent (h : Reads text read) (levels : Nat) :
    Reads (Text.indent text levels) read := by
  intro found
  rw [Scan.run_indent rfl]
  exact h found

theorem Reads.below {above : String} {before : List Bracket} (habove : Reads above before)
    (h : Reads text read) : Reads (above ++ "\n" ++ text) (before ++ read) := by
  intro found
  obtain ⟨fresh, hrun⟩ := habove found
  obtain ⟨fresh', hrun'⟩ := h (found ++ before)
  have hlist : (above ++ "\n" ++ text).toList = above.toList ++ '\n' :: text.toList := by simp
  refine ⟨fresh', ?_⟩
  rw [hlist, Scan.run_append hrun, Scan.run_step (Scan.step_newline _ _), hrun',
    List.append_assoc]

theorem reads_leaf (htag : Text.Unmarked tag) (hpath : Text.Unmarked path) :
    Reads (openTag tag ++ interpolate path ++ closeTag tag) [.opening tag, .closing tag] := by
  intro found
  refine ⟨false, ?_⟩
  rw [String.toList_append, String.toList_append, List.append_assoc,
    Scan.run_append (Scan.run_openTag htag true found),
    Scan.run_append (Scan.run_interpolate hpath false _), Scan.run_closeTag htag,
    List.append_assoc]
  rfl

theorem Reads.enclose (htag : Text.Unmarked tag) (h : Reads text read) :
    Reads (enclose tag text) (.opening tag :: read ++ [.closing tag]) := by
  intro found
  refine ⟨false, ?_⟩
  by_cases hempty : text = ""
  · subst hempty
    obtain rfl : read = [] := Option.some.inj (h.brackets?_eq.symm.trans reads_empty.brackets?_eq)
    have hlist : (Markup.enclose tag "").toList = (openTag tag).toList ++ (closeTag tag).toList := by
      simp [Markup.enclose]
    rw [hlist, Scan.run_append (Scan.run_openTag htag true found), Scan.run_closeTag htag,
      List.append_assoc]
  · have hlist : (Markup.enclose tag text).toList = (openTag tag).toList ++
        '\n' :: ((Text.indent text 1).toList ++ '\n' :: (closeTag tag).toList) := by
      simp [Markup.enclose, hempty]
    rw [hlist, Scan.run_append (Scan.run_openTag htag true found), (h.indent 1).run_between,
      Scan.run_closeTag htag]
    simp

theorem Reads.enclosed (h : Reads text read) (tag : String) :
    ∃ middle, Markup.enclose tag text = openTag tag ++ middle ++ closeTag tag ∧
      brackets? middle = some read := by
  by_cases hempty : text = ""
  · subst hempty
    exact ⟨"", by simp [Markup.enclose], h.brackets?_eq⟩
  · refine ⟨"\n" ++ Text.indent text 1 ++ "\n",
      by simp [Markup.enclose, hempty, String.append_assoc], ?_⟩
    have hlist : ("\n" ++ Text.indent text 1 ++ "\n").toList =
        '\n' :: ((Text.indent text 1).toList ++ '\n' :: []) := by simp
    rw [brackets?, hlist, (h.indent 1).run_between]
    rfl

theorem Reads.iterate (hpath : Text.Unmarked path) (h : Reads text read) :
    Reads (iterate path text) (.loop :: read ++ [.done]) := by
  intro found
  refine ⟨false, ?_⟩
  have hlist : (Markup.iterate path text).toList =
      ('{' :: ((path ++ ".map").toList ++ '(' :: Scan.loopHead.toList)) ++
        '\n' :: ((Text.indent text 1).toList ++ '\n' :: ')' :: Scan.loopEnd.toList) := by
    unfold Markup.iterate
    generalize Text.indent text 1 = block
    simp [interpolate, loopVariable, Scan.loopHead, Scan.loopEnd]
  rw [hlist, Scan.run_append (Scan.run_loopHead hpath true found), (h.indent 1).run_between,
    Scan.run_loopEnd]
  simp

mutual

def brackets : Markup String → List Bracket
  | leaf tag _ => [.opening tag, .closing tag]
  | element tag content => .opening tag :: bracketsAll content ++ [.closing tag]
  | bare _ content => bracketsAll content
  | loop _ body => .loop :: brackets body ++ [.done]

def bracketsAll : List (Markup String) → List Bracket
  | [] => []
  | m :: rest => brackets m ++ bracketsAll rest

end

mutual

/-- The tags and paths in the text of markup have no marks of their own. -/
def Unmarked : Markup String → Prop
  | leaf tag path => Text.Unmarked tag ∧ Text.Unmarked path
  | element tag content => Text.Unmarked tag ∧ UnmarkedAll content
  | bare _ content => UnmarkedAll content
  | loop path body => Text.Unmarked path ∧ Unmarked body

def UnmarkedAll : List (Markup String) → Prop
  | [] => True
  | m :: rest => Unmarked m ∧ UnmarkedAll rest

end

mutual

theorem reads_print : ∀ m : Markup String, m.Unmarked → Reads (print m) (brackets m)
  | leaf _ _, h => reads_leaf h.1 h.2
  | element _ content, h => (reads_printAll content h.2).enclose h.1
  | bare _ content, h => reads_printAll content h
  | loop _ body, h => (reads_print body h.2).iterate h.1

theorem reads_printAll : ∀ ms : List (Markup String), UnmarkedAll ms →
    Reads ("\n".intercalate (printAll ms)) (bracketsAll ms)
  | [], _ => reads_empty
  | m :: rest, h => by
    have hm := reads_print m h.1
    have hrest := reads_printAll rest h.2
    rw [bracketsAll, printAll]
    by_cases hempty : print m = ""
    · rw [hempty] at hm ⊢
      have hnone : brackets m = [] :=
        Option.some.inj (hm.brackets?_eq.symm.trans reads_empty.brackets?_eq)
      simpa [hnone] using hrest
    · simp only [beq_iff_eq, if_neg hempty]
      cases hlines : printAll rest with
      | nil =>
        rw [hlines] at hrest
        have hnone : bracketsAll rest = [] :=
          Option.some.inj (hrest.brackets?_eq.symm.trans reads_empty.brackets?_eq)
        simpa [hnone] using hm
      | cons line lines =>
        rw [hlines] at hrest
        rw [String.intercalate_cons_cons]
        exact hm.below hrest

end

mutual

theorem close_brackets : ∀ (m : Markup String) (opened : List Bracket),
    (brackets m).foldlM Bracket.next opened = some opened
  | leaf tag _, opened => by simp [brackets, Bracket.next]
  | element tag content, opened => by
    simp [brackets, Bracket.next, close_bracketsAll content]
  | bare _ content, opened => close_bracketsAll content opened
  | loop _ body, opened => by simp [brackets, Bracket.next, close_brackets body]

theorem close_bracketsAll : ∀ (ms : List (Markup String)) (opened : List Bracket),
    (bracketsAll ms).foldlM Bracket.next opened = some opened
  | [], _ => rfl
  | m :: rest, opened => by
    simp [bracketsAll, close_brackets m, close_bracketsAll rest]

end

mutual

theorem opened_brackets : ∀ m : Markup String, (brackets m).filterMap Bracket.opened? = written m
  | leaf _ _ => rfl
  | element _ content => by simp [brackets, written, Bracket.opened?, opened_bracketsAll content]
  | bare _ content => opened_bracketsAll content
  | loop _ body => by
    simp [brackets, written, List.filterMap_cons, Bracket.opened?, opened_brackets body]

theorem opened_bracketsAll : ∀ ms : List (Markup String),
    (bracketsAll ms).filterMap Bracket.opened? = writtenAll ms
  | [] => rfl
  | m :: rest => by
    simp [bracketsAll, writtenAll, opened_brackets m, opened_bracketsAll rest]

end

mutual

theorem written_map {τ σ : Type} (f : τ → σ) : ∀ m : Markup τ, written (map f m) = (written m).map f
  | leaf _ _ => rfl
  | element _ content => by simp [map, written, writtenAll_mapAll f content]
  | bare _ content => writtenAll_mapAll f content
  | loop _ body => written_map f body

theorem writtenAll_mapAll {τ σ : Type} (f : τ → σ) :
    ∀ ms : List (Markup τ), writtenAll (mapAll f ms) = (writtenAll ms).map f
  | [] => rfl
  | m :: rest => by simp [mapAll, writtenAll, written_map f m, writtenAll_mapAll f rest]

end

end Markup

theorem Name.unmarked_camel (name : String) : Text.Unmarked (camel name) :=
  unmarked_of_forall (by decide) fun _ => isAsciiAlphanum_of_mem_camel

theorem Assigning.OnlyAsks.unmarked {α : Type} {x : Assigning α} (hx : x.OnlyAsks) {p : Prefixes}
    (h : ∀ space r, p.bySpace.value? space = some r → Text.Unmarked r) (space r : String)
    (hr : (x.after p).bySpace.value? space = some r) : Text.Unmarked r := by
  obtain ⟨calls, heq⟩ := hx p
  rw [heq] at hr
  clear heq
  induction calls generalizing p with
  | nil => exact h space r hr
  | cons call rest ih =>
    rw [after_prefixesFor_cons] at hr
    refine ih ?_ hr
    intro s found hs
    rcases p.prefixFor_cases call.1 call.2 with ⟨_, _, heq⟩ | ⟨chosen, _, hchosen, heq⟩
    · rw [heq] at hs
      exact h s found hs
    · simp only [heq, Prefixes.bind, Table.value?_put] at hs
      split at hs
      · obtain rfl := Option.some.inj hs
        exact unmarked_of_forall (by decide) hchosen.isStemChar
      · exact h s found hs

namespace Catalog

variable {c : Catalog} {path : String} {opened : List ObjectId} {f : TagSite → String}

theorem unmarked_fieldPath (hpath : Text.Unmarked path) (key : String) :
    Text.Unmarked (fieldPath path key) :=
  (hpath.append (by decide)).append (Name.unmarked_camel key)

/-- The markup of members has no marks in its names if their tags have none, and if those of all
members in the graph have none. -/
theorem unmarked_outlineMembers {members : List (String × Member TypeNode)}
    (hobjects : ∀ id, ∀ e ∈ (c.graph.object id).members, ∀ notices,
      Text.Unmarked (f ⟨e.1, e.2, notices⟩))
    (hmembers : ∀ e ∈ members, ∀ notices, Text.Unmarked (f ⟨e.1, e.2, notices⟩))
    (hpath : Text.Unmarked path) :
    Markup.UnmarkedAll (Markup.mapAll f (c.outlineMembers path opened members)) := by
  induction path, opened, members using outlineMembers.induct c with
  | case1 path opened =>
    rw [outlineMembers_nil]
    trivial
  | case2 path opened key m rest field inner ihInner ih =>
    have hfield : Text.Unmarked field := unmarked_fieldPath hpath key
    have hinner : Text.Unmarked inner := by
      by_cases hrepeated : m.isRepeated = true
      · simp only [inner, dif_pos hrepeated]
        decide
      · simpa only [inner, dif_neg hrepeated] using hfield
    have htag := hmembers (key, m) List.mem_cons_self
    have hcontent : (Markup.map f (c.outlineContent inner opened key m)).Unmarked := by
      unfold outlineContent
      dsimp only
      cases hvalue : (c.contentOf key m.type).value with
      | value => exact ⟨htag _, hinner⟩
      | object id bare =>
        dsimp only
        by_cases hid : id ∈ opened
        · rw [if_pos hid]
          exact ⟨htag _, trivial⟩
        · have hinside := ihInner id bare (c.contentOf key m.type).notices (by rw [← hvalue]) hid
            (hobjects id) hinner
          rw [if_neg hid]
          cases bare with
          | true => exact hinside
          | false => exact ⟨htag _, hinside⟩
    have hrest := ih (fun e he => hmembers e (List.mem_cons_of_mem _ he)) hpath
    rw [outlineMembers_cons]
    refine ⟨?_, hrest⟩
    unfold outlineMember
    by_cases hrepeated : m.isRepeated = true
    · rw [if_pos hrepeated]
      simp only [inner, dif_pos hrepeated] at hcontent
      exact ⟨hfield, hcontent⟩
    · rw [if_neg hrepeated]
      simpa only [inner, dif_neg hrepeated] using hcontent

theorem unmarked_outline {o : ObjectNode}
    (hobjects : ∀ id, ∀ e ∈ (c.graph.object id).members, ∀ notices,
      Text.Unmarked (f ⟨e.1, e.2, notices⟩))
    (hmembers : ∀ e ∈ o.members, ∀ notices, Text.Unmarked (f ⟨e.1, e.2, notices⟩))
    (hpath : Text.Unmarked path) :
    Markup.UnmarkedAll (Markup.mapAll f (c.outline path opened o).2) := by
  induction opened, o using outline.induct c path with
  | case1 opened o notices h =>
    rw [outline_of_next_none (by simp [next?, h])]
    exact unmarked_outlineMembers hobjects hmembers hpath
  | case2 opened o payload notices h hopened =>
    rw [outline_of_next_none (by simp [next?, h, Option.filter, hopened])]
    exact unmarked_outlineMembers hobjects hmembers hpath
  | case3 opened o payload notices h hopened ih =>
    have hpayload : (c.payload? o).value = some payload := by rw [h]
    have hmem : (payload.key, payload.member) ∈ o.members := by
      rw [(spec_of_payload? hpayload).1]
      exact List.mem_singleton_self _
    rw [outline_of_next (next?_eq_some.2 ⟨hpayload, hopened⟩)]
    exact ⟨⟨hmembers _ hmem _, ih (hobjects payload.id)⟩, trivial⟩

end Catalog

namespace BodyPlan

/-- The names that go into a body have no marks: the local names of elements, the prefixes that
are known or have been given out, and the field of the props. -/
structure Unmarked (b : BodyPlan) (root : Root) (propsField : Option String) (p : Prefixes) :
    Prop where
  rootPrefix : Text.Unmarked b.rootPrefix
  rootTag : Text.Unmarked b.rootTag
  names : ∀ e ∈ b.catalog.graph.membersBeside root.node, Text.Unmarked (Name.localPart e.1)
  base : Text.Unmarked b.spaces.basePrefix
  types : ∀ key bound, b.spaces.types.value? key = some bound → Text.Unmarked bound.tagPrefix
  given : ∀ space r, p.bySpace.value? space = some r → Text.Unmarked r
  field : ∀ name, propsField = some name → Text.Unmarked name

variable {b : BodyPlan} {root : Root} {propsField : Option String} {p : Prefixes}

theorem unmarked_basePath (h : ∀ name, propsField = some name → Text.Unmarked name) :
    Text.Unmarked (basePath propsField) := by
  unfold basePath
  split
  · next name hname => exact Text.Unmarked.append (by decide) (h name (given?_eq_some.1 hname).1)
  · decide

theorem Unmarked.prefixOf (h : b.Unmarked root propsField p) (site : TagSite) :
    Text.Unmarked (b.prefixOf p site) := by
  unfold BodyPlan.prefixOf siteTag?
  split
  · next source hsource =>
    split at hsource
    · obtain rfl := Option.some.inj hsource
      unfold TypeGraph.tagPrefix
      split
      · next space hspace =>
        show Text.Unmarked ((p.bySpace.value? space).getD "")
        cases hr : p.bySpace.value? space with
        | none => exact (by decide : Text.Unmarked "")
        | some r => exact h.given space r hr
      · split
        · next bound hbound => exact h.types _ _ hbound
        · exact h.base
    · cases hsource
  · decide

theorem Unmarked.tagName (h : b.Unmarked root propsField p) {site : TagSite}
    (hsite : Text.Unmarked (Name.localPart site.key)) :
    Text.Unmarked (b.tagName p site) :=
  ((h.prefixOf site).append (by decide)).append hsite

theorem Unmarked.after (h : b.Unmarked root propsField p) :
    b.Unmarked root propsField ((b.write root propsField).after p) :=
  { h with given := (b.write_onlyAsks root propsField).unmarked h.given }

theorem Unmarked.content (h : b.Unmarked root propsField p) :
    Markup.UnmarkedAll (Markup.mapAll (b.tagName p) (b.content root propsField)) := by
  refine Catalog.unmarked_outline (fun id e he notices => ?_) (fun e he notices => ?_)
    (unmarked_basePath h.field)
  · exact h.tagName (h.names e (TypeGraph.mem_membersBeside root.node he))
  · exact h.tagName (h.names e (List.mem_append_left _ he))

/-- A body is one element. Its text is read as brackets: the first opens the tag of the root, the
last closes it, and those between them are closed in their order, each by its own, tags and loops
alike. The tags that are opened are those of the members that the markup writes. -/
theorem body_nests (b : BodyPlan) (root : Root) (propsField : Option String) (p : Prefixes)
    (h : b.Unmarked root propsField p) :
    let q := (b.write root propsField).after p
    let text := ((b.write root propsField).result p).1
    let rootTag := b.rootPrefix ++ "." ++ b.rootTag
    ∃ middle inner, text = Markup.openTag rootTag ++ middle ++ Markup.closeTag rootTag ∧
      Markup.brackets? middle = some inner ∧ Markup.Balanced inner ∧
      Markup.brackets? text = some (.opening rootTag :: inner ++ [.closing rootTag]) ∧
      Markup.Balanced (.opening rootTag :: inner ++ [.closing rootTag]) ∧
      inner.filterMap Markup.Bracket.opened? =
        (Markup.writtenAll (b.content root propsField)).map (b.tagName q) := by
  intro q text rootTag
  have hafter := h.after
  have hroot : Text.Unmarked rootTag := (h.rootPrefix.append (by decide)).append h.rootTag
  generalize hcontent : Markup.mapAll (b.tagName q) (b.content root propsField) = content
  have hunmarked : Markup.UnmarkedAll content := hcontent ▸ hafter.content
  have hinner := Markup.reads_printAll content hunmarked
  have hnested := Markup.close_bracketsAll content
  have htext : text = Markup.enclose rootTag ("\n".intercalate (Markup.printAll content)) := by
    show ((b.write root propsField).result p).1 = _
    rw [result_write, ← hcontent]
    rfl
  obtain ⟨middle, hmiddle, hreads⟩ : ∃ middle, text = Markup.openTag rootTag ++ middle ++
      Markup.closeTag rootTag ∧ Markup.brackets? middle = some (Markup.bracketsAll content) := by
    rw [htext]
    exact hinner.enclosed rootTag
  refine ⟨middle, Markup.bracketsAll content, hmiddle, hreads, hnested [], ?_, ?_, ?_⟩
  · rw [htext]
    exact (hinner.enclose hroot).brackets?_eq
  · simp [Markup.Balanced, Markup.Bracket.next, hnested]
  · rw [Markup.opened_bracketsAll, ← hcontent, Markup.writtenAll_mapAll]

end BodyPlan

namespace SampleRepeated

/-- Two loops beside each other, the first around two tags. -/
theorem root_nests : plan.Unmarked root none {} ∧
    ∃ middle inner, ((plan.write root none).result {}).1 =
        Markup.openTag "t.Root" ++ middle ++ Markup.closeTag "t.Root" ∧
      Markup.brackets? middle = some inner ∧ Markup.Balanced inner ∧
      inner.filterMap Markup.Bracket.opened? = ["xml.a", "xml.b", "xml.Bar", "xml.x"] := by
  have h : plan.Unmarked root none {} :=
    { rootPrefix := by decide
      rootTag := by decide
      names := by decide +kernel
      base := by decide
      types := fun _ _ hvalue => by cases hvalue
      given := fun _ _ hvalue => by cases hvalue
      field := fun _ hvalue => by cases hvalue }
  obtain ⟨middle, inner, htext, hread, hbalanced, -, -, hopened⟩ :=
    plan.body_nests root none {} h
  refine ⟨h, middle, inner, htext, hread, hbalanced, ?_⟩
  rw [hopened, content_root]
  rfl

end SampleRepeated

end SoapComponents
