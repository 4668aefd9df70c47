import SoapComponents.Markup.Body

/-!
Which tags of markup stand in its text. The tags of bare content do not, and the text says nothing
of them; of all others it says everything, since two texts of the same markup are equal only if
the prefixes of the tags in them are.
-/

set_option autoImplicit false

namespace SoapComponents.Markup

variable {τ σ : Type}

mutual

/-- The tags that stand in the text, in their order. -/
def written : Markup τ → List τ
  | leaf tag _ => [tag]
  | element tag content => tag :: writtenAll content
  | bare _ content => writtenAll content
  | loop _ body => written body

def writtenAll : List (Markup τ) → List τ
  | [] => []
  | m :: rest => written m ++ writtenAll rest

end

mutual

def omitted : Markup τ → List τ
  | leaf _ _ => []
  | element _ content => omittedAll content
  | bare tag content => tag :: omittedAll content
  | loop _ body => omitted body

def omittedAll : List (Markup τ) → List τ
  | [] => []
  | m :: rest => omitted m ++ omittedAll rest

end

mutual

theorem mem_tags {t : τ} : ∀ m : Markup τ, t ∈ tags m ↔ t ∈ written m ∨ t ∈ omitted m
  | leaf _ _ => by simp [tags, written, omitted]
  | element _ content => by
    simp only [tags, written, omitted, List.mem_cons, mem_tagsAll content]
    exact or_assoc.symm
  | bare _ content => by
    simp only [tags, written, omitted, List.mem_cons, mem_tagsAll content]
    exact or_left_comm
  | loop _ body => by simp only [tags, written, omitted, mem_tags body]

theorem mem_tagsAll {t : τ} :
    ∀ ms : List (Markup τ), t ∈ tagsAll ms ↔ t ∈ writtenAll ms ∨ t ∈ omittedAll ms
  | [] => by simp [tagsAll, writtenAll, omittedAll]
  | m :: rest => by
    simp only [tagsAll, writtenAll, omittedAll, List.mem_append, mem_tags m, mem_tagsAll rest]
    exact or_or_or_comm

end

mutual

def isBlank : Markup τ → Bool
  | leaf _ _ => false
  | element _ _ => false
  | bare _ content => isBlankAll content
  | loop _ _ => false

def isBlankAll : List (Markup τ) → Bool
  | [] => true
  | m :: rest => isBlank m && isBlankAll rest

end

mutual

theorem isBlank_map (f : τ → σ) : ∀ m : Markup τ, isBlank (map f m) = isBlank m
  | leaf _ _ => rfl
  | element _ _ => rfl
  | bare _ content => isBlankAll_mapAll f content
  | loop _ _ => rfl

theorem isBlankAll_mapAll (f : τ → σ) :
    ∀ ms : List (Markup τ), isBlankAll (mapAll f ms) = isBlankAll ms
  | [] => rfl
  | m :: rest => by
    simp only [mapAll, isBlankAll, isBlank_map f m, isBlankAll_mapAll f rest]

end

theorem append_ne_empty {s : String} (t : String) (h : s ≠ "") : s ++ t ≠ "" := by
  intro he
  apply h
  have hl := congrArg String.toList he
  rw [String.toList_append] at hl
  exact String.toList_inj.1 (by simpa using (List.append_eq_nil_iff.1 hl).1)

theorem openTag_ne_empty (tag : String) : openTag tag ≠ "" :=
  append_ne_empty _ (append_ne_empty _ (by decide))

theorem enclose_ne_empty (tag inner : String) : enclose tag inner ≠ "" := by
  unfold enclose
  split
  · exact append_ne_empty _ (openTag_ne_empty tag)
  · simp only [String.append_assoc]
    exact append_ne_empty _ (openTag_ne_empty tag)

theorem iterate_ne_empty (path inner : String) : iterate path inner ≠ "" :=
  append_ne_empty _ (append_ne_empty _ (by decide))

theorem ne_empty_of_mem_printAll {block : String} :
    ∀ {ms : List (Markup String)}, block ∈ printAll ms → block ≠ ""
  | [], h => by simp [printAll] at h
  | m :: rest, h => by
    simp only [printAll] at h
    split at h
    · exact ne_empty_of_mem_printAll h
    · next hm =>
      rcases List.mem_cons.1 h with rfl | hr
      · simpa using hm
      · exact ne_empty_of_mem_printAll hr

theorem intercalate_eq_empty_iff (sep : String) :
    ∀ {blocks : List String}, (∀ b ∈ blocks, b ≠ "") → (sep.intercalate blocks = "" ↔ blocks = [])
  | [], _ => by simp
  | [b], h => by simpa using h b (by simp)
  | b :: c :: rest, h => by
    rw [String.intercalate_cons_cons, String.append_assoc]
    simpa using append_ne_empty (sep ++ sep.intercalate (c :: rest)) (h b (by simp))

mutual

theorem print_eq_empty_iff : ∀ m : Markup String, print m = "" ↔ isBlank m = true
  | leaf tag path => by
    simp only [print, isBlank, Bool.false_eq_true, iff_false, String.append_assoc]
    exact append_ne_empty _ (openTag_ne_empty tag)
  | element tag content => by simpa [print, isBlank] using enclose_ne_empty tag _
  | bare _ content => by
    simp only [print, isBlank]
    rw [intercalate_eq_empty_iff _ fun _ => ne_empty_of_mem_printAll, printAll_eq_nil_iff content]
  | loop path body => by simpa [print, isBlank] using iterate_ne_empty path _

theorem printAll_eq_nil_iff :
    ∀ ms : List (Markup String), printAll ms = [] ↔ isBlankAll ms = true
  | [] => by simp [printAll, isBlankAll]
  | m :: rest => by
    have hm := print_eq_empty_iff m
    have hr := printAll_eq_nil_iff rest
    by_cases hb : print m = ""
    · simp [printAll, isBlankAll, hb, hm.1 hb, hr]
    · simp [printAll, isBlankAll, hb, Bool.eq_false_iff.2 (mt hm.2 hb)]

end

theorem printAll_mapAll_eq_map (f : τ → String) {ms : List (Markup τ)}
    (h : ∀ m ∈ ms, isBlank m = false) :
    printAll (mapAll f ms) = ms.map fun m => print (map f m) := by
  induction ms with
  | nil => rfl
  | cons m rest ih =>
    have hm : print (map f m) ≠ "" := by
      rw [Ne, print_eq_empty_iff, isBlank_map, h m List.mem_cons_self]
      exact Bool.false_ne_true
    simp only [mapAll, printAll, beq_iff_eq, if_neg hm, List.map_cons,
      ih fun n hn => h n (List.mem_cons_of_mem _ hn)]

mutual

theorem print_map_congr {f g : τ → String} :
    ∀ m : Markup τ, (∀ t ∈ written m, f t = g t) → print (map f m) = print (map g m)
  | leaf tag _, h => by simp only [map, print, h tag (by simp [written])]
  | element tag content, h => by
    have hc := printAll_mapAll_congr content fun t ht => h t (by simp [written, ht])
    simp only [map, print, h tag (by simp [written]), hc]
  | bare _ content, h => by
    have hc := printAll_mapAll_congr content h
    simp only [map, print, hc]
  | loop _ body, h => by
    have hb := print_map_congr body h
    simp only [map, print, hb]

theorem printAll_mapAll_congr {f g : τ → String} :
    ∀ ms : List (Markup τ), (∀ t ∈ writtenAll ms, f t = g t) →
      printAll (mapAll f ms) = printAll (mapAll g ms)
  | [], _ => rfl
  | m :: rest, h => by
    have hm := print_map_congr m fun t ht => h t (by simp [writtenAll, ht])
    have hr := printAll_mapAll_congr rest fun t ht => h t (by simp [writtenAll, ht])
    simp only [mapAll, printAll, hm, hr]

end

def solid (s : String) : List Char := s.toList.filter (· ≠ ' ')

theorem solid_append (s t : String) : solid (s ++ t) = solid s ++ solid t := by
  simp [solid, String.toList_append]

theorem filter_indentFrom {keep : Char → Bool} {pad : List Char} (hpad : ∀ c ∈ pad, keep c = false)
    (fresh : Bool) (cs : List Char) :
    (Text.indentFrom pad fresh cs).filter keep = cs.filter keep := by
  have hp : pad.filter keep = [] := by
    apply List.filter_eq_nil_iff.2
    intro c hc
    simp [hpad c hc]
  induction cs generalizing fresh with
  | nil => rfl
  | cons c rest ih =>
    simp only [Text.indentFrom]
    split
    · simp only [List.filter_cons, ih]
    · cases fresh <;> simp [List.filter_cons, ih, hp]

theorem solid_indent (block : String) (levels : Nat) :
    solid (Text.indent block levels) = solid block := by
  simp only [solid, Text.indent, String.toList_ofList]
  refine filter_indentFrom ?_ _ _
  intro c hc
  simp [(List.mem_replicate.1 hc).2]

theorem solid_enclose (tag inner : String) :
    solid (enclose tag inner) = solid (openTag tag) ++
      ((if inner = "" then [] else '\n' :: solid inner ++ ['\n']) ++ solid (closeTag tag)) := by
  have hn : solid "\n" = ['\n'] := by decide
  unfold enclose
  by_cases h : inner = ""
  · simp [h, solid_append]
  · simp [h, solid_append, solid_indent, hn]

theorem solid_intercalate_cons (block : String) (blocks : List String) :
    solid ("\n".intercalate (block :: blocks)) =
      solid block ++ if blocks = [] then [] else '\n' :: solid ("\n".intercalate blocks) := by
  have hn : solid "\n" = ['\n'] := by decide
  cases blocks with
  | nil => simp
  | cons next rest => simp [String.intercalate_cons_cons, solid_append, hn]

def Undotted (s : String) : Prop := ∀ c ∈ s.toList, c ≠ '.' ∧ c ≠ ' '

theorem Undotted.solid_eq {s : String} (h : Undotted s) : solid s = s.toList := by
  apply List.filter_eq_self.2
  intro c hc
  simp [(h c hc).2]

def named (tagPrefix localName : τ → String) (t : τ) : String :=
  tagPrefix t ++ "." ++ localName t

theorem append_cons_cancel {sep : Char} {a b x y : List Char} (h : a ++ sep :: x = b ++ sep :: y)
    (ha : sep ∉ a) (hb : sep ∉ b) : a = b ∧ x = y := by
  induction a generalizing b with
  | nil =>
    cases b with
    | nil => exact ⟨rfl, (List.cons.inj h).2⟩
    | cons d b => exact absurd (List.cons.inj h).1 fun he => hb (he ▸ List.mem_cons_self)
  | cons c a ih =>
    cases b with
    | nil => exact absurd (List.cons.inj h).1 fun he => ha (he ▸ List.mem_cons_self)
    | cons d b =>
      simp only [List.cons_append, List.cons.injEq, List.mem_cons, not_or] at h ha hb
      obtain ⟨hab, hxy⟩ := ih h.2 ha.2 hb.2
      exact ⟨by rw [h.1, hab], hxy⟩

section Cancel

variable {f g l : τ → String}

theorem named_cancel {t : τ} (hf : Undotted (f t)) (hg : Undotted (g t)) {k k' : List Char}
    (h : solid (named f l t) ++ k = solid (named g l t) ++ k') : f t = g t ∧ k = k' := by
  have hd : solid "." = ['.'] := by decide
  simp only [named, solid_append, hd, hf.solid_eq, hg.solid_eq, List.append_assoc,
    List.cons_append, List.nil_append] at h
  have hfd : '.' ∉ (f t).toList := fun hm => (hf _ hm).1 rfl
  have hgd : '.' ∉ (g t).toList := fun hm => (hg _ hm).1 rfl
  obtain ⟨hp, hk⟩ := append_cons_cancel h hfd hgd
  exact ⟨String.toList_inj.1 hp, List.append_cancel_left hk⟩

theorem openTag_cancel {t : τ} (hf : Undotted (f t)) (hg : Undotted (g t)) {k k' : List Char}
    (h : solid (openTag (named f l t)) ++ k = solid (openTag (named g l t)) ++ k') :
    f t = g t ∧ k = k' := by
  simp only [openTag, solid_append, List.append_assoc] at h
  obtain ⟨hp, hk⟩ := named_cancel hf hg (List.append_cancel_left h)
  exact ⟨hp, List.append_cancel_left hk⟩

mutual

theorem written_of_isBlank : ∀ m : Markup τ, isBlank m = true → written m = []
  | leaf _ _, h => by simp [isBlank] at h
  | element _ _, h => by simp [isBlank] at h
  | bare _ content, h => writtenAll_of_isBlankAll content h
  | loop _ _, h => by simp [isBlank] at h

theorem writtenAll_of_isBlankAll :
    ∀ ms : List (Markup τ), isBlankAll ms = true → writtenAll ms = []
  | [], _ => rfl
  | m :: rest, h => by
    simp only [isBlankAll, Bool.and_eq_true] at h
    simp [writtenAll, written_of_isBlank m h.1, writtenAll_of_isBlankAll rest h.2]

end

theorem enclose_cancel {t : τ} {ms : List (Markup τ)} (hf : Undotted (f t)) (hg : Undotted (g t))
    (hms : ∀ {k k' : List Char},
      solid ("\n".intercalate (printAll (mapAll (named f l) ms))) ++ k =
        solid ("\n".intercalate (printAll (mapAll (named g l) ms))) ++ k' →
      (∀ t ∈ writtenAll ms, f t = g t) ∧ k = k') {k k' : List Char}
    (h : solid (print (map (named f l) (element t ms))) ++ k =
      solid (print (map (named g l) (element t ms))) ++ k') :
    (∀ u ∈ t :: writtenAll ms, f u = g u) ∧ k = k' := by
  have hblank : ∀ n : τ → String,
      ("\n".intercalate (printAll (mapAll n ms)) = "" ↔ isBlankAll ms = true) := by
    intro n
    rw [intercalate_eq_empty_iff _ fun _ => ne_empty_of_mem_printAll, printAll_eq_nil_iff,
      isBlankAll_mapAll]
  simp only [map, print, solid_enclose, hblank, List.append_assoc] at h
  obtain ⟨ht, h⟩ := openTag_cancel hf hg h
  have hname : named f l t = named g l t := by simp [named, ht]
  rw [hname] at h
  by_cases hb : isBlankAll ms = true
  · simp only [hb, if_true, List.nil_append] at h
    refine ⟨?_, List.append_cancel_left h⟩
    simp [writtenAll_of_isBlankAll ms hb, ht]
  · simp only [hb, if_false, Bool.false_eq_true, List.cons_append, List.append_assoc,
      List.cons.injEq, true_and] at h
    obtain ⟨hall, h⟩ := hms h
    refine ⟨?_, List.append_cancel_left (List.cons.inj h).2⟩
    intro u hu
    rcases List.mem_cons.1 hu with rfl | hu
    · exact ht
    · exact hall u hu

mutual

/-- Two texts of the same markup are equal only if the prefixes in them are. What follows the
markup is of no account, since a tag ends before it. -/
theorem print_cancel : ∀ m : Markup τ, (∀ t ∈ written m, Undotted (f t) ∧ Undotted (g t)) →
    ∀ {k k' : List Char}, solid (print (map (named f l) m)) ++ k =
      solid (print (map (named g l) m)) ++ k' → (∀ t ∈ written m, f t = g t) ∧ k = k'
  | leaf tag path, hu, k, k', h => by
    obtain ⟨hf, hg⟩ := hu tag (by simp [written])
    simp only [map, print, solid_append, List.append_assoc] at h
    obtain ⟨ht, h⟩ := openTag_cancel hf hg h
    have hname : named f l tag = named g l tag := by simp [named, ht]
    rw [hname] at h
    refine ⟨?_, List.append_cancel_left (List.append_cancel_left h)⟩
    simpa [written] using ht
  | element tag content, hu, k, k', h => by
    obtain ⟨hf, hg⟩ := hu tag (by simp [written])
    have hc : ∀ t ∈ writtenAll content, Undotted (f t) ∧ Undotted (g t) :=
      fun t ht => hu t (by simp [written, ht])
    simpa [written] using enclose_cancel hf hg (printAll_cancel content hc) h
  | bare _ content, hu, k, k', h => printAll_cancel content hu h
  | loop path body, hu, k, k', h => by
    simp only [map, print, iterate, interpolate, solid_append, solid_indent,
      List.append_assoc] at h
    have h := List.append_cancel_left (List.append_cancel_left (List.append_cancel_left
      (List.append_cancel_left (List.append_cancel_left h))))
    obtain ⟨ht, h⟩ := print_cancel body hu h
    exact ⟨ht, List.append_cancel_left (List.append_cancel_left h)⟩

theorem printAll_cancel :
    ∀ ms : List (Markup τ), (∀ t ∈ writtenAll ms, Undotted (f t) ∧ Undotted (g t)) →
    ∀ {k k' : List Char}, solid ("\n".intercalate (printAll (mapAll (named f l) ms))) ++ k =
      solid ("\n".intercalate (printAll (mapAll (named g l) ms))) ++ k' →
      (∀ t ∈ writtenAll ms, f t = g t) ∧ k = k'
  | [], _, k, k', h => by simpa [mapAll, printAll, writtenAll, solid] using h
  | m :: rest, hu, k, k', h => by
    have hum : ∀ t ∈ written m, Undotted (f t) ∧ Undotted (g t) :=
      fun t ht => hu t (by simp [writtenAll, ht])
    have hur : ∀ t ∈ writtenAll rest, Undotted (f t) ∧ Undotted (g t) :=
      fun t ht => hu t (by simp [writtenAll, ht])
    have hblank : ∀ n : τ → String, (print (map n m) = "" ↔ isBlank m = true) := by
      intro n
      rw [print_eq_empty_iff, isBlank_map]
    have hnil : ∀ n : τ → String, (printAll (mapAll n rest) = [] ↔ isBlankAll rest = true) := by
      intro n
      rw [printAll_eq_nil_iff, isBlankAll_mapAll]
    simp only [mapAll, printAll, beq_iff_eq, hblank] at h
    by_cases hb : isBlank m = true
    · simp only [hb, if_true] at h
      obtain ⟨hr, hk⟩ := printAll_cancel rest hur h
      exact ⟨by simpa [writtenAll, written_of_isBlank m hb] using hr, hk⟩
    · simp only [hb, if_false, Bool.false_eq_true, solid_intercalate_cons, hnil,
        List.append_assoc] at h
      obtain ⟨ht, h⟩ := print_cancel m hum h
      by_cases hr : isBlankAll rest = true
      · simp only [hr, if_true, List.nil_append] at h
        exact ⟨by simpa [writtenAll, writtenAll_of_isBlankAll rest hr] using ht, h⟩
      · simp only [hr, if_false, Bool.false_eq_true, List.cons_append, List.cons.injEq,
          true_and] at h
        obtain ⟨hall, h⟩ := printAll_cancel rest hur h
        refine ⟨?_, h⟩
        intro t hmem
        rcases List.mem_append.1 hmem with hmem | hmem
        · exact ht t hmem
        · exact hall t hmem

end

end Cancel

end SoapComponents.Markup
