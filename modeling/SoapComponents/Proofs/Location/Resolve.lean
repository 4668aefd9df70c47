import SoapComponents.Location.Basic
import SoapComponents.Proofs.Location.Path

/-!
Where references lead. A location that a reference means is the reference itself, a remote URL or
a path in normal form; so only so many locations can lead to one document.
-/

set_option autoImplicit false

namespace SoapComponents

open SoapComponents.Text

namespace Url

theorem scheme_parse {fallback s before rest : String} {u : Url}
    (hs : s = before ++ (":" ++ rest)) (hscheme : before ∈ remoteSchemes)
    (h : parse fallback s = .ok u) : u.scheme = before := by
  have hcut : ∃ tail, cutScheme fallback (tidy s.toList) = (before, tail) := by
    subst hs
    simp only [remoteSchemes, List.mem_cons, List.not_mem_nil, or_false] at hscheme
    obtain rfl | rfl := hscheme <;>
      exact ⟨rest.toList.filter fun c => c != '\t' && c != '\r' && c != '\n', by
        simp [tidy, cutScheme, cutFirst, isSchemeChar]⟩
  obtain ⟨tail, hcut⟩ := hcut
  simp only [parse, hcut] at h
  split at h
  · cases h
  · obtain rfl := Except.ok.inj h
    rfl

theorem isRemote_toText {u : Url} {b : Bool} (hscheme : u.scheme ∈ remoteSchemes)
    (h : isRemote u.toText = .ok b) : b = true := by
  have hleft : u.scheme.toList ++ [':'] <+: u.toText.toList := by
    simp only [toText, String.toList_ofList]
    generalize (if u.parameters.isEmpty then u.path else _ : List Char) = path
    split <;> split <;> simp [List.append_assoc]
  obtain ⟨rest, hrest⟩ := hleft
  have htext : u.toText = u.scheme ++ (":" ++ String.ofList rest) :=
    String.toList_inj.1 (by simp [← hrest])
  unfold isRemote at h
  cases hparse : parse "" u.toText with
  | error flaw => simp [hparse, bind, Except.bind] at h
  | ok v =>
    have hv := scheme_parse htext hscheme hparse
    simp only [hparse, hv, bind, Except.bind, pure, Except.pure] at h
    obtain rfl := Except.ok.inj h
    simpa using hscheme

theorem resolve_cases {base reference place : String} {b : Bool}
    (hbase : isRemote base = .ok true) (h : resolve base reference = .ok place)
    (hplace : isRemote place = .ok b) : b = true ∨ place = reference := by
  have hremote : ∀ u : Url, u.toText = place → u.scheme ∈ remoteSchemes → b = true := by
    rintro u rfl hu
    exact isRemote_toText hu hplace
  unfold resolve at h
  split at h
  · exact .inr (Except.ok.inj h).symm
  · split at h
    · obtain rfl := Except.ok.inj h
      exact .inl (Except.ok.inj (hplace.symm.trans hbase))
    · cases hb : parse "" base with
      | error flaw => simp [hb, bind, Except.bind] at h
      | ok u =>
        cases hr : parse u.scheme reference with
        | error flaw => simp [hb, hr, bind, Except.bind] at h
        | ok r =>
          simp only [hb, hr, bind, Except.bind, pure, Except.pure] at h
          split at h
          · exact .inr (Except.ok.inj h).symm
          · next hscheme =>
            have hr : r.scheme ∈ remoteSchemes := by
              simp only [bne_iff_ne, ne_eq, Bool.not_eq_true', Bool.or_eq_true, not_or,
                Bool.not_eq_false, List.contains_iff_mem] at hscheme
              exact hscheme.2
            split at h
            · exact .inl (hremote _ (Except.ok.inj h) hr)
            · split at h
              · exact .inl (hremote _ (Except.ok.inj h) hr)
              · exact .inl (hremote _ (Except.ok.inj h) hr)

end Url

namespace Location

theorem resolve_cases {base : Option String} {reference place : String} {b : Bool}
    (h : resolve base reference = .ok place) (hplace : Url.isRemote place = .ok b) :
    b = true ∨ place = reference ∨ Path.normalize place = place := by
  unfold resolve at h
  cases hr : Url.isRemote reference with
  | error flaw => simp [hr, bind, Except.bind] at h
  | ok remote =>
    simp only [hr, bind, Except.bind, pure, Except.pure] at h
    split at h
    · exact .inr (.inl (Except.ok.inj h).symm)
    · split at h
      · obtain rfl := Except.ok.inj h
        exact .inr (.inr (Path.normalize_normalize reference))
      · next base =>
        cases hb : Url.isRemote base with
        | error flaw => simp [hb] at h
        | ok remote =>
          simp only [hb] at h
          split at h
          · next hremote =>
            subst hremote
            rcases Url.resolve_cases hb h hplace with hb | hp
            · exact .inl hb
            · exact .inr (.inl hp)
          · have hplain := Path.plain_parse
            split at h
            · obtain rfl := Except.ok.inj h
              exact .inr (.inr (Path.normalize_toText (hplain _)))
            · obtain rfl := Except.ok.inj h
              exact .inr (.inr (Path.normalize_toText ((hplain _).resolve_join (hplain _))))

end Location

end SoapComponents
