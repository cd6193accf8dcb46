import TestServer.Endpoints.EndpointConfig

/-!
# Host names and their parts

A host name is made from endpoint parts with either separator, and
`getSNIPrefixParts` of `src/endpoints/endpoint-config.ts` reads them back: `--`
anywhere means that dashes separate, and no part hides or begins one.
-/

namespace TestServer.Endpoints

open Js

/-- A text that either separator can set apart. -/
structure HostPart (p : JsString) : Prop where
  ne_nil : p ≠ []
  noDot : unit '.' ∉ p
  noDashes : includes p (js "--") = false
  noLastDash : p.getLast? ≠ some (unit '-')

namespace HostPart

theorem uncut_dashes {p : JsString} (h : HostPart p) : Uncut (js "--") p :=
  uncut_of_not_includes h.noDashes h.noLastDash

theorem uncut_dot {p : JsString} (h : HostPart p) : Uncut (js ".") p :=
  uncut_of_notMem h.noDot

end HostPart

/-- Two parts or more are told apart by the dashes between them. -/
theorem stemParts_join_dashes {p q : JsString} {parts : List JsString}
    (h : ∀ part ∈ p :: q :: parts, Uncut (js "--") part) :
    stemParts (join (js "--") (p :: q :: parts)) = p :: q :: parts := by
  have hincludes : includes (join (js "--") (p :: q :: parts)) (js "--") = true := by
    rw [join_cons _ _ (List.cons_ne_nil q parts), List.append_assoc]
    exact includes_append _ _
  have hnil : join (js "--") (p :: q :: parts) ≠ [] := by
    intro hnil
    rw [hnil] at hincludes
    exact absurd hincludes (by decide)
  rw [stemParts, if_neg hnil, if_pos hincludes]
  exact split_join (by decide) (List.cons_ne_nil _ _) h

theorem stemParts_singleton {p : JsString} (h : HostPart p) : stemParts p = [p] := by
  rw [stemParts, if_neg h.ne_nil, if_neg (Bool.eq_false_iff.mp h.noDashes)]
  exact split_uncut h.uncut_dot

/-- Dots between parts make no dashes. -/
theorem not_includes_join_dots {parts : List JsString} (hparts : ∀ p ∈ parts, HostPart p) :
    includes (join (js ".") parts) (js "--") = false := by
  induction parts with
  | nil => rfl
  | cons p parts ih =>
      obtain ⟨hp, hparts⟩ := List.forall_mem_cons.mp hparts
      cases parts with
      | nil => exact hp.noDashes
      | cons q parts =>
          have hrest := ih hparts
          rw [Bool.eq_false_iff, Ne, includes_iff] at hrest ⊢
          have hfirst := mt includes_iff.mpr (Bool.eq_false_iff.mp hp.noDashes)
          have hjoin : join (js ".") (p :: q :: parts) =
              p ++ unit '.' :: join (js ".") (q :: parts) := by
            rw [join_cons _ _ (List.cons_ne_nil q parts), List.append_assoc]
            rfl
          rw [hjoin, infix_append_cons_iff (by decide) (by decide)]
          exact not_or.mpr ⟨hfirst, hrest⟩

theorem stemParts_join_dots {parts : List JsString} (hne : parts ≠ [])
    (hparts : ∀ p ∈ parts, HostPart p) : stemParts (join (js ".") parts) = parts := by
  have hnil : join (js ".") parts ≠ [] := by
    cases parts with
    | nil => exact absurd rfl hne
    | cons p parts =>
        rw [join_cons_eq_flatMap]
        exact List.append_ne_nil_of_left_ne_nil (hparts p List.mem_cons_self).ne_nil _
  rw [stemParts, if_neg hnil, if_neg (Bool.eq_false_iff.mp (not_includes_join_dots hparts))]
  exact split_join (by decide) hne fun p hp => (hparts p hp).uncut_dot

/-- The stem of a name below the root domain is what is split. -/
theorem getSNIPrefixParts_dot (rootDomain stem : JsString) :
    getSNIPrefixParts (stem ++ js "." ++ rootDomain) rootDomain = stemParts stem := by
  have hdot : stem ++ js "." ++ rootDomain = stem ++ unit '.' :: rootDomain :=
    List.append_assoc ..
  rw [hdot, getSNIPrefixParts_below]

theorem getSNIPrefixParts_root (rootDomain : JsString) :
    getSNIPrefixParts rootDomain rootDomain = [] := by
  have hends : endsWith rootDomain rootDomain = true := endsWith_iff.mpr (List.suffix_refl _)
  have hslice : sliceEnd rootDomain (rootDomain.length + 1) = [] := by
    rw [sliceEnd, Nat.sub_eq_zero_of_le (Nat.le_succ _), List.take_zero]
  simp only [getSNIPrefixParts, if_pos hends, hslice, if_true]

/-- Parts below a root domain are read back with either separator, and the bare root domain has
none. -/
theorem getSNIPrefixParts_join_parts (rootDomain : JsString) {parts : List JsString}
    (hne : parts ≠ []) (hparts : ∀ p ∈ parts, HostPart p) :
    getSNIPrefixParts (join (js "--") parts ++ js "." ++ rootDomain) rootDomain = parts ∧
      getSNIPrefixParts (join (js ".") parts ++ js "." ++ rootDomain) rootDomain = parts ∧
      getSNIPrefixParts rootDomain rootDomain = [] := by
  refine ⟨?_, ?_, getSNIPrefixParts_root rootDomain⟩
  · rw [getSNIPrefixParts_dot]
    match parts, hne with
    | [p], _ => exact stemParts_singleton (hparts p List.mem_cons_self)
    | p :: q :: parts, _ => exact stemParts_join_dashes fun part hpart =>
        (hparts part hpart).uncut_dashes
  · rw [getSNIPrefixParts_dot]
    exact stemParts_join_dots hne hparts

/-- Parts with single dashes inside. -/
theorem getSNIPrefixParts_join_parts_tls :
    getSNIPrefixParts (js "self-signed--tls-v1-2.testserver.host") (js "testserver.host") =
        [js "self-signed", js "tls-v1-2"] ∧
      getSNIPrefixParts (js "self-signed.tls-v1-2.testserver.host") (js "testserver.host") =
        [js "self-signed", js "tls-v1-2"] := by
  have hparts : ∀ p ∈ [js "self-signed", js "tls-v1-2"], HostPart p := by
    intro p hp
    simp only [List.mem_cons, List.not_mem_nil, or_false] at hp
    obtain rfl | rfl := hp
    · exact ⟨by decide, by decide, by decide, by decide⟩
    · exact ⟨by decide, by decide, by decide, by decide⟩
  have hread := getSNIPrefixParts_join_parts (js "testserver.host") (List.cons_ne_nil _ _) hparts
  exact ⟨hread.1, hread.2.1⟩

end TestServer.Endpoints
