import TestServer.ProcessConnection.ProxyHeader
import Mathlib.Data.List.GetD

/-!
# What a PROXY header waits for

`parseProxyProtocol` gives nothing where it waits for more bytes, and where a
header of version 2 names another version or an address part that is too long.
Only the former can be completed. So for the latter a connection waits in vain, up
to the limit of the buffer.
-/

namespace TestServer.ProcessConnection

open Js Library

/-- The bytes can be completed if they give nothing, and the limit does not decide about them. -/
structure Completes (data : Bytes) : Prop where
  completed : parseProxyProtocol data = none →
    ∃ rest, (parseProxyProtocol (data ++ rest)).isSome = true
  kept : decideHeader data ≠ .destroy

/-- A header of version 2 that names another version, or an address part that is too long, as far
as its bytes are there. -/
def Unsupported (data : Bytes) : Prop :=
  v2Signature <+: data ∧
    (12 < data.length ∧ (byteAt data 12 &&& 0xF0) >>> 4 ≠ 2 ∨ word16 data 14 > v2MaxAddrLength)

instance (data : Bytes) : Decidable (Unsupported data) :=
  inferInstanceAs (Decidable (_ ∧ _))

theorem byteAt_of_le {data : Bytes} {i : Nat} (h : data.length ≤ i) : byteAt data i = 0 := by
  rw [byteAt, List.getD_eq_default _ _ h]
  rfl

/-- A byte that is not there yet counts as zero. -/
theorem byteAt_le_append (data rest : Bytes) (i : Nat) :
    byteAt data i ≤ byteAt (data ++ rest) i := by
  by_cases h : i < data.length
  · exact (byteAt_append rest h).ge
  · exact (byteAt_of_le (not_lt.mp h)).trans_le (Nat.zero_le _)

theorem byteAt_append_of_le {data : Bytes} (rest : Bytes) {i : Nat} (h : data.length ≤ i) :
    byteAt (data ++ rest) i = byteAt rest (i - data.length) := by
  rw [byteAt, byteAt, List.getD_append_right _ _ _ _ h]

theorem word16_le_append (data rest : Bytes) (offset : Nat) :
    word16 data offset ≤ word16 (data ++ rest) offset := by
  have hhigh := byteAt_le_append data rest offset
  have hlow := byteAt_le_append data rest (offset + 1)
  rw [word16_eq, word16_eq]
  omega

theorem byteAt_replicate (n i : Nat) : byteAt (List.replicate n 0) i = 0 := by
  rw [byteAt]
  by_cases h : i < n
  · rw [List.getD_replicate 0 h]
    rfl
  · rw [List.getD_eq_default _ _ (by simpa using h)]
    rfl

theorem parseProxyProtocol_of_v2 {data : Bytes} (h : v2Signature <+: data) :
    parseProxyProtocol data = parseV2 data := by
  have htype : detectProxyProtocol data = .v2 := by rw [detectProxyProtocol_eq, if_pos h]
  rw [parseProxyProtocol, htype]

/-- No bytes complete an unsupported header. -/
theorem Unsupported.parse_append {data : Bytes} (h : Unsupported data) (rest : Bytes) :
    parseProxyProtocol (data ++ rest) = none := by
  obtain ⟨hsignature, hheader⟩ := h
  rw [parseProxyProtocol_of_v2 (hsignature.trans (List.prefix_append data rest)), parseV2]
  by_cases hlength : (data ++ rest).length < v2MinHeader
  · rw [if_pos hlength]
  · rw [if_neg hlength]
    obtain ⟨hpresent, hversion⟩ | haddr := hheader
    · rw [byteAt_append rest hpresent, if_pos hversion]
    · have hlong : word16 (data ++ rest) 14 > v2MaxAddrLength :=
        haddr.trans_le (word16_le_append data rest 14)
      rw [if_pos hlong, ite_self]

/-- The start of a signature goes on to a header. -/
theorem completed_of_prefix {data header : Bytes} (h : data <+: header)
    (hheader : (parseProxyProtocol header).isSome = true) :
    ∃ rest, (parseProxyProtocol (data ++ rest)).isSome = true := by
  obtain ⟨rest, hrest⟩ := h
  exact ⟨rest, hrest ▸ hheader⟩

/-- A line ends with the allowed length at the latest. -/
theorem completed_of_v1 {data : Bytes} (htype : detectProxyProtocol data = .v1) :
    ∃ rest, (parseProxyProtocol (data ++ rest)).isSome = true := by
  refine ⟨List.replicate v1MaxLength 0, ?_⟩
  rw [parseProxyProtocol, detectProxyProtocol_append _ (by simp [htype]), htype]
  have hlong : ¬ (data ++ List.replicate v1MaxLength 0).length < v1MaxLength := by
    rw [List.length_append, List.length_replicate]
    omega
  exact Option.isSome_iff_ne_none.mpr (mt length_lt_of_parseV1 hlong)

/-- Zero bytes complete a supported header, with the version first if that is not there. -/
theorem completed_of_v2 {data : Bytes} (hsignature : v2Signature <+: data)
    (hsupported : ¬ Unsupported data) :
    ∃ rest, (parseProxyProtocol (data ++ rest)).isSome = true := by
  have hlength : 12 ≤ data.length := hsignature.length_le
  obtain ⟨version, hversion, hzero⟩ : ∃ version : Bytes,
      (byteAt (data ++ (version ++ List.replicate 232 0)) 12 &&& 0xF0) >>> 4 = 2 ∧
        word16 (data ++ (version ++ List.replicate 232 0)) 14 = word16 data 14 := by
    have hrest : ∀ rest : Bytes, (∀ i, 14 ≤ i → data.length ≤ i →
        byteAt rest (i - data.length) = 0) → word16 (data ++ rest) 14 = word16 data 14 := by
      intro rest hrest
      have hbyte : ∀ i, 14 ≤ i → byteAt (data ++ rest) i = byteAt data i := by
        intro i hi
        by_cases hpresent : i < data.length
        · exact byteAt_append rest hpresent
        · have hbeyond := not_lt.mp hpresent
          rw [byteAt_append_of_le rest hbeyond, byteAt_of_le hbeyond, hrest i hi hbeyond]
      rw [word16_eq, word16_eq, hbyte 14 (le_refl _), hbyte 15 (by decide)]
    by_cases hpresent : 12 < data.length
    · refine ⟨[], ?_, hrest _ fun i _ _ => byteAt_replicate _ _⟩
      rw [byteAt_append _ hpresent]
      by_contra hversion
      exact hsupported ⟨hsignature, .inl ⟨hpresent, hversion⟩⟩
    · refine ⟨[0x20], ?_, hrest _ fun i hi _ => ?_⟩
      · rw [byteAt_append_of_le _ (not_lt.mp hpresent), show 12 - data.length = 0 by omega]
        rfl
      · rw [show i - data.length = (i - data.length - 1) + 1 by omega]
        exact byteAt_replicate 232 _
  refine ⟨version ++ List.replicate 232 0, ?_⟩
  have haddr : ¬ word16 data 14 > v2MaxAddrLength := fun hlong =>
    hsupported ⟨hsignature, .inr hlong⟩
  have hlong : v2MinHeader + v2MaxAddrLength ≤
      (data ++ (version ++ List.replicate 232 0)).length := by
    simp only [v2MinHeader, v2MaxAddrLength, List.length_append, List.length_replicate]
    omega
  rw [parseProxyProtocol_of_v2 (hsignature.trans (List.prefix_append data _)), parseV2,
    if_neg (by omega), if_neg (not_not.mpr hversion), hzero, if_neg haddr]
  simp only
  rw [if_neg (by omega)]
  rfl

theorem not_completes_of_unsupported {data : Bytes} (h : Unsupported data) :
    ¬ Completes data := by
  rintro ⟨hcompleted, -⟩
  have hnone : parseProxyProtocol data = none := by
    rw [← List.append_nil data]
    exact h.parse_append []
  obtain ⟨rest, hrest⟩ := hcompleted hnone
  rw [h.parse_append rest] at hrest
  cases hrest

/-- Bytes that give nothing can be completed, and the limit never decides about them, if and only
if they are not the start of an unsupported header of version 2. -/
theorem completes_iff (data : Bytes) : Completes data ↔ ¬ Unsupported data := by
  constructor
  · intro hcompletes hunsupported
    exact not_completes_of_unsupported hunsupported hcompletes
  · intro hsupported
    have hcompleted : parseProxyProtocol data = none →
        ∃ rest, (parseProxyProtocol (data ++ rest)).isSome = true := by
      intro hnone
      cases htype : detectProxyProtocol data with
      | none =>
          rw [parseProxyProtocol, htype] at hnone
          cases hnone
      | v1 => exact completed_of_v1 htype
      | v2 =>
          rw [detectProxyProtocol_eq] at htype
          split_ifs at htype with hsignature
          exact completed_of_v2 hsignature hsupported
      | incomplete =>
          rw [detectProxyProtocol_eq] at htype
          split_ifs at htype with h2 h2' h1 h1'
          · exact completed_of_prefix (h2'.trans (List.prefix_append _ [0x20, 0, 0, 0]))
              (by decide)
          · exact completed_of_prefix (h1'.trans (List.prefix_append _ [0x0D, 0x0A])) (by decide)
    refine ⟨hcompleted, fun hdestroy => ?_⟩
    cases hparse : parseProxyProtocol data with
    | some result =>
        rw [decideHeader_process hparse] at hdestroy
        cases hdestroy
    | none =>
        obtain ⟨rest, hrest⟩ := hcompleted hparse
        obtain ⟨result, hresult⟩ := Option.isSome_iff_exists.mp hrest
        rw [decideHeader_wait hparse hresult] at hdestroy
        cases hdestroy

/-- A header with 256 bytes of addresses and extensions is never completed. -/
theorem not_completes_longExtensions :
    ¬ Completes (v2Signature ++ [0x21, 0x11, 0x01, 0x00]) := by
  apply not_completes_of_unsupported
  decide

end TestServer.ProcessConnection
