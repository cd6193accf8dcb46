import TestServer.TlsCertificates.Ocsp
import TestServer.ProcessConnection.DataCapturingStream
import TestServer.Js.Numerals
import TestServer.Js.Uri
import TestServer.Library.BigEndian

/-!
# Serial numbers in OCSP responses

`serialNumberBytes` of `src/tls-certificates/ocsp.ts` makes the content of a DER INTEGER
from the hexadecimal text of a serial number. A client reads it with its sign.
-/

namespace TestServer.TlsCertificates

open Js Library ProcessConnection

/-- The number of the hexadecimal digits of a text; all others are passed over. -/
def hexadecimal (text : JsString) : Nat := bigEndian 16 (text.filterMap hexValue)

/-- A text without the `0x` that `parseInt` allows in base sixteen. -/
def withoutHexPrefix (s : JsString) : JsString :=
  if startsWith s (js "0x") || startsWith s (js "0X") then s.drop 2 else s

/-- `parseInt(s, 16)`. -/
def parseHex (s : JsString) : Option Int :=
  let (negative, rest) := signed s
  match (withoutHexPrefix rest).takeWhile fun c => (hexValue c).isSome with
  | [] => none
  | digits => some (if negative then -(hexadecimal digits : Int) else hexadecimal digits)

/-- A number as an element of a `Uint8Array`. -/
def toUint8 (n : Option Int) : UInt8 := UInt8.ofInt (n.getD 0)

/-- `s.match(/.{2}/g)` without white space in the text; there is no match if it is empty. -/
def bytePairs : JsString → List JsString
  | a :: b :: rest => [a, b] :: bytePairs rest
  | _ => []

/-- The text of a serial number without its white space. -/
def serialHex (serialNumber : JsString) : JsString := serialNumber.filter fun c => !isWhiteSpace c

def paddedHex (serialHex : JsString) : JsString :=
  if serialHex.length % 2 = 0 then serialHex else unit '0' :: serialHex

/-- The bytes before the sign is looked at. -/
def unsignedBytes (serialNumber : JsString) : Bytes :=
  (bytePairs (paddedHex (serialHex serialNumber))).map fun byte => toUint8 (parseHex byte)

/-- The bytes for the serial number of a certificate, or nothing where this throws. -/
def serialNumberBytes (serialNumber : JsString) : Option Bytes :=
  match unsignedBytes serialNumber with
  | [] => none
  | first :: rest =>
      if first &&& 0x80 = 0 then some (first :: rest) else some (0 :: first :: rest)

/-- `readSignedInteger` of `test/ocsp-helpers.ts`, the way in which a client reads the content
of an INTEGER. It throws if there is none. -/
def readSignedInteger : Bytes → Option Int
  | [] => none
  | first :: rest =>
      let magnitude : Int := bigEndian 256 ((first :: rest).map UInt8.toNat)
      some (if first &&& 0x80 ≠ 0 then magnitude - 2 ^ (8 * (first :: rest).length) else magnitude)

theorem and_top_eq_zero_iff (byte : UInt8) : byte &&& 0x80 = 0 ↔ byte.toNat < 128 := by
  have hall : ∀ n < 256, n &&& 128 = 0 ↔ n < 128 := by decide +kernel
  rw [← UInt8.toNat_inj, UInt8.toNat_and]
  exact hall byte.toNat byte.toNat_lt

theorem readSignedInteger_eq {bytes : Bytes} (h : bytes ≠ []) :
    readSignedInteger bytes = some (twosComplement 8 (bytes.map UInt8.toNat)) := by
  obtain ⟨first, rest, rfl⟩ := List.exists_cons_of_ne_nil h
  have hlt : ∀ word ∈ first.toNat :: rest.map UInt8.toNat, word < 2 ^ (7 + 1) := by
    intro word hword
    rw [← List.map_cons, List.mem_map] at hword
    obtain ⟨byte, -, rfl⟩ := hword
    exact byte.toNat_lt
  have hread := twosComplement_cons hlt
  rw [List.length_map] at hread
  simp only [readSignedInteger, ne_eq, ite_not, and_top_eq_zero_iff, List.map_cons, hread,
    List.length_cons]
  rfl

/-- What a hexadecimal digit is not. -/
theorem hexValue_eq_some {c : UInt16} {n : Nat} (h : hexValue c = some n) :
    n < 16 ∧ isWhiteSpace c = false ∧ c ≠ 43 ∧ c ≠ 45 ∧ c ≠ 88 ∧ c ≠ 120 := by
  have hdigit : (48 ≤ c.toNat ∧ c.toNat ≤ 57 ∧ n = c.toNat - 48) ∨
      (65 ≤ c.toNat ∧ c.toNat ≤ 70 ∧ n = c.toNat - 55) ∨
      (97 ≤ c.toNat ∧ c.toNat ≤ 102 ∧ n = c.toNat - 87) := by
    simp only [hexValue, UInt16.le_iff_toNat_le, UInt16.reduceToNat] at h
    split at h
    · exact .inl ⟨by omega, by omega, (Option.some.inj h).symm⟩
    · split at h
      · exact .inr (.inl ⟨by omega, by omega, (Option.some.inj h).symm⟩)
      · split at h
        · exact .inr (.inr ⟨by omega, by omega, (Option.some.inj h).symm⟩)
        · cases h
  simp only [isWhiteSpace, Bool.or_eq_false_iff, decide_eq_false_iff_not, UInt16.le_iff_toNat_le,
    UInt16.reduceToNat, ← UInt16.toNat_inj, Ne]
  omega

theorem parseHex_pair {a b : UInt16} {high low : Nat} (ha : hexValue a = some high)
    (hb : hexValue b = some low) : parseHex [a, b] = some ((16 * high + low : Nat) : Int) := by
  obtain ⟨-, hspace, hplus, hminus, -, -⟩ := hexValue_eq_some ha
  obtain ⟨-, -, -, -, hupper, hlower⟩ := hexValue_eq_some hb
  have hprefix : withoutHexPrefix [a, b] = [a, b] := by
    have hlow : startsWith [a, b] (js "0x") = false := by
      rw [show js "0x" = [48, 120] from rfl]
      simp [startsWith, List.isPrefixOf, Ne.symm hlower]
    have hup : startsWith [a, b] (js "0X") = false := by
      rw [show js "0X" = [48, 88] from rfl]
      simp [startsWith, List.isPrefixOf, Ne.symm hupper]
    rw [withoutHexPrefix, hlow, hup, Bool.or_self, if_neg Bool.false_ne_true]
  have hdigits : ([a, b] : JsString).takeWhile (fun c => (hexValue c).isSome) = [a, b] := by
    simp [ha, hb]
  have hvalue : hexadecimal [a, b] = 16 * high + low := by
    simp [hexadecimal, ha, hb, bigEndian_cons, Nat.mul_comm]
  simp only [parseHex, signed_cons hspace hminus hplus, hprefix, hdigits, hvalue,
    Bool.false_eq_true, if_false]

/-- The bytes of an even number of digits have the value of the digits. -/
theorem toNat_bytePairs {digits : JsString} (heven : digits.length % 2 = 0)
    (hdigits : ∀ c ∈ digits, (hexValue c).isSome = true) :
    ((bytePairs digits).map fun byte => (toUint8 (parseHex byte)).toNat) =
      paired 16 (digits.filterMap hexValue) := by
  induction digits using bytePairs.induct with
  | case1 a b rest ih =>
      obtain ⟨high, ha⟩ := Option.isSome_iff_exists.mp (hdigits a (by simp))
      obtain ⟨low, hb⟩ := Option.isSome_iff_exists.mp (hdigits b (by simp))
      have hhigh := (hexValue_eq_some ha).1
      have hlow := (hexValue_eq_some hb).1
      have hrest : rest.length % 2 = 0 := by
        simp only [List.length_cons] at heven
        omega
      have hbyte : (toUint8 (parseHex [a, b])).toNat = 16 * high + low := by
        rw [parseHex_pair ha hb, toUint8, Option.getD_some]
        simp [UInt8.ofInt]
        omega
      rw [bytePairs, List.map_cons, hbyte, List.filterMap_cons_some ha,
        List.filterMap_cons_some hb, paired,
        ih hrest fun c hc => hdigits c (List.mem_cons_of_mem _ (List.mem_cons_of_mem _ hc))]
  | case2 digits hshort =>
      cases digits with
      | nil => rfl
      | cons a others =>
          cases others with
          | nil => simp at heven
          | cons b rest => exact absurd rfl (hshort a b rest)

/-- A text of hexadecimal digits, at least one, with white space between them. -/
structure IsHexSerial (s : JsString) : Prop where
  units : ∀ c ∈ s, (hexValue c).isSome = true ∨ isWhiteSpace c = true
  nonempty : ∃ c ∈ s, (hexValue c).isSome = true

theorem isSome_of_mem_serialHex {s : JsString} (h : IsHexSerial s) {c : UInt16}
    (hc : c ∈ serialHex s) : (hexValue c).isSome = true := by
  obtain ⟨hmem, hspace⟩ := List.mem_filter.mp hc
  rcases h.units c hmem with hsome | hwhite
  · exact hsome
  · rw [hwhite] at hspace
    cases hspace

theorem serialHex_ne_nil {s : JsString} (h : IsHexSerial s) : serialHex s ≠ [] := by
  obtain ⟨c, hmem, hsome⟩ := h.nonempty
  obtain ⟨n, hn⟩ := Option.isSome_iff_exists.mp hsome
  have hc : c ∈ serialHex s := by
    rw [serialHex, List.mem_filter, (hexValue_eq_some hn).2.1]
    exact ⟨hmem, rfl⟩
  exact List.ne_nil_of_mem hc

theorem hexadecimal_serialHex (s : JsString) : hexadecimal (serialHex s) = hexadecimal s := by
  rw [hexadecimal, serialHex, List.filterMap_filter, hexadecimal]
  congr 1
  apply List.filterMap_congr
  intro c _
  cases hc : hexValue c with
  | none => simp
  | some n =>
      rw [(hexValue_eq_some hc).2.1]
      rfl

theorem hexadecimal_paddedHex (s : JsString) : hexadecimal (paddedHex s) = hexadecimal s := by
  rw [paddedHex]
  split
  · rfl
  · have hzero : hexValue (unit '0') = some 0 := rfl
    rw [hexadecimal, List.filterMap_cons_some hzero, bigEndian_zero_cons, hexadecimal]

theorem length_paddedHex (s : JsString) : (paddedHex s).length % 2 = 0 := by
  rw [paddedHex]
  split
  · assumption
  · rw [List.length_cons]
    omega

theorem isSome_of_mem_paddedHex {s : JsString} (h : ∀ c ∈ s, (hexValue c).isSome = true) :
    ∀ c ∈ paddedHex s, (hexValue c).isSome = true := by
  intro c hc
  rw [paddedHex] at hc
  split at hc
  · exact h c hc
  · rcases List.mem_cons.mp hc with rfl | hc
    · rfl
    · exact h c hc

theorem paddedHex_ne_nil {s : JsString} (h : s ≠ []) : paddedHex s ≠ [] := by
  rw [paddedHex]
  split
  · exact h
  · exact List.cons_ne_nil _ _

theorem unsignedBytes_ne_nil {s : JsString} (h : IsHexSerial s) : unsignedBytes s ≠ [] := by
  have heven := length_paddedHex (serialHex s)
  have hne := paddedHex_ne_nil (serialHex_ne_nil h)
  rw [unsignedBytes, Ne, List.map_eq_nil_iff]
  cases htext : paddedHex (serialHex s) with
  | nil => exact absurd htext hne
  | cons a text =>
      cases text with
      | nil => simp [htext] at heven
      | cons b rest => exact List.cons_ne_nil _ _

theorem bigEndian_unsignedBytes {s : JsString} (h : IsHexSerial s) :
    bigEndian 256 ((unsignedBytes s).map UInt8.toNat) = hexadecimal s := by
  have hdigits := isSome_of_mem_paddedHex fun c => isSome_of_mem_serialHex h (c := c)
  have heven := length_paddedHex (serialHex s)
  have hlength : ((paddedHex (serialHex s)).filterMap hexValue).length =
      (paddedHex (serialHex s)).length := List.filterMap_length_eq_length.mpr hdigits
  calc bigEndian 256 ((unsignedBytes s).map UInt8.toNat)
      = bigEndian (16 ^ 2) (paired 16 ((paddedHex (serialHex s)).filterMap hexValue)) := by
        rw [← toNat_bytePairs heven hdigits, unsignedBytes, List.map_map]
        rfl
    _ = hexadecimal (paddedHex (serialHex s)) := bigEndian_paired 16 (hlength.symm ▸ heven)
    _ = hexadecimal s := by rw [hexadecimal_paddedHex, hexadecimal_serialHex]

theorem exists_serialNumberBytes {s : JsString} (h : IsHexSerial s) :
    ∃ bytes, serialNumberBytes s = some bytes ∧ bytes ≠ [] ∧
      twosComplement 8 (bytes.map UInt8.toNat) = hexadecimal s := by
  obtain ⟨first, rest, hbytes⟩ := List.exists_cons_of_ne_nil (unsignedBytes_ne_nil h)
  have hvalue := bigEndian_unsignedBytes h
  have hlt : ∀ word ∈ (first :: rest).map UInt8.toNat, word < 2 ^ (7 + 1) := by
    intro word hword
    obtain ⟨byte, -, rfl⟩ := List.mem_map.mp hword
    exact byte.toNat_lt
  rw [hbytes] at hvalue
  by_cases htop : first &&& 0x80 = 0
  · refine ⟨first :: rest, by rw [serialNumberBytes, hbytes]; exact if_pos htop,
      List.cons_ne_nil _ _, ?_⟩
    have hword : first.toNat < 2 ^ 7 := (and_top_eq_zero_iff first).mp htop
    rw [List.map_cons, twosComplement_of_lt hword fun w hw => hlt w (List.mem_cons_of_mem _ hw),
      ← hvalue]
    rfl
  · -- The pad has no top bit, and adds nothing to the value.
    refine ⟨0 :: first :: rest, by rw [serialNumberBytes, hbytes]; exact if_neg htop,
      List.cons_ne_nil _ _, ?_⟩
    have hpad : twosComplement (7 + 1) (0 :: (first :: rest).map UInt8.toNat) =
        bigEndian (2 ^ (7 + 1)) (0 :: (first :: rest).map UInt8.toNat) :=
      twosComplement_of_lt (by decide) hlt
    rw [bigEndian_zero_cons] at hpad
    rw [← hvalue]
    exact hpad

/-- The bytes of a serial number are read as the number itself, never as a negative one. -/
theorem readSignedInteger_serialNumberBytes (s : JsString) (h : IsHexSerial s) :
    ∃ bytes, serialNumberBytes s = some bytes ∧
      readSignedInteger bytes = some (hexadecimal s : Int) := by
  obtain ⟨bytes, hmade, hne, hvalue⟩ := exists_serialNumberBytes h
  exact ⟨bytes, hmade, by rw [readSignedInteger_eq hne, hvalue]⟩

/-- A serial number with the top bit set, and with a space. -/
theorem readSignedInteger_serialNumberBytes_top :
    ∃ bytes, serialNumberBytes (js "8 0e7") = some bytes ∧
      readSignedInteger bytes = some 0x80E7 := by
  have hunits : (js "8 0e7").all
      (fun c => decide ((hexValue c).isSome = true ∨ isWhiteSpace c = true)) = true := by decide
  have h : IsHexSerial (js "8 0e7") :=
    ⟨fun c hc => of_decide_eq_true (List.all_eq_true.mp hunits c hc), unit '8', by decide,
      by decide⟩
  exact readSignedInteger_serialNumberBytes (js "8 0e7") h

/-- Serial numbers of two values have different bytes. -/
theorem hexadecimal_eq_of_serialNumberBytes_eq {s t : JsString} (hs : IsHexSerial s)
    (ht : IsHexSerial t) (heq : serialNumberBytes s = serialNumberBytes t) :
    hexadecimal s = hexadecimal t := by
  obtain ⟨bytes, hmade, -, hvalue⟩ := exists_serialNumberBytes hs
  obtain ⟨bytes', hmade', -, hvalue'⟩ := exists_serialNumberBytes ht
  obtain rfl : bytes = bytes' := by rwa [hmade, hmade', Option.some.injEq] at heq
  rw [hvalue, Int.natCast_inj] at hvalue'
  exact hvalue'

/-- The INTEGER of a response that has been encoded. -/
def CertID.serialBytes (certID : CertID) : Option Bytes := serialNumberBytes certID.serialNumber

/-- A client that asked about another serial number sees that the response is not for it. -/
theorem hexadecimal_eq_of_serialBytes_eq {x : X509} (r : x.Reader) {cert asked : x.Certificate}
    (issuer : KeyedCertificate x) (status : CertStatus) (now : Time)
    (hcert : IsHexSerial (r.serialNumber cert)) (hasked : IsHexSerial (r.serialNumber asked))
    (heq : (createOcspResponse r cert issuer status now).certID.serialBytes =
      serialNumberBytes (r.serialNumber asked)) :
    hexadecimal (r.serialNumber cert) = hexadecimal (r.serialNumber asked) :=
  hexadecimal_eq_of_serialNumberBytes_eq hcert hasked heq

end TestServer.TlsCertificates
