import TestServer.ProcessConnection.AddressTexts
import TestServer.ProcessConnection.ProxyCompletion

/-!
# Headers of version 2

The headers that a proxy writes for a TCP connection, with any extensions after the
addresses. The parser gives their ports, texts that stand for their addresses, and
what follows them.
-/

namespace TestServer.ProcessConnection

open Js

inductive AddressFamily where
  | inet
  | inet6
deriving DecidableEq

namespace AddressFamily

def addressLength : AddressFamily → Nat
  | inet => 4
  | inet6 => 16

/-- The family with the protocol `STREAM`. -/
def famProto : AddressFamily → UInt8
  | inet => 0x11
  | inet6 => 0x21

def format : AddressFamily → Bytes → JsString
  | inet => formatIPv4
  | inet6 => formatIPv6

def read : AddressFamily → JsString → Option Bytes
  | inet => readIPv4
  | inet6 => readIPv6

end AddressFamily

/-- The addresses of a family. -/
abbrev Address (family : AddressFamily) := {bytes : Bytes // bytes.length = family.addressLength}

/-- The text that the parser writes for an address. -/
def Address.text {family : AddressFamily} (address : Address family) : JsString :=
  family.format address.val

/-- A header for a TCP connection. -/
structure V2Header where
  family : AddressFamily
  source : Address family
  destination : Address family
  sourcePort : UInt16
  destinationPort : UInt16
  extensions : Bytes
  fits : 2 * family.addressLength + 4 + extensions.length ≤ v2MaxAddrLength

namespace V2Header

variable (header : V2Header)

/-- The addresses, the ports and the extensions. -/
def addresses : Bytes :=
  header.source.val ++ (header.destination.val ++ (bytes16 header.sourcePort.toNat ++
    (bytes16 header.destinationPort.toNat ++ header.extensions)))

def encode : Bytes :=
  (v2Signature ++ [0x21, header.family.famProto] ++ bytes16 header.addresses.length) ++
    header.addresses

end V2Header

theorem word16_bytes16 {n : Nat} (h : n < 65536) (before rest : Bytes) :
    word16 (before ++ (bytes16 n ++ rest)) before.length = n := by
  have hhigh : byteAt (before ++ (bytes16 n ++ rest)) before.length = n / 256 := by
    rw [byteAt_append_of_le _ (le_refl _), Nat.sub_self]
    exact Nat.mod_eq_of_lt (by omega)
  have hlow : byteAt (before ++ (bytes16 n ++ rest)) (before.length + 1) = n % 256 := by
    rw [byteAt_append_of_le _ (Nat.le_add_right _ 1), Nat.add_sub_cancel_left]
    exact UInt8.toNat_ofNat'
  rw [word16_eq, hhigh, hlow]
  exact Nat.div_add_mod' n 256

namespace AddressFamily

variable {family : AddressFamily}

/-- Only the bytes of the address are written. -/
theorem format_append (address : Address family) (rest : Bytes) :
    family.format (address.val ++ rest) = address.text := by
  obtain ⟨bytes, hlength⟩ := address
  have hbyte : ∀ i < bytes.length, byteAt (bytes ++ rest) i = byteAt bytes i :=
    fun i hi => byteAt_append rest hi
  cases family with
  | inet =>
      apply congrArg (join (js "."))
      apply List.map_congr_left
      intro i hi
      have hlt : i < 4 := List.mem_range.mp hi
      simp only [hbyte i (hlt.trans_eq hlength.symm)]
  | inet6 =>
      apply congrArg (join (js ":"))
      apply List.map_congr_left
      intro i hi
      have hlt : i < 8 := List.mem_range.mp hi
      have hle : 2 * i + 2 ≤ bytes.length := by
        rw [show bytes.length = 16 from hlength]
        omega
      simp only [word16_append rest hle]

/-- The text of an address stands for it. -/
theorem read_text (address : Address family) : family.read address.text = some address.val := by
  rw [← format_append address []]
  cases family with
  | inet => exact readIPv4_formatIPv4 address.property []
  | inet6 => exact readIPv6_formatIPv6 address.property []

theorem text_injective : Function.Injective fun address : Address family => address.text := by
  intro a b h
  apply Subtype.ext
  apply Option.some.inj
  calc
    some a.val = family.read a.text := (read_text a).symm
    _ = family.read b.text := congrArg family.read h
    _ = some b.val := read_text b

end AddressFamily

/-- What a header for a TCP connection tells, if its addresses are there. -/
theorem v2Data_of_family {data : Bytes} {family : AddressFamily}
    (hverCmd : byteAt data 12 = 0x21) (hfamProto : byteAt data 13 = family.famProto.toNat)
    (hlong : 2 * family.addressLength + 4 ≤ word16 data 14) :
    v2Data data = some ⟨family.format (data.drop v2MinHeader),
      word16 (data.drop v2MinHeader) (2 * family.addressLength),
      family.format ((data.drop v2MinHeader).drop family.addressLength),
      word16 (data.drop v2MinHeader) (2 * family.addressLength + 2)⟩ := by
  simp only [v2Data, hverCmd, hfamProto]
  cases family with
  | inet =>
      have hlong' : 12 ≤ word16 data 14 := hlong
      rw [if_neg (by decide), if_pos (by decide), if_neg (not_lt.mpr hlong')]
      rfl
  | inet6 =>
      have hlong' : 36 ≤ word16 data 14 := hlong
      rw [if_neg (by decide), if_neg (by decide), if_pos (by decide),
        if_neg (not_lt.mpr hlong')]
      rfl

namespace V2Header

variable (header : V2Header)

theorem length_addresses :
    header.addresses.length = 2 * header.family.addressLength + 4 + header.extensions.length := by
  have hsource := header.source.property
  have hdestination := header.destination.property
  simp only [addresses, bytes16, List.length_append, List.length_cons, List.length_nil]
  omega

theorem length_addresses_le : header.addresses.length ≤ v2MaxAddrLength := by
  rw [length_addresses]
  exact header.fits

/-- The fixed part of a header, read from a buffer that starts with it. -/
theorem fixedPart (rest : Bytes) :
    byteAt (header.encode ++ rest) 12 = 0x21 ∧
      byteAt (header.encode ++ rest) 13 = header.family.famProto.toNat ∧
      word16 (header.encode ++ rest) 14 = header.addresses.length := by
  have hshort := header.length_addresses_le
  refine ⟨rfl, rfl, ?_⟩
  have hencode : header.encode ++ rest = (v2Signature ++ [0x21, header.family.famProto]) ++
      (bytes16 header.addresses.length ++ (header.addresses ++ rest)) := by
    simp only [encode, List.append_assoc]
  rw [hencode]
  exact word16_bytes16 (hshort.trans_lt (by decide)) _ _

theorem sourcePort_eq :
    word16 header.addresses (2 * header.family.addressLength) = header.sourcePort.toNat := by
  have hlength : (header.source.val ++ header.destination.val).length =
      2 * header.family.addressLength := by
    rw [List.length_append, header.source.property, header.destination.property, Nat.two_mul]
  rw [← hlength, addresses, ← List.append_assoc]
  exact word16_bytes16 (UInt16.toNat_lt _) _ _

theorem destinationPort_eq :
    word16 header.addresses (2 * header.family.addressLength + 2) =
      header.destinationPort.toNat := by
  have hlength : (header.source.val ++ header.destination.val ++
      bytes16 header.sourcePort.toNat).length = 2 * header.family.addressLength + 2 := by
    rw [List.length_append, List.length_append, header.source.property,
      header.destination.property, Nat.two_mul]
    rfl
  rw [← hlength, addresses, ← List.append_assoc, ← List.append_assoc]
  exact word16_bytes16 (UInt16.toNat_lt _) _ _

theorem format_source : header.family.format header.addresses = header.source.text :=
  AddressFamily.format_append _ _

theorem format_destination :
    header.family.format (header.addresses.drop header.family.addressLength) =
      header.destination.text := by
  rw [addresses, List.drop_left' header.source.property]
  exact AddressFamily.format_append _ _

theorem v2Data_encode :
    v2Data header.encode = some ⟨header.source.text, header.sourcePort.toNat,
      header.destination.text, header.destinationPort.toNat⟩ := by
  have hfixed := header.fixedPart []
  rw [List.append_nil] at hfixed
  obtain ⟨hverCmd, hfamProto, haddrLen⟩ := hfixed
  have hdrop : header.encode.drop v2MinHeader = header.addresses := List.drop_left' rfl
  have hlong : 2 * header.family.addressLength + 4 ≤ word16 header.encode 14 := by
    rw [haddrLen, length_addresses]
    exact Nat.le_add_right _ _
  rw [v2Data_of_family hverCmd hfamProto hlong, hdrop, format_source, format_destination,
    sourcePort_eq, destinationPort_eq]

theorem parse_eq (payload : Bytes) :
    parseProxyProtocol (header.encode ++ payload) =
      some ⟨some ⟨header.source.text, header.sourcePort.toNat, header.destination.text,
        header.destinationPort.toNat⟩, payload⟩ := by
  have hsignature : v2Signature <+: header.encode ++ payload := by
    simp only [encode, List.append_assoc]
    exact List.prefix_append _ _
  obtain ⟨hverCmd, -, haddrLen⟩ := header.fixedPart payload
  have hlength : header.encode.length = v2MinHeader + header.addresses.length :=
    List.length_append
  have hwhole : v2MinHeader + header.addresses.length ≤ (header.encode ++ payload).length := by
    rw [List.length_append, hlength]
    exact Nat.le_add_right _ _
  rw [parseProxyProtocol_of_v2 hsignature, parseV2, if_neg (by omega), hverCmd,
    if_neg (by decide), haddrLen, if_neg (not_lt.mpr header.length_addresses_le)]
  simp only
  rw [if_neg (not_lt.mpr hwhole), List.take_left' hlength, List.drop_left' hlength,
    v2Data_encode]

/-- Parsing a header gives its ports, texts that are read back to its addresses and differ for
different addresses, and the payload. -/
theorem parseProxyProtocol_encode (payload : Bytes) :
    parseProxyProtocol (header.encode ++ payload) =
        some ⟨some ⟨header.source.text, header.sourcePort.toNat, header.destination.text,
          header.destinationPort.toNat⟩, payload⟩ ∧
      header.family.read header.source.text = some header.source.val ∧
      header.family.read header.destination.text = some header.destination.val ∧
      Function.Injective fun address : Address header.family => address.text :=
  ⟨header.parse_eq payload, AddressFamily.read_text _, AddressFamily.read_text _,
    AddressFamily.text_injective⟩

end V2Header

end TestServer.ProcessConnection
