import TestServer.Js.Numerals
import TestServer.ProcessConnection.ProxyV2

/-!
# Headers of version 1 for IPv4

A well-formed line names two addresses and two ports in decimal numbers, and the
parser gives exactly these. It also accepts some other lines: the highest bit of a
byte is dropped, and `parseInt` reads a port that starts with its digits.
-/

namespace TestServer.ProcessConnection

open Js

/-- The bytes of a text of ASCII characters. -/
def asciiBytes (text : JsString) : Bytes := text.map UInt16.toUInt8

/-- The line that tells addresses and ports. -/
def renderTcp4 (told : ProxyProtocolData) : Bytes :=
  asciiBytes (join (js " ") [js "PROXY", js "TCP4", told.sourceAddress, told.destinationAddress,
    integer told.sourcePort, integer told.destinationPort])

/-- What a well-formed line tells. -/
structure Tcp4Header where
  source : Address .inet
  destination : Address .inet
  sourcePort : UInt16
  destinationPort : UInt16

namespace Tcp4Header

def told (header : Tcp4Header) : ProxyProtocolData :=
  ⟨header.source.text, header.sourcePort.toNat, header.destination.text,
    header.destinationPort.toNat⟩

def line (header : Tcp4Header) : Bytes := renderTcp4 header.told

/-- The fields of the line. -/
def fields (header : Tcp4Header) : List JsString :=
  [js "PROXY", js "TCP4", header.source.text, header.destination.text,
    decimal header.sourcePort.toNat, decimal header.destinationPort.toNat]

end Tcp4Header

/-- The line before the end at `i` is accepted if and only if it is well formed, with what it
tells, and what follows its end is left. -/
def ParsesExactly (data : Bytes) (i : Nat) : Prop :=
  ∃ proxy, parseV1 data = some ⟨proxy, data.drop (i + 2)⟩ ∧
    ∀ told, proxy = some told ↔
      ∃ header : Tcp4Header, data.take i = header.line ∧ told = header.told

/-- A field that `parseInt` reads as a port. -/
def ReadsAsPort (field : JsString) : Prop :=
  ∃ port, parseInt field = some port ∧ isValidPort port = true

/-- A field of the digits of a number, without leading zeros. -/
def PlainNumber (field : JsString) : Prop := ∃ n : Nat, field = decimal n

/-- A line of valid addresses and readable ports that is not in ASCII, or whose ports are not
plain numbers. -/
def Lenient (line : Bytes) : Prop :=
  ∃ srcAddr dstAddr srcPort dstPort,
    split (asciiText line) (js " ") =
        [js "PROXY", js "TCP4", srcAddr, dstAddr, srcPort, dstPort] ∧
      (isValidAddress srcAddr (js "TCP4") = true ∧ isValidAddress dstAddr (js "TCP4") = true) ∧
      (ReadsAsPort srcPort ∧ ReadsAsPort dstPort) ∧
      ((∃ b ∈ line, 128 ≤ b) ∨ ¬ PlainNumber srcPort ∨ ¬ PlainNumber dstPort)

theorem asciiText_asciiBytes {text : JsString} (h : ∀ c ∈ text, c < 128) :
    asciiText (asciiBytes text) = text := by
  rw [asciiText, asciiBytes, List.map_map]
  conv_rhs => rw [← List.map_id text]
  apply List.map_congr_left
  intro c hc
  have hlt : c.toNat < 128 := UInt16.lt_iff_toNat_lt.mp (h c hc)
  rw [← UInt16.toNat_inj]
  simp only [Function.comp_apply, id, UInt16.toNat_toUInt8, UInt16.toNat_ofNat']
  omega

theorem asciiBytes_asciiText {line : Bytes} (h : ∀ b ∈ line, b < 128) :
    asciiBytes (asciiText line) = line := by
  rw [asciiText, asciiBytes, List.map_map]
  conv_rhs => rw [← List.map_id line]
  apply List.map_congr_left
  intro b hb
  have hlt : b.toNat < 128 := UInt8.lt_iff_toNat_lt.mp (h b hb)
  rw [← UInt8.toNat_inj]
  simp only [Function.comp_apply, id, UInt16.toNat_toUInt8, UInt16.toNat_ofNat']
  omega

theorem lt_of_mem_asciiBytes {text : JsString} (h : ∀ c ∈ text, c < 128) :
    ∀ b ∈ asciiBytes text, b < 128 := by
  intro b hb
  obtain ⟨c, hc, rfl⟩ := List.mem_map.mp hb
  have hlt : c.toNat < 128 := UInt16.lt_iff_toNat_lt.mp (h c hc)
  rw [UInt8.lt_iff_toNat_lt, UInt16.toNat_toUInt8]
  exact (Nat.mod_le _ _).trans_lt hlt

theorem isIPv4Part_iff {part : JsString} :
    isIPv4Part part = true ↔ ∃ b : UInt8, part = decimal b.toNat := by
  constructor
  · intro h
    rw [isIPv4Part] at h
    cases hnum : parseInt part with
    | none =>
        rw [hnum] at h
        cases h
    | some num =>
        simp only [hnum, Bool.and_eq_true, decide_eq_true_eq, beq_iff_eq] at h
        obtain ⟨⟨hpos, hle⟩, hpart⟩ := h
        refine ⟨num.toNat.toUInt8, ?_⟩
        have htoNat : num.toNat.toUInt8.toNat = num.natAbs := by
          rw [Nat.toUInt8, UInt8.toNat_ofNat']
          omega
        rw [htoNat, hpart, integer, if_neg (not_lt.mpr hpos)]
  · rintro ⟨b, rfl⟩
    have hlt : (b.toNat : Int) < 256 := by exact_mod_cast UInt8.toNat_lt b
    have hinteger : integer (b.toNat : Int) = decimal b.toNat := by
      rw [integer, if_neg (by omega), Int.natAbs_natCast]
    simp only [isIPv4Part, parseInt_decimal, Bool.and_eq_true, decide_eq_true_eq, beq_iff_eq]
    exact ⟨by omega, hinteger.symm⟩

/-- The valid IPv4 addresses are the texts of addresses. -/
theorem isValidAddress_tcp4_iff {addr : JsString} :
    isValidAddress addr (js "TCP4") = true ↔ ∃ address : Address .inet, addr = address.text := by
  rw [isValidAddress, if_pos rfl, Bool.and_eq_true, beq_iff_eq, List.all_eq_true]
  constructor
  · rintro ⟨hlength, hall⟩
    obtain ⟨p₀, p₁, p₂, p₃, hsplit⟩ := List.length_eq_four.mp hlength
    rw [hsplit] at hall
    obtain ⟨b₀, hb₀⟩ := isIPv4Part_iff.mp (hall p₀ (by simp))
    obtain ⟨b₁, hb₁⟩ := isIPv4Part_iff.mp (hall p₁ (by simp))
    obtain ⟨b₂, hb₂⟩ := isIPv4Part_iff.mp (hall p₂ (by simp))
    obtain ⟨b₃, hb₃⟩ := isIPv4Part_iff.mp (hall p₃ (by simp))
    refine ⟨⟨[b₀, b₁, b₂, b₃], rfl⟩, ?_⟩
    have hjoin : join (js ".") (split addr (js ".")) = addr :=
      join_split (js_ne_nil (by decide)) addr
    rw [← hjoin, hsplit, hb₀, hb₁, hb₂, hb₃]
    rfl
  · rintro ⟨⟨bytes, hlength⟩, rfl⟩
    obtain ⟨b₀, b₁, b₂, b₃, rfl⟩ := List.length_eq_four.mp hlength
    have hsplit := split_join_decimals [b₀.toNat, b₁.toNat, b₂.toNat, b₃.toNat]
      (List.cons_ne_nil _ _)
    have htext : split (Address.text ⟨[b₀, b₁, b₂, b₃], hlength⟩) (js ".") =
        [b₀.toNat, b₁.toNat, b₂.toNat, b₃.toNat].map decimal := hsplit
    rw [htext]
    refine ⟨rfl, ?_⟩
    intro part hpart
    simp only [List.map_cons, List.map_nil, List.mem_cons, List.not_mem_nil, or_false] at hpart
    rcases hpart with rfl | rfl | rfl | rfl <;> exact isIPv4Part_iff.mpr ⟨_, rfl⟩

/-- A readable port that is a plain number is one of the ports. -/
theorem readsAsPort_and_plainNumber_iff {field : JsString} :
    ReadsAsPort field ∧ PlainNumber field ↔ ∃ port : UInt16, field = decimal port.toNat := by
  constructor
  · rintro ⟨⟨port, hport, hvalid⟩, n, rfl⟩
    rw [parseInt_decimal, Option.some.injEq] at hport
    simp only [isValidPort, decide_eq_true_eq, ← hport] at hvalid
    refine ⟨n.toUInt16, ?_⟩
    rw [Nat.toUInt16, UInt16.toNat_ofNat', Nat.mod_eq_of_lt (by omega)]
  · rintro ⟨port, rfl⟩
    have hlt := UInt16.toNat_lt port
    refine ⟨⟨port.toNat, parseInt_decimal _, ?_⟩, _, rfl⟩
    simp only [isValidPort, decide_eq_true_eq]
    omega

theorem lt_of_isDigit {c : UInt16} (h : isDigit c = true) : c < 128 := by
  simp only [isDigit, decide_eq_true_eq] at h
  exact UInt16.lt_of_le_of_lt h.2 (by decide)

/-- The units of a field. -/
def isFieldUnit (c : UInt16) : Bool := isDigit c || c == unit '.'

theorem isFieldUnit_of_mem_decimal {n : Nat} {c : UInt16} (h : c ∈ decimal n) :
    isFieldUnit c = true := by
  rw [isFieldUnit, isDigit_of_mem_decimal h, Bool.true_or]

theorem isFieldUnit_of_mem_text {address : Address .inet} {c : UInt16} (h : c ∈ address.text) :
    isFieldUnit c = true := by
  rcases mem_join h with ⟨part, hpart, hc⟩ | hc
  · obtain ⟨i, -, rfl⟩ := List.mem_map.mp hpart
    exact isFieldUnit_of_mem_decimal hc
  · rw [show js "." = [unit '.'] from rfl, List.mem_singleton] at hc
    rw [isFieldUnit, hc, beq_self_eq_true, Bool.or_true]

namespace Tcp4Header

variable (header : Tcp4Header)

theorem line_eq : header.line = asciiBytes (join (js " ") header.fields) := by
  have hinteger : ∀ n : Nat, integer (n : Int) = decimal n := by
    intro n
    rw [integer, if_neg (by omega), Int.natAbs_natCast]
  simp only [line, renderTcp4, told, fields, hinteger]

theorem field_units : ∀ field ∈ header.fields, ∀ c ∈ field, c < 128 ∧ c ≠ unit ' ' := by
  have hunit : ∀ c : UInt16, isFieldUnit c = true → c < 128 ∧ c ≠ unit ' ' := by
    intro c hc
    rw [isFieldUnit, Bool.or_eq_true, beq_iff_eq] at hc
    rcases hc with hc | rfl
    · refine ⟨lt_of_isDigit hc, ?_⟩
      rintro rfl
      cases hc
    · decide
  intro field hfield c hc
  simp only [fields, List.mem_cons, List.not_mem_nil, or_false] at hfield
  have hname : ∀ name : JsString, name.all (fun c => decide (c < 128 ∧ c ≠ unit ' ')) = true →
      ∀ c ∈ name, c < 128 ∧ c ≠ unit ' ' := by
    intro name hall c hc
    exact of_decide_eq_true (List.all_eq_true.mp hall c hc)
  rcases hfield with rfl | rfl | rfl | rfl | rfl | rfl
  · exact hname _ (by decide) c hc
  · exact hname _ (by decide) c hc
  · exact hunit c (isFieldUnit_of_mem_text hc)
  · exact hunit c (isFieldUnit_of_mem_text hc)
  · exact hunit c (isFieldUnit_of_mem_decimal hc)
  · exact hunit c (isFieldUnit_of_mem_decimal hc)

theorem joined_units : ∀ c ∈ join (js " ") header.fields, c < 128 := by
  intro c hc
  rcases mem_join hc with ⟨field, hfield, hc⟩ | hc
  · exact (header.field_units field hfield c hc).1
  · rw [show js " " = [unit ' '] from rfl, List.mem_singleton] at hc
    rw [hc]
    decide

/-- A well-formed line is split into its fields. -/
theorem split_line : split (asciiText header.line) (js " ") = header.fields := by
  rw [line_eq, asciiText_asciiBytes header.joined_units]
  apply split_join (js_ne_nil (by decide)) (List.cons_ne_nil _ _)
  intro field hfield
  apply uncut_of_notMem
  intro hspace
  exact (header.field_units field hfield _ hspace).2 rfl

theorem ascii_line : ∀ b ∈ header.line, b < 128 := by
  rw [line_eq]
  exact lt_of_mem_asciiBytes header.joined_units

end Tcp4Header

theorem v1Data_eq_some_iff {text : JsString} {told : ProxyProtocolData} {fields : List JsString}
    (hfields : split text (js " ") = js "PROXY" :: js "TCP4" :: fields) :
    v1Data text = some told ↔
      ∃ srcAddr dstAddr srcPort dstPort, fields = [srcAddr, dstAddr, srcPort, dstPort] ∧
        (isValidAddress srcAddr (js "TCP4") = true ∧ isValidAddress dstAddr (js "TCP4") = true) ∧
        (parseInt srcPort = some told.sourcePort ∧ isValidPort told.sourcePort = true) ∧
        (parseInt dstPort = some told.destinationPort ∧
          isValidPort told.destinationPort = true) ∧
        told.sourceAddress = srcAddr ∧ told.destinationAddress = dstAddr := by
  constructor
  · intro h
    rw [v1Data, hfields] at h
    match fields, h with
    | [srcAddr, dstAddr, srcPort, dstPort], h =>
        simp only [true_or, and_true, if_true] at h
        split at h
        · next sourcePort destinationPort hsource hdestination =>
            split_ifs at h with hvalid
            cases h
            simp only [Bool.and_eq_true] at hvalid
            obtain ⟨⟨⟨hsourcePort, hdestinationPort⟩, hsrcAddr⟩, hdstAddr⟩ := hvalid
            exact ⟨srcAddr, dstAddr, srcPort, dstPort, rfl, ⟨hsrcAddr, hdstAddr⟩,
              ⟨hsource, hsourcePort⟩, ⟨hdestination, hdestinationPort⟩, rfl, rfl⟩
        · cases h
  · rintro ⟨srcAddr, dstAddr, srcPort, dstPort, rfl, ⟨hsrcAddr, hdstAddr⟩,
      ⟨hsource, hsourcePort⟩, ⟨hdestination, hdestinationPort⟩, rfl, rfl⟩
    rw [v1Data, hfields]
    simp only [true_or, and_true, if_true, hsource, hdestination, hsourcePort, hdestinationPort,
      hsrcAddr, hdstAddr, Bool.and_true]

/-- A line of valid addresses and readable ports tells something. -/
theorem told_of_valid {text srcAddr dstAddr srcPort dstPort : JsString}
    (hfields : split text (js " ") =
      [js "PROXY", js "TCP4", srcAddr, dstAddr, srcPort, dstPort])
    (hvalid : isValidAddress srcAddr (js "TCP4") = true ∧
      isValidAddress dstAddr (js "TCP4") = true)
    (hports : ReadsAsPort srcPort ∧ ReadsAsPort dstPort) :
    ∃ told, v1Data text = some told := by
  obtain ⟨⟨sourcePort, hsource⟩, destinationPort, hdestination⟩ := hports
  refine ⟨⟨srcAddr, sourcePort, dstAddr, destinationPort⟩, ?_⟩
  rw [v1Data_eq_some_iff hfields]
  exact ⟨srcAddr, dstAddr, srcPort, dstPort, rfl, hvalid, hsource, hdestination, rfl, rfl⟩

theorem Tcp4Header.v1Data_line (header : Tcp4Header) :
    v1Data (asciiText header.line) = some header.told := by
  have hport : ∀ port : UInt16, parseInt (decimal port.toNat) = some (port.toNat : Int) ∧
      isValidPort (port.toNat : Int) = true := by
    intro port
    obtain ⟨⟨n, hn, hvalid⟩, -⟩ := readsAsPort_and_plainNumber_iff.mpr ⟨port, rfl⟩
    rw [parseInt_decimal, Option.some.injEq] at hn
    exact ⟨parseInt_decimal _, hn ▸ hvalid⟩
  rw [v1Data_eq_some_iff header.split_line]
  exact ⟨_, _, _, _, rfl,
    ⟨isValidAddress_tcp4_iff.mpr ⟨_, rfl⟩, isValidAddress_tcp4_iff.mpr ⟨_, rfl⟩⟩,
    hport _, hport _, rfl, rfl⟩

/-- A line that tells something is well formed, if it is not lenient. -/
theorem exists_header_of_told {line : Bytes} {told : ProxyProtocolData} {fields : List JsString}
    (hfields : split (asciiText line) (js " ") = js "PROXY" :: js "TCP4" :: fields)
    (htold : v1Data (asciiText line) = some told) (hstrict : ¬ Lenient line) :
    ∃ header : Tcp4Header, line = header.line ∧ told = header.told := by
  obtain ⟨srcAddr, dstAddr, srcPort, dstPort, rfl, hvalid, hsource, hdestination, hsrc, hdst⟩ :=
    (v1Data_eq_some_iff hfields).mp htold
  have hreads : ReadsAsPort srcPort ∧ ReadsAsPort dstPort := ⟨⟨_, hsource⟩, _, hdestination⟩
  have hplain : ¬ ((∃ b ∈ line, 128 ≤ b) ∨ ¬ PlainNumber srcPort ∨ ¬ PlainNumber dstPort) :=
    fun h => hstrict ⟨srcAddr, dstAddr, srcPort, dstPort, hfields, hvalid, hreads, h⟩
  simp only [not_or, not_not, not_exists, not_and, UInt8.not_le] at hplain
  obtain ⟨hascii, hsrcPlain, hdstPlain⟩ := hplain
  obtain ⟨⟨source, rfl⟩, destination, rfl⟩ :=
    And.imp isValidAddress_tcp4_iff.mp isValidAddress_tcp4_iff.mp hvalid
  obtain ⟨sourcePort, rfl⟩ := readsAsPort_and_plainNumber_iff.mp ⟨hreads.1, hsrcPlain⟩
  obtain ⟨destinationPort, rfl⟩ := readsAsPort_and_plainNumber_iff.mp ⟨hreads.2, hdstPlain⟩
  let header : Tcp4Header := ⟨source, destination, sourcePort, destinationPort⟩
  have hline : line = header.line := by
    calc
      line = asciiBytes (asciiText line) := (asciiBytes_asciiText hascii).symm
      _ = asciiBytes (join (js " ") (split (asciiText line) (js " "))) := by
        rw [join_split (js_ne_nil (by decide))]
      _ = asciiBytes (join (js " ") header.fields) := by rw [hfields]; rfl
      _ = header.line := header.line_eq.symm
  refine ⟨header, hline, ?_⟩
  rw [hline, header.v1Data_line] at htold
  exact (Option.some.inj htold).symm

/-- A lenient line is not well formed. -/
theorem Tcp4Header.not_lenient (header : Tcp4Header) : ¬ Lenient header.line := by
  rintro ⟨srcAddr, dstAddr, srcPort, dstPort, hfields, -, -, hdefect⟩
  rw [header.split_line] at hfields
  simp only [fields, List.cons.injEq] at hfields
  obtain ⟨-, -, -, -, rfl, rfl, -⟩ := hfields
  rcases hdefect with ⟨b, hb, hhigh⟩ | hplain | hplain
  · exact absurd (header.ascii_line b hb) (UInt8.not_lt.mpr hhigh)
  · exact hplain ⟨_, rfl⟩
  · exact hplain ⟨_, rfl⟩

/-- The start of a header is part of its line. -/
theorem split_of_start {data : Bytes} {i : Nat}
    (hstart : asciiBytes (js "PROXY TCP4 ") <+: data) (hcrlf : crlfIndex data = some i) :
    ∃ fields, split (asciiText (data.take i)) (js " ") = js "PROXY" :: js "TCP4" :: fields := by
  obtain ⟨rest, rfl⟩ := hstart
  obtain ⟨⟨hcr, -⟩, -⟩ := crlfIndex_eq_some_iff.mp hcrlf
  have hlong : 11 ≤ i := by
    by_contra hshort
    rw [byteAt_append rest (by exact not_le.mp hshort)] at hcr
    have hnone : ∀ j < 11, byteAt (asciiBytes (js "PROXY TCP4 ")) j ≠ 0x0D := by decide
    exact hnone i (not_le.mp hshort) hcr
  have htake : asciiText ((asciiBytes (js "PROXY TCP4 ") ++ rest).take i) =
      js "PROXY" ++ unit ' ' :: (js "TCP4" ++ unit ' ' :: asciiText (rest.take (i - 11))) := by
    rw [List.take_append, List.take_of_length_le (by exact hlong)]
    simp only [asciiText, List.map_append]
    rfl
  refine ⟨split (asciiText (rest.take (i - 11))) (js " "), ?_⟩
  rw [htake, show js " " = [unit ' '] from rfl, split_append_cons (by decide),
    split_append_cons (by decide)]

theorem not_parsesExactly_of_lenient {data : Bytes} {i : Nat} (hcrlf : crlfIndex data = some i)
    (hlenient : Lenient (data.take i)) : ¬ ParsesExactly data i := by
  rintro ⟨proxy, hproxy, hexact⟩
  rw [parseV1, hcrlf] at hproxy
  simp only [Option.some.injEq, ProxyProtocolResult.mk.injEq] at hproxy
  obtain ⟨srcAddr, dstAddr, srcPort, dstPort, hsplit, hvalid, hreads, -⟩ := id hlenient
  obtain ⟨told, htold⟩ := told_of_valid hsplit hvalid hreads
  obtain ⟨header, hline, -⟩ := (hexact told).mp (hproxy.1 ▸ htold)
  exact header.not_lenient (hline ▸ hlenient)

/-- A header for IPv4 is parsed exactly if and only if its line is not one that only the lenient
reading of bytes and ports accepts. -/
theorem parsesExactly_iff {data : Bytes} {i : Nat}
    (hstart : asciiBytes (js "PROXY TCP4 ") <+: data) (hcrlf : crlfIndex data = some i) :
    ParsesExactly data i ↔ ¬ Lenient (data.take i) := by
  constructor
  · intro hexact hlenient
    exact not_parsesExactly_of_lenient hcrlf hlenient hexact
  · intro hstrict
    obtain ⟨fields, hfields⟩ := split_of_start hstart hcrlf
    refine ⟨v1Data (asciiText (data.take i)), ?_, fun told => ⟨fun htold => ?_, ?_⟩⟩
    · rw [parseV1, hcrlf]
    · exact exists_header_of_told hfields htold hstrict
    · rintro ⟨header, hline, rfl⟩
      rw [hline]
      exact header.v1Data_line

/-- A header with two ordinary addresses. -/
def wellFormedData : Bytes :=
  asciiBytes (js "PROXY TCP4 192.168.0.1 10.0.0.255 56324 443\x0D\nGET")

theorem parsesExactly_iff_wellFormed :
    ParsesExactly wellFormedData 43 ↔ ¬ Lenient (wellFormedData.take 43) :=
  parsesExactly_iff (by decide) (by decide +kernel)

/-- A port with letters after its digits is accepted. -/
theorem not_parsesExactly_trailingLetters :
    ¬ ParsesExactly (asciiBytes (js "PROXY TCP4 1.2.3.4 5.6.7.8 80abc 443\x0D\n")) 36 := by
  apply not_parsesExactly_of_lenient (by decide +kernel)
  refine ⟨js "1.2.3.4", js "5.6.7.8", js "80abc", js "443", by decide +kernel, by decide +kernel,
    ⟨⟨80, by decide, by decide⟩, 443, by decide, by decide⟩, .inr (.inl ?_)⟩
  rintro ⟨n, hn⟩
  have hmem : unit 'a' ∈ decimal n := hn ▸ by decide
  exact absurd (isDigit_of_mem_decimal hmem) (by decide)

end TestServer.ProcessConnection
