import TestServer.ConnectionOrigin
import TestServer.ProcessConnection.ProxyV1

/-!
# Origins of IPv4-mapped clients

The IPv6 form of an IPv4 address can be that of the socket, or come in a PROXY header
of version 1 or 2. The origin is the IPv4 text only of the former: a header of
version 1 may not have a dot in an address, and without one no text is rewritten to
one with dots.
-/

namespace TestServer

open Js Library ProcessConnection

/-- The IPv4-mapped form of an address. -/
def mappedAddress (address : Address .inet) : Address .inet6 :=
  ⟨List.replicate 10 0 ++ ([0xFF, 0xFF] ++ address.val), by
    rw [List.length_append, List.length_append, address.property]
    rfl⟩

def tcp6Fields (source destination : JsString) (sourcePort destinationPort : UInt16) :
    List JsString :=
  [js "PROXY", js "TCP6", source, destination, decimal sourcePort.toNat,
    decimal destinationPort.toNat]

/-- A line for IPv6, in any spelling of the addresses, that is not too long. -/
structure Tcp6Line where
  source : JsString
  destination : JsString
  sourcePort : UInt16
  destinationPort : UInt16
  readable : (readIPv6 source).isSome = true ∧ (readIPv6 destination).isSome = true
  fits : (join (js " ") (tcp6Fields source destination sourcePort destinationPort)).length + 2 ≤
    v1MaxLength

namespace Tcp6Line

def text (line : Tcp6Line) : JsString :=
  join (js " ") (tcp6Fields line.source line.destination line.sourcePort line.destinationPort)

def bytes (line : Tcp6Line) : Bytes := asciiBytes line.text ++ [0x0D, 0x0A]

/-- An address is written with an IPv4 address in it. -/
def Dotted (line : Tcp6Line) : Prop :=
  unit '.' ∈ line.source ∨ unit '.' ∈ line.destination

end Tcp6Line

/-- How the mapped form of an address comes to the server. -/
inductive Arrival (address : Address .inet) where
  | socket
  | v1 (line : Tcp6Line) (hsource : readIPv6 line.source = some (mappedAddress address).val)
      (remoteAddress : Option JsString) (payload : Bytes) (reads : List (Option Bytes))
      (hreads : received reads = line.bytes ++ payload)
  | v2 (header : V2Header) (hfamily : header.family = .inet6)
      (hsource : header.source.val = (mappedAddress address).val)
      (remoteAddress : Option JsString) (payload : Bytes) (reads : List (Option Bytes))
      (hreads : received reads = header.encode ++ payload)

namespace Arrival

variable {address : Address .inet}

/-- The socket of the connection. -/
def connection : Arrival address → OriginSocket
  | socket => ⟨some (js "::ffff:" ++ address.text), none⟩
  | v1 _ _ remoteAddress _ reads _ => connectionSocket remoteAddress reads
  | v2 _ _ _ remoteAddress _ reads _ => connectionSocket remoteAddress reads

/-- The address is that of the socket, or the line that tells it is refused for a dot on a
connection that comes from the same address. -/
def Recognised : Arrival address → Prop
  | socket => True
  | v1 line _ remoteAddress _ _ _ =>
      line.Dotted ∧ remoteAddress.map dropMappedPrefix = some address.text
  | v2 .. => False

end Arrival

theorem dot_mem_text (address : Address .inet) : unit '.' ∈ address.text := by
  have htext : address.text = decimal (byteAt address.val 0) ++ js "." ++
      join (js ".") ([1, 2, 3].map fun i => decimal (byteAt address.val i)) := rfl
  rw [htext]
  exact List.mem_append_left _ (List.mem_append_right _ List.mem_cons_self)

theorem mem_of_mem_dropMappedPrefix {s : JsString} {c : UInt16} (h : c ∈ dropMappedPrefix s) :
    c ∈ s := by
  rw [dropMappedPrefix] at h
  split_ifs at h
  · exact List.mem_of_mem_drop h
  · exact h

/-- No text without a dot is rewritten to an IPv4 address. -/
theorem dropMappedPrefix_ne_text {s : JsString} (h : unit '.' ∉ s) (address : Address .inet) :
    dropMappedPrefix s ≠ address.text := by
  intro heq
  apply h
  apply mem_of_mem_dropMappedPrefix
  rw [heq]
  exact dot_mem_text address

theorem dropMappedPrefix_mapped (s : JsString) : dropMappedPrefix (js "::ffff:" ++ s) = s := by
  rw [dropMappedPrefix, if_pos (startsWith_iff.mpr (List.prefix_append _ _))]
  exact List.drop_left' rfl

theorem dot_notMem_formatIPv6 (bytes : Bytes) : unit '.' ∉ formatIPv6 bytes := by
  intro hdot
  rcases mem_join hdot with ⟨part, hpart, hc⟩ | hc
  · obtain ⟨i, -, rfl⟩ := List.mem_map.mp hpart
    exact notMem_hexText (by decide) _ hc
  · exact absurd hc (by decide)

theorem isIPv6Unit_of_hexValue {c : UInt16} (h : (hexValue c).isSome = true) :
    isIPv6Unit c = true := by
  rw [hexValue] at h
  rw [isIPv6Unit, isDigit]
  split_ifs at h with hdigit hupper hlower
  · rw [decide_eq_true hdigit]
    rfl
  · have hupper' : unit 'A' ≤ c ∧ c ≤ unit 'F' := hupper
    rw [decide_eq_true hupper', Bool.or_true, Bool.true_or]
  · have hlower' : unit 'a' ≤ c ∧ c ≤ unit 'f' := hlower
    rw [decide_eq_true hlower', Bool.or_true, Bool.true_or, Bool.true_or]
  · cases h

theorem partUnit_ascii {c : UInt16} (h : isPartUnit c = true) :
    c < 128 ∧ c ≠ unit ' ' ∧ c ≠ 0x0D := by
  rw [isPartUnit, Bool.or_eq_true, beq_iff_eq] at h
  rcases h with h | rfl
  · refine ⟨?_, ?_, ?_⟩
    · rw [hexValue] at h
      split_ifs at h with hdigit hupper hlower
      · exact UInt16.lt_of_le_of_lt hdigit.2 (by decide)
      · exact UInt16.lt_of_le_of_lt hupper.2 (by decide)
      · exact UInt16.lt_of_le_of_lt hlower.2 (by decide)
      · cases h
    · rintro rfl
      cases h
    · rintro rfl
      cases h
  · decide

/-- A readable text is valid unless there is a dot in it. -/
theorem isValidAddress_tcp6_iff {addr : JsString} {bytes : Bytes}
    (h : readIPv6 addr = some bytes) :
    isValidAddress addr (js "TCP6") = true ↔ unit '.' ∉ addr := by
  have hprotocol : js "TCP6" ≠ js "TCP4" := by decide
  rw [isValidAddress, if_neg hprotocol, if_pos rfl, includes_colon_of_readIPv6 h, Bool.true_and,
    Bool.and_eq_true, decide_eq_true_eq, List.all_eq_true]
  constructor
  · rintro ⟨-, hunits⟩ hdot
    exact absurd (hunits _ hdot) (by decide)
  · intro hdot
    refine ⟨length_le_of_readIPv6 h hdot, fun c hc => ?_⟩
    rcases units_of_readIPv6 h c hc with hpart | rfl
    · rw [isPartUnit, Bool.or_eq_true, beq_iff_eq] at hpart
      rcases hpart with hhex | rfl
      · exact isIPv6Unit_of_hexValue hhex
      · exact absurd hc hdot
    · decide

namespace Tcp6Line

variable (line : Tcp6Line)

theorem dotted_iff : line.Dotted ↔
    (isValidAddress line.source (js "TCP6") && isValidAddress line.destination (js "TCP6")) =
      false := by
  obtain ⟨source, hsource⟩ := Option.isSome_iff_exists.mp line.readable.1
  obtain ⟨destination, hdestination⟩ := Option.isSome_iff_exists.mp line.readable.2
  rw [Bool.and_eq_false_iff, ← Bool.not_eq_true, ← Bool.not_eq_true,
    isValidAddress_tcp6_iff hsource, isValidAddress_tcp6_iff hdestination, not_not, not_not]
  rfl

/-- The fields are of visible ASCII characters. -/
theorem field_units : ∀ field ∈
    tcp6Fields line.source line.destination line.sourcePort line.destinationPort,
    ∀ c ∈ field, c < 128 ∧ c ≠ unit ' ' ∧ c ≠ 0x0D := by
  have hname : ∀ name : JsString,
      name.all (fun c => decide (c < 128 ∧ c ≠ unit ' ' ∧ c ≠ 0x0D)) = true →
      ∀ c ∈ name, c < 128 ∧ c ≠ unit ' ' ∧ c ≠ 0x0D := by
    intro name hall c hc
    exact of_decide_eq_true (List.all_eq_true.mp hall c hc)
  have haddress : ∀ addr : JsString, (readIPv6 addr).isSome = true →
      ∀ c ∈ addr, c < 128 ∧ c ≠ unit ' ' ∧ c ≠ 0x0D := by
    intro addr haddr c hc
    obtain ⟨bytes, hbytes⟩ := Option.isSome_iff_exists.mp haddr
    rcases units_of_readIPv6 hbytes c hc with hpart | rfl
    · exact partUnit_ascii hpart
    · decide
  have hdecimal : ∀ n : Nat, ∀ c ∈ decimal n, c < 128 ∧ c ≠ unit ' ' ∧ c ≠ 0x0D := by
    intro n c hc
    apply partUnit_ascii
    rw [isPartUnit, isSome_hexValue_of_isDigit (isDigit_of_mem_decimal hc), Bool.true_or]
  intro field hfield c hc
  simp only [tcp6Fields, List.mem_cons, List.not_mem_nil, or_false] at hfield
  rcases hfield with rfl | rfl | rfl | rfl | rfl | rfl
  · exact hname _ (by decide) c hc
  · exact hname _ (by decide) c hc
  · exact haddress _ line.readable.1 c hc
  · exact haddress _ line.readable.2 c hc
  · exact hdecimal _ c hc
  · exact hdecimal _ c hc

theorem text_units : ∀ c ∈ line.text, c < 128 ∧ c ≠ 0x0D := by
  intro c hc
  rcases mem_join hc with ⟨field, hfield, hc⟩ | hc
  · obtain ⟨hascii, -, hcr⟩ := line.field_units field hfield c hc
    exact ⟨hascii, hcr⟩
  · rw [show js " " = [unit ' '] from rfl, List.mem_singleton] at hc
    rw [hc]
    decide

theorem bytes_append (payload : Bytes) :
    line.bytes ++ payload = asciiBytes line.text ++ ([0x0D, 0x0A] ++ payload) :=
  List.append_assoc ..

theorem length_asciiBytes : (asciiBytes line.text).length = line.text.length :=
  List.length_map _

theorem crlfIndex_bytes (payload : Bytes) :
    crlfIndex (line.bytes ++ payload) = some line.text.length := by
  have hlength := line.length_asciiBytes
  have hafter : ∀ i, byteAt (line.bytes ++ payload) (line.text.length + i) =
      byteAt ([0x0D, 0x0A] ++ payload) i := by
    intro i
    rw [bytes_append, byteAt_append_of_le _ (by omega), hlength, Nat.add_sub_cancel_left]
  rw [crlfIndex_eq_some_iff]
  refine ⟨⟨hafter 0, hafter 1⟩, ⟨?_, line.fits⟩, ?_⟩
  · rw [bytes_append, List.length_append, List.length_append, hlength]
    exact Nat.add_le_add_left (Nat.le_add_right 2 _) _
  · rintro j hj ⟨hcr, -⟩
    have hj' : j < (asciiBytes line.text).length := hj.trans_eq hlength.symm
    rw [bytes_append, byteAt_append _ hj', byteAt, List.getD_eq_getElem _ _ hj'] at hcr
    obtain ⟨c, hc, heq⟩ := List.mem_map.mp (List.getElem_mem hj')
    obtain ⟨hascii, hne⟩ := line.text_units c hc
    rw [← heq, UInt16.toNat_toUInt8, Nat.mod_eq_of_lt] at hcr
    · exact hne (UInt16.toNat_inj.mp hcr)
    · exact (UInt16.lt_iff_toNat_lt.mp hascii).trans (by decide)

theorem split_text : split line.text (js " ") =
    tcp6Fields line.source line.destination line.sourcePort line.destinationPort := by
  apply split_join (js_ne_nil (by decide)) (List.cons_ne_nil _ _)
  intro field hfield
  apply uncut_of_notMem
  intro hspace
  exact (line.field_units field hfield _ hspace).2.1 rfl

/-- Only the addresses decide whether a line tells something. -/
theorem v1Data_text :
    v1Data line.text =
      if isValidAddress line.source (js "TCP6") && isValidAddress line.destination (js "TCP6") then
        some ⟨line.source, line.sourcePort.toNat, line.destination, line.destinationPort.toNat⟩
      else none := by
  have hport : ∀ port : UInt16, isValidPort (port.toNat : Int) = true := by
    intro port
    have hlt := UInt16.toNat_lt port
    rw [isValidPort, decide_eq_true_eq]
    omega
  rw [v1Data, split_text]
  simp only [tcp6Fields, or_true, and_true, if_true, parseInt_decimal, hport, Bool.true_and]

theorem parseProxyProtocol_bytes (payload : Bytes) :
    parseProxyProtocol (line.bytes ++ payload) = some ⟨v1Data line.text, payload⟩ := by
  have hlength := line.length_asciiBytes
  obtain ⟨rest, hrest⟩ : ∃ rest, line.bytes ++ payload = v1Signature ++ rest :=
    ⟨_, by
      rw [bytes_append, text, tcp6Fields, join_cons _ _ (List.cons_ne_nil _ _), asciiBytes,
        List.map_append, List.append_assoc]
      rfl⟩
  have htype : detectProxyProtocol (line.bytes ++ payload) = .v1 := by
    rw [hrest, detectProxyProtocol_append rest (by decide)]
    rfl
  rw [parseProxyProtocol, htype]
  simp only
  rw [parseV1, crlfIndex_bytes]
  simp only
  have htake : (line.bytes ++ payload).take line.text.length = asciiBytes line.text := by
    rw [bytes_append, List.take_left' hlength]
  have hdrop : (line.bytes ++ payload).drop (line.text.length + 2) = payload :=
    List.drop_left' (by rw [bytes, List.length_append, hlength]; rfl)
  rw [htake, hdrop, asciiText_asciiBytes fun c hc => (line.text_units c hc).1]

end Tcp6Line

theorem connectionSocket_of_parse {stream : Bytes} {result : ProxyProtocolResult}
    {reads : List (Option Bytes)} (hparse : parseProxyProtocol stream = some result)
    (hreads : received reads = stream) (remoteAddress : Option JsString) :
    connectionSocket remoteAddress reads = ⟨remoteAddress, attachedProxy result⟩ := by
  obtain ⟨data, unread, hprocessing, -⟩ := parseProxyProtocolHeader_of_parse hparse hreads
  rw [connectionSocket, hprocessing]

/-- Addresses whose source has a text are attached, and their source is the origin. -/
theorem rawOrigin_attached {told : ProxyProtocolData} (h : told.sourceAddress ≠ [])
    (remoteAddress : Option JsString) (payload : Bytes) :
    rawOrigin ⟨remoteAddress, attachedProxy ⟨some told, payload⟩⟩ = some told.sourceAddress := by
  have hattached : attachedProxy ⟨some told, payload⟩ = some told := by
    rw [attachedProxy, Option.filter_some, if_pos]
    simpa using h
  rw [rawOrigin, hattached]
  rfl

theorem Arrival.origin_v1 {address : Address .inet} {line : Tcp6Line}
    {hsource : readIPv6 line.source = some (mappedAddress address).val}
    {remoteAddress : Option JsString} {payload : Bytes} {reads : List (Option Bytes)}
    {hreads : received reads = line.bytes ++ payload} :
    (rawOrigin (connection (.v1 line hsource remoteAddress payload reads hreads))).map
        dropMappedPrefix = some address.text ↔
      Recognised (.v1 line hsource remoteAddress payload reads hreads) := by
  have hsocket := connectionSocket_of_parse (line.parseProxyProtocol_bytes payload) hreads
    remoteAddress
  rw [connection, hsocket, line.v1Data_text, Recognised, line.dotted_iff]
  cases hvalid : isValidAddress line.source (js "TCP6") &&
      isValidAddress line.destination (js "TCP6") with
  | false =>
      rw [if_neg Bool.false_ne_true]
      exact ⟨fun h => ⟨rfl, h⟩, fun h => h.2⟩
  | true =>
      have hdot : unit '.' ∉ line.source :=
        (isValidAddress_tcp6_iff hsource).mp (Bool.and_eq_true_iff.mp hvalid).1
      have hne : line.source ≠ [] := by
        intro hnil
        rw [hnil] at hsource
        cases hsource
      rw [if_pos rfl, rawOrigin_attached hne]
      constructor
      · intro h
        exact absurd (Option.some.inj h) (dropMappedPrefix_ne_text hdot address)
      · rintro ⟨hfalse, -⟩
        cases hfalse

theorem Arrival.origin_v2 {address : Address .inet} {header : V2Header}
    {hfamily : header.family = .inet6} {hsource : header.source.val = (mappedAddress address).val}
    {remoteAddress : Option JsString} {payload : Bytes} {reads : List (Option Bytes)}
    {hreads : received reads = header.encode ++ payload} :
    (rawOrigin (connection (.v2 header hfamily hsource remoteAddress payload reads hreads))).map
        dropMappedPrefix ≠ some address.text := by
  have hformat : header.family.format = formatIPv6 := congrArg AddressFamily.format hfamily
  have htext : header.source.text = formatIPv6 header.source.val := congrFun hformat _
  have hne : header.source.text ≠ [] := by
    have hread := AddressFamily.read_text header.source
    have hempty : ∀ family : AddressFamily, family.read [] = none := by
      intro family
      cases family <;> rfl
    intro hnil
    rw [hnil, hempty] at hread
    cases hread
  rw [connection, connectionSocket_of_parse (header.parse_eq payload) hreads,
    rawOrigin_attached hne, Option.map_some, htext]
  intro h
  exact dropMappedPrefix_ne_text (dot_notMem_formatIPv6 _) address (Option.some.inj h)

/-- The origin of a request is the IPv4 text if and only if the address is recognised, whatever
the version of HTTP and the wrappers of the connection. -/
theorem origin_iff_recognised {address : Address .inet} (arrival : Arrival address)
    (httpVersion : HttpVersion) (encrypted : Bool) :
    origin (requestSockets httpVersion encrypted arrival.connection) = some address.text ↔
      arrival.Recognised := by
  rw [origin, getConnectionSocket_requestSockets]
  cases arrival with
  | socket =>
      rw [Arrival.connection, rawOrigin, Option.map_none, Option.none_or, Option.map_some,
        dropMappedPrefix_mapped]
      exact ⟨fun _ => trivial, fun _ => rfl⟩
  | v1 line hsource remoteAddress payload reads hreads => exact Arrival.origin_v1
  | v2 header hfamily hsource remoteAddress payload reads hreads =>
      exact ⟨fun h => absurd h Arrival.origin_v2, False.elim⟩

/-- `192.168.1.1`. -/
def privateAddress : Address .inet := ⟨[192, 168, 1, 1], rfl⟩

/-- A line for a client with this address, in the spelling with dots. -/
def dottedLine : Tcp6Line where
  source := js "::ffff:192.168.1.1"
  destination := js "::1"
  sourcePort := 56324
  destinationPort := 443
  readable := by decide +kernel
  fits := by decide +kernel

/-- The line tells nothing, and the connection comes from the same client. -/
def dottedArrival : Arrival privateAddress :=
  .v1 dottedLine (by decide +kernel) (some (js "::ffff:192.168.1.1")) [] [some dottedLine.bytes]
    (by decide +kernel)

theorem origin_iff_recognised_dotted :
    origin (requestSockets .http1 false dottedArrival.connection) = some privateAddress.text :=
  (origin_iff_recognised dottedArrival .http1 false).mpr ⟨.inl (by decide), by decide +kernel⟩

/-- A header for a client with this address. -/
def mappedHeader : V2Header where
  family := .inet6
  source := mappedAddress privateAddress
  destination := mappedAddress privateAddress
  sourcePort := 56324
  destinationPort := 443
  extensions := []
  fits := by decide

def mappedArrival : Arrival privateAddress :=
  .v2 mappedHeader rfl rfl none [] [some mappedHeader.encode] (by decide)

/-- The origin of such a client is a text in hexadecimal digits. -/
theorem not_origin_mappedArrival :
    ¬ origin (requestSockets .http1 false mappedArrival.connection) =
      some privateAddress.text := by
  rw [origin, getConnectionSocket_requestSockets]
  exact Arrival.origin_v2

end TestServer
