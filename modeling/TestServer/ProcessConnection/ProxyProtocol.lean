import TestServer.Js.Number
import TestServer.ProcessConnection.DataCapturingStream

/-!
# The PROXY protocol

The parser of `src/proxy-protocol.ts`. A buffer starts with a header of version 1,
a line of text, or of version 2, in binary form, or with none.

## Implementation notes

The fields of a result that is not for `remainingData` are set together, so they
are one optional value here.
-/

namespace TestServer.ProcessConnection

open Js

structure ProxyProtocolData where
  sourceAddress : JsString
  sourcePort : Int
  destinationAddress : JsString
  destinationPort : Int
deriving DecidableEq

structure ProxyProtocolResult where
  proxy : Option ProxyProtocolData
  remainingData : Bytes
deriving DecidableEq

/-- The bytes of `'PROXY '`. -/
def v1Signature : Bytes := [0x50, 0x52, 0x4F, 0x58, 0x59, 0x20]

def v2Signature : Bytes :=
  [0x0D, 0x0A, 0x0D, 0x0A, 0x00, 0x0D, 0x0A, 0x51, 0x55, 0x49, 0x54, 0x0A]

def v1MaxLength : Nat := 109

def v2MinHeader : Nat := 16

def v2MaxAddrLength : Nat := 216

def startsWithSignature (data signature : Bytes) : Bool :=
  signature.isPrefixOf data

/-- `toString('ascii')`, which drops the highest bit of each byte. -/
def asciiText (data : Bytes) : JsString :=
  data.map fun b => (b.toNat % 128).toUInt16

/-- The first CRLF within the allowed length. -/
def crlfIndex (data : Bytes) : Option Nat :=
  (List.range (min data.length v1MaxLength - 1)).find? fun i =>
    byteAt data i == 0x0D && byteAt data (i + 1) == 0x0A

def isIPv4Part (part : JsString) : Bool :=
  match parseInt part with
  | none => false
  | some num => decide (0 ≤ num ∧ num ≤ 255) && part == integer num

def isIPv6Unit (c : UInt16) : Bool :=
  isDigit c || decide (unit 'a' ≤ c ∧ c ≤ unit 'f') || decide (unit 'A' ≤ c ∧ c ≤ unit 'F') ||
    c == unit ':'

def isValidAddress (addr protocol : JsString) : Bool :=
  if protocol = js "TCP4" then
    let parts := split addr (js ".")
    parts.length == 4 && parts.all isIPv4Part
  else if protocol = js "TCP6" then
    includes addr (js ":") && decide (addr.length ≤ 45) && addr.all isIPv6Unit
  else false

def isValidPort (port : Int) : Bool := decide (0 ≤ port ∧ port ≤ 65535)

/-- What the line of a header tells. A line that is malformed or not supported tells nothing. -/
def v1Data (headerLine : JsString) : Option ProxyProtocolData :=
  match split headerLine (js " ") with
  | [name, protocol, srcAddr, dstAddr, srcPortStr, dstPortStr] =>
      if name = js "PROXY" ∧ (protocol = js "TCP4" ∨ protocol = js "TCP6") then
        match parseInt srcPortStr, parseInt dstPortStr with
        | some srcPort, some dstPort =>
            if isValidPort srcPort && isValidPort dstPort && isValidAddress srcAddr protocol &&
                isValidAddress dstAddr protocol then
              some ⟨srcAddr, srcPort, dstAddr, dstPort⟩
            else none
        | _, _ => none
      else none
  | _ => none

def parseV1 (data : Bytes) : Option ProxyProtocolResult :=
  match crlfIndex data with
  | none => if data.length ≥ v1MaxLength then some ⟨none, data⟩ else none
  | some i => some ⟨v1Data (asciiText (data.take i)), data.drop (i + 2)⟩

def word16 (data : Bytes) (offset : Nat) : Nat :=
  (byteAt data offset <<< 8) ||| byteAt data (offset + 1)

theorem byteAt_lt (data : Bytes) (i : Nat) : byteAt data i < 256 := UInt8.toNat_lt _

theorem word16_eq (data : Bytes) (offset : Nat) :
    word16 data offset = byteAt data offset * 256 + byteAt data (offset + 1) := by
  have hlow : byteAt data (offset + 1) < 2 ^ 8 := byteAt_lt _ _
  rw [word16, ← Nat.shiftLeft_add_eq_or_of_lt hlow, Nat.shiftLeft_eq]

/-- `val.toString(16)`. -/
def hexText (n : Nat) : JsString := (Nat.toDigits 16 n).map unit

def formatIPv4 (bytes : Bytes) : JsString :=
  join (js ".") ((List.range 4).map fun i => decimal (byteAt bytes i))

def formatIPv6 (bytes : Bytes) : JsString :=
  join (js ":") ((List.range 8).map fun i => hexText (word16 bytes (2 * i)))

/-- What a complete header tells: only `PROXY` commands for TCP streams tell addresses. -/
def v2Data (header : Bytes) : Option ProxyProtocolData :=
  let command := byteAt header 12 &&& 0x0F
  let family := (byteAt header 13 &&& 0xF0) >>> 4
  let proto := byteAt header 13 &&& 0x0F
  let addrLen := word16 header 14
  let addrData := header.drop v2MinHeader
  if command ≠ 1 ∨ proto ≠ 1 then none
  else if family = 1 then
    if addrLen < 12 then none
    else some ⟨formatIPv4 addrData, word16 addrData 8, formatIPv4 (addrData.drop 4),
      word16 addrData 10⟩
  else if family = 2 then
    if addrLen < 36 then none
    else some ⟨formatIPv6 addrData, word16 addrData 32, formatIPv6 (addrData.drop 16),
      word16 addrData 34⟩
  else none

def parseV2 (data : Bytes) : Option ProxyProtocolResult :=
  if data.length < v2MinHeader then none
  else if (byteAt data 12 &&& 0xF0) >>> 4 ≠ 2 then none
  else if word16 data 14 > v2MaxAddrLength then none
  else
    let totalHeaderLen := v2MinHeader + word16 data 14
    if data.length < totalHeaderLen then none
    else some ⟨v2Data (data.take totalHeaderLen), data.drop totalHeaderLen⟩

inductive ProxyProtocolType where
  | v1
  | v2
  | none
  | incomplete
deriving DecidableEq

def detectProxyProtocol (data : Bytes) : ProxyProtocolType :=
  if data.length = 0 then .incomplete
  else if data.length ≥ v2Signature.length ∧ startsWithSignature data v2Signature then .v2
  else if data.length < v2Signature.length ∧
      startsWithSignature data (v2Signature.take data.length) then .incomplete
  else if data.length ≥ v1Signature.length ∧ startsWithSignature data v1Signature then .v1
  else if data.length < v1Signature.length ∧
      startsWithSignature data (v1Signature.take data.length) then .incomplete
  else .none

def parseProxyProtocol (data : Bytes) : Option ProxyProtocolResult :=
  match detectProxyProtocol data with
  | .v1 => parseV1 data
  | .v2 => parseV2 data
  | .none => some ⟨none, data⟩
  | .incomplete => none

end TestServer.ProcessConnection
