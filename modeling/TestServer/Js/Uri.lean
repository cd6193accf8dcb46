import TestServer.Js.Text

/-!
# Percent-encoding

`decodeURIComponent` on code units. It fails on an escape that is cut short, on
one that is not in hexadecimal digits, and on octets that are not well-formed
UTF-8.
-/

namespace TestServer.Js

def hexValue (c : UInt16) : Option Nat :=
  if 48 ≤ c ∧ c ≤ 57 then some (c.toNat - 48)
  else if 65 ≤ c ∧ c ≤ 70 then some (c.toNat - 55)
  else if 97 ≤ c ∧ c ≤ 102 then some (c.toNat - 87)
  else none

/-- The octet of an escape at the start of a text, and the rest of the text. -/
def octet : JsString → Option (Nat × JsString)
  | 37 :: a :: b :: rest => do
      let high ← hexValue a
      let low ← hexValue b
      return (16 * high + low, rest)
  | _ => none

/-- How a leading octet goes on: the number of octets that follow it, its share of the code
point, and the least code point that takes as many. -/
def leadingOctet (b : Nat) : Option (Nat × Nat × Nat) :=
  if b < 0x80 then some (0, b, 0)
  else if b < 0xC0 then none
  else if b < 0xE0 then some (1, b - 0xC0, 0x80)
  else if b < 0xF0 then some (2, b - 0xE0, 0x800)
  else if b < 0xF8 then some (3, b - 0xF0, 0x10000)
  else none

/-- Read the octets that follow a leading one. -/
def continuationOctets : Nat → Nat → JsString → Option (Nat × JsString)
  | 0, point, s => some (point, s)
  | n + 1, point, s => do
      let (b, rest) ← octet s
      if 0x80 ≤ b ∧ b < 0xC0 then continuationOctets n (64 * point + (b - 0x80)) rest else none

/-- The code point of the escapes at the start of a text, and the rest of the text. -/
def escapedPoint (s : JsString) : Option (Nat × JsString) := do
  let (b, rest) ← octet s
  let (count, share, least) ← leadingOctet b
  let (point, rest) ← continuationOctets count share rest
  if least ≤ point ∧ point < 0x110000 ∧ ¬ (0xD800 ≤ point ∧ point < 0xE000) then
    some (point, rest)
  else none

def pointUnits (point : Nat) : JsString :=
  if point < 0x10000 then [point.toUInt16]
  else [(0xD800 + (point - 0x10000) / 0x400).toUInt16,
    (0xDC00 + (point - 0x10000) % 0x400).toUInt16]

/-- Decode a text of at most the given length. -/
def decodeUnits : Nat → JsString → Option JsString
  | _, [] => some []
  | 0, _ :: _ => none
  | n + 1, c :: s =>
      if c = 37 then do
        let (point, rest) ← escapedPoint (c :: s)
        let decoded ← decodeUnits n rest
        return pointUnits point ++ decoded
      else do
        let decoded ← decodeUnits n s
        return c :: decoded

def decodeURIComponent (s : JsString) : Option JsString := decodeUnits s.length s

end TestServer.Js
