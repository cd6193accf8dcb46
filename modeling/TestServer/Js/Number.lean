import TestServer.Js.Json

/-!
# Numbers in texts

`parseInt` in base ten and `parseFloat`, as far as the program uses them. A
number that is not one is `none`, and integers are not rounded.
-/

namespace TestServer.Js

/-- The letters of ASCII. -/
def isAlpha (c : UInt16) : Bool := decide (65 ≤ c ∧ c ≤ 90 ∨ 97 ≤ c ∧ c ≤ 122)

/-- White space and line terminators. -/
def isWhiteSpace (c : UInt16) : Bool :=
  decide (9 ≤ c ∧ c ≤ 13) || decide (c = 0x20) || decide (c = 0xA0) || decide (c = 0x1680) ||
    decide (0x2000 ≤ c ∧ c ≤ 0x200A) || decide (c = 0x2028) || decide (c = 0x2029) ||
    decide (c = 0x202F) || decide (c = 0x205F) || decide (c = 0x3000) || decide (c = 0xFEFF)

/-- A text without leading white space, and whether a minus sign follows it; the sign is
dropped. -/
def signed (s : JsString) : Bool × JsString :=
  match s.dropWhile isWhiteSpace with
  | 45 :: rest => (true, rest)
  | 43 :: rest => (false, rest)
  | rest => (false, rest)

def digitsValue (digits : JsString) : Nat :=
  digits.foldl (fun n c => 10 * n + (c.toNat - 48)) 0

/-- `parseInt(s, 10)`. -/
def parseInt (s : JsString) : Option Int :=
  let (negative, rest) := signed s
  match rest.takeWhile isDigit with
  | [] => none
  | digits => some (if negative then -(digitsValue digits : Int) else digitsValue digits)

/-- Whether `parseFloat(s)` is a number. -/
def parseFloatIsNumber (s : JsString) : Bool :=
  match (signed s).2 with
  | 46 :: c :: _ => isDigit c
  | c :: rest => isDigit c || startsWith (c :: rest) (js "Infinity")
  | [] => false

/-- The text of a number. -/
def numberText (n : Option Int) : JsString :=
  match n with
  | some n => integer n
  | none => js "NaN"

end TestServer.Js
