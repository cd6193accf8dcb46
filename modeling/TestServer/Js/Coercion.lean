import TestServer.Js.JsonParse

/-!
# Values read as numbers

What an arithmetic operator makes of a value that is not a number. No number is
`none`; an object whose own `toString` is in the way makes the operator throw.
-/

namespace TestServer.Js

def trimmed (s : JsString) : JsString :=
  ((s.dropWhile isWhiteSpace).reverse.dropWhile isWhiteSpace).reverse

def trimEnd (s : JsString) : JsString := (s.reverse.dropWhile isWhiteSpace).reverse

/-- The value of digits in a base, if all of them are. -/
def radixValue (base : Nat) (digits : JsString) : Option JsNumber :=
  if digits = [] then none
  else do
    let values ← digits.mapM fun c => (hexValue c).filter fun d => decide (d < base)
    return toDouble (values.foldl (fun n d => base * n + d) 0 : Nat)

def plusMinusSign (s : JsString) : Bool × JsString :=
  match s with
  | 43 :: rest => (false, rest)
  | rest => minusSign rest

/-- A decimal literal, whose digits may be missing on one side of its point. -/
def decimalValue (s : JsString) : Option JsNumber := do
  let (negative, s) := plusMinusSign s
  if s = js "Infinity" then return .infinite negative
  let digits := s.takeWhile isDigit
  let afterDigits := s.dropWhile isDigit
  let (fraction, afterFraction) :=
    match afterDigits with
    | 46 :: rest => (rest.takeWhile isDigit, rest.dropWhile isDigit)
    | rest => ([], rest)
  let (exponent, rest) ← readExponent afterFraction
  if digits ++ fraction = [] ∨ rest ≠ [] then none
  else
    let value : ℚ := digitsValue (digits ++ fraction) * 10 ^ (exponent - fraction.length)
    return toDouble (if negative then -value else value)

/-- The digits after a point, and what follows them. -/
def fractionDigits : JsString → JsString × JsString
  | 46 :: rest => (rest.takeWhile isDigit, rest.dropWhile isDigit)
  | rest => ([], rest)

/-- `parseFloat(s)`; what follows the number is not read. -/
def parseFloat (s : JsString) : Option JsNumber :=
  let (negative, s) := signed s
  if startsWith s (js "Infinity") then some (.infinite negative)
  else
    let digits := s.takeWhile isDigit
    let (fraction, rest) := fractionDigits (s.dropWhile isDigit)
    if digits ++ fraction = [] then none
    else
      -- An exponent without digits belongs to what follows.
      let exponent := ((readExponent rest).map Prod.fst).getD 0
      let value : ℚ := digitsValue (digits ++ fraction) * 10 ^ (exponent - fraction.length)
      some (toDouble (if negative then -value else value))

/-- `parseFloatIsNumber` tells whether there is a number. -/
theorem isSome_parseFloat (s : JsString) : (parseFloat s).isSome = parseFloatIsNumber s := by
  rw [parseFloat, parseFloatIsNumber]
  rcases signed s with ⟨negative, rest⟩
  have hdot : isDigit 46 = false := rfl
  cases rest with
  | nil => rfl
  | cons c rest =>
      by_cases hc : c = 46
      · subst hc
        cases rest with
        | nil => rfl
        | cons d rest =>
            have hinfinity : ¬ startsWith (46 :: d :: rest) (js "Infinity") = true :=
              Bool.false_ne_true
            cases hd : isDigit d with
            | true => simp [fractionDigits, hinfinity, hdot, hd]
            | false => simp [fractionDigits, hinfinity, hdot, hd]
      · by_cases hinfinity : startsWith (c :: rest) (js "Infinity") = true
        · simp [hinfinity, hc]
        · cases hdigit : isDigit c with
          | true => simp [hdigit, hinfinity, hc]
          | false => simp [fractionDigits, hdigit, hinfinity, hc]

/-- `Number(s)`. -/
def stringToNumber (s : JsString) : Option JsNumber :=
  match trimmed s with
  | [] => some (.finite 0)
  | 48 :: c :: digits =>
      if c = unit 'x' ∨ c = unit 'X' then radixValue 16 digits
      else if c = unit 'o' ∨ c = unit 'O' then radixValue 8 digits
      else if c = unit 'b' ∨ c = unit 'B' then radixValue 2 digits
      else decimalValue (48 :: c :: digits)
  | text => decimalValue text

namespace JsonValue

mutual

/-- Whether the text of a value can be told. -/
def hasText : JsonValue → Bool
  | object members => !members.any fun m => decide (m.1 = js "toString")
  | array elements => haveTexts elements
  | _ => true

def haveTexts : List JsonValue → Bool
  | [] => true
  | element :: rest => element.hasText && haveTexts rest

end

/-- The number that the text of an element stands for, when it is the only one of its array. -/
def elementNumber : JsonValue → Option JsNumber
  | null => some (.finite 0)
  | num n => some n
  | str s => stringToNumber s
  | array [] => some (.finite 0)
  | array [element] => element.elementNumber
  | _ => none

/-- The operand of an arithmetic operator; `none` if the operator throws. -/
def toNumber (v : JsonValue) : Option (Option JsNumber) :=
  if v.hasText then
    match v with
    | bool b => some (some (.finite (if b then 1 else 0)))
    | _ => some v.elementNumber
  else none

end JsonValue

end TestServer.Js
