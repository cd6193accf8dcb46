import TestServer.Js.Double
import TestServer.Js.Number
import TestServer.Js.Uri

/-!
# Reading JSON

`JSON.parse`, and that it reads back what `JSON.stringify` writes for an object
of strings and integers.

## Implementation notes

The fuel of a value is the length of the text, which every step of its reading
shortens.
-/

namespace TestServer.Js

/-- What a JSON text stands for. -/
inductive JsonValue where
  | null
  | bool (b : Bool)
  | num (n : JsNumber)
  | str (s : JsString)
  | array (elements : List JsonValue)
  | object (members : List (JsString × JsonValue))

namespace JsonValue

/-- Whether the value counts as true in a condition. -/
def truthy : JsonValue → Bool
  | null => false
  | bool b => b
  | num (.finite q) => decide (q ≠ 0)
  | num (.infinite _) => true
  | str s => !s.isEmpty
  | array _ => true
  | object _ => true

/-- `value[name]`, for a name that no prototype has: the last member of that name. Reading it
from `null` throws. -/
def get (name : JsString) : JsonValue → Option JsonValue
  | object members => (members.reverse.find? fun m => decide (m.1 = name)).map Prod.snd
  | _ => none

end JsonValue

def isJsonSpace (c : UInt16) : Bool :=
  decide (c = 0x20) || decide (c = 9) || decide (c = 10) || decide (c = 13)

def skipSpace (s : JsString) : JsString := s.dropWhile isJsonSpace

/-- The unit that an escape of two units stands for. -/
def unescape (e : UInt16) : Option UInt16 :=
  if e = unit 'b' then some 8
  else if e = unit 't' then some 9
  else if e = unit 'n' then some 10
  else if e = unit 'f' then some 12
  else if e = unit 'r' then some 13
  else if e = 34 ∨ e = 92 ∨ e = unit '/' then some e
  else none

def hexUnit (a b c d : UInt16) : Option UInt16 := do
  let a ← hexValue a
  let b ← hexValue b
  let c ← hexValue c
  let d ← hexValue d
  return (4096 * a + 256 * b + 16 * c + d).toUInt16

/-- The string that a text goes on with after its opening quote, and the rest of the text. -/
def readString : JsString → Option (JsString × JsString)
  | [] => none
  | c :: rest =>
      if c = 34 then some ([], rest)
      else if c = 92 then
        match rest with
        | [] => none
        | e :: rest =>
            if e = unit 'u' then
              match rest with
              | h₃ :: h₂ :: h₁ :: h₀ :: rest => do
                  let u ← hexUnit h₃ h₂ h₁ h₀
                  let (s, rest) ← readString rest
                  return (u :: s, rest)
              | _ => none
            else do
              let u ← unescape e
              let (s, rest) ← readString rest
              return (u :: s, rest)
      else if c < 32 then none
      else do
        let (s, rest) ← readString rest
        return (c :: s, rest)

def minusSign (s : JsString) : Bool × JsString :=
  match s with
  | 45 :: rest => (true, rest)
  | rest => (false, rest)

/-- One or more digits. -/
def readDigits (s : JsString) : Option (JsString × JsString) :=
  match s.takeWhile isDigit with
  | [] => none
  | digits => some (digits, s.dropWhile isDigit)

/-- A zero, or digits that do not start with one. -/
def readInteger (s : JsString) : Option (JsString × JsString) :=
  match s with
  | 48 :: rest => some ([48], rest)
  | rest => readDigits rest

def readFraction (s : JsString) : Option (JsString × JsString) :=
  match s with
  | 46 :: rest => readDigits rest
  | rest => some ([], rest)

def readExponent (s : JsString) : Option (Int × JsString) :=
  match s with
  | [] => some (0, [])
  | c :: rest =>
      if c = unit 'e' ∨ c = unit 'E' then
        match rest with
        | 45 :: rest => (readDigits rest).map fun r => (-(digitsValue r.1 : Int), r.2)
        | 43 :: rest => (readDigits rest).map fun r => ((digitsValue r.1 : Int), r.2)
        | rest => (readDigits rest).map fun r => ((digitsValue r.1 : Int), r.2)
      else some (0, c :: rest)

def readNumber (s : JsString) : Option (JsNumber × JsString) := do
  let (negative, s) := minusSign s
  let (digits, s) ← readInteger s
  let (fraction, s) ← readFraction s
  let (exponent, s) ← readExponent s
  let value : ℚ := digitsValue (digits ++ fraction) * 10 ^ (exponent - fraction.length)
  return (toDouble (if negative then -value else value), s)

def readLiteral (s : JsString) : Option (JsonValue × JsString) :=
  if startsWith s (js "true") then some (.bool true, s.drop 4)
  else if startsWith s (js "false") then some (.bool false, s.drop 5)
  else if startsWith s (js "null") then some (.null, s.drop 4)
  else none

mutual

/-- The value that a text starts with, and the rest of the text. -/
def readValue : Nat → JsString → Option (JsonValue × JsString)
  | 0, _ => none
  | fuel + 1, s =>
      match skipSpace s with
      | [] => none
      | c :: rest =>
          if c = unit '{' then
            match skipSpace rest with
            | 125 :: rest => some (.object [], rest)
            | rest => (readMembers fuel rest).map fun r => (.object r.1, r.2)
          else if c = unit '[' then
            match skipSpace rest with
            | 93 :: rest => some (.array [], rest)
            | rest => (readElements fuel rest).map fun r => (.array r.1, r.2)
          else if c = 34 then (readString rest).map fun r => (.str r.1, r.2)
          else if c = unit '-' ∨ isDigit c = true then
            (readNumber (c :: rest)).map fun r => (.num r.1, r.2)
          else readLiteral (c :: rest)

/-- One or more members, up to the closing brace. -/
def readMembers : Nat → JsString → Option (List (JsString × JsonValue) × JsString)
  | 0, _ => none
  | fuel + 1, s =>
      match skipSpace s with
      | 34 :: rest => do
          let (name, rest) ← readString rest
          match skipSpace rest with
          | 58 :: rest => do
              let (value, rest) ← readValue fuel rest
              match skipSpace rest with
              | 44 :: rest => do
                  let (members, rest) ← readMembers fuel rest
                  return ((name, value) :: members, rest)
              | 125 :: rest => return ([(name, value)], rest)
              | _ => none
          | _ => none
      | _ => none

/-- One or more elements, up to the closing bracket. -/
def readElements : Nat → JsString → Option (List JsonValue × JsString)
  | 0, _ => none
  | fuel + 1, s => do
      let (value, rest) ← readValue fuel s
      match skipSpace rest with
      | 44 :: rest => do
          let (elements, rest) ← readElements fuel rest
          return (value :: elements, rest)
      | 93 :: rest => return ([value], rest)
      | _ => none

end

/-- `JSON.parse`; nothing where it throws. -/
def jsonParse (s : JsString) : Option JsonValue := do
  let (value, rest) ← readValue (s.length + 1) s
  if skipSpace rest = [] then return value else none

theorem hexValue_hexDigit : ∀ n < 16, hexValue (hexDigit n) = some n := by decide

theorem hexUnit_hex4 (c : UInt16) :
    hexUnit (hexDigit (c.toNat / 4096)) (hexDigit (c.toNat / 256 % 16))
      (hexDigit (c.toNat / 16 % 16)) (hexDigit (c.toNat % 16)) = some c := by
  have hc : c.toNat < 65536 := c.toNat_lt
  have hsum : 4096 * (c.toNat / 4096) + 256 * (c.toNat / 256 % 16) + 16 * (c.toNat / 16 % 16) +
      c.toNat % 16 = c.toNat := by
    omega
  rw [hexUnit, hexValue_hexDigit _ (by omega), hexValue_hexDigit _ (by omega),
    hexValue_hexDigit _ (by omega), hexValue_hexDigit _ (by omega)]
  simp only [Option.bind_eq_bind, Option.bind_some, hsum, Option.pure_def, Nat.toUInt16,
    UInt16.ofNat_toNat]

theorem unescape_of_shortEscape {c e : UInt16} (h : shortEscape c = some e) :
    unescape e = some c ∧ e ≠ unit 'u' := by
  refine ⟨?_, shortEscape_ne_u h⟩
  have hall : (shortEscapes.all fun p => decide (unescape p.2 = some p.1)) = true := rfl
  have hpair := List.all_eq_true.mp hall _ (mem_shortEscapes h)
  exact of_decide_eq_true hpair

theorem readString_quote (rest : JsString) : readString (34 :: rest) = some ([], rest) := by
  rw [readString.eq_def]
  rfl

/-- A unit that needs no escape is read as it is. -/
theorem readString_cons {c : UInt16} (hquote : c ≠ 34) (hbackslash : c ≠ 92) (hcontrol : ¬ c < 32)
    (rest : JsString) :
    readString (c :: rest) = (readString rest).map fun r => (c :: r.1, r.2) := by
  rw [readString.eq_def]
  dsimp only
  rw [if_neg hquote, if_neg hbackslash, if_neg hcontrol]
  cases readString rest with
  | none => rfl
  | some r => rfl

theorem readString_shortEscape {c e : UInt16} (h : shortEscape c = some e) (rest : JsString) :
    readString (92 :: e :: rest) = (readString rest).map fun r => (c :: r.1, r.2) := by
  obtain ⟨hunescape, hu⟩ := unescape_of_shortEscape h
  rw [readString.eq_def]
  dsimp only
  rw [if_neg (by decide), if_pos rfl, if_neg hu, hunescape]
  cases readString rest with
  | none => rfl
  | some r => rfl

theorem readString_unicodeEscape (c : UInt16) (rest : JsString) :
    readString (unicodeEscape c ++ rest) = (readString rest).map fun r => (c :: r.1, r.2) := by
  simp only [unicodeEscape, hex4, List.cons_append, List.nil_append]
  rw [readString.eq_def]
  dsimp only
  rw [if_neg (by decide), if_pos rfl, if_pos rfl, hexUnit_hex4]
  cases readString rest with
  | none => rfl
  | some r => rfl

theorem readString_escapeUnit (c : UInt16) (rest : JsString) :
    readString (escapeUnit c ++ rest) = (readString rest).map fun r => (c :: r.1, r.2) := by
  rw [escapeUnit]
  cases hshort : shortEscape c with
  | some e => exact readString_shortEscape hshort rest
  | none =>
      dsimp only
      split_ifs with hescape
      · exact readString_unicodeEscape c rest
      · rw [not_or] at hescape
        apply readString_cons _ _ hescape.1
        · rintro rfl
          cases hshort
        · rintro rfl
          cases hshort

theorem readString_surrogate {c : UInt16} (h : isHighSurrogate c ∨ isLowSurrogate c)
    (rest : JsString) :
    readString (c :: rest) = (readString rest).map fun r => (c :: r.1, r.2) := by
  have hlarge : 0xD800 ≤ c := by
    simp only [isHighSurrogate, isLowSurrogate, decide_eq_true_eq] at h
    rcases h with ⟨h, -⟩ | ⟨h, -⟩
    · exact h
    · exact UInt16.le_trans (by decide) h
  rw [UInt16.le_iff_toNat_le] at hlarge
  apply readString_cons
  · rintro rfl
    exact absurd hlarge (by decide)
  · rintro rfl
    exact absurd hlarge (by decide)
  · rw [UInt16.lt_iff_toNat_lt, Nat.not_lt]
    exact Nat.le_trans (by decide) hlarge

/-- A quoted string is read back. -/
theorem readString_quoteUnits (s rest : JsString) :
    readString (quoteUnits s ++ 34 :: rest) = some (s, rest) := by
  fun_induction quoteUnits s with
  | case1 => exact readString_quote rest
  | case2 c => rw [readString_escapeUnit, readString_quote, Option.map_some]
  | case3 c d s hpair ih =>
      rw [List.cons_append, List.cons_append, readString_surrogate (.inl hpair.1),
        readString_surrogate (.inr hpair.2), ih, Option.map_some, Option.map_some]
  | case4 c d s _ ih => rw [List.append_assoc, readString_escapeUnit, ih, Option.map_some]

/-- The text ends a member of an object. -/
def EndsMember (rest : JsString) : Prop := ∃ c tail, rest = c :: tail ∧ (c = 44 ∨ c = 125)

theorem EndsMember.noDigit {rest : JsString} (h : EndsMember rest) : NoDigit rest := by
  obtain ⟨c, tail, rfl, rfl | rfl⟩ := h
  · exact .cons (by decide)
  · exact .cons (by decide)

theorem takeWhile_digits {digits rest : JsString} (hdigits : ∀ c ∈ digits, isDigit c = true)
    (hrest : NoDigit rest) : (digits ++ rest).takeWhile isDigit = digits := by
  induction digits with
  | nil =>
      cases rest with
      | nil => rfl
      | cons c tail =>
          rw [List.nil_append, List.takeWhile_cons, hrest c rfl, if_neg Bool.false_ne_true]
  | cons c digits ih =>
      obtain ⟨hc, hdigits⟩ := List.forall_mem_cons.mp hdigits
      rw [List.cons_append, List.takeWhile_cons, hc, if_pos rfl, ih hdigits]

theorem dropWhile_digits {digits rest : JsString} (hdigits : ∀ c ∈ digits, isDigit c = true)
    (hrest : NoDigit rest) : (digits ++ rest).dropWhile isDigit = rest := by
  induction digits with
  | nil =>
      cases rest with
      | nil => rfl
      | cons c tail =>
          rw [List.nil_append, List.dropWhile_cons, hrest c rfl, if_neg Bool.false_ne_true]
  | cons c digits ih =>
      obtain ⟨hc, hdigits⟩ := List.forall_mem_cons.mp hdigits
      rw [List.cons_append, List.dropWhile_cons, hc, if_pos rfl, ih hdigits]

theorem digitsValue_decimal (n : Nat) : digitsValue (decimal n) = n := by
  have hfold : ∀ (digits : List Char) (start : Nat), (∀ c ∈ digits, c.isDigit = true) →
      (digits.map unit).foldl (fun n c => 10 * n + (c.toNat - 48)) start =
        Nat.ofDigitChars 10 digits start := by
    intro digits
    induction digits with
    | nil => exact fun _ _ => Nat.ofDigitChars_nil.symm
    | cons c digits ih =>
        intro start hdigits
        obtain ⟨hc, hdigits⟩ := List.forall_mem_cons.mp hdigits
        rw [List.map_cons, List.foldl_cons, Nat.ofDigitChars_cons, ih _ hdigits, unit_toNat hc]
        rfl
  rw [digitsValue, decimal, hfold _ _ fun c hc => Nat.isDigit_of_mem_toDigits (by decide)
    (by decide) hc]
  exact Nat.ofDigitChars_ten_toDigits

/-- The digits of a number that is not zero do not start with one. -/
theorem decimal_head {n : Nat} (hn : n ≠ 0) : ∃ c digits, decimal n = c :: digits ∧ c ≠ 48 := by
  induction n using Nat.strong_induction_on with
  | _ n ih =>
      by_cases hlt : n < 10
      · have hall : ∀ m < 10, m ≠ 0 → decimal m = [unit m.digitChar] ∧ unit m.digitChar ≠ 48 := by
          decide
        obtain ⟨heq, hne⟩ := hall n hlt hn
        exact ⟨_, [], heq, hne⟩
      · have hle : 10 ≤ n := Nat.not_lt.mp hlt
        obtain ⟨c, digits, heq, hne⟩ := ih (n / 10) (by omega) (by omega)
        refine ⟨c, digits ++ [unit (n % 10).digitChar], ?_, hne⟩
        rw [decimal, Nat.toDigits_of_base_le (by decide) hle, List.map_append]
        rw [decimal] at heq
        rw [heq]
        rfl

theorem readInteger_decimal {n : Nat} {rest : JsString} (hrest : NoDigit rest) :
    readInteger (decimal n ++ rest) = some (decimal n, rest) := by
  have hdigits : ∀ c ∈ decimal n, isDigit c = true := fun c hc => isDigit_of_mem_decimal hc
  have hread : readDigits (decimal n ++ rest) = some (decimal n, rest) := by
    have hne : decimal n ≠ [] := by
      simp [decimal, Nat.toDigits_ne_nil]
    obtain ⟨c, digits, heq⟩ := List.exists_cons_of_ne_nil hne
    rw [readDigits, takeWhile_digits hdigits hrest, dropWhile_digits hdigits hrest, heq]
  by_cases hn : n = 0
  · subst hn
    rfl
  · obtain ⟨c, digits, heq, hne⟩ := decimal_head hn
    rw [← hread, heq, List.cons_append, readInteger]
    intro tail h
    exact hne (List.cons.inj h).1

theorem EndsMember.readFraction {rest : JsString} (h : EndsMember rest) :
    readFraction rest = some ([], rest) := by
  obtain ⟨c, tail, rfl, rfl | rfl⟩ := h
  · rfl
  · rfl

theorem EndsMember.readExponent {rest : JsString} (h : EndsMember rest) :
    readExponent rest = some (0, rest) := by
  obtain ⟨c, tail, rfl, rfl | rfl⟩ := h
  · rfl
  · rfl

theorem minusSign_integer (n : Int) (rest : JsString) :
    minusSign (integer n ++ rest) = (decide (n < 0), decimal n.natAbs ++ rest) := by
  rw [integer]
  split_ifs with hneg
  · rw [decide_eq_true hneg]
    rfl
  · rw [decide_eq_false hneg, minusSign]
    intro tail h
    exact decimal_ne_minus h

/-- The sign and the digits of an integer give the integer. -/
theorem signed_natAbs (n : Int) :
    (if decide (n < 0) = true then -(n.natAbs : ℚ) else (n.natAbs : ℚ)) = n := by
  by_cases hneg : n < 0
  · rw [decide_eq_true hneg, if_pos rfl, Nat.cast_natAbs, abs_of_neg hneg, Int.cast_neg, neg_neg]
  · rw [decide_eq_false hneg, if_neg Bool.false_ne_true, Nat.cast_natAbs,
      abs_of_nonneg (not_lt.mp hneg)]

/-- An integer is read back, as a number that needs no rounding. -/
theorem readNumber_integer {n : Int} (hn : |n| < 2 ^ 53) {rest : JsString}
    (hrest : EndsMember rest) : readNumber (integer n ++ rest) = some (.finite n, rest) := by
  rw [readNumber, minusSign_integer]
  simp only [readInteger_decimal hrest.noDigit, hrest.readFraction, hrest.readExponent,
    Option.bind_eq_bind, Option.bind_some, List.append_nil, List.length_nil, Nat.cast_zero,
    sub_zero, zpow_zero, mul_one, digitsValue_decimal, signed_natAbs, toDouble_intCast hn]
  rfl

/-- The text of a value is read back as another value, inside an object. -/
def ReadsBack (v : JsValue) (w : JsonValue) : Prop :=
  ∀ fuel rest, EndsMember rest →
    readValue (fuel + 1) (stringifyValue v ++ rest) = some (w, rest)

theorem skipSpace_cons {c : UInt16} (h : isJsonSpace c = false) (rest : JsString) :
    skipSpace (c :: rest) = c :: rest := by
  rw [skipSpace, List.dropWhile_cons, h, if_neg Bool.false_ne_true]

theorem EndsMember.skipSpace {rest : JsString} (h : EndsMember rest) : skipSpace rest = rest := by
  obtain ⟨c, tail, rfl, rfl | rfl⟩ := h
  · exact skipSpace_cons rfl tail
  · exact skipSpace_cons rfl tail

theorem readsBack_str (s : JsString) : ReadsBack (.str s) (.str s) := by
  intro fuel rest _
  have htext : stringifyValue (.str s) ++ rest = 34 :: (quoteUnits s ++ 34 :: rest) := by
    simp [stringifyValue, quote]
  rw [htext, readValue.eq_def]
  dsimp only
  rw [skipSpace_cons rfl]
  dsimp only
  rw [if_neg (by decide), if_neg (by decide), if_pos rfl, readString_quoteUnits, Option.map_some]

/-- The first unit of an integer tells that a number follows. -/
theorem integer_head (n : Int) : ∃ c tail, integer n = c :: tail ∧
    (c = unit '-' ∨ isDigit c = true) := by
  rw [integer]
  split_ifs
  · exact ⟨_, _, rfl, .inl rfl⟩
  · have hne : decimal n.natAbs ≠ [] := by
      simp [decimal, Nat.toDigits_ne_nil]
    obtain ⟨c, digits, heq⟩ := List.exists_cons_of_ne_nil hne
    refine ⟨c, digits, heq, .inr (isDigit_of_mem_decimal (n := n.natAbs) ?_)⟩
    rw [heq]
    exact List.mem_cons_self

theorem readsBack_num {n : Int} (hn : |n| < 2 ^ 53) : ReadsBack (.num n) (.num (.finite n)) := by
  intro fuel rest hrest
  obtain ⟨c, tail, htext, hc⟩ := integer_head n
  have hne : ∀ d : UInt16, isDigit d = false → d ≠ unit '-' → c ≠ d := by
    rintro d hdigit hminus rfl
    rcases hc with rfl | hc
    · exact hminus rfl
    · rw [hdigit] at hc
      cases hc
  have hspace : isJsonSpace c = false := by
    simp only [isJsonSpace, Bool.or_eq_false_iff, decide_eq_false_iff_not]
    exact ⟨⟨⟨hne _ (by decide) (by decide), hne _ (by decide) (by decide)⟩,
      hne _ (by decide) (by decide)⟩, hne _ (by decide) (by decide)⟩
  have hnumber := readNumber_integer hn hrest
  rw [stringifyValue]
  rw [htext, List.cons_append] at hnumber ⊢
  rw [readValue.eq_def]
  dsimp only
  rw [skipSpace_cons hspace]
  dsimp only
  rw [if_neg (hne _ (by decide) (by decide)), if_neg (hne _ (by decide) (by decide)),
    if_neg (hne _ (by decide) (by decide)), if_pos hc, hnumber, Option.map_some]

theorem stringifyMember_append (name : JsString) (v : JsValue) (rest : JsString) :
    stringifyMember (name, v) ++ rest =
      34 :: (quoteUnits name ++ 34 :: (58 :: (stringifyValue v ++ rest))) := by
  simp [stringifyMember, quote, unit]

/-- A member that others follow is read back. -/
theorem readMembers_comma {name : JsString} {v : JsValue} {w : JsonValue} (h : ReadsBack v w)
    (fuel : Nat) (rest : JsString) :
    readMembers (fuel + 2) (stringifyMember (name, v) ++ 44 :: rest) =
      (readMembers (fuel + 1) rest).map fun r => ((name, w) :: r.1, r.2) := by
  have hends : EndsMember (44 :: rest) := ⟨44, rest, rfl, .inl rfl⟩
  rw [stringifyMember_append, readMembers, skipSpace_cons rfl]
  simp only [readString_quoteUnits, Option.bind_eq_bind, Option.bind_some]
  rw [skipSpace_cons rfl]
  simp only [h fuel _ hends, Option.bind_some, hends.skipSpace]
  cases readMembers (fuel + 1) rest with
  | none => rfl
  | some r => rfl

/-- The last member of an object is read back. -/
theorem readMembers_close {name : JsString} {v : JsValue} {w : JsonValue} (h : ReadsBack v w)
    (fuel : Nat) (rest : JsString) :
    readMembers (fuel + 2) (stringifyMember (name, v) ++ 125 :: rest) =
      some ([(name, w)], rest) := by
  have hends : EndsMember (125 :: rest) := ⟨125, rest, rfl, .inr rfl⟩
  rw [stringifyMember_append, readMembers, skipSpace_cons rfl]
  simp only [readString_quoteUnits, Option.bind_eq_bind, Option.bind_some]
  rw [skipSpace_cons rfl]
  simp only [h fuel _ hends, Option.bind_some, hends.skipSpace]
  rfl

/-- The members of an object are read back, each with what its value is read back as. -/
theorem readMembers_stringify {members : List (JsString × JsValue)}
    {values : List (JsString × JsonValue)} (hne : members ≠ [])
    (h : List.Forall₂ (fun m w => m.1 = w.1 ∧ ReadsBack m.2 w.2) members values)
    {fuel : Nat} (hfuel : members.length < fuel) (rest : JsString) :
    readMembers fuel (join [unit ','] (members.map stringifyMember) ++ 125 :: rest) =
      some (values, rest) := by
  induction h generalizing fuel with
  | nil => exact absurd rfl hne
  | @cons m w members values hfirst htail ih =>
      obtain ⟨name, v⟩ := m
      obtain ⟨name', w⟩ := w
      obtain ⟨rfl, hread⟩ := hfirst
      rw [List.length_cons] at hfuel
      cases htail with
      | nil =>
          obtain ⟨fuel, rfl⟩ : ∃ k, fuel = k + 2 := ⟨fuel - 2, by omega⟩
          exact readMembers_close hread fuel rest
      | @cons m' w' members values hfirst' htail =>
          rw [List.length_cons] at hfuel
          obtain ⟨fuel, rfl⟩ : ∃ k, fuel = k + 2 := ⟨fuel - 2, by omega⟩
          have hlength : (m' :: members).length < fuel + 1 := by
            rw [List.length_cons]
            omega
          have hrest := ih (List.cons_ne_nil _ _) hlength
          have htext : join [unit ','] (((name, v) :: m' :: members).map stringifyMember) ++
              125 :: rest = stringifyMember (name, v) ++
                44 :: (join [unit ','] ((m' :: members).map stringifyMember) ++ 125 :: rest) := by
            simp [join, unit]
          rw [htext, readMembers_comma hread, hrest, Option.map_some]

theorem length_le_join (texts : List JsString) (h : ∀ text ∈ texts, text ≠ []) :
    texts.length ≤ (join [unit ','] texts).length := by
  induction texts with
  | nil => exact Nat.le_refl _
  | cons text rest ih =>
      obtain ⟨htext, hrest⟩ := List.forall_mem_cons.mp h
      have hpos : 0 < text.length := List.length_pos_iff.mpr htext
      by_cases hne : rest = []
      · subst hne
        exact hpos
      · rw [join_cons _ text hne, List.length_cons, List.length_append, List.length_append]
        have hle := ih hrest
        omega

/-- `JSON.parse` reads back what `JSON.stringify` writes for an object. -/
theorem jsonParse_stringifyObject {members : List (JsString × JsValue)}
    {values : List (JsString × JsonValue)} (hne : members ≠ [])
    (h : List.Forall₂ (fun m w => m.1 = w.1 ∧ ReadsBack m.2 w.2) members values) :
    jsonParse (stringifyObject members) = some (.object values) := by
  have hlength : members.length ≤ (join [unit ','] (members.map stringifyMember)).length := by
    calc members.length = (members.map stringifyMember).length := (List.length_map _).symm
      _ ≤ _ := by
          apply length_le_join
          intro text htext
          obtain ⟨m, -, rfl⟩ := List.mem_map.mp htext
          exact List.cons_ne_nil _ _
  have htext : stringifyObject members =
      123 :: (join [unit ','] (members.map stringifyMember) ++ 125 :: []) := rfl
  have hfuel : members.length < (stringifyObject members).length := by
    rw [htext, List.length_cons, List.length_append]
    omega
  have hmembers := readMembers_stringify hne h hfuel []
  have hopen : ∃ tail, join [unit ','] (members.map stringifyMember) ++ 125 :: [] = 34 :: tail := by
    obtain ⟨m, rest, rfl⟩ := List.exists_cons_of_ne_nil hne
    rw [List.map_cons, join_cons_eq_flatMap]
    exact ⟨_, rfl⟩
  obtain ⟨tail, htail⟩ := hopen
  have hvalue : readValue ((stringifyObject members).length + 1) (stringifyObject members) =
      some (.object values, []) := by
    rw [readValue, htext, skipSpace_cons rfl]
    dsimp only
    rw [htail] at hmembers
    rw [if_pos (by decide), ← htext, htail, skipSpace_cons rfl]
    exact congrArg (Option.map _) hmembers
  rw [jsonParse, hvalue]
  rfl

end TestServer.Js
