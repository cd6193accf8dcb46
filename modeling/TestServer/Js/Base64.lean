import TestServer.Js.Text

/-!
# Base64

The text that `Buffer.toString('base64')` gives. Its bytes can be read back.
-/

namespace TestServer.Js

def base64Digit (n : Nat) : UInt16 :=
  (if n < 26 then 65 + n
    else if n < 52 then 71 + n
    else if n < 62 then n - 4
    else if n = 62 then 43
    else 47).toUInt16

/-- Three bytes are four digits. What is missing at the end is padded. -/
def toBase64 : List UInt8 → JsString
  | [] => []
  | [a] => [base64Digit (a.toNat / 4), base64Digit (a.toNat % 4 * 16), unit '=', unit '=']
  | [a, b] =>
      [base64Digit (a.toNat / 4), base64Digit (a.toNat % 4 * 16 + b.toNat / 16),
        base64Digit (b.toNat % 16 * 4), unit '=']
  | a :: b :: c :: rest =>
      base64Digit (a.toNat / 4) :: base64Digit (a.toNat % 4 * 16 + b.toNat / 16) ::
        base64Digit (b.toNat % 16 * 4 + c.toNat / 64) :: base64Digit (c.toNat % 64) ::
          toBase64 rest

example : toBase64 [97, 58, 98] = js "YTpi" ∧ toBase64 [97, 58] = js "YTo=" := by decide

def base64Value (c : UInt16) : Nat :=
  if 97 ≤ c then c.toNat - 71
  else if 65 ≤ c then c.toNat - 65
  else if 48 ≤ c then c.toNat + 4
  else if c = 43 then 62
  else 63

/-- The bytes of digits with their padding. -/
def readBase64 : JsString → List UInt8
  | a :: b :: c :: d :: rest =>
      let first := (base64Value a * 4 + base64Value b / 16).toUInt8
      let second := (base64Value b % 16 * 16 + base64Value c / 4).toUInt8
      let third := (base64Value c % 4 * 64 + base64Value d).toUInt8
      if c = unit '=' then [first]
      else if d = unit '=' then [first, second]
      else first :: second :: third :: readBase64 rest
  | _ => []

theorem base64Value_digit : ∀ n < 64, base64Value (base64Digit n) = n := by
  decide

theorem base64Digit_ne : ∀ n < 64, base64Digit n ≠ unit '=' ∧ base64Digit n ≠ unit ' ' := by
  decide

theorem toUInt8_toNat (a : UInt8) : a.toNat.toUInt8 = a := UInt8.ofNat_toNat

theorem readBase64_toBase64 (data : List UInt8) : readBase64 (toBase64 data) = data := by
  induction data using toBase64.induct with
  | case1 => rfl
  | case2 a =>
      have ha : a.toNat < 256 := a.toNat_lt
      have hfirst : a.toNat / 4 * 4 + a.toNat % 4 * 16 / 16 = a.toNat := by omega
      rw [toBase64, readBase64, if_pos rfl, base64Value_digit _ (by omega),
        base64Value_digit _ (by omega), hfirst, toUInt8_toNat]
  | case3 a b =>
      have ha : a.toNat < 256 := a.toNat_lt
      have hb : b.toNat < 256 := b.toNat_lt
      have hfirst : a.toNat / 4 * 4 + (a.toNat % 4 * 16 + b.toNat / 16) / 16 = a.toNat := by omega
      have hsecond : (a.toNat % 4 * 16 + b.toNat / 16) % 16 * 16 + b.toNat % 16 * 4 / 4 =
          b.toNat := by
        omega
      rw [toBase64, readBase64, if_neg (base64Digit_ne _ (by omega)).1, if_pos rfl,
        base64Value_digit _ (by omega), base64Value_digit _ (by omega),
        base64Value_digit _ (by omega), hfirst, hsecond, toUInt8_toNat,
        toUInt8_toNat]
  | case4 a b c rest ih =>
      have ha : a.toNat < 256 := a.toNat_lt
      have hb : b.toNat < 256 := b.toNat_lt
      have hc : c.toNat < 256 := c.toNat_lt
      have hfirst : a.toNat / 4 * 4 + (a.toNat % 4 * 16 + b.toNat / 16) / 16 = a.toNat := by omega
      have hsecond : (a.toNat % 4 * 16 + b.toNat / 16) % 16 * 16 +
          (b.toNat % 16 * 4 + c.toNat / 64) / 4 = b.toNat := by
        omega
      have hthird : (b.toNat % 16 * 4 + c.toNat / 64) % 4 * 64 + c.toNat % 64 = c.toNat := by
        omega
      rw [toBase64, readBase64, if_neg (base64Digit_ne _ (by omega)).1,
        if_neg (base64Digit_ne _ (by omega)).1, base64Value_digit _ (by omega),
        base64Value_digit _ (by omega), base64Value_digit _ (by omega),
        base64Value_digit _ (by omega), hfirst, hsecond, hthird, toUInt8_toNat,
        toUInt8_toNat, toUInt8_toNat, ih]

theorem toBase64_injective : Function.Injective toBase64 :=
  Function.LeftInverse.injective readBase64_toBase64

theorem space_notMem_toBase64 (data : List UInt8) : unit ' ' ∉ toBase64 data := by
  have hdigit : ∀ n < 64, unit ' ' ≠ base64Digit n := fun n hn => (base64Digit_ne n hn).2.symm
  have hpad : unit ' ' ≠ unit '=' := by decide
  induction data using toBase64.induct with
  | case1 => exact List.not_mem_nil
  | case2 a =>
      have ha : a.toNat < 256 := a.toNat_lt
      simp [toBase64, hdigit (a.toNat / 4) (by omega), hdigit (a.toNat % 4 * 16) (by omega), hpad]
  | case3 a b =>
      have ha : a.toNat < 256 := a.toNat_lt
      have hb : b.toNat < 256 := b.toNat_lt
      simp [toBase64, hdigit (a.toNat / 4) (by omega),
        hdigit (a.toNat % 4 * 16 + b.toNat / 16) (by omega),
        hdigit (b.toNat % 16 * 4) (by omega), hpad]
  | case4 a b c rest ih =>
      have ha : a.toNat < 256 := a.toNat_lt
      have hb : b.toNat < 256 := b.toNat_lt
      have hc : c.toNat < 256 := c.toNat_lt
      simp [toBase64, hdigit (a.toNat / 4) (by omega),
        hdigit (a.toNat % 4 * 16 + b.toNat / 16) (by omega),
        hdigit (b.toNat % 16 * 4 + c.toNat / 64) (by omega), hdigit (c.toNat % 64) (by omega), ih]

end TestServer.Js
