import TestServer.Js.Double
import Mathlib.Data.Prod.Lex
import Mathlib.Order.WithBot
import Mathlib.Order.Lattice
import Mathlib.Algebra.Order.Ring.Rat

/-!
# Numbers with signed zeros

All that a number value can be but `NaN`, in the order of `Math.min`. An
optional number is `none` if it is `NaN`.
-/

namespace TestServer.Js

inductive Numeric where
  | negativeZero
  | number (n : JsNumber)
deriving DecidableEq

namespace Numeric

/-- The place among the others. A negative zero comes right before the zero. -/
def place : Numeric → WithBot (WithTop (ℚ ×ₗ Bool))
  | negativeZero => ((toLex ((0 : ℚ), false) : ℚ ×ₗ Bool) : WithTop (ℚ ×ₗ Bool))
  | number (.finite q) => ((toLex (q, true) : ℚ ×ₗ Bool) : WithTop (ℚ ×ₗ Bool))
  | number (.infinite true) => ⊥
  | number (.infinite false) => ((⊤ : WithTop (ℚ ×ₗ Bool)) : WithBot (WithTop (ℚ ×ₗ Bool)))

theorem place_injective : Function.Injective place := by
  intro a b h
  rcases a with _ | ⟨_ | (_ | _)⟩ <;> rcases b with _ | ⟨_ | (_ | _)⟩ <;> simp_all [place]

instance : LinearOrder Numeric := LinearOrder.lift' place place_injective

/-- The number without the sign of a zero. -/
def magnitude : Numeric → JsNumber
  | negativeZero => .finite 0
  | number n => n

/-- The integer part, or zero for an infinity. -/
def truncated (n : Numeric) : Int :=
  match n.magnitude with
  | .finite q => if q < 0 then ⌈q⌉ else ⌊q⌋
  | .infinite _ => 0

end Numeric

/-- `Math.min(a, b)`. -/
def mathMin (a b : Option Numeric) : Option Numeric := do
  let a ← a
  let b ← b
  return min a b

theorem mathMin_right_comm (a b c : Option Numeric) :
    mathMin (mathMin a b) c = mathMin (mathMin a c) b := by
  cases a with
  | none => rfl
  | some a =>
      cases b with
      | none => cases c <;> rfl
      | some b =>
          cases c with
          | none => rfl
          | some c => exact congrArg some (min_right_comm a b c)

theorem mathMin_comm (a b : Option Numeric) : mathMin a b = mathMin b a := by
  cases a with
  | none => cases b <;> rfl
  | some a =>
      cases b with
      | none => rfl
      | some b => exact congrArg some (min_comm a b)

end TestServer.Js
