import TestServer.Js.Uri
import Mathlib.Tactic.Ring

/-!
# Decoding UTF-8

`buffer.toString('utf8')`. Octets that are not well-formed are replaced: each
longest start of a character that does not go on becomes one replacement
character.
-/

namespace TestServer.Js

def replacementCharacter : UInt16 := 0xFFFD

/-- A character that has begun: the octets it still needs, the bounds for the next one, and its
share of the code point so far. -/
structure Utf8State where
  needed : Nat
  lower : Nat
  upper : Nat
  point : Nat

/-- Read an octet at the start of a character. -/
def utf8Lead (b : Nat) : JsString × Option Utf8State :=
  if b < 0x80 then ([b.toUInt16], none)
  else if 0xC2 ≤ b ∧ b ≤ 0xDF then ([], some ⟨1, 0x80, 0xBF, b - 0xC0⟩)
  else if 0xE0 ≤ b ∧ b ≤ 0xEF then
    ([], some ⟨2, if b = 0xE0 then 0xA0 else 0x80, if b = 0xED then 0x9F else 0xBF, b - 0xE0⟩)
  else if 0xF0 ≤ b ∧ b ≤ 0xF4 then
    ([], some ⟨3, if b = 0xF0 then 0x90 else 0x80, if b = 0xF4 then 0x8F else 0xBF, b - 0xF0⟩)
  else ([replacementCharacter], none)

/-- Read an octet. One that does not go on with the character begins another. -/
def utf8Step : Option Utf8State → Nat → JsString × Option Utf8State
  | none, b => utf8Lead b
  | some state, b =>
      if state.lower ≤ b ∧ b ≤ state.upper then
        let point := 64 * state.point + (b - 0x80)
        if state.needed ≤ 1 then (pointUnits point, none)
        else ([], some ⟨state.needed - 1, 0x80, 0xBF, point⟩)
      else (replacementCharacter :: (utf8Lead b).1, (utf8Lead b).2)

def decodeUtf8From : Option Utf8State → List UInt8 → JsString
  | none, [] => []
  | some _, [] => [replacementCharacter]
  | state, b :: rest =>
      (utf8Step state b.toNat).1 ++ decodeUtf8From (utf8Step state b.toNat).2 rest

def decodeUtf8 (data : List UInt8) : JsString := decodeUtf8From none data

/-- An ASCII octet is a character. -/
theorem decodeUtf8_cons_of_lt {b : UInt8} (h : b.toNat < 0x80) (rest : List UInt8) :
    decodeUtf8 (b :: rest) = b.toNat.toUInt16 :: decodeUtf8 rest := by
  simp only [decodeUtf8, decodeUtf8From, utf8Step, utf8Lead, if_pos h, List.cons_append,
    List.nil_append]

/-- The number of code points. -/
def pointCount : Nat := 0x110000

/-- The characters that a state can go on to lie outside ASCII. -/
def Utf8State.Wide (state : Utf8State) : Prop :=
  1 ≤ state.needed ∧ 0x80 ≤ state.lower ∧
    0x80 ≤ (64 * state.point + (state.lower - 0x80)) * 64 ^ (state.needed - 1) ∧
    (64 * state.point + (state.upper - 0x80) + 1) * 64 ^ (state.needed - 1) ≤ pointCount

/-- A text starts with a unit outside ASCII. -/
def StartsWide (s : JsString) : Prop := ∃ u rest, s = u :: rest ∧ 0x80 ≤ u.toNat

theorem StartsWide.append {s : JsString} (h : StartsWide s) (t : JsString) :
    StartsWide (s ++ t) := by
  obtain ⟨u, rest, rfl, hu⟩ := h
  exact ⟨u, rest ++ t, rfl, hu⟩

theorem startsWide_replacement (s : JsString) : StartsWide (replacementCharacter :: s) :=
  ⟨replacementCharacter, s, rfl, by decide⟩

theorem startsWide_pointUnits {point : Nat} (h : 0x80 ≤ point) (hlt : point < pointCount) :
    StartsWide (pointUnits point) := by
  simp only [pointCount] at hlt
  simp only [pointUnits]
  split_ifs with hsmall
  · refine ⟨_, [], rfl, ?_⟩
    simp only [Nat.toUInt16, UInt16.toNat_ofNat']
    omega
  · refine ⟨_, _, rfl, ?_⟩
    simp only [Nat.toUInt16, UInt16.toNat_ofNat']
    omega

/-- An octet outside ASCII begins a character outside ASCII, or is replaced. -/
theorem wide_utf8Lead {b : Nat} (h : 0x80 ≤ b) :
    utf8Lead b = ([replacementCharacter], none) ∨
      ∃ state, utf8Lead b = ([], some state) ∧ state.Wide := by
  simp only [utf8Lead, if_neg (Nat.not_lt.mpr h)]
  split_ifs
  all_goals first
    | exact .inl rfl
    | refine .inr ⟨_, rfl, ?_⟩
      simp only [Utf8State.Wide, pointCount]
      omega

theorem wide_next {state : Utf8State} {b : Nat} (h : state.Wide) (hlower : state.lower ≤ b)
    (hupper : b ≤ state.upper) (hneeded : ¬ state.needed ≤ 1) :
    Utf8State.Wide ⟨state.needed - 1, 0x80, 0xBF, 64 * state.point + (b - 0x80)⟩ := by
  obtain ⟨-, hbound, hleast, hmost⟩ := h
  obtain ⟨n, hn⟩ : ∃ n, state.needed = n + 2 := ⟨state.needed - 2, by omega⟩
  rw [hn, show n + 2 - 1 = n + 1 from rfl] at hleast hmost
  rw [hn, show n + 2 - 1 = n + 1 from rfl]
  refine ⟨Nat.le_add_left 1 n, Nat.le_refl _, ?_, ?_⟩
  · calc 0x80
        ≤ (64 * state.point + (state.lower - 0x80)) * 64 ^ (n + 1) := hleast
      _ ≤ (64 * state.point + (b - 0x80)) * 64 ^ (n + 1) := by
          apply Nat.mul_le_mul_right
          omega
      _ = (64 * (64 * state.point + (b - 0x80)) + (0x80 - 0x80)) * 64 ^ (n + 1 - 1) := by
          rw [Nat.add_sub_cancel]
          ring
  · apply Nat.le_trans _ hmost
    dsimp only
    calc (64 * (64 * state.point + (b - 0x80)) + (0xBF - 0x80) + 1) * 64 ^ (n + 1 - 1)
        = (64 * state.point + (b - 0x80) + 1) * 64 ^ (n + 1) := by
          rw [Nat.add_sub_cancel]
          ring
      _ ≤ (64 * state.point + (state.upper - 0x80) + 1) * 64 ^ (n + 1) := by
          apply Nat.mul_le_mul_right
          omega

/-- A character that has begun outside ASCII ends outside ASCII, or is replaced. -/
theorem startsWide_decodeUtf8From {state : Utf8State} (h : state.Wide) (data : List UInt8) :
    StartsWide (decodeUtf8From (some state) data) := by
  induction data generalizing state with
  | nil => exact startsWide_replacement []
  | cons b rest ih =>
      simp only [decodeUtf8From, utf8Step]
      split_ifs with hrange hlast
      · obtain ⟨hneeded, -, hleast, hmost⟩ := h
        rw [show state.needed - 1 = 0 by omega] at hleast hmost
        rw [Nat.pow_zero, Nat.mul_one] at hleast hmost
        apply StartsWide.append
        dsimp only
        apply startsWide_pointUnits
        · omega
        · omega
      · exact ih (wide_next h hrange.1 hrange.2 hlast)
      · exact startsWide_replacement _

theorem startsWide_decodeUtf8 {b : UInt8} (h : 0x80 ≤ b.toNat) (rest : List UInt8) :
    StartsWide (decodeUtf8 (b :: rest)) := by
  simp only [decodeUtf8, decodeUtf8From, utf8Step]
  rcases wide_utf8Lead h with hlead | ⟨state, hlead, hwide⟩
  · rw [hlead]
    exact startsWide_replacement _
  · rw [hlead]
    exact startsWide_decodeUtf8From hwide rest

end TestServer.Js
