import Mathlib.Data.Nat.Digits.Defs
import Mathlib.Tactic.Ring

/-!
# Numbers with the highest digit first

The value of digits in a base, of digits that are taken two at a time, and of words in
two's complement.
-/

namespace TestServer.Library

/-- The value of digits, of which the highest comes first. -/
def bigEndian (base : Nat) (digits : List Nat) : Nat := Nat.ofDigits base digits.reverse

@[simp] theorem bigEndian_nil (base : Nat) : bigEndian base [] = 0 := rfl

theorem bigEndian_cons (base digit : Nat) (digits : List Nat) :
    bigEndian base (digit :: digits) =
      digit * base ^ digits.length + bigEndian base digits := by
  rw [bigEndian, List.reverse_cons, Nat.ofDigits_append, Nat.ofDigits_singleton,
    List.length_reverse, Nat.mul_comm, Nat.add_comm]
  rfl

@[simp] theorem bigEndian_zero_cons (base : Nat) (digits : List Nat) :
    bigEndian base (0 :: digits) = bigEndian base digits := by
  rw [bigEndian_cons, Nat.zero_mul, Nat.zero_add]

theorem bigEndian_lt_pow {base : Nat} {digits : List Nat} (hbase : 1 < base)
    (h : ∀ digit ∈ digits, digit < base) : bigEndian base digits < base ^ digits.length := by
  have hlt := Nat.ofDigits_lt_base_pow_length hbase fun digit hmem =>
    h digit (List.mem_reverse.mp hmem)
  rwa [List.length_reverse] at hlt

/-- Neighbouring digits as one digit of the squared base. A last one without a neighbour is
left out. -/
def paired (base : Nat) : List Nat → List Nat
  | high :: low :: rest => (base * high + low) :: paired base rest
  | _ => []

theorem length_paired (base : Nat) (digits : List Nat) :
    2 * (paired base digits).length = digits.length - digits.length % 2 := by
  induction digits using paired.induct with
  | case1 high low rest ih =>
      simp only [paired, List.length_cons]
      omega
  | case2 digits hshort =>
      match digits with
      | [] => rfl
      | [_] => rfl
      | high :: low :: rest => exact absurd rfl (hshort high low rest)

/-- An even number of digits keeps its value in pairs. -/
theorem bigEndian_paired (base : Nat) {digits : List Nat} (heven : digits.length % 2 = 0) :
    bigEndian (base ^ 2) (paired base digits) = bigEndian base digits := by
  induction digits using paired.induct with
  | case1 high low rest ih =>
      have hrest : rest.length % 2 = 0 := by
        simp only [List.length_cons] at heven
        omega
      have hlength := length_paired base rest
      rw [hrest, Nat.sub_zero] at hlength
      rw [paired, bigEndian_cons, ih hrest, bigEndian_cons, bigEndian_cons, ← Nat.pow_mul, hlength,
        List.length_cons]
      ring
  | case2 digits hshort =>
      match digits with
      | [] => rfl
      | [_] => simp at heven
      | high :: low :: rest => exact absurd rfl (hshort high low rest)

/-- The number of words of some width, taken together in two's complement. -/
def twosComplement (width : Nat) (words : List Nat) : Int :=
  (BitVec.ofNat (width * words.length) (bigEndian (2 ^ width) words)).toInt

variable {width word : Nat} {words : List Nat}

/-- The sign is that of the highest word. -/
theorem two_mul_bigEndian_lt_iff (h : ∀ w ∈ words, w < 2 ^ (width + 1)) :
    2 * bigEndian (2 ^ (width + 1)) (word :: words) < 2 ^ ((width + 1) * (words.length + 1)) ↔
      word < 2 ^ width := by
  have hlow := bigEndian_lt_pow (Nat.one_lt_two_pow (Nat.succ_ne_zero width)) h
  rw [Nat.pow_mul, Nat.pow_succ (2 ^ (width + 1)), bigEndian_cons]
  generalize (2 ^ (width + 1)) ^ words.length = unit at hlow ⊢
  generalize bigEndian (2 ^ (width + 1)) words = low at hlow ⊢
  rw [Nat.pow_succ]
  constructor
  · intro hlt
    by_contra hle
    have hmul : 2 ^ width * unit ≤ word * unit := Nat.mul_le_mul_right unit (Nat.le_of_not_lt hle)
    have hdouble : unit * (2 ^ width * 2) = 2 * (2 ^ width * unit) := by ring
    omega
  · intro hlt
    have hmul : (word + 1) * unit ≤ 2 ^ width * unit := Nat.mul_le_mul_right unit hlt
    have hdouble : unit * (2 ^ width * 2) = 2 * (2 ^ width * unit) := by ring
    rw [Nat.add_mul, Nat.one_mul] at hmul
    omega

theorem twosComplement_cons (h : ∀ w ∈ word :: words, w < 2 ^ (width + 1)) :
    twosComplement (width + 1) (word :: words) =
      if word < 2 ^ width then (bigEndian (2 ^ (width + 1)) (word :: words) : Int)
      else (bigEndian (2 ^ (width + 1)) (word :: words) : Int) -
        2 ^ ((width + 1) * (words.length + 1)) := by
  have hlt := bigEndian_lt_pow (Nat.one_lt_two_pow (Nat.succ_ne_zero width)) h
  rw [← Nat.pow_mul] at hlt
  have hnat : (BitVec.ofNat ((width + 1) * (word :: words).length)
      (bigEndian (2 ^ (width + 1)) (word :: words))).toNat =
      bigEndian (2 ^ (width + 1)) (word :: words) := by
    rw [BitVec.toNat_ofNat, Nat.mod_eq_of_lt hlt]
  have hsign : 2 * bigEndian (2 ^ (width + 1)) (word :: words) <
      2 ^ ((width + 1) * (words.length + 1)) ↔ word < 2 ^ width :=
    two_mul_bigEndian_lt_iff fun w hw => h w (List.mem_cons_of_mem _ hw)
  rw [twosComplement, BitVec.toInt_eq_toNat_cond, hnat, List.length_cons]
  simp only [hsign]
  split
  · rfl
  · push_cast
    rfl

/-- A highest word without the top bit leaves the number what it is without a sign. -/
theorem twosComplement_of_lt (hword : word < 2 ^ width)
    (h : ∀ w ∈ words, w < 2 ^ (width + 1)) :
    twosComplement (width + 1) (word :: words) =
      bigEndian (2 ^ (width + 1)) (word :: words) := by
  have hlt : ∀ w ∈ word :: words, w < 2 ^ (width + 1) := by
    intro w hw
    rcases List.mem_cons.mp hw with rfl | hw
    · exact hword.trans (Nat.pow_lt_pow_right (by decide) (Nat.lt_succ_self width))
    · exact h w hw
  rw [twosComplement_cons hlt, if_pos hword]

end TestServer.Library
