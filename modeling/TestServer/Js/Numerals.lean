import TestServer.Js.Coercion
import Mathlib.Data.List.TakeWhile

/-!
# Numerals

Decimal numerals, and what `parseInt` and `parseFloat` read from them.
-/

namespace TestServer.Js

/-- A decimal numeral. -/
structure Decimal where
  negative : Bool
  whole : JsString
  fraction : JsString
  digits : ∀ c ∈ whole ++ fraction, isDigit c = true
  nonempty : whole ++ fraction ≠ []

namespace Decimal

/-- The numeral without its sign. -/
def unsigned (d : Decimal) : JsString :=
  d.whole ++ if d.fraction = [] then [] else unit '.' :: d.fraction

def text (d : Decimal) : JsString := (if d.negative then js "-" else []) ++ d.unsigned

def value (d : Decimal) : ℚ :=
  let magnitude : ℚ := digitsValue (d.whole ++ d.fraction) / 10 ^ d.fraction.length
  if d.negative then -magnitude else magnitude

/-- The number that the numeral stands for. -/
def number (d : Decimal) : JsNumber := toDouble d.value

end Decimal

theorem isWhiteSpace_of_isDigit {c : UInt16} (h : isDigit c = true) : isWhiteSpace c = false := by
  simp only [isDigit, decide_eq_true_eq, UInt16.le_iff_toNat_le, UInt16.reduceToNat] at h
  simp only [isWhiteSpace, Bool.or_eq_false_iff, decide_eq_false_iff_not, UInt16.le_iff_toNat_le,
    UInt16.reduceToNat, ← UInt16.toNat_inj]
  omega

/-- A text that starts with neither white space nor a sign is all that is left of it. -/
theorem signed_cons {c : UInt16} (hspace : isWhiteSpace c = false) (hminus : c ≠ 45)
    (hplus : c ≠ 43) (rest : JsString) : signed (c :: rest) = (false, c :: rest) := by
  have hdrop : (c :: rest).dropWhile isWhiteSpace = c :: rest := by
    rw [List.dropWhile_cons, hspace, if_neg Bool.false_ne_true]
  rw [signed, hdrop]
  split
  · next heq => exact absurd (List.cons.inj heq).1 hminus
  · next heq => exact absurd (List.cons.inj heq).1 hplus
  · rfl

theorem signed_of_isDigit {c : UInt16} (h : isDigit c = true) (rest : JsString) :
    signed (c :: rest) = (false, c :: rest) := by
  apply signed_cons (isWhiteSpace_of_isDigit h)
  · rintro rfl
    cases h
  · rintro rfl
    cases h

theorem decimal_ne_nil (n : Nat) : decimal n ≠ [] := by
  rw [decimal, Ne, List.map_eq_nil_iff]
  exact Nat.toDigits_ne_nil

theorem parseInt_decimal (n : Nat) : parseInt (decimal n) = some (n : Int) := by
  have hdigits : ∀ c ∈ decimal n, isDigit c = true := fun c hc => isDigit_of_mem_decimal hc
  have hsigned : signed (decimal n) = (false, decimal n) := by
    obtain ⟨c, rest, heq⟩ := List.exists_cons_of_ne_nil (decimal_ne_nil n)
    rw [heq]
    apply signed_of_isDigit
    apply hdigits
    rw [heq]
    exact List.mem_cons_self
  have htake : (decimal n).takeWhile isDigit = decimal n :=
    List.takeWhile_eq_self_iff.mpr hdigits
  rw [parseInt, hsigned]
  dsimp only
  rw [htake]
  split
  · next hnil => exact absurd hnil (decimal_ne_nil n)
  · rw [if_neg Bool.false_ne_true, digitsValue_decimal]

namespace Decimal

variable (d : Decimal)

theorem isDigit_whole : ∀ c ∈ d.whole, isDigit c = true :=
  fun c hc => d.digits c (List.mem_append_left _ hc)

theorem isDigit_fraction : ∀ c ∈ d.fraction, isDigit c = true :=
  fun c hc => d.digits c (List.mem_append_right _ hc)

theorem unsigned_cons :
    ∃ c rest, d.unsigned = c :: rest ∧ (isDigit c = true ∨ c = unit '.') := by
  rw [unsigned]
  cases hwhole : d.whole with
  | cons c rest =>
      refine ⟨c, _, rfl, Or.inl (d.isDigit_whole c ?_)⟩
      rw [hwhole]
      exact List.mem_cons_self
  | nil =>
      have hfraction : d.fraction ≠ [] := by
        have hne := d.nonempty
        rwa [hwhole] at hne
      exact ⟨unit '.', d.fraction, by rw [if_neg hfraction]; rfl, Or.inr rfl⟩

theorem signed_text : signed d.text = (d.negative, d.unsigned) := by
  obtain ⟨c, rest, heq, hc⟩ := d.unsigned_cons
  rw [text]
  cases d.negative with
  | true => rfl
  | false =>
      rw [if_neg Bool.false_ne_true, List.nil_append, heq]
      rcases hc with hc | rfl
      · exact signed_of_isDigit hc rest
      · exact signed_cons rfl (by decide) (by decide) rest

theorem not_startsWith_infinity : ¬ startsWith d.unsigned (js "Infinity") = true := by
  obtain ⟨c, rest, heq, hc⟩ := d.unsigned_cons
  rw [heq, startsWith_iff]
  intro hprefix
  have hhead : unit 'I' = c := (List.cons_prefix_cons.mp hprefix).1
  rw [← hhead] at hc
  exact absurd hc (by decide)

/-- What is left of a numeral after its whole part. -/
theorem dropWhile_unsigned : d.unsigned.takeWhile isDigit = d.whole ∧
    d.unsigned.dropWhile isDigit = if d.fraction = [] then [] else unit '.' :: d.fraction := by
  have hend : NoDigit (if d.fraction = [] then [] else unit '.' :: d.fraction) := by
    split_ifs
    · intro c hc
      cases hc
    · exact .cons rfl
  exact ⟨takeWhile_digits d.isDigit_whole hend, dropWhile_digits d.isDigit_whole hend⟩

/-- A numeral is read as the number it stands for. -/
theorem parseFloat_text : parseFloat d.text = some d.number := by
  obtain ⟨htake, hdrop⟩ := d.dropWhile_unsigned
  have hfraction : d.fraction.takeWhile isDigit = d.fraction ∧
      d.fraction.dropWhile isDigit = [] :=
    ⟨List.takeWhile_eq_self_iff.mpr d.isDigit_fraction,
      List.dropWhile_eq_nil_iff.mpr d.isDigit_fraction⟩
  rw [parseFloat, signed_text]
  dsimp only
  rw [if_neg d.not_startsWith_infinity, htake, hdrop]
  have hcut : fractionDigits (if d.fraction = [] then [] else unit '.' :: d.fraction) =
      (d.fraction, []) := by
    split_ifs with hnil
    · rw [hnil]
      rfl
    · exact Prod.ext hfraction.1 hfraction.2
  have hexponent : (((readExponent []).map Prod.fst).getD 0 : Int) = 0 := rfl
  rw [hcut]
  dsimp only
  rw [if_neg d.nonempty, hexponent, zero_sub, zpow_neg, zpow_natCast, ← div_eq_mul_inv]
  rfl

theorem slash_notMem_text : unit '/' ∉ d.text := by
  intro hmem
  rw [text, List.mem_append, unsigned, List.mem_append] at hmem
  rcases hmem with hsign | hwhole | hfraction
  · split_ifs at hsign
    · exact absurd hsign (by decide)
    · cases hsign
  · cases d.isDigit_whole _ hwhole
  · split_ifs at hfraction
    · cases hfraction
    · rcases List.mem_cons.mp hfraction with hpoint | hfraction
      · exact absurd hpoint (by decide)
      · cases d.isDigit_fraction _ hfraction

end Decimal

theorem slash_notMem_decimal (n : Nat) : unit '/' ∉ decimal n := by
  intro hmem
  cases isDigit_of_mem_decimal hmem

end TestServer.Js
