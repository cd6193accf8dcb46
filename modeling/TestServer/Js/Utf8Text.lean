import TestServer.Js.UriEncode
import TestServer.Js.Utf8

/-!
# Texts as UTF-8

A well-formed text is read back from its octets, and what is written as JSON is well formed.
-/

namespace TestServer.Js

theorem toNat_toUInt8 {b : Nat} (h : b < 256) : b.toUInt8.toNat = b := by
  rw [Nat.toUInt8_eq, UInt8.toNat_ofNat', Nat.mod_eq_of_lt h]

theorem utf8Lead_two {x : Nat} (hleast : 2 ≤ x) (hmost : x < 32) :
    utf8Lead (0xC0 + x) = ([], some ⟨1, 0x80, 0xBF, x⟩) := by
  rw [utf8Lead, if_neg (by omega), if_pos (by omega), Nat.add_sub_cancel_left]

theorem utf8Lead_three {x : Nat} (hmost : x < 16) :
    utf8Lead (0xE0 + x) = ([], some ⟨2, if x = 0 then 0xA0 else 0x80,
      if x = 13 then 0x9F else 0xBF, x⟩) := by
  rw [utf8Lead, if_neg (by omega), if_neg (by omega), if_pos (by omega), Nat.add_sub_cancel_left]
  simp only [Nat.add_eq_left, show 0xE0 + x = 0xED ↔ x = 13 by omega]

theorem utf8Lead_four {x : Nat} (hmost : x < 5) :
    utf8Lead (0xF0 + x) = ([], some ⟨3, if x = 0 then 0x90 else 0x80,
      if x = 4 then 0x8F else 0xBF, x⟩) := by
  rw [utf8Lead, if_neg (by omega), if_neg (by omega), if_neg (by omega), if_pos (by omega),
    Nat.add_sub_cancel_left]
  simp only [Nat.add_eq_left, show 0xF0 + x = 0xF4 ↔ x = 4 by omega]

/-- Reading the first octet of a character. -/
theorem decodeUtf8From_lead {b : Nat} {state : Utf8State} (hb : b < 256)
    (hlead : utf8Lead b = ([], some state)) (rest : List UInt8) :
    decodeUtf8From none (b.toUInt8 :: rest) = decodeUtf8From (some state) rest := by
  rw [decodeUtf8From, utf8Step, toNat_toUInt8 hb, hlead]
  rfl

/-- Reading an octet within a character. -/
theorem decodeUtf8From_next {needed lower upper point x : Nat} (hx : x < 64)
    (hlower : lower ≤ 0x80 + x) (hupper : 0x80 + x ≤ upper) (rest : List UInt8) :
    decodeUtf8From (some ⟨needed + 2, lower, upper, point⟩) ((0x80 + x).toUInt8 :: rest) =
      decodeUtf8From (some ⟨needed + 1, 0x80, 0xBF, 64 * point + x⟩) rest := by
  rw [decodeUtf8From, utf8Step, toNat_toUInt8 (by omega), if_pos ⟨hlower, hupper⟩,
    if_neg (by dsimp only; omega), Nat.add_sub_cancel_left]
  rfl

/-- Reading the last octet of a character. -/
theorem decodeUtf8From_last {lower upper point x : Nat} (hx : x < 64)
    (hlower : lower ≤ 0x80 + x) (hupper : 0x80 + x ≤ upper) (rest : List UInt8) :
    decodeUtf8From (some ⟨1, lower, upper, point⟩) ((0x80 + x).toUInt8 :: rest) =
      pointUnits (64 * point + x) ++ decodeUtf8 rest := by
  rw [decodeUtf8From, utf8Step, toNat_toUInt8 (by omega), if_pos ⟨hlower, hupper⟩,
    if_pos le_rfl, Nat.add_sub_cancel_left]
  rfl

/-- The octets of a code point are decoded to its units. -/
theorem decodeUtf8_octets {point : Nat} (h : IsScalar point) (rest : List UInt8) :
    decodeUtf8 ((utf8Octets point).map Nat.toUInt8 ++ rest) =
      pointUnits point ++ decodeUtf8 rest := by
  obtain ⟨hmost, hsurrogate⟩ := h
  rw [utf8Octets]
  split_ifs with hone htwo hthree
  · have hoctet : point.toUInt8.toNat = point := toNat_toUInt8 (by omega)
    rw [List.map_singleton, List.singleton_append, decodeUtf8_cons_of_lt (by omega), hoctet,
      pointUnits, if_pos (by omega)]
    rfl
  · simp only [List.map_cons, List.map_nil, List.cons_append, List.nil_append]
    rw [decodeUtf8, decodeUtf8From_lead (by omega) (utf8Lead_two (by omega) (by omega)),
      decodeUtf8From_last (by omega) (by omega) (by omega), Nat.div_add_mod]
  · simp only [List.map_cons, List.map_nil, List.cons_append, List.nil_append]
    have hlower : (if point / 4096 = 0 then 0xA0 else 0x80) ≤ 0x80 + point / 64 % 64 := by
      split_ifs <;> omega
    have hupper : 0x80 + point / 64 % 64 ≤ if point / 4096 = 13 then 0x9F else 0xBF := by
      split_ifs <;> omega
    have hpoint : 64 * (64 * (point / 4096) + point / 64 % 64) + point % 64 = point := by omega
    rw [decodeUtf8, decodeUtf8From_lead (by omega) (utf8Lead_three (by omega)),
      decodeUtf8From_next (by omega) hlower hupper,
      decodeUtf8From_last (by omega) (by omega) (by omega), hpoint]
  · simp only [List.map_cons, List.map_nil, List.cons_append, List.nil_append]
    have hlower : (if point / 262144 = 0 then 0x90 else 0x80) ≤ 0x80 + point / 4096 % 64 := by
      split_ifs <;> omega
    have hupper : 0x80 + point / 4096 % 64 ≤ if point / 262144 = 4 then 0x8F else 0xBF := by
      split_ifs <;> omega
    have hpoint : 64 * (64 * (64 * (point / 262144) + point / 4096 % 64) + point / 64 % 64) +
        point % 64 = point := by omega
    rw [decodeUtf8, decodeUtf8From_lead (by omega) (utf8Lead_four (by omega)),
      decodeUtf8From_next (by omega) hlower hupper,
      decodeUtf8From_next (by omega) (by omega) (by omega),
      decodeUtf8From_last (by omega) (by omega) (by omega), hpoint]

theorem decodeUtf8_unitOctets {c : UInt16} (hlow : ¬ isLowSurrogate c = true)
    (hhigh : ¬ isHighSurrogate c = true) (rest : List UInt8) :
    decodeUtf8 (unitOctets c ++ rest) = c :: decodeUtf8 rest := by
  rw [unitOctets, if_neg (not_or.mpr ⟨hhigh, hlow⟩), decodeUtf8_octets (isScalar_toNat hhigh hlow),
    pointUnits_toNat]
  rfl

/-- A well-formed text is read back. -/
theorem decodeUtf8_encodeUtf8 {s : JsString} (h : isWellFormed s = true) :
    decodeUtf8 (encodeUtf8 s) = s := by
  fun_induction encodeUtf8 s with
  | case1 => rfl
  | case2 c =>
      rcases wellFormed_cases h with ⟨hlow, hhigh, -⟩ | ⟨-, d, t, hpair, -⟩
      · rw [← List.append_nil (unitOctets c), decodeUtf8_unitOctets hlow hhigh]
        rfl
      · cases hpair
  | case3 c d s hpair ih =>
      obtain ⟨hhigh, hpartner⟩ := hpair
      rcases wellFormed_cases h with ⟨-, hnot, -⟩ | ⟨-, _, _, hcons, -, hrest⟩
      · exact absurd hhigh hnot
      · cases hcons
        rw [decodeUtf8_octets (isScalar_surrogatePoint hhigh hpartner),
          pointUnits_surrogatePoint hhigh hpartner, ih hrest]
        rfl
  | case4 c d s hpair ih =>
      rcases wellFormed_cases h with ⟨hlow, hhigh, hrest⟩ | ⟨hhigh, _, _, hcons, hpartner, -⟩
      · rw [decodeUtf8_unitOctets hlow hhigh, ih hrest]
      · cases hcons
        exact absurd ⟨hhigh, hpartner⟩ hpair

/-- A text without surrogates. -/
theorem isWellFormed_of_forall {s : JsString}
    (h : ∀ c ∈ s, ¬ isLowSurrogate c = true ∧ ¬ isHighSurrogate c = true) :
    isWellFormed s = true := by
  induction s with
  | nil => rfl
  | cons c s ih =>
      obtain ⟨hlow, hhigh⟩ := h c List.mem_cons_self
      rw [isWellFormed_cons hlow hhigh]
      exact ih fun d hd => h d (List.mem_cons_of_mem c hd)

theorem not_surrogate_of_lt {c : UInt16} (h : c.toNat < 0xD800) :
    ¬ isLowSurrogate c = true ∧ ¬ isHighSurrogate c = true := by
  rw [isLowSurrogate_iff, isHighSurrogate_iff]
  omega

theorem isWellFormed_hex4 (c : UInt16) : isWellFormed (hex4 c) = true := by
  have hdigit : ∀ n < 16, (hexDigit n).toNat < 0xD800 := by decide
  apply isWellFormed_of_forall
  intro d hd
  apply not_surrogate_of_lt
  have hlt := c.toNat_lt
  simp only [hex4, List.mem_cons, List.not_mem_nil, or_false] at hd
  rcases hd with rfl | rfl | rfl | rfl
  all_goals
    apply hdigit
    omega

theorem isWellFormed_escapeUnit (c : UInt16) : isWellFormed (escapeUnit c) = true := by
  have hescapes : shortEscapes.all (fun escape => decide (escape.2.toNat < 0xD800)) = true := by
    decide +kernel
  rw [escapeUnit]
  cases hshort : shortEscape c with
  | some e =>
      apply isWellFormed_of_forall
      intro d hd
      apply not_surrogate_of_lt
      simp only [List.mem_cons, List.not_mem_nil, or_false] at hd
      rcases hd with rfl | rfl
      · decide
      · exact of_decide_eq_true (List.all_eq_true.mp hescapes _ (mem_shortEscapes hshort))
  | none =>
      dsimp only
      split_ifs with hunicode
      · rw [unicodeEscape, isWellFormed_cons (by decide) (by decide),
          isWellFormed_cons (by decide) (by decide)]
        exact isWellFormed_hex4 c
      · apply isWellFormed_of_forall
        intro d hd
        rw [List.mem_singleton.mp hd]
        exact ⟨fun hlow => hunicode (.inr (.inr hlow)), fun hhigh => hunicode (.inr (.inl hhigh))⟩

theorem isWellFormed_quoteUnits (s : JsString) : isWellFormed (quoteUnits s) = true := by
  fun_induction quoteUnits s with
  | case1 => rfl
  | case2 c => exact isWellFormed_escapeUnit c
  | case3 c d s hpair ih =>
      have hlow : ¬ isLowSurrogate c = true := by
        have hhigh := hpair.1
        rw [isHighSurrogate_iff] at hhigh
        rw [isLowSurrogate_iff]
        omega
      simp only [isWellFormed, if_neg hlow, if_pos hpair.1, hpair.2, Bool.true_and, ih]
  | case4 c d s _ ih => exact isWellFormed_append (isWellFormed_escapeUnit c) ih

theorem isWellFormed_quote (s : JsString) : isWellFormed (quote s) = true := by
  rw [quote, isWellFormed_cons (by decide) (by decide)]
  exact isWellFormed_append (isWellFormed_quoteUnits s) rfl

theorem isWellFormed_integer (n : Int) : isWellFormed (integer n) = true := by
  have hdecimal : ∀ m : Nat, isWellFormed (decimal m) = true := by
    intro m
    apply isWellFormed_of_forall
    intro d hd
    apply not_surrogate_of_lt
    have hdigit := isDigit_of_mem_decimal hd
    simp only [isDigit, decide_eq_true_eq, UInt16.le_iff_toNat_le, UInt16.reduceToNat] at hdigit
    omega
  rw [integer]
  split_ifs
  · rw [isWellFormed_cons (by decide) (by decide)]
    exact hdecimal _
  · exact hdecimal _

theorem isWellFormed_join {sep : JsString} {texts : List JsString} (hsep : isWellFormed sep = true)
    (h : ∀ text ∈ texts, isWellFormed text = true) : isWellFormed (join sep texts) = true := by
  induction texts with
  | nil => rfl
  | cons text texts ih =>
      have htail := ih fun other hother => h other (List.mem_cons_of_mem text hother)
      by_cases hne : texts = []
      · rw [hne]
        exact h text List.mem_cons_self
      · rw [join_cons _ text hne]
        exact isWellFormed_append (isWellFormed_append (h text List.mem_cons_self) hsep) htail

theorem isWellFormed_stringifyValue (v : JsValue) : isWellFormed (stringifyValue v) = true := by
  cases v with
  | bool b => cases b <;> decide
  | num n => exact isWellFormed_integer n
  | str s => exact isWellFormed_quote s
  | strs l =>
      rw [stringifyValue, isWellFormed_cons (by decide) (by decide)]
      apply isWellFormed_append _ rfl
      apply isWellFormed_join rfl
      intro text htext
      obtain ⟨s, -, rfl⟩ := List.mem_map.mp htext
      exact isWellFormed_quote s

theorem isWellFormed_stringifyObject (members : List (JsString × JsValue)) :
    isWellFormed (stringifyObject members) = true := by
  rw [stringifyObject, isWellFormed_cons (by decide) (by decide)]
  apply isWellFormed_append _ rfl
  apply isWellFormed_join rfl
  intro text htext
  obtain ⟨m, -, rfl⟩ := List.mem_map.mp htext
  apply isWellFormed_append (isWellFormed_quote m.1)
  rw [isWellFormed_cons (by decide) (by decide)]
  exact isWellFormed_stringifyValue m.2

end TestServer.Js
