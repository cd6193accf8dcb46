import TestServer.Js.JsonRoundTrip
import TestServer.Js.Utf8Text

/-!
# The units of JSON texts

What `JSON.stringify` writes is well formed, so that it is the same text after it was sent as
UTF-8; and it is a single line, if there is no indentation.
-/

namespace TestServer.Js

/-- A unit that a numeral can have, which is no space. -/
def NumeralUnit (c : UInt16) : Prop := 32 < c.toNat ∧ c.toNat < 128

instance (c : UInt16) : Decidable (NumeralUnit c) :=
  inferInstanceAs (Decidable (32 < c.toNat ∧ c.toNat < 128))

theorem numeralUnit_of_isDigit {c : UInt16} (h : isDigit c = true) : NumeralUnit c := by
  simp only [isDigit, decide_eq_true_eq, UInt16.le_iff_toNat_le, UInt16.reduceToNat] at h
  exact ⟨by omega, by omega⟩

/-- What was read of a text consists of such units. -/
def Used (s rest : JsString) : Prop := ∃ used, s = used ++ rest ∧ ∀ c ∈ used, NumeralUnit c

theorem Used.refl (s : JsString) : Used s s := ⟨[], rfl, List.forall_mem_nil _⟩

theorem Used.trans {s t u : JsString} (h : Used s t) (h' : Used t u) : Used s u := by
  obtain ⟨used, rfl, hused⟩ := h
  obtain ⟨more, rfl, hmore⟩ := h'
  refine ⟨used ++ more, (List.append_assoc ..).symm, fun c hc => ?_⟩
  exact (List.mem_append.mp hc).elim (hused c) (hmore c)

theorem Used.cons {c : UInt16} {s t : JsString} (hc : NumeralUnit c) (h : Used s t) :
    Used (c :: s) t := by
  obtain ⟨used, rfl, hused⟩ := h
  exact ⟨c :: used, rfl, List.forall_mem_cons.mpr ⟨hc, hused⟩⟩

theorem used_readDigits {s digits rest : JsString} (h : readDigits s = some (digits, rest)) :
    Used s rest := by
  rw [readDigits] at h
  split at h
  · cases h
  · cases h
    refine ⟨s.takeWhile isDigit, List.takeWhile_append_dropWhile.symm, fun c hc => ?_⟩
    exact numeralUnit_of_isDigit (List.mem_takeWhile_imp hc)

theorem used_minusSign {s rest : JsString} {negative : Bool}
    (h : minusSign s = (negative, rest)) : Used s rest := by
  rw [minusSign.eq_def] at h
  split at h
  · cases h
    exact (Used.refl _).cons (by decide)
  · cases h
    exact Used.refl _

theorem used_readInteger {s digits rest : JsString} (h : readInteger s = some (digits, rest)) :
    Used s rest := by
  rw [readInteger.eq_def] at h
  split at h
  · cases h
    exact (Used.refl _).cons (by decide)
  · exact used_readDigits h

theorem used_readFraction {s digits rest : JsString} (h : readFraction s = some (digits, rest)) :
    Used s rest := by
  rw [readFraction.eq_def] at h
  split at h
  · exact (used_readDigits h).cons (by decide)
  · cases h
    exact Used.refl _

theorem used_readExponent {s rest : JsString} {exponent : Int}
    (h : readExponent s = some (exponent, rest)) : Used s rest := by
  rw [readExponent.eq_def] at h
  split at h
  · cases h
    exact Used.refl _
  · rename_i c s
    split_ifs at h with hc
    · have hunit : NumeralUnit c := by
        obtain rfl | rfl := hc
        · decide
        · decide
      split at h
      · obtain ⟨⟨digits, rest'⟩, hread, heq⟩ := Option.map_eq_some_iff.mp h
        cases heq
        exact ((used_readDigits hread).cons (by decide)).cons hunit
      · obtain ⟨⟨digits, rest'⟩, hread, heq⟩ := Option.map_eq_some_iff.mp h
        cases heq
        exact ((used_readDigits hread).cons (by decide)).cons hunit
      · obtain ⟨⟨digits, rest'⟩, hread, heq⟩ := Option.map_eq_some_iff.mp h
        cases heq
        exact (used_readDigits hread).cons hunit
    · cases h
      exact Used.refl _

theorem numeralUnit_of_readNumber {s : JsString} {n : JsNumber}
    (h : readNumber s = some (n, [])) : ∀ c ∈ s, NumeralUnit c := by
  rw [readNumber] at h
  rcases hminus : minusSign s with ⟨negative, s₀⟩
  rw [hminus] at h
  simp only [Option.bind_eq_bind, Option.bind_eq_some_iff] at h
  obtain ⟨⟨digits, s₁⟩, hinteger, ⟨fraction, s₂⟩, hfraction, ⟨exponent, s₃⟩, hexponent, heq⟩ := h
  cases heq
  obtain ⟨used, rfl, hused⟩ := (((used_minusSign hminus).trans (used_readInteger hinteger)).trans
    (used_readFraction hfraction)).trans (used_readExponent hexponent)
  rw [List.append_nil]
  exact hused

section

variable {numberText : JsNumber → JsString} {gap : JsString} {P : JsString → Prop}

/-- What the texts of simple values have, and what brackets keep, the texts of all values have. -/
structure Textual (numberText : JsNumber → JsString) (gap : JsString) (P : JsString → Prop) :
    Prop where
  null : P (js "null")
  bool : ∀ b : Bool, P (if b then js "true" else js "false")
  number : ∀ text : JsString, (∀ c ∈ text, NumeralUnit c) → P text
  quote : ∀ s, P (quote s)
  append : ∀ s t, P s → P t → P (s ++ t)
  colon : P (unit ':' :: if gap = [] then [] else [32])
  bracketed : ∀ opening closing, opening = unit '[' ∧ closing = unit ']' ∨
    opening = unit '\x7b' ∧ closing = unit '\x7d' → ∀ indent, Spaces indent →
      ∀ texts, (∀ text ∈ texts, P text) → P (bracketed opening closing gap indent texts)

mutual

theorem Textual.stringifyIn (h : Textual numberText gap P) (hgap : Spaces gap)
    {indent : JsString} (hindent : Spaces indent) :
    ∀ value, WritesNumbers numberText value → P (stringifyIn numberText gap indent value)
  | .null, _ => h.null
  | .bool b, _ => h.bool b
  | .num (.finite _), hvalue => h.number _ (numeralUnit_of_readNumber hvalue)
  | .num (.infinite _), _ => h.null
  | .str s, _ => h.quote s
  | .array elements, hvalue => h.bracketed _ _ (.inl ⟨rfl, rfl⟩) _ hindent _
      (h.stringifyElements hgap (hindent.append hgap) elements hvalue)
  | .object members, hvalue => by
      rw [Js.stringifyIn, stringifyMembers_eq_map]
      apply h.bracketed _ _ (.inr ⟨rfl, rfl⟩) _ hindent
      intro text htext
      obtain ⟨m, hm, rfl⟩ := List.mem_map.mp htext
      obtain ⟨n, hn, rfl⟩ := List.mem_map.mp (mem_of_mem_propertyOrder hm)
      have hmember := h.stringifyMembers hgap (hindent.append hgap) members hvalue n hn
      exact h.append _ _ (h.quote _) (h.append _ _ h.colon hmember)

theorem Textual.stringifyElements (h : Textual numberText gap P) (hgap : Spaces gap)
    {indent : JsString} (hindent : Spaces indent) :
    ∀ elements, WritesElements numberText elements →
      ∀ text ∈ stringifyElements numberText gap indent elements, P text
  | [], _ => List.forall_mem_nil _
  | element :: elements, hvalue => List.forall_mem_cons.mpr
      ⟨h.stringifyIn hgap hindent element hvalue.1,
        h.stringifyElements hgap hindent elements hvalue.2⟩

theorem Textual.stringifyMembers (h : Textual numberText gap P) (hgap : Spaces gap)
    {indent : JsString} (hindent : Spaces indent) :
    ∀ members, WritesMembers numberText members →
      ∀ m ∈ members, P (stringifyIn numberText gap indent m.2)
  | [], _ => List.forall_mem_nil _
  | (_, value) :: members, hvalue => List.forall_mem_cons.mpr
      ⟨h.stringifyIn hgap hindent value hvalue.1,
        h.stringifyMembers hgap hindent members hvalue.2⟩

end

end

theorem isWellFormed_of_numeral {s : JsString} (h : ∀ c ∈ s, NumeralUnit c) :
    isWellFormed s = true :=
  isWellFormed_of_forall fun c hc => not_surrogate_of_lt (by
    have hlt := (h c hc).2
    omega)

theorem Spaces.isWellFormed {pad : JsString} (h : Spaces pad) : isWellFormed pad = true := by
  apply isWellFormed_of_forall
  intro c hc
  have hspace := h c hc
  simp only [isJsonSpace, Bool.or_eq_true, decide_eq_true_eq] at hspace
  obtain ((rfl | rfl) | rfl) | rfl := hspace <;> decide

/-- A well-formed text is read back in front of other bytes. -/
theorem decodeUtf8_encodeUtf8_append {s : JsString} (h : isWellFormed s = true)
    (rest : List UInt8) : decodeUtf8 (encodeUtf8 s ++ rest) = s ++ decodeUtf8 rest := by
  fun_induction encodeUtf8 s with
  | case1 => rfl
  | case2 c =>
      rcases wellFormed_cases h with ⟨hlow, hhigh, -⟩ | ⟨-, d, t, hpair, -⟩
      · exact decodeUtf8_unitOctets hlow hhigh rest
      · cases hpair
  | case3 c d s hpair ih =>
      obtain ⟨hhigh, hpartner⟩ := hpair
      rcases wellFormed_cases h with ⟨-, hnot, -⟩ | ⟨-, _, _, hcons, -, hrest⟩
      · exact absurd hhigh hnot
      · cases hcons
        rw [List.append_assoc, decodeUtf8_octets (isScalar_surrogatePoint hhigh hpartner),
          pointUnits_surrogatePoint hhigh hpartner, ih hrest]
        rfl
  | case4 c d s hpair ih =>
      rcases wellFormed_cases h with ⟨hlow, hhigh, hrest⟩ | ⟨hhigh, _, _, hcons, hpartner, -⟩
      · rw [List.append_assoc, decodeUtf8_unitOctets hlow hhigh, ih hrest]
        rfl
      · cases hcons
        exact absurd ⟨hhigh, hpartner⟩ hpair

theorem textual_isWellFormed (numberText : JsNumber → JsString) {gap : JsString}
    (hgap : Spaces gap) : Textual numberText gap (isWellFormed · = true) where
  null := by decide
  bool b := by cases b <;> decide
  number _ h := isWellFormed_of_numeral h
  quote := isWellFormed_quote
  append _ _ := isWellFormed_append
  colon := by
    split_ifs
    · decide
    · decide
  bracketed opening closing hkind indent hindent texts h := by
    have hopening : ¬ isLowSurrogate opening = true ∧ ¬ isHighSurrogate opening = true := by
      obtain ⟨rfl, rfl⟩ | ⟨rfl, rfl⟩ := hkind <;> decide
    have hclosing : isWellFormed [closing] = true := by
      obtain ⟨rfl, rfl⟩ | ⟨rfl, rfl⟩ := hkind <;> decide
    by_cases hne : texts = []
    · rw [bracketed, if_pos hne, isWellFormed_cons hopening.1 hopening.2]
      exact hclosing
    · obtain ⟨pad, last, hpad, hlast, htext⟩ :=
        exists_bracketed hgap hindent hne opening closing
      have hcomma : isWellFormed (44 :: pad) = true := by
        rw [isWellFormed_cons (by decide) (by decide)]
        exact hpad.isWellFormed
      rw [htext, isWellFormed_cons hopening.1 hopening.2]
      exact isWellFormed_append hpad.isWellFormed (isWellFormed_append (isWellFormed_join hcomma h)
        (isWellFormed_append hlast.isWellFormed hclosing))

theorem notMem_escapeUnit (c : UInt16) : 10 ∉ escapeUnit c := by
  have hescapes : shortEscapes.all (fun escape => decide (escape.2 ≠ 10)) = true := by
    decide +kernel
  have hdigit : ∀ n < 16, hexDigit n ≠ 10 := by decide
  have hlt := c.toNat_lt
  rw [escapeUnit]
  cases hshort : shortEscape c with
  | some e =>
      have hne : e ≠ 10 :=
        of_decide_eq_true (List.all_eq_true.mp hescapes _ (mem_shortEscapes hshort))
      intro hmem
      simp only [List.mem_cons, List.not_mem_nil, or_false] at hmem
      obtain hmem | hmem := hmem
      · cases hmem
      · exact hne hmem.symm
  | none =>
      dsimp only
      split_ifs with hunicode
      · intro hmem
        simp only [unicodeEscape, hex4, List.mem_cons, List.not_mem_nil, or_false] at hmem
        obtain hmem | hmem | hmem | hmem | hmem | hmem := hmem
        · cases hmem
        · cases hmem
        · exact hdigit _ (by omega) hmem.symm
        · exact hdigit _ (by omega) hmem.symm
        · exact hdigit _ (by omega) hmem.symm
        · exact hdigit _ (by omega) hmem.symm
      · intro hmem
        exact hunicode (.inl (List.mem_singleton.mp hmem ▸ by decide))

theorem notMem_quoteUnits (s : JsString) : 10 ∉ quoteUnits s := by
  fun_induction quoteUnits s with
  | case1 => exact List.not_mem_nil
  | case2 c => exact notMem_escapeUnit c
  | case3 c d s hpair ih =>
      intro hmem
      obtain rfl | rfl | hmem := List.mem_cons.mp hmem |>.imp_right List.mem_cons.mp
      · exact absurd hpair.1 (by decide)
      · exact absurd hpair.2 (by decide)
      · exact ih hmem
  | case4 c d s _ ih =>
      exact fun hmem => (List.mem_append.mp hmem).elim (notMem_escapeUnit c) ih

theorem notMem_quote (s : JsString) : 10 ∉ quote s := by
  intro hmem
  obtain hmem | hmem := List.mem_cons.mp hmem
  · cases hmem
  · obtain hmem | hmem := List.mem_append.mp hmem
    · exact notMem_quoteUnits s hmem
    · cases List.mem_singleton.mp hmem

theorem textual_line (numberText : JsNumber → JsString) :
    Textual numberText [] fun text => 10 ∉ text where
  null := by decide
  bool b := by cases b <;> decide
  number text h hmem := by
    have hlt := (h _ hmem).1
    exact absurd hlt (by decide)
  quote := notMem_quote
  append s t hs ht hmem := (List.mem_append.mp hmem).elim hs ht
  colon := by
    rw [if_pos rfl]
    decide
  bracketed opening closing hkind indent _ texts h := by
    have hne : 10 ≠ opening ∧ 10 ≠ closing := by
      obtain ⟨rfl, rfl⟩ | ⟨rfl, rfl⟩ := hkind <;> decide
    intro hmem
    rw [bracketed] at hmem
    split_ifs at hmem
    · obtain hmem | hmem := List.mem_cons.mp hmem
      · exact hne.1 hmem
      · exact hne.2 (List.mem_singleton.mp hmem)
    · obtain hmem | hmem := List.mem_cons.mp hmem
      · exact hne.1 hmem
      · obtain hmem | hmem := List.mem_append.mp hmem
        · obtain ⟨text, htext, hmem⟩ | hmem := mem_join hmem
          · exact h text htext hmem
          · exact absurd hmem (by decide)
        · exact hne.2 (List.mem_singleton.mp hmem)
    · rename_i hgap
      exact hgap rfl

end TestServer.Js
