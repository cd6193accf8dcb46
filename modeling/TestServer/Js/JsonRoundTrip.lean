import TestServer.Js.JsonText
import Mathlib.Data.List.DropRight

/-!
# Reading JSON back

`JSON.parse` reads back whatever `JSON.stringify` writes, with any indentation: the members of each
object in the order in which they are written, and nothing for a number that has no numeral.
-/

namespace TestServer.Js

open Library

mutual

/-- What a value is once it is written and read back. -/
def asWritten : JsonValue → JsonValue
  | .num (.infinite _) => .null
  | .array elements => .array (asWrittenElements elements)
  | .object members => .object (propertyOrder (asWrittenMembers members))
  | value => value

def asWrittenElements : List JsonValue → List JsonValue
  | [] => []
  | element :: rest => asWritten element :: asWrittenElements rest

def asWrittenMembers : List (JsString × JsonValue) → List (JsString × JsonValue)
  | [] => []
  | (name, value) :: rest => (name, asWritten value) :: asWrittenMembers rest

end

section

variable (numberText : JsNumber → JsString)

/-- The text of a number is a numeral for it. -/
def WritesNumber (q : ℚ) : Prop := readNumber (numberText (.finite q)) = some (.finite q, [])

mutual

/-- The numbers in a value are written as numerals for them. -/
def WritesNumbers : JsonValue → Prop
  | .num (.finite q) => WritesNumber numberText q
  | .array elements => WritesElements elements
  | .object members => WritesMembers members
  | _ => True

def WritesElements : List JsonValue → Prop
  | [] => True
  | element :: rest => WritesNumbers element ∧ WritesElements rest

def WritesMembers : List (JsString × JsonValue) → Prop
  | [] => True
  | (_, value) :: rest => WritesNumbers value ∧ WritesMembers rest

end

end

/-- Nothing but spaces. -/
def Spaces (pad : JsString) : Prop := ∀ c ∈ pad, isJsonSpace c = true

instance (pad : JsString) : Decidable (Spaces pad) :=
  List.decidableBAll (fun c => isJsonSpace c = true) pad

theorem spaces_nil : Spaces [] := List.forall_mem_nil _

theorem Spaces.append {pad more : JsString} (h : Spaces pad) (hmore : Spaces more) :
    Spaces (pad ++ more) := fun c hc => (List.mem_append.mp hc).elim (h c) (hmore c)

/-- A new line with an indentation. -/
theorem Spaces.line {pad : JsString} (h : Spaces pad) : Spaces (10 :: pad) :=
  List.forall_mem_cons.mpr ⟨by decide, h⟩

theorem Spaces.skipSpace {pad : JsString} (h : Spaces pad) (s : JsString) :
    skipSpace (pad ++ s) = skipSpace s := List.dropWhile_append_of_pos h

theorem skipSpace_skipSpace (s : JsString) : skipSpace (skipSpace s) = skipSpace s :=
  List.dropWhile_idempotent isJsonSpace s

/-- A text at whose start a value is complete. -/
def Stops (rest : JsString) : Prop :=
  ∀ c ∈ rest.head?, isJsonSpace c = true ∨ c = 44 ∨ c = 93 ∨ c = 125

theorem stops_append {pad : JsString} (h : Spaces pad) {c : UInt16}
    (hc : c = 44 ∨ c = 93 ∨ c = 125) (rest : JsString) : Stops (pad ++ c :: rest) := by
  intro d hd
  cases pad with
  | nil =>
      cases hd
      exact .inr hc
  | cons e pad =>
      cases hd
      exact .inl (h _ List.mem_cons_self)

theorem readValue_skipSpace (fuel : Nat) (s : JsString) :
    readValue fuel (skipSpace s) = readValue fuel s := by
  cases fuel with
  | zero => rfl
  | succ fuel => simp only [readValue, skipSpace_skipSpace]

theorem Spaces.readValue {pad : JsString} (h : Spaces pad) (fuel : Nat) (s : JsString) :
    Js.readValue fuel (pad ++ s) = Js.readValue fuel s := by
  rw [← readValue_skipSpace, h.skipSpace, readValue_skipSpace]

theorem readElements_skipSpace (fuel : Nat) (s : JsString) :
    readElements fuel (skipSpace s) = readElements fuel s := by
  cases fuel with
  | zero => rfl
  | succ fuel => rw [readElements, readElements, readValue_skipSpace]

theorem readMembers_skipSpace (fuel : Nat) (s : JsString) :
    readMembers fuel (skipSpace s) = readMembers fuel s := by
  cases fuel with
  | zero => rfl
  | succ fuel => rw [readMembers, readMembers, skipSpace_skipSpace]

/-- Wherever the text of a value is complete, it is read as the value. -/
def Reads (text : JsString) (value : JsonValue) : Prop :=
  ∀ fuel rest, text.length ≤ fuel → Stops rest → readValue fuel (text ++ rest) = some (value, rest)

theorem reads_null : Reads (js "null") .null := by
  intro fuel rest hfuel _
  obtain ⟨fuel, rfl⟩ : ∃ k, fuel = k + 1 := Nat.exists_eq_succ_of_ne_zero (by
    rintro rfl
    exact absurd hfuel (by decide))
  rfl

theorem reads_bool (b : Bool) : Reads (if b then js "true" else js "false") (.bool b) := by
  intro fuel rest hfuel _
  obtain ⟨fuel, rfl⟩ : ∃ k, fuel = k + 1 := Nat.exists_eq_succ_of_ne_zero (by
    rintro rfl
    cases b <;> exact absurd hfuel (by decide))
  cases b with
  | true => rfl
  | false => rfl

theorem reads_quote (s : JsString) : Reads (quote s) (.str s) := by
  intro fuel rest hfuel _
  obtain ⟨fuel, rfl⟩ : ∃ k, fuel = k + 1 := Nat.exists_eq_succ_of_ne_zero (by
    rintro rfl
    cases hfuel)
  have htext : quote s ++ rest = 34 :: (quoteUnits s ++ 34 :: rest) := by
    simp [quote]
  rw [htext, readValue.eq_def]
  dsimp only
  rw [skipSpace_cons rfl]
  dsimp only
  rw [if_neg (by decide), if_neg (by decide), if_pos rfl, readString_quoteUnits, Option.map_some]

theorem Stops.noDigit {rest : JsString} (h : Stops rest) : NoDigit rest := by
  intro c hc
  obtain hspace | rfl | rfl | rfl := h c hc
  · simp only [isJsonSpace, Bool.or_eq_true, decide_eq_true_eq] at hspace
    obtain ((rfl | rfl) | rfl) | rfl := hspace <;> rfl
  · rfl
  · rfl
  · rfl

/-- Nothing goes on there. -/
theorem Stops.ne {c d : UInt16} {rest : JsString} (h : Stops (c :: rest))
    (hd : isJsonSpace d = false ∧ d ≠ 44 ∧ d ≠ 93 ∧ d ≠ 125) : c ≠ d := by
  rintro rfl
  obtain hspace | heq | heq | heq := h c rfl
  · rw [hd.1] at hspace
    cases hspace
  · exact hd.2.1 heq
  · exact hd.2.2.1 heq
  · exact hd.2.2.2 heq

theorem takeWhile_append {s rest : JsString} (h : NoDigit rest) :
    (s ++ rest).takeWhile isDigit = s.takeWhile isDigit ∧
      (s ++ rest).dropWhile isDigit = s.dropWhile isDigit ++ rest := by
  induction s with
  | nil =>
      cases rest with
      | nil => exact ⟨rfl, rfl⟩
      | cons c rest =>
          have hc : isDigit c = false := h c rfl
          rw [List.nil_append, List.takeWhile_cons, List.dropWhile_cons, hc]
          exact ⟨rfl, rfl⟩
  | cons c s ih =>
      rw [List.cons_append, List.takeWhile_cons, List.dropWhile_cons, List.takeWhile_cons,
        List.dropWhile_cons]
      split_ifs
      · exact ⟨congrArg _ ih.1, ih.2⟩
      · exact ⟨rfl, rfl⟩

theorem readDigits_append {s digits t rest : JsString} (h : readDigits s = some (digits, t))
    (hrest : NoDigit rest) : readDigits (s ++ rest) = some (digits, t ++ rest) := by
  obtain ⟨htake, hdrop⟩ := takeWhile_append (s := s) hrest
  rw [readDigits] at h ⊢
  rw [htake, hdrop]
  cases hdigits : s.takeWhile isDigit with
  | nil =>
      rw [hdigits] at h
      cases h
  | cons c digits' =>
      rw [hdigits] at h
      cases h
      rfl

theorem readInteger_append {s digits t rest : JsString} (h : readInteger s = some (digits, t))
    (hrest : NoDigit rest) : readInteger (s ++ rest) = some (digits, t ++ rest) := by
  cases s with
  | nil => cases h
  | cons c s =>
      by_cases hc : c = 48
      · subst hc
        cases h
        rfl
      · have hdigits : ∀ s : JsString, readInteger (c :: s) = readDigits (c :: s) := by
          intro s
          rw [readInteger]
          rintro tail ⟨⟩
          exact hc rfl
        rw [hdigits] at h
        rw [List.cons_append, hdigits]
        exact readDigits_append h hrest

theorem readFraction_append {s digits t rest : JsString} (h : readFraction s = some (digits, t))
    (hrest : Stops rest) : readFraction (s ++ rest) = some (digits, t ++ rest) := by
  cases s with
  | nil =>
      cases h
      cases rest with
      | nil => rfl
      | cons c rest =>
          rw [List.nil_append, readFraction]
          rintro tail ⟨⟩
          exact hrest.ne (by decide) rfl
  | cons c s =>
      by_cases hc : c = 46
      · subst hc
        exact readDigits_append (s := s) h hrest.noDigit
      · have hother : ∀ s : JsString, readFraction (c :: s) = some ([], c :: s) := by
          intro s
          rw [readFraction]
          rintro tail ⟨⟩
          exact hc rfl
        rw [hother] at h
        cases h
        exact hother _

theorem readExponent_other {c : UInt16} (h : ¬(c = unit 'e' ∨ c = unit 'E')) (rest : JsString) :
    readExponent (c :: rest) = some (0, c :: rest) := by
  rw [readExponent.eq_def]
  exact if_neg h

theorem readExponent_append {s t rest : JsString} {exponent : Int}
    (h : readExponent s = some (exponent, t)) (hrest : Stops rest) :
    readExponent (s ++ rest) = some (exponent, t ++ rest) := by
  have hdigits {s : JsString} {f : Nat → Int}
      (h : (readDigits s).map (fun r => (f (digitsValue r.1), r.2)) = some (exponent, t)) :
      (readDigits (s ++ rest)).map (fun r => (f (digitsValue r.1), r.2)) =
        some (exponent, t ++ rest) := by
    obtain ⟨⟨digits, t'⟩, hread, heq⟩ := Option.map_eq_some_iff.mp h
    cases heq
    exact Option.map_eq_some_iff.mpr ⟨_, readDigits_append hread hrest.noDigit, rfl⟩
  cases s with
  | nil =>
      cases h
      cases rest with
      | nil => rfl
      | cons c rest =>
          apply readExponent_other
          rintro (rfl | rfl)
          · exact hrest.ne (by decide) rfl
          · exact hrest.ne (by decide) rfl
  | cons c s =>
      by_cases hc : c = unit 'e' ∨ c = unit 'E'
      · rw [readExponent.eq_def] at h ⊢
        dsimp only [List.cons_append] at h ⊢
        rw [if_pos hc] at h ⊢
        cases s with
        | nil => cases h
        | cons d s =>
            by_cases hminus : d = 45
            · subst hminus
              exact @hdigits s (fun n => -(n : Int)) h
            · by_cases hplus : d = 43
              · subst hplus
                exact @hdigits s (fun n => (n : Int)) h
              · dsimp only [List.cons_append] at h ⊢
                split at h
                · rename_i heq
                  cases heq
                  exact absurd rfl hminus
                · rename_i heq
                  cases heq
                  exact absurd rfl hplus
                · split
                  · rename_i heq
                    cases heq
                    exact absurd rfl hminus
                  · rename_i heq
                    cases heq
                    exact absurd rfl hplus
                  · exact @hdigits (d :: s) (fun n => (n : Int)) h
      · rw [readExponent_other hc] at h
        cases h
        exact readExponent_other hc _

theorem minusSign_append {s t : JsString} {negative : Bool} (h : minusSign s = (negative, t))
    (hs : s ≠ []) (rest : JsString) : minusSign (s ++ rest) = (negative, t ++ rest) := by
  obtain ⟨c, s, rfl⟩ := List.exists_cons_of_ne_nil hs
  by_cases hc : c = 45
  · subst hc
    cases h
    rfl
  · have hother : ∀ s : JsString, minusSign (c :: s) = (false, c :: s) := by
      intro s
      rw [minusSign]
      rintro tail ⟨⟩
      exact hc rfl
    rw [hother] at h
    cases h
    exact hother _

/-- What an integer starts with. -/
theorem exists_digit_of_readInteger {s digits t : JsString}
    (h : readInteger s = some (digits, t)) : ∃ c tail, s = c :: tail ∧ isDigit c = true := by
  cases s with
  | nil => cases h
  | cons c s =>
      refine ⟨c, s, rfl, ?_⟩
      by_contra hc
      have hne : c ≠ 48 := by
        rintro rfl
        exact hc rfl
      rw [readInteger, readDigits, List.takeWhile_cons, if_neg hc] at h
      · cases h
      · rintro tail ⟨⟩
        exact hne rfl

/-- A numeral is read up to its end. -/
theorem readNumber_append {s rest : JsString} {n : JsNumber} (h : readNumber s = some (n, []))
    (hrest : Stops rest) : readNumber (s ++ rest) = some (n, rest) := by
  rw [readNumber] at h ⊢
  rcases hminus : minusSign s with ⟨negative, s₀⟩
  rw [hminus] at h
  simp only [Option.bind_eq_bind, Option.bind_eq_some_iff] at h
  obtain ⟨⟨digits, s₁⟩, hinteger, ⟨fraction, s₂⟩, hfraction, ⟨exponent, s₃⟩, hexponent, heq⟩ := h
  cases heq
  have hs : s ≠ [] := by
    rintro rfl
    cases hminus
    cases hinteger
  rw [minusSign_append hminus hs]
  simp only [readInteger_append hinteger hrest.noDigit, readFraction_append hfraction hrest,
    readExponent_append hexponent hrest, Option.bind_eq_bind, Option.bind_some]
  rfl

/-- A numeral starts with a digit or a minus sign. -/
theorem exists_cons_of_readNumber {s rest : JsString} {n : JsNumber}
    (h : readNumber s = some (n, rest)) :
    ∃ c tail, s = c :: tail ∧ (c = unit '-' ∨ isDigit c = true) := by
  rw [readNumber] at h
  cases s with
  | nil => cases h
  | cons c s =>
      refine ⟨c, s, rfl, ?_⟩
      by_cases hc : c = 45
      · exact .inl hc
      · have hother : minusSign (c :: s) = (false, c :: s) := by
          rw [minusSign]
          rintro tail ⟨⟩
          exact hc rfl
        rw [hother] at h
        simp only [Option.bind_eq_bind, Option.bind_eq_some_iff] at h
        obtain ⟨⟨digits, s₁⟩, hinteger, -⟩ := h
        obtain ⟨d, tail, heq, hd⟩ := exists_digit_of_readInteger hinteger
        cases heq
        exact .inr hd

theorem reads_number {text : JsString} {n : JsNumber} (h : readNumber text = some (n, [])) :
    Reads text (.num n) := by
  intro fuel rest hfuel hrest
  obtain ⟨c, tail, rfl, hc⟩ := exists_cons_of_readNumber h
  obtain ⟨fuel, rfl⟩ : ∃ k, fuel = k + 1 := Nat.exists_eq_succ_of_ne_zero (by
    rintro rfl
    cases hfuel)
  have hne : ∀ d : UInt16, isDigit d = false → d ≠ unit '-' → c ≠ d := by
    rintro d hdigit hminus rfl
    rcases hc with rfl | hc
    · exact hminus rfl
    · rw [hdigit] at hc
      cases hc
  have hspace : isJsonSpace c = false := by
    simp only [isJsonSpace, Bool.or_eq_false_iff, decide_eq_false_iff_not]
    exact ⟨⟨⟨hne _ (by decide) (by decide), hne _ (by decide) (by decide)⟩,
      hne _ (by decide) (by decide)⟩, hne _ (by decide) (by decide)⟩
  have hnumber := readNumber_append h hrest
  rw [List.cons_append] at hnumber ⊢
  rw [readValue.eq_def]
  dsimp only
  rw [skipSpace_cons hspace]
  dsimp only
  rw [if_neg (hne _ (by decide) (by decide)), if_neg (hne _ (by decide) (by decide)),
    if_neg (hne _ (by decide) (by decide)), if_pos hc, hnumber, Option.map_some]

/-- The elements of an array come after its bracket. -/
theorem readValue_array {fuel : Nat} {s rest : JsString} {values : List JsonValue}
    (h : readElements fuel s = some (values, rest)) :
    readValue (fuel + 1) (unit '[' :: s) = some (.array values, rest) := by
  rw [← readElements_skipSpace] at h
  rw [readValue.eq_def]
  dsimp only
  rw [skipSpace_cons rfl]
  dsimp only
  rw [if_neg (by decide), if_pos rfl]
  split
  · rename_i tail heq
    -- No element starts with the closing bracket.
    rw [heq] at h
    cases fuel with
    | zero => cases h
    | succ fuel =>
        rw [readElements, Option.bind_eq_bind, Option.bind_eq_some_iff] at h
        obtain ⟨⟨value, rest'⟩, hvalue, -⟩ := h
        cases fuel with
        | zero => cases hvalue
        | succ fuel =>
            rw [readValue.eq_def] at hvalue
            cases hvalue
  · rw [h, Option.map_some]

/-- The members of an object come after its brace. -/
theorem readValue_object {fuel : Nat} {s rest : JsString}
    {members : List (JsString × JsonValue)} (h : readMembers fuel s = some (members, rest)) :
    readValue (fuel + 1) (unit '{' :: s) = some (.object members, rest) := by
  rw [← readMembers_skipSpace] at h
  rw [readValue.eq_def]
  dsimp only
  rw [skipSpace_cons rfl]
  dsimp only
  rw [if_pos rfl]
  split
  · rename_i tail heq
    rw [heq] at h
    cases fuel with
    | zero => cases h
    | succ fuel =>
        rw [readMembers] at h
        cases h
  · rw [h, Option.map_some]

/-- Texts between brackets are separated by commas, each with the same spaces in front. -/
theorem exists_bracketed {gap indent : JsString} (hgap : Spaces gap) (hindent : Spaces indent)
    {texts : List JsString} (hne : texts ≠ []) (opening closing : UInt16) :
    ∃ pad last, Spaces pad ∧ Spaces last ∧ bracketed opening closing gap indent texts =
      opening :: (pad ++ (join (44 :: pad) texts ++ (last ++ [closing]))) := by
  rw [bracketed, if_neg hne]
  split_ifs
  · exact ⟨[], [], spaces_nil, spaces_nil, rfl⟩
  · refine ⟨10 :: (indent ++ gap), 10 :: indent, (hindent.append hgap).line, hindent.line, ?_⟩
    simp [unit]

theorem readElements_join {pad last : JsString} (hpad : Spaces pad) (hlast : Spaces last)
    {texts : List JsString} {values : List JsonValue} (h : List.Forall₂ Reads texts values)
    (hne : texts ≠ []) {fuel : Nat} (hfuel : (join (44 :: pad) texts).length < fuel)
    (rest : JsString) :
    readElements fuel (join (44 :: pad) texts ++ (last ++ 93 :: rest)) = some (values, rest) := by
  induction h generalizing fuel with
  | nil => exact absurd rfl hne
  | @cons text value texts values hfirst htail ih =>
      obtain ⟨fuel, rfl⟩ : ∃ k, fuel = k + 1 := ⟨fuel - 1, by omega⟩
      cases htail with
      | nil =>
          have hvalue := hfirst fuel (last ++ 93 :: rest) (Nat.le_of_lt_succ hfuel)
            (stops_append hlast (.inr (.inl rfl)) rest)
          rw [join, readElements, hvalue]
          simp only [Option.bind_eq_bind, Option.bind_some, hlast.skipSpace]
          rw [skipSpace_cons rfl]
          rfl
      | @cons text' value' texts values hfirst' htail =>
          have hlength : text.length + 1 + (join (44 :: pad) (text' :: texts)).length ≤ fuel := by
            simp only [join, List.length_append, List.length_cons] at hfuel ⊢
            omega
          have hrest := @ih (List.cons_ne_nil _ _) fuel (by omega)
          rw [← readElements_skipSpace, ← hpad.skipSpace, readElements_skipSpace] at hrest
          have htext : join (44 :: pad) (text :: text' :: texts) ++ (last ++ 93 :: rest) =
              text ++ 44 ::
                (pad ++ (join (44 :: pad) (text' :: texts) ++ (last ++ 93 :: rest))) := by
            simp [join]
          have hvalue := hfirst fuel
            (44 :: (pad ++ (join (44 :: pad) (text' :: texts) ++ (last ++ 93 :: rest)))) (by omega)
            (stops_append spaces_nil (.inl rfl) _)
          rw [htext, readElements, hvalue]
          simp only [Option.bind_eq_bind, Option.bind_some]
          rw [skipSpace_cons rfl]
          simp only [hrest, Option.bind_some]
          rfl

/-- The text of a member, with some spaces before its value. -/
def memberText (pad : JsString) (m : JsString × JsString) : JsString :=
  quote m.1 ++ unit ':' :: (pad ++ m.2)

theorem readMembers_member {pad text rest : JsString} {value : JsonValue} (hpad : Spaces pad)
    (h : Reads text value) (name : JsString) {fuel : Nat} (hfuel : text.length ≤ fuel)
    (hrest : Stops rest) : readMembers (fuel + 1) (memberText pad (name, text) ++ rest) =
      match skipSpace rest with
      | 44 :: rest => (readMembers fuel rest).bind fun r => some ((name, value) :: r.1, r.2)
      | 125 :: rest => some ([(name, value)], rest)
      | _ => none := by
  have htext : memberText pad (name, text) ++ rest =
      34 :: (quoteUnits name ++ 34 :: (58 :: (pad ++ (text ++ rest)))) := by
    simp [memberText, quote, unit]
  rw [htext, readMembers, skipSpace_cons rfl]
  simp only [readString_quoteUnits, Option.bind_eq_bind, Option.bind_some]
  rw [skipSpace_cons rfl]
  simp only [hpad.readValue, h fuel rest hfuel hrest, Option.bind_some]
  rfl

theorem readMembers_join {gap pad last : JsString} (hgap : Spaces gap) (hpad : Spaces pad)
    (hlast : Spaces last) {texts : List (JsString × JsString)}
    {members : List (JsString × JsonValue)}
    (h : List.Forall₂ (fun m w => m.1 = w.1 ∧ Reads m.2 w.2) texts members) (hne : texts ≠ [])
    {fuel : Nat} (hfuel : (join (44 :: pad) (texts.map (memberText gap))).length < fuel)
    (rest : JsString) :
    readMembers fuel (join (44 :: pad) (texts.map (memberText gap)) ++ (last ++ 125 :: rest)) =
      some (members, rest) := by
  induction h generalizing fuel with
  | nil => exact absurd rfl hne
  | @cons m w texts members hfirst htail ih =>
      obtain ⟨name, text⟩ := m
      obtain ⟨name', value⟩ := w
      obtain ⟨rfl, hread⟩ := hfirst
      obtain ⟨fuel, rfl⟩ : ∃ k, fuel = k + 1 := ⟨fuel - 1, by omega⟩
      have htext : text.length ≤ (memberText gap (name, text)).length := by
        simp only [memberText, List.length_append, List.length_cons]
        omega
      cases htail with
      | nil =>
          have hlength : text.length ≤ fuel := htext.trans (Nat.le_of_lt_succ hfuel)
          rw [List.map_singleton, join, readMembers_member hgap hread name hlength
            (stops_append hlast (.inr (.inr rfl)) rest), hlast.skipSpace, skipSpace_cons rfl]
          rfl
      | @cons m' w' texts members hfirst' htail =>
          have hlength : (memberText gap (name, text)).length + 1 +
              (join (44 :: pad) ((m' :: texts).map (memberText gap))).length ≤ fuel := by
            simp only [List.map_cons, join, List.length_append, List.length_cons] at hfuel ⊢
            omega
          have hrest := @ih (List.cons_ne_nil _ _) fuel (by omega)
          rw [← readMembers_skipSpace, ← hpad.skipSpace, readMembers_skipSpace] at hrest
          have hsplit : join (44 :: pad) (((name, text) :: m' :: texts).map (memberText gap)) ++
              (last ++ 125 :: rest) = memberText gap (name, text) ++
                44 :: (pad ++ (join (44 :: pad) ((m' :: texts).map (memberText gap)) ++
                  (last ++ 125 :: rest))) := by
            simp [join]
          have hstops : Stops (44 :: (pad ++ (join (44 :: pad)
              ((m' :: texts).map (memberText gap)) ++ (last ++ 125 :: rest)))) :=
            stops_append spaces_nil (.inl rfl) _
          have hbound : text.length ≤ fuel := by omega
          rw [hsplit, readMembers_member hgap hread name hbound hstops, skipSpace_cons rfl]
          simp only [hrest, Option.bind_some]

theorem reads_array {gap indent : JsString} (hgap : Spaces gap) (hindent : Spaces indent)
    {texts : List JsString} {values : List JsonValue} (h : List.Forall₂ Reads texts values) :
    Reads (bracketed (unit '[') (unit ']') gap indent texts) (.array values) := by
  intro fuel rest hfuel _
  by_cases hne : texts = []
  · subst hne
    cases h
    obtain ⟨fuel, rfl⟩ : ∃ k, fuel = k + 1 := ⟨fuel - 1, by
      rw [bracketed, if_pos rfl] at hfuel
      simp only [List.length_cons, List.length_nil] at hfuel
      omega⟩
    rfl
  · obtain ⟨pad, last, hpad, hlast, htext⟩ :=
      exists_bracketed hgap hindent hne (unit '[') (unit ']')
    rw [htext] at hfuel ⊢
    obtain ⟨fuel, rfl⟩ : ∃ k, fuel = k + 1 := ⟨fuel - 1, by
      rw [List.length_cons] at hfuel
      omega⟩
    have helements := @readElements_join pad last hpad hlast texts values h hne fuel (by
      simp only [List.length_cons, List.length_append] at hfuel
      omega) rest
    rw [← readElements_skipSpace, ← hpad.skipSpace, readElements_skipSpace] at helements
    rw [← readValue_array helements]
    simp [unit]

theorem reads_object {gap pad indent : JsString} (hgap : Spaces gap) (hpad : Spaces pad)
    (hindent : Spaces indent) {texts : List (JsString × JsString)}
    {members : List (JsString × JsonValue)}
    (h : List.Forall₂ (fun m w => m.1 = w.1 ∧ Reads m.2 w.2) texts members) :
    Reads (bracketed (unit '{') (unit '}') gap indent (texts.map (memberText pad)))
      (.object members) := by
  intro fuel rest hfuel _
  by_cases hne : texts = []
  · subst hne
    cases h
    obtain ⟨fuel, rfl⟩ : ∃ k, fuel = k + 1 := ⟨fuel - 1, by
      rw [List.map_nil, bracketed, if_pos rfl] at hfuel
      simp only [List.length_cons, List.length_nil] at hfuel
      omega⟩
    rfl
  · have hmap : texts.map (memberText pad) ≠ [] := mt List.map_eq_nil_iff.mp hne
    obtain ⟨line, last, hline, hlast, htext⟩ :=
      exists_bracketed hgap hindent hmap (unit '{') (unit '}')
    rw [htext] at hfuel ⊢
    obtain ⟨fuel, rfl⟩ : ∃ k, fuel = k + 1 := ⟨fuel - 1, by
      rw [List.length_cons] at hfuel
      omega⟩
    have hmembers := @readMembers_join pad line last hpad hline hlast texts members h hne fuel (by
      simp only [List.length_cons, List.length_append] at hfuel
      omega) rest
    rw [← readMembers_skipSpace, ← hline.skipSpace, readMembers_skipSpace] at hmembers
    rw [← readValue_object hmembers]
    simp [unit]

section

variable {α β : Type} (f : α → β)

theorem entries_foldl_map (assigned : List (JsString × α)) {object : InsertionMap JsString α}
    {mapped : InsertionMap JsString β}
    (h : mapped.entries = object.entries.map fun m => (m.1, f m.2)) :
    ((assigned.map fun m => (m.1, f m.2)).foldl (fun object m => object.set m.1 m.2)
        mapped).entries =
      (assigned.foldl (fun object m => object.set m.1 m.2) object).entries.map fun m =>
        (m.1, f m.2) := by
  induction assigned generalizing object mapped with
  | nil => exact h
  | cons m assigned ih =>
      apply ih
      have hkeys : mapped.keys = object.keys := by
        rw [InsertionMap.keys, InsertionMap.keys, h, List.map_map]
        rfl
      by_cases hmem : m.1 ∈ object.keys
      · rw [InsertionMap.entries_set_of_mem hmem, InsertionMap.entries_set_of_mem (hkeys ▸ hmem),
          h, List.map_map, List.map_map]
        apply List.map_congr_left
        intro e _
        simp only [Function.comp]
        split_ifs <;> rfl
      · rw [InsertionMap.entries_set_of_notMem hmem,
          InsertionMap.entries_set_of_notMem (hkeys ▸ hmem), h, List.map_append,
          List.map_singleton]

/-- The order of the members does not depend on their values. -/
theorem propertyOrder_map (assigned : List (JsString × α)) :
    propertyOrder (assigned.map fun m => (m.1, f m.2)) =
      (propertyOrder assigned).map fun m => (m.1, f m.2) := by
  have hown := @entries_foldl_map α β f assigned .empty .empty rfl
  rw [propertyOrder, propertyOrder, hown, List.map_append, List.filter_map, List.filter_map]
  congr 1
  symm
  apply List.map_insertionSort
  intro m _ n _
  rfl

theorem mem_of_mem_foldl_set {assigned : List (JsString × α)} {object : InsertionMap JsString α}
    {m : JsString × α}
    (h : m ∈ (assigned.foldl (fun object m => object.set m.1 m.2) object).entries) :
    m ∈ assigned ∨ m ∈ object.entries := by
  induction assigned generalizing object with
  | nil => exact .inr h
  | cons n assigned ih =>
      obtain hm | hm := ih h
      · exact .inl (List.mem_cons_of_mem _ hm)
      · by_cases hmem : n.1 ∈ object.keys
        · rw [InsertionMap.entries_set_of_mem hmem] at hm
          obtain ⟨e, he, rfl⟩ := List.mem_map.mp hm
          split_ifs
          · exact .inl List.mem_cons_self
          · exact .inr he
        · rw [InsertionMap.entries_set_of_notMem hmem] at hm
          obtain hm | hm := List.mem_append.mp hm
          · exact .inr hm
          · exact .inl (List.mem_cons.mpr (.inl (List.mem_singleton.mp hm)))

theorem mem_of_mem_propertyOrder {assigned : List (JsString × α)} {m : JsString × α}
    (h : m ∈ propertyOrder assigned) : m ∈ assigned := by
  have hown : m ∈ (assigned.foldl (fun object m => object.set m.1 m.2)
      InsertionMap.empty).entries := by
    obtain h | h := List.mem_append.mp h
    · exact (List.mem_filter.mp ((List.mem_insertionSort _).mp h)).1
    · exact (List.mem_filter.mp h).1
  exact (mem_of_mem_foldl_set hown).resolve_right List.not_mem_nil

end

section

variable {α : Type}

/-- The members in the order in which they were set first. -/
def ownMembers (assigned : List (JsString × α)) : InsertionMap JsString α :=
  assigned.foldl (fun object m => object.set m.1 m.2) .empty

theorem perm_propertyOrder (assigned : List (JsString × α)) :
    (propertyOrder assigned).Perm (ownMembers assigned).entries := by
  have hnone : (fun m : JsString × α => (arrayIndex m.1).isNone) =
      fun m => !(arrayIndex m.1).isSome := by
    funext m
    cases arrayIndex m.1 <;> rfl
  rw [propertyOrder, hnone]
  exact ((List.perm_insertionSort _ _).append_right _).trans (List.filter_append_perm _ _)

/-- The order keeps the last value of each name. -/
theorem find?_propertyOrder (assigned : List (JsString × α)) (name : JsString) :
    ((propertyOrder assigned).reverse.find? fun m => decide (m.1 = name)).map Prod.snd =
      (assigned.reverse.find? fun m => decide (m.1 = name)).map Prod.snd := by
  have hperm : (propertyOrder assigned).reverse.Perm (ownMembers assigned).entries :=
    (List.reverse_perm _).trans (perm_propertyOrder assigned)
  rw [InsertionMap.find?_of_perm hperm, ownMembers, InsertionMap.get_foldl_set,
    InsertionMap.get_empty, Option.or_none]

/-- Members whose names differ are kept as they are set. -/
theorem entries_foldl_of_nodup {assigned : List (JsString × α)} {object : InsertionMap JsString α}
    (h : (object.keys ++ assigned.map Prod.fst).Nodup) :
    (assigned.foldl (fun object m => object.set m.1 m.2) object).entries =
      object.entries ++ assigned := by
  induction assigned generalizing object with
  | nil => exact (List.append_nil _).symm
  | cons m assigned ih =>
      have hnew : m.1 ∉ object.keys := by
        intro hmem
        exact (List.nodup_append.mp h).2.2 _ hmem _ List.mem_cons_self rfl
      rw [List.foldl_cons, ih, InsertionMap.entries_set_of_notMem hnew, List.append_assoc,
        List.singleton_append]
      rw [InsertionMap.keys_set_of_notMem hnew, List.append_assoc]
      exact h

/-- Members in their order stay in it. -/
theorem propertyOrder_propertyOrder (assigned : List (JsString × α)) :
    propertyOrder (propertyOrder assigned) = propertyOrder assigned := by
  have hnodup : ((propertyOrder assigned).map Prod.fst).Nodup :=
    ((perm_propertyOrder assigned).map Prod.fst).nodup_iff.mpr (ownMembers assigned).nodup
  have hown : (ownMembers (propertyOrder assigned)).entries = propertyOrder assigned :=
    entries_foldl_of_nodup hnodup
  let before : JsString × α → JsString × α → Prop := fun m n =>
    (arrayIndex m.1).getD 0 ≤ (arrayIndex n.1).getD 0
  let indexed := ((ownMembers assigned).entries.filter fun m =>
    (arrayIndex m.1).isSome).insertionSort before
  let others := (ownMembers assigned).entries.filter fun m => (arrayIndex m.1).isNone
  have hindexed : ∀ m ∈ indexed, (arrayIndex m.1).isSome = true :=
    fun m hm => (List.mem_filter.mp ((List.mem_insertionSort _).mp hm)).2
  have hothers : ∀ m ∈ others, (arrayIndex m.1).isNone = true :=
    fun m hm => (List.mem_filter.mp hm).2
  have hnone : (indexed.filter fun m => (arrayIndex m.1).isNone) = [] := by
    rw [List.filter_eq_nil_iff]
    intro m hm
    simpa using Option.isSome_iff_ne_none.mp (hindexed m hm)
  have hsome : (others.filter fun m => (arrayIndex m.1).isSome) = [] := by
    rw [List.filter_eq_nil_iff]
    intro m hm
    simpa using hothers m hm
  have horder : propertyOrder (propertyOrder assigned) =
      ((indexed ++ others).filter fun m => (arrayIndex m.1).isSome).insertionSort before ++
        (indexed ++ others).filter fun m => (arrayIndex m.1).isNone := by
    change _ = ((propertyOrder assigned).filter fun m => (arrayIndex m.1).isSome).insertionSort
      before ++ (propertyOrder assigned).filter fun m => (arrayIndex m.1).isNone
    conv_rhs => rw [← hown]
    rfl
  rw [horder, List.filter_append, List.filter_append, hnone, hsome,
    List.filter_eq_self.mpr hindexed, List.filter_eq_self.mpr hothers, List.append_nil,
    List.nil_append, (List.pairwise_insertionSort before _).insertionSort_eq]
  rfl

end

theorem asWrittenMembers_eq_map (members : List (JsString × JsonValue)) :
    asWrittenMembers members = members.map fun m => (m.1, asWritten m.2) := by
  induction members with
  | nil => rfl
  | cons m members ih => rw [asWrittenMembers, ih, List.map_cons]

/-- A member of a written object is the written member. -/
theorem get_asWritten (value : JsonValue) (name : JsString) :
    (asWritten value).get name = (value.get name).map asWritten := by
  cases value with
  | object members =>
      rw [asWritten, JsonValue.get, find?_propertyOrder, asWrittenMembers_eq_map,
        ← List.map_reverse, List.find?_map, JsonValue.get, Option.map_map, Option.map_map]
      rfl
  | num n => cases n <;> rfl
  | _ => rfl

mutual

/-- A value that was read is written as itself. -/
theorem asWritten_asWritten : ∀ value, asWritten (asWritten value) = asWritten value
  | .null => rfl
  | .bool _ => rfl
  | .num (.finite _) => rfl
  | .num (.infinite _) => rfl
  | .str _ => rfl
  | .array elements => by
      rw [asWritten, asWritten, asWrittenElements_asWrittenElements elements]
  | .object members => by
      rw [asWritten, asWrittenMembers_eq_map, propertyOrder_map, asWritten,
        asWrittenMembers_eq_map, propertyOrder_map, propertyOrder_map,
        propertyOrder_propertyOrder, List.map_map]
      congr 1
      apply List.map_congr_left
      intro m hm
      exact Prod.ext rfl (asWritten_members members m (mem_of_mem_propertyOrder hm))

theorem asWrittenElements_asWrittenElements : ∀ elements,
    asWrittenElements (asWrittenElements elements) = asWrittenElements elements
  | [] => rfl
  | element :: elements => by
      rw [asWrittenElements, asWrittenElements, asWritten_asWritten element,
        asWrittenElements_asWrittenElements elements]

theorem asWritten_members : ∀ members : List (JsString × JsonValue), ∀ m ∈ members,
    asWritten (asWritten m.2) = asWritten m.2
  | [] => List.forall_mem_nil _
  | (_, value) :: members =>
      List.forall_mem_cons.mpr ⟨asWritten_asWritten value, asWritten_members members⟩

end

section

variable {numberText : JsNumber → JsString} {gap : JsString}

theorem stringifyMembers_eq_map (indent : JsString) (members : List (JsString × JsonValue)) :
    stringifyMembers numberText gap indent members =
      members.map fun m => (m.1, stringifyIn numberText gap indent m.2) := by
  induction members with
  | nil => rfl
  | cons m members ih => rw [stringifyMembers, ih, List.map_cons]

mutual

/-- The text of a value is read as the value. -/
theorem reads_stringifyIn (hgap : Spaces gap) {indent : JsString} (hindent : Spaces indent) :
    ∀ value, WritesNumbers numberText value →
      Reads (stringifyIn numberText gap indent value) (asWritten value)
  | .null, _ => reads_null
  | .bool b, _ => reads_bool b
  | .num (.finite _), h => reads_number h
  | .num (.infinite _), _ => reads_null
  | .str s, _ => reads_quote s
  | .array elements, h => by
      rw [stringifyIn, asWritten]
      exact reads_array hgap hindent (reads_elements hgap (hindent.append hgap) elements h)
  | .object members, h => by
      rw [stringifyIn, asWritten, stringifyMembers_eq_map, asWrittenMembers_eq_map,
        propertyOrder_map, propertyOrder_map]
      have hpad : Spaces (if gap = [] then [] else [32]) := by
        split_ifs
        · exact spaces_nil
        · exact List.forall_mem_singleton.mpr (by decide)
      apply reads_object hgap hpad hindent
      rw [List.forall₂_map_left_iff, List.forall₂_map_right_iff, List.forall₂_same]
      intro m hm
      exact ⟨rfl, reads_members hgap (hindent.append hgap) members h m
        (mem_of_mem_propertyOrder hm)⟩

theorem reads_elements (hgap : Spaces gap) {indent : JsString} (hindent : Spaces indent) :
    ∀ elements, WritesElements numberText elements →
      List.Forall₂ Reads (stringifyElements numberText gap indent elements)
        (asWrittenElements elements)
  | [], _ => .nil
  | element :: elements, h =>
      .cons (reads_stringifyIn hgap hindent element h.1) (reads_elements hgap hindent elements h.2)

theorem reads_members (hgap : Spaces gap) {indent : JsString} (hindent : Spaces indent) :
    ∀ members, WritesMembers numberText members →
      ∀ m ∈ members, Reads (stringifyIn numberText gap indent m.2) (asWritten m.2)
  | [], _ => List.forall_mem_nil _
  | (_, value) :: members, h => List.forall_mem_cons.mpr
      ⟨reads_stringifyIn hgap hindent value h.1, reads_members hgap hindent members h.2⟩

end

/-- `JSON.parse` reads back what `JSON.stringify` writes, also with spaces around it. -/
theorem jsonParse_stringifyIn (hgap : Spaces gap) {value : JsonValue}
    (h : WritesNumbers numberText value) {last : JsString} (hlast : Spaces last) :
    jsonParse (stringifyIn numberText gap [] value ++ last) = some (asWritten value) := by
  have hstops : Stops last := by
    intro c hc
    exact .inl (hlast c (List.mem_of_mem_head? hc))
  have hvalue := reads_stringifyIn hgap spaces_nil value h
    ((stringifyIn numberText gap [] value ++ last).length + 1) last (by
      rw [List.length_append]
      omega) hstops
  have hskip : skipSpace last = [] := by
    rw [← List.append_nil last, hlast.skipSpace]
    rfl
  rw [jsonParse, hvalue]
  simp only [Option.bind_eq_bind, Option.bind_some, hskip, if_pos]
  rfl

end

end TestServer.Js
