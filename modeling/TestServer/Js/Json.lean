import TestServer.Js.Text
import Mathlib.Data.List.Nodup
import Mathlib.Tactic.SplitIfs

/-!
# JavaScript values and their JSON text

The values that option records hold, and `JSON.stringify` on them. The text of
an object determines its members: each member is cut off by a unit that its own
text cannot contain at that place.
-/

namespace TestServer.Js

inductive JsValue where
  | bool (b : Bool)
  | num (n : Int)
  | str (s : JsString)
  | strs (l : List JsString)
deriving DecidableEq

namespace JsValue

/-- Whether the value counts as true in a condition. -/
def truthy : JsValue → Bool
  | bool b => b
  | num n => decide (n ≠ 0)
  | str s => !s.isEmpty
  | strs _ => true

/-- `===`; two arrays are never the same object here. -/
def strictEq : JsValue → JsValue → Bool
  | strs _, strs _ => false
  | v, w => decide (v = w)

theorem eq_of_strictEq {v w : JsValue} (h : strictEq v w = true) : v = w := by
  cases v <;> cases w <;> simp_all [strictEq]

end JsValue

def isHighSurrogate (c : UInt16) : Bool := decide (0xD800 ≤ c ∧ c ≤ 0xDBFF)

def isLowSurrogate (c : UInt16) : Bool := decide (0xDC00 ≤ c ∧ c ≤ 0xDFFF)

def hexDigit (n : Nat) : UInt16 := (if n < 10 then 48 + n else 87 + n).toUInt16

/-- The four digits of `\uXXXX`. -/
def hex4 (c : UInt16) : JsString :=
  [hexDigit (c.toNat / 4096), hexDigit (c.toNat / 256 % 16), hexDigit (c.toNat / 16 % 16),
    hexDigit (c.toNat % 16)]

/-- The second unit of a two-unit escape. -/
def shortEscape (c : UInt16) : Option UInt16 :=
  if c = 8 then some (unit 'b')
  else if c = 9 then some (unit 't')
  else if c = 10 then some (unit 'n')
  else if c = 12 then some (unit 'f')
  else if c = 13 then some (unit 'r')
  else if c = 34 then some 34
  else if c = 92 then some 92
  else none

def unicodeEscape (c : UInt16) : JsString := 92 :: unit 'u' :: hex4 c

def escapeUnit (c : UInt16) : JsString :=
  match shortEscape c with
  | some e => [92, e]
  | none =>
      if c < 32 ∨ isHighSurrogate c ∨ isLowSurrogate c then unicodeEscape c else [c]

/-- The inside of a quoted string. Only a surrogate pair is kept as it is. -/
def quoteUnits : JsString → JsString
  | [] => []
  | [c] => escapeUnit c
  | c :: d :: s =>
      if isHighSurrogate c ∧ isLowSurrogate d then c :: d :: quoteUnits s
      else escapeUnit c ++ quoteUnits (d :: s)

def quote (s : JsString) : JsString := 34 :: (quoteUnits s ++ [34])

def integer (n : Int) : JsString :=
  if n < 0 then unit '-' :: decimal n.natAbs else decimal n.natAbs

def stringifyValue : JsValue → JsString
  | .bool true => js "true"
  | .bool false => js "false"
  | .num n => integer n
  | .str s => quote s
  | .strs l => unit '[' :: (join [unit ','] (l.map quote) ++ [unit ']'])

def stringifyMember (m : JsString × JsValue) : JsString :=
  quote m.1 ++ unit ':' :: stringifyValue m.2

/-- The text of an object with the given members, in their order. -/
def stringifyObject (members : List (JsString × JsValue)) : JsString :=
  unit '{' :: (join [unit ','] (members.map stringifyMember) ++ [unit '}'])

theorem hexDigit_injective : ∀ m < 16, ∀ n < 16, hexDigit m = hexDigit n → m = n := by
  decide

theorem hex4_injective {c d : UInt16} (h : hex4 c = hex4 d) : c = d := by
  simp only [hex4, List.cons.injEq, and_true] at h
  obtain ⟨h₃, h₂, h₁, h₀⟩ := h
  have hc : c.toNat < 65536 := c.toNat_lt
  have hd : d.toNat < 65536 := d.toNat_lt
  have e₃ := hexDigit_injective _ (by omega) _ (by omega) h₃
  have e₂ := hexDigit_injective _ (by omega) _ (by omega) h₂
  have e₁ := hexDigit_injective _ (by omega) _ (by omega) h₁
  have e₀ := hexDigit_injective _ (by omega) _ (by omega) h₀
  exact UInt16.toNat_inj.mp (by omega)

/-- The pairs of a unit and its short escape. -/
def shortEscapes : List (UInt16 × UInt16) :=
  [(8, unit 'b'), (9, unit 't'), (10, unit 'n'), (12, unit 'f'), (13, unit 'r'), (34, 34),
    (92, 92)]

theorem mem_shortEscapes {c e : UInt16} (h : shortEscape c = some e) : (c, e) ∈ shortEscapes := by
  simp only [shortEscape] at h
  split_ifs at h <;> simp_all [shortEscapes]

theorem shortEscape_injective {c d e : UInt16} (hc : shortEscape c = some e)
    (hd : shortEscape d = some e) : c = d := by
  have hnodup : (shortEscapes.map Prod.snd).Nodup := by
    decide
  have hpair := List.inj_on_of_nodup_map hnodup (mem_shortEscapes hc) (mem_shortEscapes hd) rfl
  exact congrArg Prod.fst hpair

theorem shortEscape_ne_u {c e : UInt16} (hc : shortEscape c = some e) : e ≠ unit 'u' := by
  have hnotMem : unit 'u' ∉ shortEscapes.map Prod.snd := by
    decide
  rintro rfl
  exact hnotMem (List.mem_map_of_mem (mem_shortEscapes hc))

/-- The texts that may stand for one unit inside a quoted string. -/
inductive Spells : JsString → UInt16 → Prop
  | plain {c : UInt16} (hq : c ≠ 34) (hb : c ≠ 92) : Spells [c] c
  | short {c e : UInt16} (h : shortEscape c = some e) : Spells [92, e] c
  | unicode {c : UInt16} : Spells (unicodeEscape c) c

/-- A text that spells a string unit by unit. -/
inductive SpellsAll : JsString → JsString → Prop
  | nil : SpellsAll [] []
  | cons {w t : JsString} {c : UInt16} {s : JsString} (hw : Spells w c) (ht : SpellsAll t s) :
      SpellsAll (w ++ t) (c :: s)

theorem spells_escapeUnit (c : UInt16) : Spells (escapeUnit c) c := by
  simp only [escapeUnit]
  cases h : shortEscape c with
  | some e => exact .short h
  | none =>
      simp only
      split
      · exact .unicode
      · apply Spells.plain
        · rintro rfl
          simp [shortEscape] at h
        · rintro rfl
          simp [shortEscape] at h

theorem spells_surrogate {c : UInt16} (h : isHighSurrogate c ∨ isLowSurrogate c) :
    Spells [c] c := by
  apply Spells.plain
  · rintro rfl
    revert h
    decide
  · rintro rfl
    revert h
    decide

theorem spellsAll_quoteUnits (s : JsString) : SpellsAll (quoteUnits s) s := by
  fun_induction quoteUnits s with
  | case1 => exact .nil
  | case2 c =>
      have h := SpellsAll.cons (spells_escapeUnit c) .nil
      rwa [List.append_nil] at h
  | case3 c d s hpair ih =>
      exact .cons (spells_surrogate (Or.inl hpair.1)) (.cons (spells_surrogate (Or.inr hpair.2)) ih)
  | case4 c d s _ ih => exact .cons (spells_escapeUnit c) ih

/-- One unit is read off the front of a spelled text. -/
theorem Spells.append_inj {v w x y : JsString} {c d : UInt16} (hv : Spells v c)
    (hw : Spells w d) (h : v ++ x = w ++ y) : c = d ∧ x = y := by
  cases hv with
  | plain hq hb =>
      cases hw with
      | plain => simpa using h
      | short => exact absurd (by simpa using And.left (List.cons.inj h)) hb
      | unicode => exact absurd (by simpa [unicodeEscape] using And.left (List.cons.inj h)) hb
  | short he =>
      cases hw with
      | plain hq hb => exact absurd (by simpa using (And.left (List.cons.inj h)).symm) hb
      | short hf =>
          simp only [List.cons_append, List.nil_append, List.cons.injEq, true_and] at h
          exact ⟨shortEscape_injective he (h.1 ▸ hf), h.2⟩
      | unicode =>
          simp only [unicodeEscape, List.cons_append, List.nil_append, List.cons.injEq,
            true_and] at h
          exact absurd h.1 (shortEscape_ne_u he)
  | unicode =>
      cases hw with
      | plain hq hb =>
          exact absurd (by simpa [unicodeEscape] using (And.left (List.cons.inj h)).symm) hb
      | short hf =>
          simp only [unicodeEscape, List.cons_append, List.nil_append, List.cons.injEq,
            true_and] at h
          exact absurd h.1.symm (shortEscape_ne_u hf)
      | unicode =>
          simp only [unicodeEscape, List.cons_append, List.cons.injEq, true_and] at h
          obtain ⟨hhex, hxy⟩ := List.append_inj h rfl
          exact ⟨hex4_injective hhex, hxy⟩

theorem Spells.ne_quote {w x y : JsString} {c : UInt16} (hw : Spells w c) :
    34 :: x ≠ w ++ y := by
  intro h
  cases hw with
  | plain hq => exact hq (And.left (List.cons.inj h)).symm
  | short => simp at h
  | unicode => simp [unicodeEscape] at h

theorem SpellsAll.append_quote_inj {t u s r x y : JsString} (ht : SpellsAll t s)
    (hu : SpellsAll u r) (h : t ++ 34 :: x = u ++ 34 :: y) : s = r ∧ x = y := by
  induction ht generalizing u r with
  | nil =>
      cases hu with
      | nil => simpa using h
      | cons hw _ =>
          rw [List.nil_append, List.append_assoc] at h
          exact absurd h hw.ne_quote
  | cons hv _ ih =>
      cases hu with
      | nil =>
          rw [List.nil_append, List.append_assoc] at h
          exact absurd h.symm hv.ne_quote
      | cons hw hu =>
          rw [List.append_assoc, List.append_assoc] at h
          obtain ⟨hcd, hrest⟩ := hv.append_inj hw h
          obtain ⟨hsr, hxy⟩ := ih hu hrest
          exact ⟨by rw [hcd, hsr], hxy⟩

/-- A quoted string is read off the front of a text. -/
theorem quote_append_inj {s r x y : JsString} (h : quote s ++ x = quote r ++ y) :
    s = r ∧ x = y := by
  simp only [quote, List.cons_append, List.append_assoc, List.cons.injEq,
    true_and] at h
  exact (spellsAll_quoteUnits s).append_quote_inj (spellsAll_quoteUnits r) h

def isDigit (c : UInt16) : Bool := decide (48 ≤ c ∧ c ≤ 57)

/-- The text does not go on with a digit. -/
def NoDigit (x : JsString) : Prop := ∀ c ∈ x.head?, isDigit c = false

theorem NoDigit.cons {c : UInt16} {x : JsString} (h : isDigit c = false) : NoDigit (c :: x) := by
  intro d hd
  simp only [List.head?_cons, Option.mem_def, Option.some.injEq] at hd
  rw [← hd]
  exact h

theorem unit_toNat {c : Char} (h : c.isDigit = true) : (unit c).toNat = c.toNat := by
  have hle : c.toNat ≤ 57 := (Char.isDigit_iff_toNat.mp h).2
  exact Nat.mod_eq_of_lt (Nat.lt_of_le_of_lt hle (by decide))

theorem isDigit_unit {c : Char} (h : c.isDigit = true) : isDigit (unit c) = true := by
  simp only [isDigit, UInt16.le_iff_toNat_le, unit_toNat h, decide_eq_true_eq]
  exact Char.isDigit_iff_toNat.mp h

theorem isDigit_of_mem_decimal {n : Nat} {c : UInt16} (h : c ∈ decimal n) :
    isDigit c = true := by
  obtain ⟨d, hd, rfl⟩ := List.mem_map.mp h
  exact isDigit_unit (Nat.isDigit_of_mem_toDigits (by decide) (by decide) hd)

theorem decimal_injective {m n : Nat} (h : decimal m = decimal n) : m = n := by
  have back (k : Nat) : (decimal k).map (fun u => Char.ofNat u.toNat) = Nat.toDigits 10 k := by
    rw [decimal, List.map_map]
    conv_rhs => rw [← List.map_id (Nat.toDigits 10 k)]
    apply List.map_congr_left
    intro c hc
    have hdigit : c.isDigit = true := Nat.isDigit_of_mem_toDigits (by decide) (by decide) hc
    rw [Function.comp_apply, unit_toNat hdigit, Char.ofNat_toNat, id]
  calc
    m = Nat.ofDigitChars 10 (Nat.toDigits 10 m) 0 := Nat.ofDigitChars_ten_toDigits.symm
    _ = Nat.ofDigitChars 10 (Nat.toDigits 10 n) 0 := by rw [← back m, h, back n]
    _ = n := Nat.ofDigitChars_ten_toDigits

/-- Two digit strings in front of texts that do not go on with a digit. -/
theorem digits_append_inj {a b x y : JsString} (ha : ∀ c ∈ a, isDigit c = true)
    (hb : ∀ c ∈ b, isDigit c = true) (hx : NoDigit x) (hy : NoDigit y)
    (h : a ++ x = b ++ y) : a = b ∧ x = y := by
  induction a generalizing b with
  | nil =>
      cases b with
      | nil => exact ⟨rfl, h⟩
      | cons d b =>
          rw [List.nil_append, List.cons_append] at h
          have hfalse := hx d (by simp [h])
          simp [hb d List.mem_cons_self] at hfalse
  | cons c a ih =>
      cases b with
      | nil =>
          rw [List.nil_append, List.cons_append] at h
          have hfalse := hy c (by simp [← h])
          simp [ha c List.mem_cons_self] at hfalse
      | cons d b =>
          simp only [List.cons_append, List.cons.injEq] at h
          obtain ⟨hab, hxy⟩ := ih (fun e he => ha e (List.mem_cons_of_mem c he))
            (fun e he => hb e (List.mem_cons_of_mem d he)) h.2
          exact ⟨by rw [h.1, hab], hxy⟩

/-- A number is read off the front of a text that does not go on with a digit. -/
theorem decimal_append_inj {m n : Nat} {x y : JsString} (hx : NoDigit x) (hy : NoDigit y)
    (h : decimal m ++ x = decimal n ++ y) : m = n ∧ x = y := by
  obtain ⟨hmn, hxy⟩ := digits_append_inj (fun c hc => isDigit_of_mem_decimal hc)
    (fun c hc => isDigit_of_mem_decimal hc) hx hy h
  exact ⟨decimal_injective hmn, hxy⟩

theorem decimal_ne_minus {n : Nat} {x y : JsString} : decimal n ++ x ≠ unit '-' :: y := by
  intro h
  cases hdec : decimal n with
  | nil => simp [decimal, Nat.toDigits_ne_nil] at hdec
  | cons c d =>
      rw [hdec, List.cons_append, List.cons.injEq] at h
      have hmem : c ∈ decimal n := by
        simp [hdec]
      have hc := isDigit_of_mem_decimal hmem
      rw [h.1] at hc
      exact absurd hc (by decide)

theorem integer_append_inj {m n : Int} {x y : JsString} (hx : NoDigit x) (hy : NoDigit y)
    (h : integer m ++ x = integer n ++ y) : m = n ∧ x = y := by
  simp only [integer] at h
  split_ifs at h with hm hn hn
  · simp only [List.cons_append, List.cons.injEq, true_and] at h
    obtain ⟨hmn, hxy⟩ := decimal_append_inj hx hy h
    exact ⟨by omega, hxy⟩
  · exact absurd h.symm decimal_ne_minus
  · exact absurd h decimal_ne_minus
  · obtain ⟨hmn, hxy⟩ := decimal_append_inj hx hy h
    exact ⟨by omega, hxy⟩

section Members

variable {α : Type*} {enc : α → JsString} {close : UInt16}

theorem noDigit_members (hclose : isDigit close = false) (l : List α) (x : JsString) :
    NoDigit (l.flatMap (fun a => unit ',' :: enc a) ++ close :: x) := by
  cases l with
  | nil => exact .cons hclose
  | cons a l => exact .cons (by decide)

theorem members_append_inj (hclose : isDigit close = false) (hcomma : close ≠ unit ',')
    (henc : ∀ {a b x y}, NoDigit x → NoDigit y → enc a ++ x = enc b ++ y → a = b ∧ x = y)
    {l r : List α} {x y : JsString}
    (h : l.flatMap (fun a => unit ',' :: enc a) ++ close :: x =
      r.flatMap (fun a => unit ',' :: enc a) ++ close :: y) : l = r ∧ x = y := by
  induction l generalizing r with
  | nil =>
      cases r with
      | nil => simpa using h
      | cons b r =>
          simp only [List.flatMap_nil, List.nil_append, List.flatMap_cons, List.cons_append,
            List.cons.injEq] at h
          exact absurd h.1 hcomma
  | cons a l ih =>
      cases r with
      | nil =>
          simp only [List.flatMap_nil, List.nil_append, List.flatMap_cons, List.cons_append,
            List.cons.injEq] at h
          exact absurd h.1.symm hcomma
      | cons b r =>
          simp only [List.flatMap_cons, List.cons_append, List.append_assoc, List.cons.injEq,
            true_and] at h
          obtain ⟨hab, hrest⟩ := henc (noDigit_members hclose l x) (noDigit_members hclose r y) h
          obtain ⟨hlr, hxy⟩ := ih hrest
          exact ⟨by rw [hab, hlr], hxy⟩

/-- A comma-separated list is read off the front of a text that closes it. -/
theorem join_append_inj (hclose : isDigit close = false) (hcomma : close ≠ unit ',')
    (hopen : ∀ {a x y}, enc a ++ x ≠ close :: y)
    (henc : ∀ {a b x y}, NoDigit x → NoDigit y → enc a ++ x = enc b ++ y → a = b ∧ x = y)
    {l r : List α} {x y : JsString}
    (h : join [unit ','] (l.map enc) ++ close :: x = join [unit ','] (r.map enc) ++ close :: y) :
    l = r ∧ x = y := by
  have htail (a : α) (l : List α) (x : JsString) :
      join [unit ','] ((a :: l).map enc) ++ close :: x =
        enc a ++ (l.flatMap (fun b => unit ',' :: enc b) ++ close :: x) := by
    rw [List.map_cons, join_cons_eq_flatMap, List.append_assoc, List.flatMap_map]
    rfl
  cases l with
  | nil =>
      cases r with
      | nil => simpa using h
      | cons b r =>
          rw [htail] at h
          exact absurd h.symm hopen
  | cons a l =>
      cases r with
      | nil =>
          rw [htail] at h
          exact absurd h hopen
      | cons b r =>
          rw [htail, htail] at h
          obtain ⟨hab, hrest⟩ := henc (noDigit_members hclose l x) (noDigit_members hclose r y) h
          obtain ⟨hlr, hxy⟩ := members_append_inj hclose hcomma henc hrest
          exact ⟨by rw [hab, hlr], hxy⟩

end Members

/-- The kinds of value, by the first unit of their text. -/
def textKind (c : UInt16) : Nat :=
  if c = unit 't' ∨ c = unit 'f' then 0
  else if c = 34 then 2
  else if c = unit '[' then 3
  else 1

def JsValue.kind : JsValue → Nat
  | .bool _ => 0
  | .num _ => 1
  | .str _ => 2
  | .strs _ => 3

theorem textKind_of_isDigit {c : UInt16} (h : isDigit c = true) : textKind c = 1 := by
  have hne {d : UInt16} (hd : isDigit d = false) : c ≠ d := by
    rintro rfl
    simp [hd] at h
  simp only [textKind, hne (show isDigit (unit 't') = false from rfl),
    hne (show isDigit (unit 'f') = false from rfl), hne (show isDigit 34 = false from rfl),
    hne (show isDigit (unit '[') = false from rfl), or_self, if_false]

theorem stringifyValue_kind (v : JsValue) :
    ∃ c t, stringifyValue v = c :: t ∧ textKind c = v.kind := by
  cases v with
  | bool b => cases b <;> exact ⟨_, _, rfl, rfl⟩
  | num n =>
      simp only [stringifyValue, integer]
      split_ifs with hn
      · exact ⟨_, _, rfl, rfl⟩
      · cases hdec : decimal n.natAbs with
        | nil => simp [decimal, Nat.toDigits_ne_nil] at hdec
        | cons c d =>
            have hmem : c ∈ decimal n.natAbs := by
              simp [hdec]
            exact ⟨c, d, rfl, textKind_of_isDigit (isDigit_of_mem_decimal hmem)⟩
  | str s => exact ⟨_, _, rfl, rfl⟩
  | strs l => exact ⟨_, _, rfl, rfl⟩

theorem kind_eq_of_append_eq {v w : JsValue} {x y : JsString}
    (h : stringifyValue v ++ x = stringifyValue w ++ y) : v.kind = w.kind := by
  obtain ⟨c, t, hv, hc⟩ := stringifyValue_kind v
  obtain ⟨d, u, hw, hd⟩ := stringifyValue_kind w
  rw [hv, hw, List.cons_append, List.cons_append, List.cons.injEq] at h
  rw [← hc, ← hd, h.1]

theorem strs_append_inj {l r : List JsString} {x y : JsString}
    (h : stringifyValue (.strs l) ++ x = stringifyValue (.strs r) ++ y) : l = r ∧ x = y := by
  simp only [stringifyValue, List.cons_append, List.append_assoc, List.cons.injEq,
    true_and] at h
  apply join_append_inj (by decide) (by decide) _ (fun _ _ => quote_append_inj) h
  intro s x y hs
  simp only [quote, List.cons_append, List.cons.injEq] at hs
  exact absurd hs.1 (by decide)

/-- A value is read off the front of a text that does not go on with a digit. -/
theorem stringifyValue_append_inj {v w : JsValue} {x y : JsString} (hx : NoDigit x)
    (hy : NoDigit y) (h : stringifyValue v ++ x = stringifyValue w ++ y) : v = w ∧ x = y := by
  have hkind := kind_eq_of_append_eq h
  cases v with
  | bool b =>
      cases w with
      | bool c =>
          cases b <;> cases c
          · exact ⟨rfl, List.append_cancel_left h⟩
          · exact absurd (List.cons.inj h).1 (by decide)
          · exact absurd (List.cons.inj h).1 (by decide)
          · exact ⟨rfl, List.append_cancel_left h⟩
      | num | str | strs => simp [JsValue.kind] at hkind
  | num m =>
      cases w with
      | num n =>
          obtain ⟨hmn, hxy⟩ := integer_append_inj hx hy h
          exact ⟨by rw [hmn], hxy⟩
      | bool | str | strs => simp [JsValue.kind] at hkind
  | str s =>
      cases w with
      | str r =>
          obtain ⟨hsr, hxy⟩ := quote_append_inj h
          exact ⟨by rw [hsr], hxy⟩
      | bool | num | strs => simp [JsValue.kind] at hkind
  | strs l =>
      cases w with
      | strs r =>
          obtain ⟨hlr, hxy⟩ := strs_append_inj h
          exact ⟨by rw [hlr], hxy⟩
      | bool | num | str => simp [JsValue.kind] at hkind

theorem stringifyMember_append_inj {m n : JsString × JsValue} {x y : JsString}
    (hx : NoDigit x) (hy : NoDigit y)
    (h : stringifyMember m ++ x = stringifyMember n ++ y) : m = n ∧ x = y := by
  simp only [stringifyMember, List.append_assoc, List.cons_append] at h
  obtain ⟨hname, hrest⟩ := quote_append_inj h
  obtain ⟨hvalue, hxy⟩ := stringifyValue_append_inj hx hy (List.cons.inj hrest).2
  exact ⟨Prod.ext hname hvalue, hxy⟩

/-- The text of an object determines its members and is cut off by its closing brace. -/
theorem stringifyObject_append_inj {l r : List (JsString × JsValue)} {x y : JsString}
    (h : stringifyObject l ++ x = stringifyObject r ++ y) : l = r ∧ x = y := by
  simp only [stringifyObject, List.cons_append, List.append_assoc, List.cons.injEq,
    true_and] at h
  apply join_append_inj (by decide) (by decide) _ stringifyMember_append_inj h
  intro m x y hm
  simp only [stringifyMember, quote, List.cons_append, List.cons.injEq] at hm
  exact absurd hm.1 (by decide)

end TestServer.Js
