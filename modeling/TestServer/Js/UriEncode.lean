import TestServer.Js.JsonParse
import TestServer.Js.Uri

/-!
# Percent-encoded texts

The UTF-8 octets of a text, and `encodeURIComponent` on code units, which fails on a
surrogate without its partner. What it writes is decoded to the text it was given, and
has no slash.
-/

namespace TestServer.Js

/-- The units that stand for themselves: letters, digits and `-_.!~*'()`. -/
def isUnreserved (c : UInt16) : Bool :=
  isDigit c || decide (65 ≤ c ∧ c ≤ 90) || decide (97 ≤ c ∧ c ≤ 122) ||
    (js "-_.!~*'()").contains c

def upperHexDigit (n : Nat) : UInt16 := (if n < 10 then 48 + n else 55 + n).toUInt16

/-- An octet as a percent sign and two digits. -/
def escapeOctet (b : Nat) : JsString := [37, upperHexDigit (b / 16), upperHexDigit (b % 16)]

/-- The UTF-8 encoding of a code point. -/
def utf8Octets (point : Nat) : List Nat :=
  if point < 0x80 then [point]
  else if point < 0x800 then [0xC0 + point / 64, 0x80 + point % 64]
  else if point < 0x10000 then
    [0xE0 + point / 4096, 0x80 + point / 64 % 64, 0x80 + point % 64]
  else
    [0xF0 + point / 262144, 0x80 + point / 4096 % 64, 0x80 + point / 64 % 64, 0x80 + point % 64]

def escapePoint (point : Nat) : JsString := (utf8Octets point).flatMap escapeOctet

/-- The code point of two surrogates. -/
def surrogatePoint (high low : UInt16) : Nat :=
  0x10000 + (high.toNat - 0xD800) * 0x400 + (low.toNat - 0xDC00)

/-- The octets of a unit that is not half of a pair. -/
def unitOctets (c : UInt16) : List UInt8 :=
  (utf8Octets (if isHighSurrogate c ∨ isLowSurrogate c then 0xFFFD else c.toNat)).map Nat.toUInt8

/-- `Buffer.from(s)`. A surrogate without its partner is replaced. -/
def encodeUtf8 : JsString → List UInt8
  | [] => []
  | [c] => unitOctets c
  | c :: d :: s =>
      if isHighSurrogate c ∧ isLowSurrogate d then
        (utf8Octets (surrogatePoint c d)).map Nat.toUInt8 ++ encodeUtf8 s
      else unitOctets c ++ encodeUtf8 (d :: s)

def encodeURIComponent : JsString → Option JsString
  | [] => some []
  | c :: s =>
      if isUnreserved c then (encodeURIComponent s).map (c :: ·)
      else if isLowSurrogate c then none
      else if isHighSurrogate c then
        match s with
        | d :: s =>
            if isLowSurrogate d then
              (encodeURIComponent s).map (escapePoint (surrogatePoint c d) ++ ·)
            else none
        | [] => none
      else (encodeURIComponent s).map (escapePoint c.toNat ++ ·)

/-- `s.isWellFormed()`. -/
def isWellFormed : JsString → Bool
  | [] => true
  | c :: s =>
      if isLowSurrogate c then false
      else if isHighSurrogate c then
        match s with
        | d :: s => isLowSurrogate d && isWellFormed s
        | [] => false
      else isWellFormed s

/-- A text in which every surrogate has its partner. -/
structure Text where
  units : JsString
  wellFormed : isWellFormed units = true

theorem hexValue_upperHexDigit : ∀ n < 16, hexValue (upperHexDigit n) = some n := by
  decide

theorem isUnreserved_upperHexDigit : ∀ n < 16, isUnreserved (upperHexDigit n) = true := by
  decide

theorem lt_of_mem_utf8Octets {point b : Nat} (h : point < 0x110000) (hb : b ∈ utf8Octets point) :
    b < 256 := by
  unfold utf8Octets at hb
  split_ifs at hb
  all_goals
    simp only [List.mem_cons, List.not_mem_nil, or_false] at hb
    omega

theorem octet_escapeOctet {b : Nat} (h : b < 256) (rest : JsString) :
    octet (escapeOctet b ++ rest) = some (b, rest) := by
  have hsum : 16 * (b / 16) + b % 16 = b := Nat.div_add_mod b 16
  simp only [escapeOctet, List.cons_append, List.nil_append, octet,
    hexValue_upperHexDigit _ (show b / 16 < 16 by omega),
    hexValue_upperHexDigit _ (Nat.mod_lt b (by decide)), Option.bind_eq_bind, Option.bind_some,
    hsum, Option.pure_def]

theorem continuationOctets_escapeOctet {x : Nat} (h : x < 64) (n point : Nat) (rest : JsString) :
    continuationOctets (n + 1) point (escapeOctet (0x80 + x) ++ rest) =
      continuationOctets n (64 * point + x) rest := by
  have hrange : 0x80 ≤ 0x80 + x ∧ 0x80 + x < 0xC0 := by
    omega
  rw [continuationOctets, octet_escapeOctet (by omega)]
  simp only [Option.bind_eq_bind, Option.bind_some, if_pos hrange, Nat.add_sub_cancel_left]

theorem leadingOctet_two : ∀ x < 32, leadingOctet (0xC0 + x) = some (1, x, 0x80) := by
  decide

theorem leadingOctet_three : ∀ x < 16, leadingOctet (0xE0 + x) = some (2, x, 0x800) := by
  decide

theorem leadingOctet_four : ∀ x < 8, leadingOctet (0xF0 + x) = some (3, x, 0x10000) := by
  decide

/-- A code point that is not a surrogate. -/
def IsScalar (point : Nat) : Prop := point < 0x110000 ∧ ¬ (0xD800 ≤ point ∧ point < 0xE000)

/-- What a leading octet and the octets after it are read as. -/
theorem escapedPoint_append {b count share least point : Nat} {more rest : JsString}
    (hb : b < 256) (hlead : leadingOctet b = some (count, share, least))
    (hmore : continuationOctets count share (more ++ rest) = some (point, rest))
    (hleast : least ≤ point) (hpoint : IsScalar point) :
    escapedPoint (escapeOctet b ++ more ++ rest) = some (point, rest) := by
  rw [escapedPoint, List.append_assoc, octet_escapeOctet hb]
  simp only [Option.bind_eq_bind, Option.bind_some, hlead, hmore]
  exact if_pos ⟨hleast, hpoint⟩

/-- The escapes of a code point are read back. -/
theorem escapedPoint_escapePoint {point : Nat} (h : IsScalar point) (rest : JsString) :
    escapedPoint (escapePoint point ++ rest) = some (point, rest) := by
  have hlt : point < 0x110000 := h.1
  rw [escapePoint, utf8Octets]
  split_ifs with h₁ h₂ h₃
  · rw [List.flatMap_cons]
    exact escapedPoint_append (by omega) (if_pos h₁) rfl (Nat.zero_le _) h
  · rw [List.flatMap_cons]
    apply escapedPoint_append (by omega) (leadingOctet_two _ (by omega)) _ (by omega) h
    rw [List.flatMap_singleton, continuationOctets_escapeOctet (by omega), continuationOctets,
      Nat.div_add_mod]
  · have hhigh : 64 * (point / 4096) + point / 64 % 64 = point / 64 := by
      omega
    rw [List.flatMap_cons]
    apply escapedPoint_append (by omega) (leadingOctet_three _ (by omega)) _ (by omega) h
    rw [List.flatMap_cons, List.flatMap_singleton, List.append_assoc,
      continuationOctets_escapeOctet (by omega), continuationOctets_escapeOctet (by omega),
      continuationOctets, hhigh, Nat.div_add_mod]
  · have hhigh : 64 * (point / 262144) + point / 4096 % 64 = point / 4096 := by
      omega
    have hmiddle : 64 * (point / 4096) + point / 64 % 64 = point / 64 := by
      omega
    rw [List.flatMap_cons]
    apply escapedPoint_append (by omega) (leadingOctet_four _ (by omega)) _ (by omega) h
    rw [List.flatMap_cons, List.flatMap_cons, List.flatMap_singleton, List.append_assoc,
      List.append_assoc, continuationOctets_escapeOctet (by omega),
      continuationOctets_escapeOctet (by omega), continuationOctets_escapeOctet (by omega),
      continuationOctets, hhigh, hmiddle, Nat.div_add_mod]

theorem escapePoint_cons (point : Nat) : ∃ tail, escapePoint point = 37 :: tail := by
  rw [escapePoint, utf8Octets]
  split_ifs
  all_goals exact ⟨_, rfl⟩

/-- Escapes are decoded as their code point. -/
theorem decodeUnits_escapePoint {point n : Nat} {rest decoded : JsString} (h : IsScalar point)
    (hlength : (escapePoint point ++ rest).length ≤ n)
    (hrest : ∀ n, rest.length ≤ n → decodeUnits n rest = some decoded) :
    decodeUnits n (escapePoint point ++ rest) = some (pointUnits point ++ decoded) := by
  have hpoint : escapedPoint (escapePoint point ++ rest) = some (point, rest) :=
    escapedPoint_escapePoint h rest
  obtain ⟨tail, htail⟩ := escapePoint_cons point
  rw [htail, List.cons_append, List.length_cons, List.length_append] at hlength
  rw [htail, List.cons_append] at hpoint
  rw [htail, List.cons_append]
  cases n with
  | zero => omega
  | succ n =>
      rw [decodeUnits, if_pos rfl, hpoint]
      simp only [Option.bind_eq_bind, Option.bind_some, hrest n (by omega), Option.pure_def]

theorem pointUnits_toNat (c : UInt16) : pointUnits c.toNat = [c] := by
  rw [pointUnits, if_pos c.toNat_lt]
  simp

theorem isHighSurrogate_iff {c : UInt16} :
    isHighSurrogate c = true ↔ 0xD800 ≤ c.toNat ∧ c.toNat ≤ 0xDBFF := by
  simp only [isHighSurrogate, decide_eq_true_iff, UInt16.le_iff_toNat_le, UInt16.reduceToNat]

theorem isLowSurrogate_iff {c : UInt16} :
    isLowSurrogate c = true ↔ 0xDC00 ≤ c.toNat ∧ c.toNat ≤ 0xDFFF := by
  simp only [isLowSurrogate, decide_eq_true_iff, UInt16.le_iff_toNat_le, UInt16.reduceToNat]

theorem pointUnits_surrogatePoint {high low : UInt16} (hhigh : isHighSurrogate high = true)
    (hlow : isLowSurrogate low = true) : pointUnits (surrogatePoint high low) = [high, low] := by
  rw [isHighSurrogate_iff] at hhigh
  rw [isLowSurrogate_iff] at hlow
  have hfirst : 0xD800 + (surrogatePoint high low - 0x10000) / 0x400 = high.toNat := by
    unfold surrogatePoint
    omega
  have hsecond : 0xDC00 + (surrogatePoint high low - 0x10000) % 0x400 = low.toNat := by
    unfold surrogatePoint
    omega
  have hlarge : ¬ surrogatePoint high low < 0x10000 := by
    unfold surrogatePoint
    omega
  rw [pointUnits, if_neg hlarge, hfirst, hsecond]
  simp

theorem isScalar_surrogatePoint {high low : UInt16} (hhigh : isHighSurrogate high = true)
    (hlow : isLowSurrogate low = true) : IsScalar (surrogatePoint high low) := by
  rw [isHighSurrogate_iff] at hhigh
  rw [isLowSurrogate_iff] at hlow
  unfold IsScalar surrogatePoint
  omega

theorem isScalar_toNat {c : UInt16} (hhigh : ¬ isHighSurrogate c = true)
    (hlow : ¬ isLowSurrogate c = true) : IsScalar c.toNat := by
  have hlt : c.toNat < 65536 := c.toNat_lt
  rw [isHighSurrogate_iff] at hhigh
  rw [isLowSurrogate_iff] at hlow
  rw [IsScalar]
  omega

theorem toNat_of_isUnreserved {c : UInt16} (h : isUnreserved c = true) : c.toNat < 128 := by
  simp only [isUnreserved, isDigit, Bool.or_eq_true, decide_eq_true_eq, UInt16.le_iff_toNat_le,
    UInt16.reduceToNat, List.contains_iff_mem] at h
  rcases h with ((h | h) | h) | h
  · omega
  · omega
  · omega
  · have hmarks : (js "-_.!~*'()").all (fun c => decide (c.toNat < 128)) = true := rfl
    exact of_decide_eq_true (List.all_eq_true.mp hmarks c h)

theorem not_surrogate_of_isUnreserved {c : UInt16} (h : isUnreserved c = true) :
    ¬ isLowSurrogate c = true ∧ ¬ isHighSurrogate c = true := by
  have hlt : c.toNat < 128 := toNat_of_isUnreserved h
  rw [isLowSurrogate_iff, isHighSurrogate_iff]
  omega

theorem ne_of_isUnreserved {c : UInt16} (h : isUnreserved c = true) : c ≠ 37 ∧ c ≠ unit '/' := by
  constructor
  · rintro rfl
    cases h
  · rintro rfl
    cases h

theorem isWellFormed_cons {c : UInt16} (hlow : ¬ isLowSurrogate c = true)
    (hhigh : ¬ isHighSurrogate c = true) (s : JsString) :
    isWellFormed (c :: s) = isWellFormed s := by
  cases s with
  | nil => simp only [isWellFormed, if_neg hlow, if_neg hhigh]
  | cons d s => simp only [isWellFormed, if_neg hlow, if_neg hhigh]

/-- Encoding fails on nothing but a surrogate without its partner. -/
theorem isSome_encodeURIComponent (s : JsString) :
    (encodeURIComponent s).isSome = isWellFormed s := by
  fun_induction encodeURIComponent s with
  | case1 => rfl
  | case2 c s hunreserved ih =>
      obtain ⟨hlow, hhigh⟩ := not_surrogate_of_isUnreserved hunreserved
      rw [isWellFormed_cons hlow hhigh, Option.isSome_map, ih]
  | case3 c s _ hlow =>
      cases s with
      | nil => simp only [isWellFormed, if_pos hlow, Option.isSome_none]
      | cons d s => simp only [isWellFormed, if_pos hlow, Option.isSome_none]
  | case4 c _ hlow hhigh d s hpartner ih =>
      simp only [isWellFormed, if_neg hlow, if_pos hhigh, hpartner, Option.isSome_map, ih,
        Bool.true_and]
  | case5 c _ hlow hhigh d s hpartner =>
      simp only [isWellFormed, if_neg hlow, if_pos hhigh, hpartner, Bool.false_and,
        Option.isSome_none]
  | case6 c _ hlow hhigh =>
      simp only [isWellFormed, if_neg hlow, if_pos hhigh, Option.isSome_none]
  | case7 c s _ hlow hhigh ih => rw [isWellFormed_cons hlow hhigh, Option.isSome_map, ih]

theorem decodeUnits_of_encode {s encoded : JsString} (h : encodeURIComponent s = some encoded)
    (n : Nat) (hn : encoded.length ≤ n) : decodeUnits n encoded = some s := by
  -- A unit that stands for itself takes one turn of decoding, and so do the escapes of a point.
  fun_induction encodeURIComponent s generalizing encoded n with
  | case1 =>
      cases h
      cases n <;> rfl
  | case2 c s hunreserved ih =>
      obtain ⟨tail, htail, rfl⟩ := Option.map_eq_some_iff.mp h
      cases n with
      | zero => cases hn
      | succ n =>
          rw [decodeUnits, if_neg (ne_of_isUnreserved hunreserved).1,
            ih htail n (Nat.le_of_succ_le_succ hn)]
          rfl
  | case3 | case5 | case6 => cases h
  | case4 c _ hlow hhigh d s hpartner ih =>
      obtain ⟨tail, htail, rfl⟩ := Option.map_eq_some_iff.mp h
      rw [decodeUnits_escapePoint (isScalar_surrogatePoint hhigh hpartner) hn (ih htail),
        pointUnits_surrogatePoint hhigh hpartner]
      rfl
  | case7 c s _ hlow hhigh ih =>
      obtain ⟨tail, htail, rfl⟩ := Option.map_eq_some_iff.mp h
      rw [decodeUnits_escapePoint (isScalar_toNat hhigh hlow) hn (ih htail), pointUnits_toNat]
      rfl

/-- What is encoded is decoded to the same text. -/
theorem decodeURIComponent_of_encode {s encoded : JsString}
    (h : encodeURIComponent s = some encoded) : decodeURIComponent encoded = some s :=
  decodeUnits_of_encode h encoded.length le_rfl

theorem mem_escapePoint {point : Nat} (h : IsScalar point) {c : UInt16}
    (hc : c ∈ escapePoint point) : isUnreserved c = true ∨ c = 37 := by
  obtain ⟨b, hb, hc⟩ := List.mem_flatMap.mp hc
  have hlt : b < 256 := lt_of_mem_utf8Octets h.1 hb
  simp only [escapeOctet, List.mem_cons, List.not_mem_nil, or_false] at hc
  rcases hc with hpercent | hhigh | hlow
  · exact .inr hpercent
  · rw [hhigh]
    exact .inl (isUnreserved_upperHexDigit _ (by omega))
  · rw [hlow]
    exact .inl (isUnreserved_upperHexDigit _ (by omega))

/-- An encoded text consists of percent signs and of units that stand for themselves. -/
theorem mem_of_encode {s encoded : JsString} (h : encodeURIComponent s = some encoded)
    {c : UInt16} (hc : c ∈ encoded) : isUnreserved c = true ∨ c = 37 := by
  fun_induction encodeURIComponent s generalizing encoded with
  | case1 =>
      cases h
      cases hc
  | case2 d s hunreserved ih =>
      obtain ⟨tail, htail, rfl⟩ := Option.map_eq_some_iff.mp h
      rcases List.mem_cons.mp hc with rfl | hc
      · exact .inl hunreserved
      · exact ih htail hc
  | case3 | case5 | case6 => cases h
  | case4 d _ hlow hhigh e s hpartner ih =>
      obtain ⟨tail, htail, rfl⟩ := Option.map_eq_some_iff.mp h
      rcases List.mem_append.mp hc with hc | hc
      · exact mem_escapePoint (isScalar_surrogatePoint hhigh hpartner) hc
      · exact ih htail hc
  | case7 d s _ hlow hhigh ih =>
      obtain ⟨tail, htail, rfl⟩ := Option.map_eq_some_iff.mp h
      rcases List.mem_append.mp hc with hc | hc
      · exact mem_escapePoint (isScalar_toNat hhigh hlow) hc
      · exact ih htail hc

/-- A unit that is escaped is not left in an encoded text. -/
theorem notMem_of_encode {s encoded : JsString} (h : encodeURIComponent s = some encoded)
    {c : UInt16} (hreserved : isUnreserved c = false) (hpercent : c ≠ 37) : c ∉ encoded := by
  intro hc
  rcases mem_of_encode h hc with hunreserved | hc
  · rw [hreserved] at hunreserved
    cases hunreserved
  · exact hpercent hc

/-- No slash is left in an encoded text. -/
theorem slash_notMem_of_encode {s encoded : JsString} (h : encodeURIComponent s = some encoded) :
    unit '/' ∉ encoded :=
  notMem_of_encode h (by decide) (by decide)

theorem three_le_length_escapePoint (point : Nat) : 3 ≤ (escapePoint point).length := by
  rw [escapePoint, utf8Octets]
  split_ifs
  all_goals simp [escapeOctet]

theorem length_le_of_encode {s encoded : JsString} (h : encodeURIComponent s = some encoded) :
    s.length ≤ encoded.length := by
  fun_induction encodeURIComponent s generalizing encoded with
  | case1 => exact Nat.zero_le _
  | case2 c s _ ih =>
      obtain ⟨tail, htail, rfl⟩ := Option.map_eq_some_iff.mp h
      exact Nat.succ_le_succ (ih htail)
  | case3 | case5 | case6 => cases h
  | case4 c _ _ _ d s _ ih =>
      obtain ⟨tail, htail, rfl⟩ := Option.map_eq_some_iff.mp h
      have hlength := ih htail
      have hpoint := three_le_length_escapePoint (surrogatePoint c d)
      simp only [List.length_cons, List.length_append]
      omega
  | case7 c s _ _ _ ih =>
      obtain ⟨tail, htail, rfl⟩ := Option.map_eq_some_iff.mp h
      have hlength := ih htail
      have hpoint := three_le_length_escapePoint c.toNat
      simp only [List.length_cons, List.length_append]
      omega

/-- Encoding changes a text if a unit of it does not stand for itself. -/
theorem encode_eq_self_iff {s : JsString} :
    encodeURIComponent s = some s ↔ s.all isUnreserved = true := by
  constructor
  · intro h
    -- Escapes make a text longer, and nothing makes up for it.
    fun_induction encodeURIComponent s with
    | case1 => rfl
    | case2 c s hunreserved ih =>
        obtain ⟨tail, htail, hcons⟩ := Option.map_eq_some_iff.mp h
        rw [(List.cons.inj hcons).2] at htail
        rw [List.all_cons, hunreserved, ih htail]
        rfl
    | case3 | case5 | case6 => cases h
    | case4 c _ _ _ d s _ ih =>
        obtain ⟨tail, htail, happend⟩ := Option.map_eq_some_iff.mp h
        have hlength := length_le_of_encode htail
        have hpoint := three_le_length_escapePoint (surrogatePoint c d)
        have hsum := congrArg List.length happend
        simp only [List.length_cons, List.length_append] at hsum
        omega
    | case7 c s _ _ _ ih =>
        obtain ⟨tail, htail, happend⟩ := Option.map_eq_some_iff.mp h
        have hlength := length_le_of_encode htail
        have hpoint := three_le_length_escapePoint c.toNat
        have hsum := congrArg List.length happend
        simp only [List.length_cons, List.length_append] at hsum
        omega
  · intro h
    induction s with
    | nil => rfl
    | cons c s ih =>
        rw [List.all_cons, Bool.and_eq_true] at h
        rw [encodeURIComponent.eq_def]
        simp only [h.1, if_true, ih h.2, Option.map_some]

theorem encode_ne_nil {s encoded : JsString} (h : encodeURIComponent s = some encoded)
    (hne : s ≠ []) : encoded ≠ [] := by
  rintro rfl
  have hdecoded : some s = some [] := (decodeURIComponent_of_encode h).symm
  cases hdecoded
  exact hne rfl

/-- A well-formed text starts with a unit of its own or with a pair. -/
theorem wellFormed_cases {c : UInt16} {s : JsString} (h : isWellFormed (c :: s) = true) :
    (¬ isLowSurrogate c = true ∧ ¬ isHighSurrogate c = true ∧ isWellFormed s = true) ∨
      (isHighSurrogate c = true ∧
        ∃ d t, s = d :: t ∧ isLowSurrogate d = true ∧ isWellFormed t = true) := by
  by_cases hlow : isLowSurrogate c = true
  · rw [isWellFormed.eq_def] at h
    simp only [if_pos hlow] at h
    cases h
  · by_cases hhigh : isHighSurrogate c = true
    · cases s with
      | nil =>
          simp only [isWellFormed, if_neg hlow, if_pos hhigh] at h
          cases h
      | cons d t =>
          simp only [isWellFormed, if_neg hlow, if_pos hhigh, Bool.and_eq_true] at h
          exact .inr ⟨hhigh, d, t, rfl, h⟩
    · rw [isWellFormed_cons hlow hhigh] at h
      exact .inl ⟨hlow, hhigh, h⟩

theorem isWellFormed_append {s t : JsString} (hs : isWellFormed s = true)
    (ht : isWellFormed t = true) : isWellFormed (s ++ t) = true := by
  induction hn : s.length using Nat.strongRecOn generalizing s with
  | _ n ih =>
      cases s with
      | nil => exact ht
      | cons c s =>
          rw [List.length_cons] at hn
          rcases wellFormed_cases hs with
            ⟨hlow, hhigh, hrest⟩ | ⟨hhigh, d, rest, rfl, hpartner, hrest⟩
          · rw [List.cons_append, isWellFormed_cons hlow hhigh]
            exact ih s.length (by omega) hrest rfl
          · have hlow : ¬ isLowSurrogate c = true := by
              rw [isHighSurrogate_iff] at hhigh
              rw [isLowSurrogate_iff]
              omega
            rw [List.length_cons] at hn
            simp only [List.cons_append, isWellFormed, if_neg hlow, if_pos hhigh, hpartner,
              Bool.true_and]
            exact ih rest.length (by omega) hrest rfl

theorem escapeOctets_eq {point : Nat} (h : IsScalar point) :
    ((utf8Octets point).map Nat.toUInt8).flatMap (fun b => escapeOctet b.toNat) =
      escapePoint point := by
  rw [List.flatMap_map, escapePoint]
  apply List.flatMap_congr
  intro b hb
  have hlt : b < 256 := lt_of_mem_utf8Octets h.1 hb
  rw [Nat.toUInt8_eq, UInt8.toNat_ofNat', Nat.mod_eq_of_lt hlt]

/-- The octets of a unit that is no surrogate, as escapes. -/
theorem flatMap_unitOctets {c : UInt16} (hlow : ¬ isLowSurrogate c = true)
    (hhigh : ¬ isHighSurrogate c = true) :
    (unitOctets c).flatMap (fun b => escapeOctet b.toNat) = escapePoint c.toNat := by
  rw [unitOctets, if_neg (not_or.mpr ⟨hhigh, hlow⟩), escapeOctets_eq (isScalar_toNat hhigh hlow)]

/-- The octets of a well-formed text, all of them escaped, are decoded to that text. -/
theorem decodeUnits_encodeUtf8 {s : JsString} (h : isWellFormed s = true) (n : Nat)
    (hn : ((encodeUtf8 s).flatMap fun b => escapeOctet b.toNat).length ≤ n) :
    decodeUnits n ((encodeUtf8 s).flatMap fun b => escapeOctet b.toNat) = some s := by
  fun_induction encodeUtf8 s generalizing n with
  | case1 => cases n <;> rfl
  | case2 c =>
      rcases wellFormed_cases h with ⟨hlow, hhigh, -⟩ | ⟨-, d, t, hpair, -⟩
      · rw [flatMap_unitOctets hlow hhigh, ← List.append_nil (escapePoint c.toNat)] at hn ⊢
        rw [decodeUnits_escapePoint (isScalar_toNat hhigh hlow) hn fun n _ => by cases n <;> rfl,
          pointUnits_toNat]
        rfl
      · cases hpair
  | case3 c d s hpair ih =>
      obtain ⟨hhigh, hpartner⟩ := hpair
      rcases wellFormed_cases h with ⟨-, hnot, -⟩ | ⟨-, _, _, hcons, -, hrest⟩
      · exact absurd hhigh hnot
      · cases hcons
        have hscalar : IsScalar (surrogatePoint c d) := isScalar_surrogatePoint hhigh hpartner
        rw [List.flatMap_append, escapeOctets_eq hscalar] at hn ⊢
        rw [decodeUnits_escapePoint hscalar hn (ih hrest),
          pointUnits_surrogatePoint hhigh hpartner]
        rfl
  | case4 c d s hpair ih =>
      rcases wellFormed_cases h with ⟨hlow, hhigh, hrest⟩ | ⟨hhigh, _, _, hcons, hpartner, -⟩
      · rw [List.flatMap_append, flatMap_unitOctets hlow hhigh] at hn ⊢
        rw [decodeUnits_escapePoint (isScalar_toNat hhigh hlow) hn (ih hrest), pointUnits_toNat]
        rfl
      · cases hcons
        exact absurd ⟨hhigh, hpartner⟩ hpair

theorem isWellFormed_of_encode {s encoded : JsString} (h : encodeURIComponent s = some encoded) :
    isWellFormed encoded = true := by
  have hunits : ∀ c ∈ encoded, ¬ isLowSurrogate c = true ∧ ¬ isHighSurrogate c = true := by
    intro c hc
    rcases mem_of_encode h hc with hunreserved | rfl
    · exact not_surrogate_of_isUnreserved hunreserved
    · decide
  clear h
  induction encoded with
  | nil => rfl
  | cons c tail ih =>
      obtain ⟨hlow, hhigh⟩ := hunits c List.mem_cons_self
      rw [isWellFormed_cons hlow hhigh]
      exact ih fun d hd => hunits d (List.mem_cons_of_mem c hd)

theorem encodeUtf8_inj {s t : JsString} (hs : isWellFormed s = true) (ht : isWellFormed t = true)
    (h : encodeUtf8 s = encodeUtf8 t) : s = t := by
  have hdecoded := decodeUnits_encodeUtf8 hs _ (le_refl _)
  rw [h, decodeUnits_encodeUtf8 ht _ (le_refl _)] at hdecoded
  exact (Option.some.inj hdecoded).symm

namespace Text

/-- The text, percent-encoded. -/
def encoded (t : Text) : JsString :=
  (encodeURIComponent t.units).get (by rw [isSome_encodeURIComponent, t.wellFormed])

theorem encodeURIComponent_units (t : Text) : encodeURIComponent t.units = some t.encoded :=
  (Option.some_get _).symm

theorem decodeURIComponent_encoded (t : Text) : decodeURIComponent t.encoded = some t.units :=
  decodeURIComponent_of_encode t.encodeURIComponent_units

theorem slash_notMem_encoded (t : Text) : unit '/' ∉ t.encoded :=
  slash_notMem_of_encode t.encodeURIComponent_units

theorem encoded_eq_units_iff (t : Text) : t.encoded = t.units ↔ t.units.all isUnreserved = true := by
  rw [← encode_eq_self_iff, t.encodeURIComponent_units, Option.some.injEq]

theorem encoded_ne_nil (t : Text) (h : t.units ≠ []) : t.encoded ≠ [] :=
  encode_ne_nil t.encodeURIComponent_units h

theorem notMem_encoded (t : Text) {c : UInt16} (hreserved : isUnreserved c = false)
    (hpercent : c ≠ 37) : c ∉ t.encoded :=
  notMem_of_encode t.encodeURIComponent_units hreserved hpercent

/-- The encoded text as a text. -/
def escaped (t : Text) : Text := ⟨t.encoded, isWellFormed_of_encode t.encodeURIComponent_units⟩

/-- Texts are told apart by what they are encoded to. -/
theorem units_eq_of_encoded_eq {s t : Text} (h : s.encoded = t.encoded) : s.units = t.units := by
  have hdecoded := s.decodeURIComponent_encoded
  rw [h, t.decodeURIComponent_encoded] at hdecoded
  exact (Option.some.inj hdecoded).symm

end Text

end TestServer.Js
