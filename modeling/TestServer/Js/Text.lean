import Mathlib.Data.List.Basic
import Mathlib.Data.List.Chain
import Mathlib.Data.List.Infix
import Mathlib.Data.List.Induction

/-!
# JavaScript strings

A string is the list of its UTF-16 code units. The string methods below follow
the language specification on such lists.
-/

namespace TestServer.Js

/-- A string as its UTF-16 code units. -/
abbrev JsString := List UInt16

/-- `parts.includes(s)`. -/
instance decidableMemParts (s : JsString) (parts : List JsString) : Decidable (s ∈ parts) :=
  inferInstance

/-- The code units of one character. -/
def codeUnits (c : Char) : JsString :=
  if c.toNat < 0x10000 then [c.toNat.toUInt16]
  else [(0xD800 + (c.toNat - 0x10000) / 0x400).toUInt16,
    (0xDC00 + (c.toNat - 0x10000) % 0x400).toUInt16]

/-- The value of a string literal. -/
def js (s : String) : JsString := s.toList.flatMap codeUnits

def unit (c : Char) : UInt16 := c.toNat.toUInt16

/-- `toLowerCase` on texts of ASCII characters. -/
def asciiLowerCase (s : JsString) : JsString :=
  s.map fun u => if 65 ≤ u ∧ u ≤ 90 then u + 32 else u

/-- `toUpperCase` on texts of ASCII characters. -/
def asciiUpperCase (s : JsString) : JsString :=
  s.map fun u => if 97 ≤ u ∧ u ≤ 122 then u - 32 else u

def startsWith (s pre : JsString) : Bool := pre.isPrefixOf s

def endsWith (s suf : JsString) : Bool := suf.isSuffixOf s

/-- `s.slice(0, -k)`, for a positive `k`. -/
def sliceEnd (s : JsString) (k : Nat) : JsString := s.take (s.length - k)

def includes (s sub : JsString) : Bool := s.tails.any fun t => startsWith t sub

/-- The first position from `start` on at which `sub` occurs. -/
def indexOf (s sub : JsString) (start : Nat) : Option Nat :=
  ((List.range (s.length + 1)).drop start).find? fun i => startsWith (s.drop i) sub

/-- The piece of `s` before the next separator, and the pieces after it. The first
`skip` units belong to a separator already found. -/
def splitPieces (sep : JsString) : Nat → JsString → JsString × List JsString
  | _, [] => ([], [])
  | skip + 1, _ :: s => splitPieces sep skip s
  | 0, c :: s =>
      if startsWith (c :: s) sep then
        ([], (splitPieces sep (sep.length - 1) s).1 :: (splitPieces sep (sep.length - 1) s).2)
      else
        (c :: (splitPieces sep 0 s).1, (splitPieces sep 0 s).2)

/-- `s.split(sep)`, for a nonempty separator. -/
def split (s sep : JsString) : List JsString :=
  (splitPieces sep 0 s).1 :: (splitPieces sep 0 s).2

/-- `parts.join(sep)`. -/
def join (sep : JsString) : List JsString → JsString
  | [] => []
  | [s] => s
  | s :: t :: rest => s ++ sep ++ join sep (t :: rest)

/-- The decimal digits of a natural number. -/
def decimal (n : Nat) : JsString := (Nat.toDigits 10 n).map unit

@[simp] theorem startsWith_iff {s pre : JsString} : startsWith s pre = true ↔ pre <+: s := by
  simp [startsWith]

@[simp] theorem endsWith_iff {s suf : JsString} : endsWith s suf = true ↔ suf <:+ s := by
  simp [endsWith]

theorem sliceEnd_append (p s : JsString) {k : Nat} (h : s.length = k) :
    sliceEnd (p ++ s) k = p := by
  simp [sliceEnd, h]

theorem codeUnits_ne_nil (c : Char) : codeUnits c ≠ [] := by
  rw [codeUnits]
  split_ifs
  · exact List.cons_ne_nil _ _
  · exact List.cons_ne_nil _ _

/-- The units of a literal, one character after another. -/
theorem js_ofList (chars : List Char) : js (String.ofList chars) = chars.flatMap codeUnits := by
  rw [js, String.toList_ofList]

/-- Only the empty literal is the empty string. -/
theorem js_ne_nil {s : String} (h : s ≠ "") : js s ≠ [] := by
  intro hs
  rw [js, List.flatMap_eq_nil_iff] at hs
  have hlist : s.toList = [] :=
    List.eq_nil_iff_forall_not_mem.mpr fun c hc => codeUnits_ne_nil c (hs c hc)
  exact h (String.toList_eq_nil_iff.mp hlist)

section Join

variable (sep : JsString)

@[simp] theorem join_nil : join sep [] = [] := rfl

@[simp] theorem join_singleton (s : JsString) : join sep [s] = s := rfl

theorem join_cons {rest : List JsString} (s : JsString) (h : rest ≠ []) :
    join sep (s :: rest) = s ++ sep ++ join sep rest := by
  cases rest with
  | nil => exact absurd rfl h
  | cons t rest => rfl

theorem join_cons_eq_flatMap (s : JsString) (rest : List JsString) :
    join sep (s :: rest) = s ++ rest.flatMap (sep ++ ·) := by
  induction rest generalizing s with
  | nil => simp
  | cons t rest ih =>
      rw [join_cons sep s (List.cons_ne_nil t rest), ih, List.flatMap_cons]
      simp only [List.append_assoc]

theorem join_cons_append (s t : JsString) (rest : List JsString) :
    join sep ((s ++ t) :: rest) = s ++ join sep (t :: rest) := by
  cases rest with
  | nil => rfl
  | cons u rest => simp [join]

variable {sep}

/-- What a joined string is made of comes from a piece or from the separator. -/
theorem mem_join {c : UInt16} {parts : List JsString} (h : c ∈ join sep parts) :
    (∃ p ∈ parts, c ∈ p) ∨ c ∈ sep := by
  induction parts with
  | nil => simp at h
  | cons s rest ih =>
      cases rest with
      | nil => exact Or.inl ⟨s, by simp, h⟩
      | cons t rest =>
          simp only [join, List.append_assoc, List.mem_append] at h
          rcases h with h | h | h
          · exact Or.inl ⟨s, by simp, h⟩
          · exact Or.inr h
          · rcases ih h with ⟨p, hp, hc⟩ | hc
            · exact Or.inl ⟨p, List.mem_cons_of_mem s hp, hc⟩
            · exact Or.inr hc

theorem mem_join_of_mem {c : UInt16} {p : JsString} {parts : List JsString} (hp : p ∈ parts)
    (hc : c ∈ p) : c ∈ join sep parts := by
  induction parts with
  | nil => cases hp
  | cons s rest ih =>
      rw [join_cons_eq_flatMap, List.mem_append, List.mem_flatMap]
      rcases List.mem_cons.mp hp with rfl | hp
      · exact .inl hc
      · exact .inr ⟨p, hp, List.mem_append_right sep hc⟩

end Join

section Split

variable {sep : JsString}

theorem splitPieces_skip (n : Nat) (s : JsString) :
    splitPieces sep n s = splitPieces sep 0 (s.drop n) := by
  induction n generalizing s with
  | zero => simp
  | succ n ih =>
      cases s with
      | nil => simp [splitPieces]
      | cons c s => simpa [splitPieces] using ih s

theorem split_cons_of_not_startsWith {c : UInt16} {s : JsString}
    (h : ¬ startsWith (c :: s) sep) :
    split (c :: s) sep = (c :: (splitPieces sep 0 s).1) :: (splitPieces sep 0 s).2 := by
  simp only [split, splitPieces, if_neg h]

theorem split_append_sep (hsep : sep ≠ []) (s : JsString) :
    split (sep ++ s) sep = [] :: split s sep := by
  cases sep with
  | nil => exact absurd rfl hsep
  | cons c sep =>
      have hstart : startsWith (c :: (sep ++ s)) (c :: sep) = true := by
        simp
      simp only [split, List.cons_append, splitPieces, if_pos hstart]
      rw [splitPieces_skip]
      simp

/-- Joining the pieces of a split gives the string back. -/
theorem join_split (hsep : sep ≠ []) (s : JsString) : join sep (split s sep) = s := by
  -- The induction is on the length: a separator is skipped as a whole.
  induction hn : s.length using Nat.strongRecOn generalizing s with
  | _ n ih =>
      cases s with
      | nil => rfl
      | cons c s =>
          by_cases hstart : startsWith (c :: s) sep
          · obtain ⟨t, ht⟩ := startsWith_iff.mp hstart
            have hlt : t.length < n := by
              have hpos := List.length_pos_of_ne_nil hsep
              rw [← hn, ← ht, List.length_append]
              omega
            rw [← ht, split_append_sep hsep, join_cons sep [] (by simp [split]),
              ih t.length hlt t rfl]
            rfl
          · have hlt : s.length < n := by
              rw [← hn]
              exact Nat.lt_succ_self _
            rw [split_cons_of_not_startsWith hstart]
            have hcons := join_cons_append sep [c] (splitPieces sep 0 s).1 (splitPieces sep 0 s).2
            rw [List.singleton_append] at hcons
            rw [hcons]
            exact congrArg (c :: ·) (ih s.length hlt s rfl)

/-- A separator that follows the piece is found behind it, and none before. -/
def Uncut (sep p : JsString) : Prop := ∀ i < p.length, ¬ sep <+: (p ++ sep).drop i

instance (sep p : JsString) : Decidable (Uncut sep p) :=
  inferInstanceAs (Decidable (∀ i < p.length, _))

theorem Uncut.of_cons {c : UInt16} {p : JsString} (h : Uncut sep (c :: p)) : Uncut sep p :=
  fun i hi => h (i + 1) (Nat.succ_lt_succ hi)

/-- No separator starts inside an uncut piece, whatever follows the separator behind it. -/
theorem Uncut.not_startsWith {c : UInt16} {p : JsString} (h : Uncut sep (c :: p))
    (rest : JsString) : ¬ startsWith (c :: (p ++ (sep ++ rest))) sep = true := by
  intro hstart
  apply h 0 (Nat.zero_lt_succ _)
  have hwhole : c :: (p ++ (sep ++ rest)) = (c :: (p ++ sep)) ++ rest := by
    simp only [List.cons_append, List.append_assoc]
  rw [startsWith_iff, hwhole] at hstart
  apply List.prefix_of_prefix_length_le hstart (List.prefix_append ..)
  simp only [List.length_cons, List.length_append]
  omega

/-- An uncut piece is split off. -/
theorem split_append (hsep : sep ≠ []) {p : JsString} (h : Uncut sep p) (rest : JsString) :
    split (p ++ (sep ++ rest)) sep = p :: split rest sep := by
  induction p with
  | nil => exact split_append_sep hsep rest
  | cons c p ih =>
      have htail := ih h.of_cons
      rw [split, List.cons.injEq] at htail
      rw [List.cons_append, split_cons_of_not_startsWith (h.not_startsWith rest), htail.1, htail.2]

theorem split_uncut {p : JsString} (h : Uncut sep p) : split p sep = [p] := by
  induction p with
  | nil => rfl
  | cons c p ih =>
      have hstart : ¬ startsWith (c :: p) sep = true := by
        intro hstart
        apply h 0 (Nat.zero_lt_succ _)
        exact (startsWith_iff.mp hstart).trans (List.prefix_append ..)
      have htail := ih h.of_cons
      rw [split, List.cons.injEq] at htail
      rw [split_cons_of_not_startsWith hstart, htail.1, htail.2]

/-- Splitting gives the pieces of a join back. -/
theorem split_join (hsep : sep ≠ []) {ps : List JsString} (hne : ps ≠ [])
    (h : ∀ p ∈ ps, Uncut sep p) : split (join sep ps) sep = ps := by
  induction ps with
  | nil => exact absurd rfl hne
  | cons p ps ih =>
      obtain ⟨hp, hps⟩ := List.forall_mem_cons.mp h
      by_cases hnil : ps = []
      · rw [hnil, join_singleton, split_uncut hp]
      · rw [join_cons sep p hnil, List.append_assoc, split_append hsep hp, ih hnil hps]

/-- A text is one piece if the separator does not occur in it. -/
theorem split_of_not_includes {s : JsString} (h : includes s sep = false) : split s sep = [s] := by
  induction s with
  | nil => rfl
  | cons c s ih =>
      rw [includes, List.tails_cons, List.any_cons, Bool.or_eq_false_iff] at h
      have htail := ih h.2
      rw [split, List.cons.injEq] at htail
      rw [split_cons_of_not_startsWith (Bool.eq_false_iff.mp h.1), htail.1, htail.2]

/-- A text without the separator's unit goes with the first piece of what follows. -/
theorem split_append_of_notMem {c : UInt16} {p : JsString} (h : c ∉ p) (s : JsString) :
    split (p ++ s) [c] = (p ++ (splitPieces [c] 0 s).1) :: (splitPieces [c] 0 s).2 := by
  induction p with
  | nil => rfl
  | cons d p ih =>
      rw [List.mem_cons, not_or] at h
      obtain ⟨hd, hp⟩ := h
      have hstart : ¬ startsWith (d :: (p ++ s)) [c] = true := by
        rw [startsWith_iff]
        rintro ⟨rest, hrest⟩
        exact hd (List.cons.inj hrest).1
      have htail := ih hp
      rw [split, List.cons.injEq] at htail
      rw [List.cons_append, split_cons_of_not_startsWith hstart, htail.1, htail.2]
      rfl

/-- A text without the separator's unit is the first piece before it. -/
theorem split_append_cons {c : UInt16} {p : JsString} (h : c ∉ p) (s : JsString) :
    split (p ++ c :: s) [c] = p :: split s [c] := by
  rw [split_append_of_notMem h]
  have hsep := split_append_sep (List.cons_ne_nil c []) s
  rw [List.singleton_append, split, List.cons.injEq] at hsep
  rw [hsep.1, hsep.2, List.append_nil]

/-- The pieces of two texts with the separator between them. -/
theorem split_append_cons_append (c : UInt16) (a b : JsString) :
    split (a ++ c :: b) [c] = split a [c] ++ split b [c] := by
  induction a with
  | nil => exact split_append_cons List.not_mem_nil b
  | cons x a ih =>
      by_cases hx : x = c
      · subst hx
        have hsplit : ∀ s, split (x :: s) [x] = [] :: split s [x] :=
          fun s => split_append_cons List.not_mem_nil s
        rw [List.cons_append, hsplit, hsplit, ih, List.cons_append]
      · have hstart : ∀ s, ¬ startsWith (x :: s) [c] = true := by
          intro s hstart
          obtain ⟨rest, hrest⟩ := startsWith_iff.mp hstart
          exact hx (List.cons.inj hrest).1.symm
        rw [List.cons_append, split_cons_of_not_startsWith (hstart _),
          split_cons_of_not_startsWith (hstart _)]
        rw [split, split, split, List.cons_append, List.cons.injEq] at ih
        rw [ih.1, ih.2]
        rfl

/-- The pieces between units have none of them. -/
theorem notMem_of_mem_split {c : UInt16} {s p : JsString} (hp : p ∈ split s [c]) : c ∉ p := by
  induction s generalizing p with
  | nil =>
      obtain rfl : p = [] := List.mem_singleton.mp hp
      exact List.not_mem_nil
  | cons a s ih =>
      by_cases ha : a = c
      · subst ha
        have hsplit : split (a :: s) [a] = [] :: split s [a] := split_append_cons List.not_mem_nil s
        rw [hsplit, List.mem_cons] at hp
        rcases hp with rfl | hp
        · exact List.not_mem_nil
        · exact ih hp
      · have hstart : ¬ startsWith (a :: s) [c] = true := by
          intro hstart
          obtain ⟨rest, hrest⟩ := startsWith_iff.mp hstart
          exact ha (List.cons.inj hrest).1.symm
        rw [split_cons_of_not_startsWith hstart, List.mem_cons] at hp
        rcases hp with rfl | hp
        · have hhead : c ∉ (splitPieces [c] 0 s).1 := ih List.mem_cons_self
          exact List.not_mem_cons_of_ne_of_not_mem (Ne.symm ha) hhead
        · exact ih (List.mem_cons_of_mem _ hp)

theorem includes_append (s t : JsString) : includes (s ++ (sep ++ t)) sep = true := by
  rw [includes, List.any_eq_true]
  refine ⟨sep ++ t, (List.mem_tails _ _).mpr (List.suffix_append s _), ?_⟩
  rw [startsWith_iff]
  exact List.prefix_append sep t

theorem includes_iff {s : JsString} : includes s sep = true ↔ sep <:+: s := by
  rw [includes, List.any_eq_true, List.infix_iff_prefix_suffix]
  simp only [List.mem_tails, startsWith_iff, and_comm]

theorem includes_singleton {s : JsString} {c : UInt16} : includes s [c] = true ↔ c ∈ s := by
  rw [includes_iff, List.singleton_infix_iff]

/-- A piece is uncut if the separator neither occurs in it nor starts in its last unit. -/
theorem uncut_of_not_includes {a b : UInt16} {p : JsString} (h : includes p [a, b] = false)
    (hlast : p.getLast? ≠ some a) : Uncut [a, b] p := by
  induction p with
  | nil => exact fun i hi => absurd hi (Nat.not_lt_zero i)
  | cons c p ih =>
      rw [includes, List.tails_cons, List.any_cons, Bool.or_eq_false_iff] at h
      intro i hi
      cases i with
      | zero =>
          cases p with
          | nil =>
              rintro ⟨rest, hrest⟩
              exact hlast (congrArg some (List.cons.inj hrest).1.symm)
          | cons d p =>
              rintro ⟨rest, hrest⟩
              apply Bool.eq_false_iff.mp h.1
              rw [startsWith_iff]
              obtain ⟨hc, hrest⟩ := List.cons.inj hrest
              obtain ⟨hd, -⟩ := List.cons.inj hrest
              rw [hc, hd]
              exact ⟨p, rfl⟩
      | succ i =>
          refine ih h.2 ?_ i (Nat.lt_of_succ_lt_succ hi)
          cases p with
          | nil => exact (Option.some_ne_none a).symm
          | cons d p => rwa [List.getLast?_cons_cons] at hlast

theorem uncut_of_notMem {c : UInt16} {p : JsString} (h : c ∉ p) : Uncut [c] p := by
  intro i hi hstart
  rw [List.drop_append_of_le_length (Nat.le_of_lt hi), List.drop_eq_getElem_cons hi] at hstart
  obtain ⟨rest, hrest⟩ := hstart
  apply h
  rw [(List.cons.inj hrest).1]
  exact List.getElem_mem hi

/-- A text does not occur across a unit that it does not have. -/
theorem infix_append_cons_iff {c : UInt16} {sub a b : JsString} (hne : sub ≠ []) (hc : c ∉ sub) :
    sub <:+: a ++ c :: b ↔ sub <:+: a ∨ sub <:+: b := by
  have hstart : ∀ s, s ≠ [] → s <+: c :: b → c ∈ s := by
    rintro s hs ⟨rest, hrest⟩
    cases s with
    | nil => exact absurd rfl hs
    | cons d s =>
        rw [(List.cons.inj hrest).1]
        exact List.mem_cons_self
  rw [List.infix_append_iff_ne_nil, List.infix_cons_iff]
  constructor
  · rintro (h | (h | h) | ⟨t, s, -, hs, rfl, -, hstarts⟩)
    · exact .inl h
    · exact absurd (hstart sub hne h) hc
    · exact .inr h
    · exact absurd (List.mem_append_right t (hstart s hs hstarts)) hc
  · rintro (h | h)
    · exact .inl h
    · exact .inr (.inl (.inr h))

end Split

theorem startsWith_singleton_drop {s : JsString} {c : UInt16} {i : Nat} :
    startsWith (s.drop i) [c] = true ↔ s[i]? = some c := by
  rw [startsWith_iff, ← List.head?_drop]
  cases s.drop i with
  | nil => simp
  | cons d t => simp [eq_comm]

/-- A unit that the text has only further on is found there. -/
theorem indexOf_append {a b : JsString} {c : UInt16} {start : Nat} (hstart : start ≤ a.length)
    (h : c ∉ a.drop start) : indexOf (a ++ c :: b) [c] start = some a.length := by
  rw [indexOf, List.range_eq_range', List.drop_range', List.find?_range'_eq_some]
  refine ⟨?_, ?_, ?_⟩
  · rw [startsWith_singleton_drop]
    simp
  · simp only [List.mem_range', List.length_append, List.length_cons]
    refine ⟨a.length - start, ?_, ?_⟩ <;> omega
  · intro j hj hlt
    rw [Bool.not_eq_true', ← Bool.not_eq_true, startsWith_singleton_drop]
    intro hget
    apply h
    rw [List.getElem?_append_left hlt] at hget
    rw [List.mem_iff_getElem?]
    refine ⟨j - start, ?_⟩
    rw [List.getElem?_drop, ← hget]
    congr 1
    omega

theorem indexOf_eq_none {s : JsString} {c : UInt16} {start : Nat} (h : c ∉ s.drop start) :
    indexOf s [c] start = none := by
  rw [indexOf, List.range_eq_range', List.drop_range', List.find?_range'_eq_none]
  intro j hj hlt
  rw [Bool.not_eq_true', ← Bool.not_eq_true, startsWith_singleton_drop]
  intro hget
  apply h
  rw [List.mem_iff_getElem?]
  refine ⟨j - start, ?_⟩
  rw [List.getElem?_drop, ← hget]
  congr 1
  omega

theorem append_cons_inj {x : UInt16} {a b s t : JsString} (ha : x ∉ a) (hb : x ∉ b)
    (h : a ++ x :: s = b ++ x :: t) : a = b ∧ s = t := by
  induction a generalizing b with
  | nil =>
      cases b with
      | nil => exact ⟨rfl, by simpa using h⟩
      | cons d b =>
          simp only [List.nil_append, List.cons_append, List.cons.injEq] at h
          exact absurd (h.1 ▸ List.mem_cons_self) hb
  | cons c a ih =>
      cases b with
      | nil =>
          simp only [List.nil_append, List.cons_append, List.cons.injEq] at h
          exact absurd (h.1 ▸ List.mem_cons_self) ha
      | cons d b =>
          simp only [List.cons_append, List.cons.injEq] at h
          obtain ⟨hcd, hrest⟩ := h
          obtain ⟨hab, hst⟩ := ih (fun hx => ha (List.mem_cons_of_mem _ hx))
            (fun hx => hb (List.mem_cons_of_mem _ hx)) hrest
          exact ⟨by rw [hcd, hab], hst⟩

/-- Two strings that carry the unit only after a common text agree before that text. -/
theorem append_common_inj {x : UInt16} {p q r s t : JsString} (hp : x ∉ p) (hq : x ∉ q)
    (h : p ++ (r ++ x :: s) = q ++ (r ++ x :: t)) : p = q ∧ s = t := by
  obtain ⟨a, b, hab, ha⟩ := List.eq_append_cons_of_mem (List.mem_append_right r
    (List.mem_singleton_self x))
  have hcut (u v : JsString) : u ++ (r ++ x :: v) = (u ++ a) ++ x :: (b ++ v) := by
    calc
      u ++ (r ++ x :: v) = u ++ ((r ++ [x]) ++ v) := by simp
      _ = (u ++ a) ++ x :: (b ++ v) := by rw [hab]; simp
  rw [hcut, hcut] at h
  have hnot {u : JsString} (hu : x ∉ u) : x ∉ u ++ a := by
    simp [hu, ha]
  obtain ⟨hleft, hright⟩ := append_cons_inj (hnot hp) (hnot hq) h
  exact ⟨List.append_cancel_right hleft, List.append_cancel_left hright⟩

/-- Nonempty pieces without the separator's unit are joined by one separator at a time. -/
theorem not_includes_doubled_join {x : UInt16} {ps : List JsString}
    (hps : ∀ p ∈ ps, p ≠ [] ∧ x ∉ p) : includes (join [x] ps) [x, x] = false := by
  have hchain : (join [x] ps).IsChain fun a b => ¬ (a = x ∧ b = x) := by
    have hpiece {p : JsString} (hp : x ∉ p) : p.IsChain fun a b => ¬ (a = x ∧ b = x) := by
      rw [List.isChain_iff_forall_rel_of_append_cons_cons]
      rintro a b l₁ l₂ rfl ⟨rfl, -⟩
      exact hp (by simp)
    induction ps with
    | nil => exact List.IsChain.nil
    | cons p ps ih =>
        obtain ⟨⟨hne, hp⟩, hrest⟩ := List.forall_mem_cons.mp hps
        cases ps with
        | nil => exact hpiece hp
        | cons q ps =>
            obtain ⟨⟨hne', hq⟩, -⟩ := List.forall_mem_cons.mp hrest
            obtain ⟨d, q, rfl⟩ := List.exists_cons_of_ne_nil hne'
            have hd : d ≠ x := fun heq => hq (heq ▸ List.mem_cons_self)
            obtain ⟨tail, htail⟩ : ∃ tail, join [x] ((d :: q) :: ps) = d :: tail :=
              ⟨_, join_cons_append [x] [d] q ps⟩
            have hjoined := ih hrest
            rw [join_cons [x] p (List.cons_ne_nil _ _), List.append_assoc, htail]
            rw [htail] at hjoined
            refine (hpiece hp).append (List.isChain_cons_cons.mpr ⟨?_, hjoined⟩) ?_
            · exact fun h => hd h.2
            · intro a ha b _ h
              exact hp (h.1 ▸ List.mem_of_getLast? ha)
  rw [Bool.eq_false_iff, ne_eq, includes_iff]
  rintro ⟨s, t, heq⟩
  rw [← heq, List.append_assoc] at hchain
  exact List.isChain_iff_forall_rel_of_append_cons_cons.mp hchain rfl ⟨rfl, rfl⟩

/-- Pieces that are nonempty and avoid the separator are read off the joined string. -/
theorem join_injective {x : UInt16} {ps qs : List JsString}
    (hps : ∀ p ∈ ps, p ≠ [] ∧ x ∉ p) (hqs : ∀ q ∈ qs, q ≠ [] ∧ x ∉ q)
    (h : join [x] ps = join [x] qs) : ps = qs := by
  have hne {rs : List JsString} (hrs : ∀ r ∈ rs, r ≠ [] ∧ x ∉ r) (hnil : join [x] rs = []) :
      rs = [] := by
    match rs with
    | [] => rfl
    | [r] => exact absurd hnil (hrs r (by simp)).1
    | r :: t :: rest => simp [join] at hnil
  induction ps generalizing qs with
  | nil => exact (hne hqs h.symm).symm
  | cons p ps ih =>
      cases qs with
      | nil => exact hne hps h
      | cons q qs =>
          obtain ⟨_, hp⟩ := hps p (by simp)
          obtain ⟨_, hq⟩ := hqs q (by simp)
          have htail := fun r hr => hps r (List.mem_cons_of_mem p hr)
          have htail' := fun r hr => hqs r (List.mem_cons_of_mem q hr)
          cases ps with
          | nil =>
              cases qs with
              | nil => simpa using h
              | cons q' qs =>
                  refine absurd ?_ hp
                  rw [show p = join [x] (q :: q' :: qs) from h]
                  simp [join]
          | cons p' ps =>
              cases qs with
              | nil =>
                  refine absurd ?_ hq
                  rw [show q = join [x] (p :: p' :: ps) from h.symm]
                  simp [join]
              | cons q' qs =>
                  simp only [join, List.append_assoc, List.singleton_append] at h
                  obtain ⟨hpq, hrest⟩ := append_cons_inj hp hq h
                  rw [hpq, ih htail htail' hrest]

end TestServer.Js
