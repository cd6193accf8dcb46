import TestServer.Js.JsonParse
import TestServer.Library.AnyOrder
import TestServer.ProcessConnection.ProxyProtocol

/-!
# Texts of addresses

The standard textual forms of IP addresses, as they are read. An IPv4 address is four
decimal numbers. An IPv6 address is eight groups of hexadecimal digits, where `::` can
stand for groups of zeros and an IPv4 address for the last two. The texts that the
parser of PROXY headers writes are read back.
-/

namespace TestServer.ProcessConnection

open Js Library

/-- The byte of a decimal number without leading zeros. -/
def readOctet (part : JsString) : Option UInt8 :=
  if digitsValue part < 256 ∧ part = decimal (digitsValue part) then
    some (digitsValue part).toUInt8
  else none

def readIPv4 (text : JsString) : Option Bytes :=
  if (split text (js ".")).length = 4 then (split text (js ".")).mapM readOctet else none

def readHex (digits : JsString) : Option Nat :=
  digits.foldlM (fun n c => (hexValue c).map (16 * n + ·)) 0

/-- The two bytes of a number. -/
def bytes16 (n : Nat) : Bytes := [(n / 256).toUInt8, n.toUInt8]

/-- The two bytes of a group of one to four digits. -/
def readGroup (part : JsString) : Option Bytes :=
  if 0 < part.length ∧ part.length ≤ 4 then (readHex part).map bytes16 else none

def readGroups (parts : List JsString) : Option Bytes :=
  (parts.mapM readGroup).map List.flatten

/-- Groups, with an IPv4 address for the last two if there is a dot. -/
def readTail (parts : List JsString) : Option Bytes :=
  match parts.getLast? with
  | none => some []
  | some last =>
      if unit '.' ∈ last then
        (readGroups parts.dropLast).bind fun bytes => (readIPv4 last).map (bytes ++ ·)
      else readGroups parts

/-- The groups before or after `::`. There may be none. -/
def groupTexts (text : JsString) : List JsString :=
  if text = [] then [] else split text (js ":")

def readIPv6 (text : JsString) : Option Bytes :=
  match split text (js "::") with
  | [whole] => (readTail (split whole (js ":"))).filter fun bytes => bytes.length = 16
  | [before, after] =>
      (readGroups (groupTexts before)).bind fun high =>
        (readTail (groupTexts after)).bind fun low =>
          if high.length + low.length ≤ 14 then
            some (high ++ List.replicate (16 - high.length - low.length) 0 ++ low)
          else none
  | _ => none

example : readIPv6 (js "::ffff:192.168.1.1") = readIPv6 (js "0:0:0::FFFF:c0a8:0101") := by
  decide +kernel

theorem readOctet_decimal (b : UInt8) : readOctet (decimal b.toNat) = some b := by
  rw [readOctet, digitsValue_decimal, if_pos ⟨UInt8.toNat_lt b, rfl⟩]
  simp

theorem dot_notMem_decimal (n : Nat) : unit '.' ∉ decimal n := by
  intro hmem
  exact absurd (isDigit_of_mem_decimal hmem) (by decide)

theorem split_join_decimals (numbers : List Nat) (hne : numbers ≠ []) :
    split (join (js ".") (numbers.map decimal)) (js ".") = numbers.map decimal := by
  apply split_join (js_ne_nil (by decide)) (by simpa using hne)
  intro part hpart
  obtain ⟨n, -, rfl⟩ := List.mem_map.mp hpart
  exact uncut_of_notMem (dot_notMem_decimal n)

theorem readIPv4_formatIPv4 {bytes : Bytes} (h : bytes.length = 4) (rest : Bytes) :
    readIPv4 (formatIPv4 (bytes ++ rest)) = some bytes := by
  obtain ⟨a, b, c, d, rfl⟩ := List.length_eq_four.mp h
  have hformat : formatIPv4 ([a, b, c, d] ++ rest) =
      join (js ".") ([a.toNat, b.toNat, c.toNat, d.toNat].map decimal) := rfl
  rw [readIPv4, hformat, split_join_decimals _ (List.cons_ne_nil _ _)]
  simp [readOctet_decimal]

theorem hexValue_digitChar : ∀ d < 16, hexValue (unit d.digitChar) = some d := by decide

theorem readHex_concat (digits : JsString) (c : UInt16) :
    readHex (digits ++ [c]) =
      (readHex digits).bind fun n => (hexValue c).map (16 * n + ·) := by
  simp [readHex, List.foldlM_append]

theorem hexText_of_le {n : Nat} (h : 16 ≤ n) :
    hexText n = hexText (n / 16) ++ [unit (n % 16).digitChar] := by
  rw [hexText, Nat.toDigits_of_base_le (by decide) h, List.map_append]
  rfl

theorem hexText_of_lt {n : Nat} (h : n < 16) : hexText n = [unit n.digitChar] := by
  rw [hexText, Nat.toDigits_of_lt_base h]
  rfl

theorem readHex_hexText (n : Nat) : readHex (hexText n) = some n := by
  induction n using Nat.strong_induction_on with
  | _ n ih =>
      by_cases h : n < 16
      · rw [hexText_of_lt h, ← List.nil_append [unit n.digitChar], readHex_concat,
          hexValue_digitChar n h]
        simp [readHex]
      · have hle : 16 ≤ n := not_lt.mp h
        rw [hexText_of_le hle, readHex_concat, ih (n / 16) (by omega),
          hexValue_digitChar (n % 16) (Nat.mod_lt n (by decide))]
        simp only [Option.bind_some, Option.map_some, Nat.div_add_mod]

theorem readGroup_hexText {n : Nat} (h : n < 65536) : readGroup (hexText n) = some (bytes16 n) := by
  have hpos : 0 < (hexText n).length := by
    rw [hexText, List.length_map]
    exact Nat.length_toDigits_pos
  have hle : (hexText n).length ≤ 4 := by
    rw [hexText, List.length_map, Nat.length_toDigits_le_iff (by decide) (by decide)]
    exact h
  rw [readGroup, if_pos ⟨hpos, hle⟩, readHex_hexText]
  rfl

theorem isSome_hexValue_of_mem_hexText {n : Nat} {c : UInt16} (h : c ∈ hexText n) :
    (hexValue c).isSome = true := by
  induction n using Nat.strong_induction_on with
  | _ n ih =>
      by_cases hn : n < 16
      · rw [hexText_of_lt hn, List.mem_singleton] at h
        rw [h, hexValue_digitChar n hn]
        rfl
      · have hle : 16 ≤ n := not_lt.mp hn
        rw [hexText_of_le hle, List.mem_append, List.mem_singleton] at h
        rcases h with h | h
        · exact ih (n / 16) (by omega) h
        · rw [h, hexValue_digitChar (n % 16) (Nat.mod_lt n (by decide))]
          rfl

theorem notMem_hexText {c : UInt16} (h : hexValue c = none) (n : Nat) : c ∉ hexText n := by
  intro hmem
  have hsome := isSome_hexValue_of_mem_hexText hmem
  rw [h] at hsome
  cases hsome

theorem hexText_ne_nil (n : Nat) : hexText n ≠ [] := by
  rw [hexText, Ne, List.map_eq_nil_iff]
  exact Nat.toDigits_ne_nil

theorem readGroups_map_hexText {groups : List Nat} (h : ∀ n ∈ groups, n < 65536) :
    readGroups (groups.map hexText) = some (groups.flatMap bytes16) := by
  have hmap : (groups.map hexText).mapM readGroup = some (groups.map bytes16) := by
    induction groups with
    | nil => rfl
    | cons n groups ih =>
        obtain ⟨hn, hgroups⟩ := List.forall_mem_cons.mp h
        rw [List.map_cons, List.mapM_cons, readGroup_hexText hn, ih hgroups]
        rfl
  rw [readGroups, hmap]
  rfl

/-- Groups that are written out are read back. -/
theorem readIPv6_join_hexText {groups : List Nat} (h : ∀ n ∈ groups, n < 65536)
    (hlength : groups.length = 8) :
    readIPv6 (join (js ":") (groups.map hexText)) = some (groups.flatMap bytes16) := by
  have hpart : ∀ part ∈ groups.map hexText, part ≠ [] ∧ unit ':' ∉ part := by
    intro part hpart
    obtain ⟨n, -, rfl⟩ := List.mem_map.mp hpart
    exact ⟨hexText_ne_nil n, notMem_hexText (by decide) n⟩
  have hne : groups.map hexText ≠ [] := by
    intro hnil
    rw [List.map_eq_nil_iff.mp hnil] at hlength
    cases hlength
  have hwhole : split (join (js ":") (groups.map hexText)) (js "::") =
      [join (js ":") (groups.map hexText)] :=
    split_of_not_includes (not_includes_doubled_join hpart)
  have hparts : split (join (js ":") (groups.map hexText)) (js ":") = groups.map hexText :=
    split_join (js_ne_nil (by decide)) hne fun part hmem => uncut_of_notMem (hpart part hmem).2
  have htail : readTail (groups.map hexText) = some (groups.flatMap bytes16) := by
    rw [readTail, List.getLast?_eq_some_getLast hne]
    obtain ⟨n, -, hn⟩ := List.mem_map.mp (List.getLast_mem hne)
    simp only
    rw [if_neg (hn ▸ notMem_hexText (by decide) n), readGroups_map_hexText h]
  have hbytes : (groups.flatMap bytes16).length = 16 := by
    have htwo : ∀ n, (bytes16 n).length = 2 := fun _ => rfl
    simp only [List.length_flatMap, htwo, List.map_const', List.sum_replicate, hlength]
    rfl
  rw [readIPv6, hwhole]
  simp only
  rw [hparts, htail, Option.filter_some, if_pos (decide_eq_true hbytes)]

theorem bytes16_word16 (data : Bytes) (offset : Nat) :
    bytes16 (word16 data offset) = [data.getD offset 0, data.getD (offset + 1) 0] := by
  have hlow := byteAt_lt data (offset + 1)
  rw [word16_eq, bytes16]
  congr 1
  · rw [show (byteAt data offset * 256 + byteAt data (offset + 1)) / 256 = byteAt data offset by
      omega]
    exact UInt8.ofNat_toNat
  · congr 1
    apply UInt8.toNat_inj.mp
    simp [byteAt]

/-- Numbers of two bytes each are the bytes. -/
theorem flatMap_word16 {data : Bytes} {n : Nat} (h : 2 * n ≤ data.length) :
    (List.range n).flatMap (fun i => bytes16 (word16 data (2 * i))) = data.take (2 * n) := by
  induction n with
  | zero => rfl
  | succ n ih =>
      have hget : ∀ i < data.length, data.take (i + 1) = data.take i ++ [data.getD i 0] := by
        intro i hi
        rw [← List.take_append_getElem hi, List.getD_eq_getElem?_getD, List.getElem?_eq_getElem hi]
        rfl
      rw [List.range_succ, List.flatMap_append, ih (by omega), List.flatMap_singleton,
        bytes16_word16, Nat.mul_succ, hget (2 * n + 1) (by omega), hget (2 * n) (by omega),
        List.append_assoc]
      rfl

theorem word16_lt (data : Bytes) (offset : Nat) : word16 data offset < 65536 := by
  have hhigh := byteAt_lt data offset
  have hlow := byteAt_lt data (offset + 1)
  rw [word16_eq]
  omega

theorem readIPv6_formatIPv6 {bytes : Bytes} (h : bytes.length = 16) (rest : Bytes) :
    readIPv6 (formatIPv6 (bytes ++ rest)) = some bytes := by
  have hword : ∀ n ∈ (List.range 8).map fun i => word16 (bytes ++ rest) (2 * i), n < 65536 := by
    intro n hn
    obtain ⟨i, -, rfl⟩ := List.mem_map.mp hn
    exact word16_lt _ _
  have hgroups := readIPv6_join_hexText hword rfl
  have hlength : 2 * 8 ≤ (bytes ++ rest).length := by
    rw [List.length_append]
    omega
  rw [List.map_map, List.flatMap_map, flatMap_word16 hlength] at hgroups
  rw [formatIPv6]
  refine hgroups.trans ?_
  rw [List.take_append_of_le_length (by omega), List.take_of_length_le (by omega)]

/-- The units of groups and of IPv4 addresses. -/
def isPartUnit (c : UInt16) : Bool := (hexValue c).isSome || c == unit '.'

theorem isSome_hexValue_of_isDigit {c : UInt16} (h : isDigit c = true) :
    (hexValue c).isSome = true := by
  rw [isDigit, decide_eq_true_eq] at h
  rw [hexValue, if_pos h]
  rfl

theorem isSome_hexValue_of_readHex {digits : JsString} {n : Nat} (h : readHex digits = some n) :
    ∀ c ∈ digits, (hexValue c).isSome = true := by
  induction digits using List.reverseRecOn generalizing n with
  | nil =>
      intro c hc
      cases hc
  | append_singleton digits d ih =>
      rw [readHex_concat, Option.bind_eq_some_iff] at h
      obtain ⟨m, hm, hd⟩ := h
      obtain ⟨value, hvalue, -⟩ := Option.map_eq_some_iff.mp hd
      intro c hc
      rw [List.mem_append, List.mem_singleton] at hc
      rcases hc with hc | rfl
      · exact ih hm c hc
      · rw [hvalue]
        rfl

theorem readGroup_eq_some {part : JsString} {bytes : Bytes} (h : readGroup part = some bytes) :
    (∀ c ∈ part, (hexValue c).isSome = true) ∧ part.length ≤ 4 ∧ bytes.length = 2 := by
  rw [readGroup] at h
  split_ifs at h with hlength
  obtain ⟨n, hn, rfl⟩ := Option.map_eq_some_iff.mp h
  exact ⟨isSome_hexValue_of_readHex hn, hlength.2, rfl⟩

/-- Groups give two bytes each. -/
theorem readGroups_eq_some {parts : List JsString} {bytes : Bytes}
    (h : readGroups parts = some bytes) :
    (∀ part ∈ parts, (∀ c ∈ part, (hexValue c).isSome = true) ∧ part.length ≤ 4) ∧
      bytes.length = 2 * parts.length := by
  obtain ⟨groups, hgroups, rfl⟩ := Option.map_eq_some_iff.mp h
  clear h
  induction parts generalizing groups with
  | nil =>
      cases hgroups
      exact ⟨fun part hpart => absurd hpart List.not_mem_nil, rfl⟩
  | cons part parts ih =>
      obtain ⟨group, rest, hgroup, hrest, rfl⟩ := mapM_cons_eq_some_iff.mp hgroups
      obtain ⟨hunits, hlength, htwo⟩ := readGroup_eq_some hgroup
      obtain ⟨hparts, hbytes⟩ := ih rest hrest
      refine ⟨List.forall_mem_cons.mpr ⟨⟨hunits, hlength⟩, hparts⟩, ?_⟩
      rw [List.flatten_cons, List.length_append, hbytes, htwo, List.length_cons]
      omega

theorem length_of_readIPv4 {text : JsString} {bytes : Bytes} (h : readIPv4 text = some bytes) :
    bytes.length = 4 := by
  rw [readIPv4] at h
  split_ifs at h with hfour
  rw [length_of_mapM_eq_some h, hfour]

theorem isPartUnit_of_readIPv4 {text : JsString} {bytes : Bytes} (h : readIPv4 text = some bytes) :
    ∀ c ∈ text, isPartUnit c = true := by
  rw [readIPv4] at h
  split_ifs at h
  have hparts : ∀ part ∈ split text (js "."), ∀ c ∈ part, isDigit c = true := by
    intro part hpart
    obtain ⟨b, -, hb⟩ := exists_of_mapM_eq_some h part hpart
    rw [readOctet] at hb
    split_ifs at hb with hdecimal
    rw [hdecimal.2]
    exact fun c hc => isDigit_of_mem_decimal hc
  have hjoin : join (js ".") (split text (js ".")) = text :=
    join_split (js_ne_nil (by decide)) text
  intro c hc
  rw [← hjoin] at hc
  rcases mem_join hc with ⟨part, hpart, hc⟩ | hc
  · rw [isPartUnit, isSome_hexValue_of_isDigit (hparts part hpart c hc), Bool.true_or]
  · rw [show js "." = [unit '.'] from rfl, List.mem_singleton] at hc
    rw [isPartUnit, hc, beq_self_eq_true, Bool.or_true]

theorem isPartUnit_of_readGroups {parts : List JsString} {bytes : Bytes}
    (h : readGroups parts = some bytes) : ∀ part ∈ parts, ∀ c ∈ part, isPartUnit c = true := by
  intro part hpart c hc
  rw [isPartUnit, ((readGroups_eq_some h).1 part hpart).1 c hc, Bool.true_or]

/-- Without a dot, a tail is groups. -/
theorem readTail_eq_some {parts : List JsString} {bytes : Bytes}
    (h : readTail parts = some bytes) :
    (∀ part ∈ parts, ∀ c ∈ part, isPartUnit c = true) ∧
      ((∀ part ∈ parts, unit '.' ∉ part) → readGroups parts = some bytes) := by
  rw [readTail] at h
  cases hlast : parts.getLast? with
  | none =>
      rw [hlast] at h
      rw [List.getLast?_eq_none_iff.mp hlast]
      cases h
      exact ⟨fun part hpart => absurd hpart List.not_mem_nil, fun _ => rfl⟩
  | some last =>
      simp only [hlast] at h
      split_ifs at h with hdot
      · obtain ⟨high, hhigh, hlow⟩ := Option.bind_eq_some_iff.mp h
        obtain ⟨low, hlow, -⟩ := Option.map_eq_some_iff.mp hlow
        refine ⟨?_, fun hnone => absurd hdot (hnone last (List.mem_of_getLast? hlast))⟩
        intro part hpart
        rw [← List.dropLast_append_getLast? last hlast, List.mem_append,
          List.mem_singleton] at hpart
        rcases hpart with hpart | rfl
        · exact isPartUnit_of_readGroups hhigh part hpart
        · exact isPartUnit_of_readIPv4 hlow
      · exact ⟨isPartUnit_of_readGroups h, fun _ => h⟩

/-- Groups with their separators. -/
theorem length_join_le {parts : List JsString} (h : ∀ part ∈ parts, part.length ≤ 4) :
    (join (js ":") parts).length ≤ 5 * parts.length := by
  induction parts with
  | nil => exact le_refl 0
  | cons part parts ih =>
      obtain ⟨hpart, hparts⟩ := List.forall_mem_cons.mp h
      have hrest := ih hparts
      cases parts with
      | nil =>
          rw [join_singleton, List.length_singleton]
          omega
      | cons next parts =>
          rw [join_cons _ _ (List.cons_ne_nil _ _), List.length_append, List.length_append,
            List.length_cons]
          have hsep : (js ":").length = 1 := rfl
          omega

theorem join_groupTexts (text : JsString) : join (js ":") (groupTexts text) = text := by
  rw [groupTexts]
  split_ifs with hnil
  · rw [hnil, join_nil]
  · exact join_split (js_ne_nil (by decide)) text

/-- The two ways in which a text is readable: as a whole, or with `::`. -/
theorem readIPv6_eq_some {text : JsString} {bytes : Bytes} (h : readIPv6 text = some bytes) :
    (split text (js "::") = [text] ∧ readTail (split text (js ":")) = some bytes ∧
        bytes.length = 16) ∨
      ∃ before after high low, text = before ++ (js "::" ++ after) ∧
        readGroups (groupTexts before) = some high ∧ readTail (groupTexts after) = some low ∧
        high.length + low.length ≤ 14 := by
  have hjoin : join (js "::") (split text (js "::")) = text :=
    join_split (js_ne_nil (by decide)) text
  rw [readIPv6] at h
  split at h
  · next whole hsplit =>
      rw [hsplit, join_singleton] at hjoin
      subst hjoin
      rw [Option.filter_eq_some_iff, decide_eq_true_eq] at h
      exact .inl ⟨hsplit, h⟩
  · next before after hsplit =>
      obtain ⟨high, hhigh, h⟩ := Option.bind_eq_some_iff.mp h
      obtain ⟨low, hlow, h⟩ := Option.bind_eq_some_iff.mp h
      split_ifs at h with hshort
      rw [hsplit] at hjoin
      refine .inr ⟨before, after, high, low, ?_, hhigh, hlow, hshort⟩
      rw [← hjoin, join_cons _ _ (List.cons_ne_nil _ _), join_singleton, List.append_assoc]
  · cases h

theorem isPartUnit_or_colon_of_join {parts : List JsString}
    (h : ∀ part ∈ parts, ∀ c ∈ part, isPartUnit c = true) :
    ∀ c ∈ join (js ":") parts, isPartUnit c = true ∨ c = unit ':' := by
  intro c hc
  rcases mem_join hc with ⟨part, hpart, hc⟩ | hc
  · exact .inl (h part hpart c hc)
  · exact .inr (List.mem_singleton.mp hc)

/-- A readable text is made of hexadecimal digits, dots and colons. -/
theorem units_of_readIPv6 {text : JsString} {bytes : Bytes} (h : readIPv6 text = some bytes) :
    ∀ c ∈ text, isPartUnit c = true ∨ c = unit ':' := by
  intro c hc
  rcases readIPv6_eq_some h with ⟨-, htail, -⟩ | ⟨before, after, high, low, rfl, hhigh, hlow, -⟩
  · have hjoin : join (js ":") (split text (js ":")) = text :=
      join_split (js_ne_nil (by decide)) text
    rw [← hjoin] at hc
    exact isPartUnit_or_colon_of_join (readTail_eq_some htail).1 c hc
  · rw [List.mem_append, List.mem_append] at hc
    rcases hc with hc | hc | hc
    · rw [← join_groupTexts before] at hc
      exact isPartUnit_or_colon_of_join (isPartUnit_of_readGroups hhigh) c hc
    · right
      rw [show js "::" = [unit ':', unit ':'] from rfl] at hc
      simpa using hc
    · rw [← join_groupTexts after] at hc
      exact isPartUnit_or_colon_of_join (readTail_eq_some hlow).1 c hc

theorem includes_colon_of_readIPv6 {text : JsString} {bytes : Bytes}
    (h : readIPv6 text = some bytes) : includes text (js ":") = true := by
  rcases readIPv6_eq_some h with ⟨-, htail, hlength⟩ | ⟨before, after, high, low, rfl, -⟩
  · by_contra hcolon
    rw [split_of_not_includes (Bool.not_eq_true _ ▸ hcolon)] at htail
    have hshort : bytes.length ≤ 4 := by
      rw [readTail] at htail
      simp only [List.getLast?_singleton, List.dropLast_singleton] at htail
      split_ifs at htail with hdot
      · have hnil : readGroups [] = some [] := rfl
        rw [hnil, Option.bind_some] at htail
        obtain ⟨low, hlow, rfl⟩ := Option.map_eq_some_iff.mp htail
        exact (length_of_readIPv4 hlow).le
      · obtain ⟨-, htwo⟩ := readGroups_eq_some htail
        rw [htwo, List.length_singleton]
        decide
    omega
  · rw [includes_iff]
    exact ⟨before, js ":" ++ after, by simp [js]⟩

/-- Without a dot, a readable text is no longer than eight groups. -/
theorem length_le_of_readIPv6 {text : JsString} {bytes : Bytes} (h : readIPv6 text = some bytes)
    (hdot : unit '.' ∉ text) : text.length ≤ 45 := by
  have hpart : ∀ {parts : List JsString}, unit '.' ∉ join (js ":") parts →
      ∀ part ∈ parts, unit '.' ∉ part := by
    intro parts hjoin part hmem hc
    exact hjoin (mem_join_of_mem hmem hc)
  have hshort : ∀ {parts : List JsString} {bytes : Bytes}, readGroups parts = some bytes →
      2 * (join (js ":") parts).length ≤ 5 * bytes.length := by
    intro parts bytes hgroups
    obtain ⟨hparts, hbytes⟩ := readGroups_eq_some hgroups
    have hlength := length_join_le fun part hmem => (hparts part hmem).2
    omega
  rcases readIPv6_eq_some h with ⟨-, htail, hlength⟩ | ⟨before, after, high, low, rfl, hhigh, hlow,
    hlength⟩
  · have hjoin : join (js ":") (split text (js ":")) = text :=
      join_split (js_ne_nil (by decide)) text
    have hgroups := (readTail_eq_some htail).2 (hpart (by rwa [hjoin]))
    have hle := hshort hgroups
    rw [hjoin] at hle
    omega
  · simp only [List.mem_append, not_or] at hdot
    have hbefore := hshort hhigh
    have hafter := hshort ((readTail_eq_some hlow).2 (hpart (by
      rw [join_groupTexts]
      exact hdot.2.2)))
    rw [join_groupTexts] at hbefore hafter
    have hsep : (js "::").length = 2 := rfl
    rw [List.length_append, List.length_append]
    omega

end TestServer.ProcessConnection
