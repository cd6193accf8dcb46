import TestServer.HostVerdicts
import TestServer.HttpbinCompat
import TestServer.Library.Fallible

/-!
# The header names that are inspected

Every part of a header's name gets a capital first letter. That fails for an empty part. All other
names of headers are kept and told apart.
-/

namespace TestServer

open Js Library Endpoints

namespace InspectedHeaders

/-- The units of a token in lower case. -/
def isTokenUnit (c : UInt16) : Bool :=
  isDigit c || decide (97 ≤ c ∧ c ≤ 122) || (js "!#$%&'*+-.^_|~").contains c || decide (c = 96)

/-- A field name as it is delivered, or the name of a pseudo-header. -/
def FieldName (name : JsString) : Prop :=
  let token := if startsWith name (js ":") then name.drop 1 else name
  token ≠ [] ∧ token.all isTokenUnit = true

instance (name : JsString) : Decidable (FieldName name) :=
  inferInstanceAs (Decidable (_ ∧ _))

structure Legal (headers : HeaderList) : Prop where
  fieldName : ∀ entry ∈ headers, FieldName entry.1
  nodup : (headers.map Prod.fst).Nodup

/-- The handler answers with status 200, and throws nothing. -/
def Answers200 (handled : Handled) : Prop :=
  handled.thrown = none ∧ ∃ headers rest, handled.actions = writeHead 200 headers :: rest

/-- The names stay apart, all values are kept, and every endpoint that reports details of a
request with these headers answers. -/
structure Inspects (headers : HeaderList) : Prop where
  distinct : ∀ entry ∈ headers, ∀ other ∈ headers, ∀ name, canonicalName entry.1 = .ok name →
    canonicalName other.1 = .ok name → entry.1 = other.1
  keeps : ∀ library, ∃ members, canonicalHeaders library headers = .ok (.object members) ∧
    ∀ entry ∈ headers, ∃ name, canonicalName entry.1 = .ok name ∧ (name, entry.2.json) ∈ members
  answers : ∀ library req fieldFilter options, req.headers = headers →
    (inspectedUrl library req).isSome →
      Answers200 (buildHttpBinAnythingEndpoint fieldFilter library req options)

/-- No part of the name is empty. -/
def Inspectable (name : JsString) : Prop := ∀ part ∈ split name (js "-"), part ≠ []

instance (name : JsString) : Decidable (Inspectable name) :=
  inferInstanceAs (Decidable (∀ part ∈ split name (js "-"), part ≠ []))

theorem map_join (f : UInt16 → UInt16) (sep : JsString) (parts : List JsString) :
    (join sep parts).map f = join (sep.map f) (parts.map (List.map f)) := by
  induction parts with
  | nil => rfl
  | cons part parts ih =>
      by_cases hne : parts = []
      · rw [hne]
        rfl
      · have hmap : parts.map (List.map f) ≠ [] := mt List.map_eq_nil_iff.mp hne
        rw [join_cons _ part hne, List.map_cons, join_cons _ _ hmap, List.map_append,
          List.map_append, ih]

theorem asciiLowerCase_join (parts : List JsString) :
    asciiLowerCase (join (js "-") parts) = join (js "-") (parts.map asciiLowerCase) :=
  map_join _ _ parts

/-- Lower-casing a capital letter gives the letter that it stands for. -/
theorem asciiLowerCase_upperCase (s : JsString) :
    asciiLowerCase (asciiUpperCase s) = asciiLowerCase s := by
  rw [asciiUpperCase, asciiLowerCase, List.map_map, asciiLowerCase]
  apply List.map_congr_left
  intro c _
  simp only [Function.comp_apply, UInt16.le_iff_toNat_le, UInt16.reduceToNat]
  by_cases hletter : 97 ≤ c.toNat ∧ c.toNat ≤ 122
  · have hsub : (c - 32).toNat = c.toNat - 32 := by
      rw [UInt16.toNat_sub_of_le _ _ (by rw [UInt16.le_iff_toNat_le]; simp; omega)]
      rfl
    rw [if_pos hletter, if_pos (by omega), if_neg (by omega), UInt16.sub_add_cancel]
  · rw [if_neg hletter]

theorem capitalised_eq_ok_iff {part : JsString} : (∃ s, capitalised part = .ok s) ↔ part ≠ [] := by
  cases part with
  | nil => exact ⟨fun ⟨_, h⟩ => (nomatch h), fun h => absurd rfl h⟩
  | cons c rest => exact ⟨fun _ => List.cons_ne_nil c rest, fun _ => ⟨_, rfl⟩⟩

theorem asciiLowerCase_capitalised {part s : JsString} (h : capitalised part = .ok s) :
    asciiLowerCase s = asciiLowerCase part := by
  cases part with
  | nil => cases h
  | cons c rest =>
      cases h
      rw [asciiLowerCase, List.map_append, ← asciiLowerCase, asciiLowerCase_upperCase]
      rfl

theorem canonicalName_eq_ok_iff {name s : JsString} :
    canonicalName name = .ok s ↔
      ∃ parts, (split name (js "-")).mapM capitalised = .ok parts ∧ s = join (js "-") parts := by
  rw [canonicalName, bind_ok_iff]
  constructor
  · rintro ⟨parts, hparts, hs⟩
    cases hs
    exact ⟨parts, hparts, rfl⟩
  · rintro ⟨parts, hparts, rfl⟩
    exact ⟨parts, hparts, rfl⟩

/-- Only letters change their case. -/
theorem asciiLowerCase_canonicalName {name s : JsString} (h : canonicalName name = .ok s) :
    asciiLowerCase s = asciiLowerCase name := by
  obtain ⟨parts, hparts, rfl⟩ := canonicalName_eq_ok_iff.mp h
  have hmap : parts.map asciiLowerCase = (split name (js "-")).map asciiLowerCase := by
    rw [← List.forall₂_eq_eq_eq, List.forall₂_map_left_iff, List.forall₂_map_right_iff]
    apply List.Forall₂.flip
    exact (mapM_eq_ok_iff.mp hparts).imp fun _ _ => asciiLowerCase_capitalised
  calc asciiLowerCase (join (js "-") parts)
      = join (js "-") (parts.map asciiLowerCase) := asciiLowerCase_join parts
    _ = join (js "-") ((split name (js "-")).map asciiLowerCase) := by rw [hmap]
    _ = asciiLowerCase (join (js "-") (split name (js "-"))) := (asciiLowerCase_join _).symm
    _ = asciiLowerCase name := by rw [join_split (js_ne_nil (by decide))]

theorem exists_canonicalName_iff {name : JsString} :
    (∃ s, canonicalName name = .ok s) ↔ ∀ part ∈ split name (js "-"), part ≠ [] := by
  constructor
  · rintro ⟨s, hs⟩ part hpart
    obtain ⟨parts, hparts, -⟩ := canonicalName_eq_ok_iff.mp hs
    obtain ⟨t, -, ht⟩ := exists_mem_of_mapM_eq_ok hparts part hpart
    exact capitalised_eq_ok_iff.mp ⟨t, ht⟩
  · intro h
    obtain ⟨parts, hparts⟩ := exists_mapM_eq_ok fun part hpart =>
      capitalised_eq_ok_iff.mpr (h part hpart)
    exact ⟨_, canonicalName_eq_ok_iff.mpr ⟨parts, hparts, rfl⟩⟩

/-- A name in lower case is read off its canonical form. -/
theorem canonicalName_injective {a b s : JsString} (ha : asciiLowerCase a = a)
    (hb : asciiLowerCase b = b) (h : canonicalName a = .ok s) (h' : canonicalName b = .ok s) :
    a = b := by
  calc a = asciiLowerCase a := ha.symm
    _ = asciiLowerCase s := (asciiLowerCase_canonicalName h).symm
    _ = asciiLowerCase b := asciiLowerCase_canonicalName h'
    _ = b := hb

theorem not_isCapital_of_isTokenUnit {c : UInt16} (h : isTokenUnit c = true) :
    ¬ IsCapital c := by
  have hlisted : (js "!#$%&'*+-.^_|~").all (fun c => decide (¬ (65 ≤ c ∧ c ≤ 90))) = true := by
    decide +kernel
  rintro ⟨hlow, hhigh⟩
  simp only [isTokenUnit, isDigit, Bool.or_eq_true, decide_eq_true_eq, List.contains_iff_mem] at h
  simp only [UInt16.le_iff_toNat_le, UInt16.reduceToNat] at hlow hhigh
  rcases h with ((hdigit | hletter) | hmem) | hquote
  · simp only [UInt16.le_iff_toNat_le, UInt16.reduceToNat] at hdigit
    omega
  · simp only [UInt16.le_iff_toNat_le, UInt16.reduceToNat] at hletter
    omega
  · have hnot := of_decide_eq_true (List.all_eq_true.mp hlisted c hmem)
    simp only [UInt16.le_iff_toNat_le, UInt16.reduceToNat] at hnot
    omega
  · simp only [hquote, UInt16.reduceToNat] at hhigh
    omega

/-- Field names have no capital letters. -/
theorem FieldName.asciiLowerCase_eq {name : JsString} (h : FieldName name) :
    asciiLowerCase name = name := by
  obtain ⟨-, hall⟩ := h
  apply asciiLowerCase_of_not_isCapital
  split_ifs at hall with hpseudo
  · obtain ⟨token, rfl⟩ := startsWith_iff.mp hpseudo
    intro c hc
    rcases List.mem_append.mp hc with hcolon | htoken
    · rw [List.mem_singleton.mp hcolon]
      exact fun hcapital => absurd hcapital.1 (by decide)
    · exact not_isCapital_of_isTokenUnit (List.all_eq_true.mp hall c htoken)
  · intro c hc
    exact not_isCapital_of_isTokenUnit (List.all_eq_true.mp hall c hc)

def canonicalPair (entry : JsString × HeaderValue) : Except Thrown (JsString × HeaderValue) := do
  let name ← canonicalName entry.1
  return (name, entry.2)

theorem canonicalPair_eq_ok_iff {entry pair : JsString × HeaderValue} :
    canonicalPair entry = .ok pair ↔ canonicalName entry.1 = .ok pair.1 ∧ pair.2 = entry.2 := by
  rw [canonicalPair, bind_ok_iff]
  constructor
  · rintro ⟨name, hname, hpair⟩
    cases hpair
    exact ⟨hname, rfl⟩
  · rintro ⟨hname, hvalue⟩
    exact ⟨pair.1, hname, by rw [← hvalue]; rfl⟩

variable {library : HttpLibrary} {headers : HeaderList}

/-- The members of an object of canonical headers. -/
def membersOf (pairs : HeaderList) : List (JsString × JsonValue) :=
  (pairs.insertionSort fun a b => sortText a ≤ sortText b).map fun pair => (pair.1, pair.2.json)

theorem canonicalHeaders_eq_ok_iff {json : JsonValue} :
    canonicalHeaders library headers = .ok json ↔
      ∃ pairs, headers.mapM canonicalPair = .ok pairs ∧ json = .object (membersOf pairs) := by
  change (headers.mapM canonicalPair >>= _) = _ ↔ _
  rw [bind_ok_iff]
  constructor
  · rintro ⟨pairs, hpairs, hjson⟩
    cases hjson
    exact ⟨pairs, hpairs, library.lodash.fromPairs_eq _⟩
  · rintro ⟨pairs, hpairs, rfl⟩
    exact ⟨pairs, hpairs, congrArg Except.ok (library.lodash.fromPairs_eq _)⟩

theorem mem_membersOf {pairs : HeaderList} {pair : JsString × HeaderValue} (h : pair ∈ pairs) :
    (pair.1, pair.2.json) ∈ membersOf pairs :=
  List.mem_map.mpr ⟨pair, (List.mem_insertionSort _).mpr h, rfl⟩

/-- Without a bad name, all pairs are members of the object. -/
theorem keeps_of_inspectable (library : HttpLibrary)
    (h : ∀ entry ∈ headers, Inspectable entry.1) :
    ∃ members, canonicalHeaders library headers = .ok (.object members) ∧
      ∀ entry ∈ headers, ∃ name,
        canonicalName entry.1 = .ok name ∧ (name, entry.2.json) ∈ members := by
  have hpairs : ∃ pairs, headers.mapM canonicalPair = .ok pairs := by
    apply exists_mapM_eq_ok
    intro entry hentry
    obtain ⟨name, hname⟩ := exists_canonicalName_iff.mpr (h entry hentry)
    exact ⟨(name, entry.2), canonicalPair_eq_ok_iff.mpr ⟨hname, rfl⟩⟩
  obtain ⟨pairs, hpairs⟩ := hpairs
  refine ⟨membersOf pairs, canonicalHeaders_eq_ok_iff.mpr ⟨pairs, hpairs, rfl⟩, ?_⟩
  intro entry hentry
  obtain ⟨pair, hpair, hcanonical⟩ := exists_mem_of_mapM_eq_ok hpairs entry hentry
  obtain ⟨hname, hvalue⟩ := canonicalPair_eq_ok_iff.mp hcanonical
  refine ⟨pair.1, hname, ?_⟩
  rw [← hvalue]
  exact mem_membersOf hpair

theorem answers_of_canonicalHeaders {req : HttpCall} {json : JsonValue}
    (hheaders : canonicalHeaders library req.headers = .ok json)
    (hurl : (inspectedUrl library req).isSome) (fieldFilter : Option FieldFilter)
    (options : HandleOptions) :
    Answers200 (buildHttpBinAnythingEndpoint fieldFilter library req options) := by
  obtain ⟨url, hurl⟩ := Option.isSome_iff_exists.mp hurl
  rw [buildHttpBinAnythingEndpoint, buildHttpBinAnythingData, hurl]
  simp only [hheaders]
  exact ⟨rfl, _, _, rfl⟩

/-- A request over HTTP/2. -/
def plainHeaders : HeaderList :=
  [(js ":authority", .one (js "t")), (js "user-agent", .one (js "u")),
    (js "set-cookie", .many [js "a=b", js "c=d"]), (js "__proto__", .one (js "p"))]

theorem legal_plainHeaders : Legal plainHeaders where
  fieldName := by decide +kernel
  nodup := by decide +kernel

end InspectedHeaders

end TestServer
