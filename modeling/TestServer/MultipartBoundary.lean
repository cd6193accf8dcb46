import TestServer.MultidictKeys
import Mathlib.Data.List.TakeWhile

/-!
# Boundaries of multipart forms

The headers that name the boundary of a multipart form, and what `getFiles` of
`src/httpbin-compat.ts` takes for it. The expression that is searched knows nothing of quoted
strings, and takes all up to the next white space.

## Implementation notes

The parser of the parts is a parameter. It is right about the bytes of a form when it is given
exactly the boundary; nothing is known of it for any other text.
-/

namespace TestServer

open Js Library Endpoints ProcessConnection

def isTokenUnit (c : UInt16) : Bool :=
  isDigit c || isAlpha c || (js "!#$%&'*+-.^_|~").contains c || decide (c = 96)

def IsToken (s : JsString) : Prop := s ≠ [] ∧ ∀ c ∈ s, isTokenUnit c = true

/-- Optional white space. -/
def IsBlank (s : JsString) : Prop := ∀ c ∈ s, c = 9 ∨ c = 32

/-- A unit that can be escaped in a quoted string. -/
def isQuotable (c : UInt16) : Bool := decide (c = 9 ∨ 32 ≤ c ∧ c ≤ 126 ∨ 128 ≤ c ∧ c ≤ 255)

/-- What is between the quotes of a string, and the text that it stands for. -/
inductive QuotedContent : JsString → JsString → Prop
  | nil : QuotedContent [] []
  | plain {c : UInt16} {written value : JsString} (quotable : isQuotable c = true)
      (quote : c ≠ 34) (backslash : c ≠ 92) (others : QuotedContent written value) :
      QuotedContent (c :: written) (c :: value)
  | escaped {c : UInt16} {written value : JsString} (quotable : isQuotable c = true)
      (others : QuotedContent written value) : QuotedContent (92 :: c :: written) (c :: value)

/-- The value of a parameter as it is written, and the text that it stands for. -/
inductive ValueText : JsString → JsString → Prop
  | bare {value : JsString} (token : IsToken value) : ValueText value value
  | quoted {written value : JsString} (content : QuotedContent written value) :
      ValueText (34 :: (written ++ [34])) value

/-- A parameter of a media type with what stands around its semicolon. In front of it there may
be empty parameters. -/
structure Parameter where
  lead : JsString
  gap : JsString
  name : JsString
  written : JsString
  value : JsString
  lead_empty : ∀ c ∈ lead, c = 9 ∨ c = 32 ∨ c = unit ';'
  gap_blank : IsBlank gap
  name_token : IsToken name
  valueText : ValueText written value

def Parameter.text (p : Parameter) : JsString :=
  p.lead ++ unit ';' :: (p.gap ++ (p.name ++ unit '=' :: p.written))

def isBoundaryUnit (c : UInt16) : Bool :=
  isDigit c || isAlpha c || (js "'()+_,-./:=? ").contains c

structure IsBoundary (s : JsString) : Prop where
  nonempty : s ≠ []
  short : s.length ≤ 70
  units : ∀ c ∈ s, isBoundaryUnit c = true
  last : s.getLast? ≠ some 32

/-- A value of `Content-Type` for a multipart form. -/
structure MultipartType where
  media : JsString
  before : List Parameter
  boundary : Parameter
  after : List Parameter
  /-- Empty parameters at the end. -/
  trail : JsString
  media_eq : asciiLowerCase media = js "multipart/form-data"
  boundary_name : asciiLowerCase boundary.name = js "boundary"
  others : ∀ p ∈ before ++ after, asciiLowerCase p.name ≠ js "boundary"
  valid : IsBoundary boundary.value
  trail_empty : ∀ c ∈ trail, c = 9 ∨ c = 32 ∨ c = unit ';'

def MultipartType.text (header : MultipartType) : JsString :=
  header.media ++ ((header.before ++ header.boundary :: header.after).flatMap Parameter.text ++
    header.trail)

/-- A match of `/;\s*boundary=(\S+)/` at the start of a text. -/
def MatchesAt (text captured : JsString) : Prop :=
  ∃ space rest, text = unit ';' :: (space ++ (js "boundary=" ++ (captured ++ rest))) ∧
    (∀ c ∈ space, isWhiteSpace c = true) ∧ captured ≠ [] ∧
    (∀ c ∈ captured, isWhiteSpace c = false) ∧ ∀ c ∈ rest.head?, isWhiteSpace c = true

/-- The first match in a text. -/
def FirstMatch (text captured : JsString) : Prop :=
  ∃ before rest, text = before ++ rest ∧ MatchesAt rest captured ∧
    ∀ skipped between, before = skipped ++ between → between ≠ [] →
      ∀ other, ¬ MatchesAt (between ++ rest) other

def NoMatch (text : JsString) : Prop :=
  ∀ before rest, text = before ++ rest → ∀ captured, ¬ MatchesAt rest captured

/-- What a match at the start of a text would capture. -/
def boundaryGroup (rest : JsString) : JsString :=
  ((rest.dropWhile isWhiteSpace).drop (js "boundary=").length).takeWhile fun d => !isWhiteSpace d

theorem matchBoundary_cons (c : UInt16) (rest : JsString) :
    matchBoundary (c :: rest) =
      if c = unit ';' ∧ startsWith (rest.dropWhile isWhiteSpace) (js "boundary=") ∧
          boundaryGroup rest ≠ [] then some (boundaryGroup rest)
      else matchBoundary rest := rfl

theorem takeWhile_append_stop {p : UInt16 → Bool} {s t : JsString} (hs : ∀ c ∈ s, p c = true)
    (ht : ∀ c ∈ t.head?, p c = false) : (s ++ t).takeWhile p = s := by
  rw [List.takeWhile_append_of_pos hs]
  cases t with
  | nil => exact List.append_nil s
  | cons c t => rw [List.takeWhile_cons, ht c rfl, if_neg Bool.false_ne_true, List.append_nil]

theorem dropWhile_append_stop {p : UInt16 → Bool} {s t : JsString} (hs : ∀ c ∈ s, p c = true)
    (ht : ∀ c ∈ t.head?, p c = false) : (s ++ t).dropWhile p = t := by
  rw [List.dropWhile_append_of_pos hs]
  cases t with
  | nil => rfl
  | cons c t => rw [List.dropWhile_cons, ht c rfl, if_neg Bool.false_ne_true]

/-- What the search looks for at a unit is a match there. -/
theorem matchesAt_cons_iff {c : UInt16} {rest captured : JsString} :
    MatchesAt (c :: rest) captured ↔
      (c = unit ';' ∧ startsWith (rest.dropWhile isWhiteSpace) (js "boundary=") = true ∧
        boundaryGroup rest ≠ []) ∧ captured = boundaryGroup rest := by
  constructor
  · rintro ⟨space, after, heq, hspace, hne, hcaptured, hstop⟩
    obtain ⟨rfl, rfl⟩ := List.cons.inj heq
    have hdrop : (space ++ (js "boundary=" ++ (captured ++ after))).dropWhile isWhiteSpace =
        js "boundary=" ++ (captured ++ after) :=
      dropWhile_append_stop hspace fun c hc => by cases hc; rfl
    have hgroup : boundaryGroup (space ++ (js "boundary=" ++ (captured ++ after))) = captured := by
      rw [boundaryGroup, hdrop, List.drop_left]
      apply takeWhile_append_stop
      · intro c hc
        rw [hcaptured c hc]
        rfl
      · intro c hc
        rw [hstop c hc]
        rfl
    rw [hgroup, hdrop]
    exact ⟨⟨rfl, startsWith_iff.mpr (List.prefix_append _ _), hne⟩, rfl⟩
  · rintro ⟨⟨rfl, hstarts, hne⟩, rfl⟩
    obtain ⟨after, hafter⟩ := startsWith_iff.mp hstarts
    have hgroup : boundaryGroup rest = after.takeWhile fun d => !isWhiteSpace d := by
      rw [boundaryGroup, ← hafter, List.drop_left]
    refine ⟨rest.takeWhile isWhiteSpace, after.dropWhile fun d => !isWhiteSpace d, ?_, ?_, hne, ?_,
      ?_⟩
    · rw [hgroup, List.takeWhile_append_dropWhile, hafter, List.takeWhile_append_dropWhile]
    · exact fun c hc => List.mem_takeWhile_imp hc
    · intro c hc
      rw [hgroup] at hc
      have hnot := List.mem_takeWhile_imp hc
      rwa [Bool.not_eq_true'] at hnot
    · intro c hc
      have hstop := List.head?_dropWhile_not (fun d => !isWhiteSpace d) after
      rw [hc] at hstop
      simpa using hstop

theorem firstMatch_of_matchesAt {text captured : JsString} (h : MatchesAt text captured) :
    FirstMatch text captured := by
  refine ⟨[], text, rfl, h, ?_⟩
  intro skipped between heq hne
  exact absurd (List.append_eq_nil_iff.mp heq.symm).2 hne

/-- Where a text does not match, the first match is that of what follows. -/
theorem firstMatch_cons_iff {c : UInt16} {rest captured : JsString}
    (hnone : ∀ other, ¬ MatchesAt (c :: rest) other) :
    FirstMatch (c :: rest) captured ↔ FirstMatch rest captured := by
  constructor
  · rintro ⟨before, tail, heq, hmatch, hfirst⟩
    cases before with
    | nil =>
        rw [List.nil_append] at heq
        rw [← heq] at hmatch
        exact absurd hmatch (hnone captured)
    | cons d before =>
        obtain ⟨rfl, rfl⟩ := List.cons.inj heq
        refine ⟨before, tail, rfl, hmatch, fun skipped between hsplit => ?_⟩
        exact hfirst (c :: skipped) between (by rw [hsplit, List.cons_append])
  · rintro ⟨before, tail, rfl, hmatch, hfirst⟩
    refine ⟨c :: before, tail, rfl, hmatch, fun skipped between hsplit hne => ?_⟩
    cases skipped with
    | nil =>
        rw [List.nil_append] at hsplit
        rw [← hsplit]
        exact hnone
    | cons d skipped =>
        exact hfirst skipped between (List.cons.inj hsplit).2 hne

/-- The search finds the first match. -/
theorem matchBoundary_eq_some_iff {text captured : JsString} :
    matchBoundary text = some captured ↔ FirstMatch text captured := by
  induction text with
  | nil =>
      constructor
      · rintro ⟨⟩
      · rintro ⟨before, rest, heq, ⟨space, after, hrest, -⟩, -⟩
        rw [hrest] at heq
        exact absurd (List.append_eq_nil_iff.mp heq.symm).2 (List.cons_ne_nil _ _)
  | cons c rest ih =>
      rw [matchBoundary_cons]
      by_cases hhere : c = unit ';' ∧
          startsWith (rest.dropWhile isWhiteSpace) (js "boundary=") = true ∧ boundaryGroup rest ≠ []
      · have hmatch : MatchesAt (c :: rest) (boundaryGroup rest) :=
          matchesAt_cons_iff.mpr ⟨hhere, rfl⟩
        rw [if_pos hhere, Option.some.injEq]
        constructor
        · rintro rfl
          exact firstMatch_of_matchesAt hmatch
        · rintro ⟨before, tail, heq, hfound, hfirst⟩
          cases before with
          | nil =>
              rw [List.nil_append] at heq
              rw [← heq] at hfound
              exact (matchesAt_cons_iff.mp hfound).2.symm
          | cons d before =>
              have hnot := hfirst [] (d :: before) rfl (List.cons_ne_nil _ _)
              rw [← heq] at hnot
              exact absurd hmatch (hnot _)
      · have hnone : ∀ other, ¬ MatchesAt (c :: rest) other :=
          fun other hother => hhere (matchesAt_cons_iff.mp hother).1
        rw [if_neg hhere, ih, firstMatch_cons_iff hnone]

theorem matchBoundary_eq_none_iff {text : JsString} :
    matchBoundary text = none ↔ NoMatch text := by
  constructor
  · rintro hnone before rest rfl captured hmatch
    induction before with
    | nil =>
        rw [List.nil_append,
          matchBoundary_eq_some_iff.mpr (firstMatch_of_matchesAt hmatch)] at hnone
        cases hnone
    | cons c before ih =>
        rw [List.cons_append, matchBoundary_cons] at hnone
        split at hnone
        · cases hnone
        · exact ih hnone
  · intro hnone
    rw [Option.eq_none_iff_forall_ne_some]
    intro captured hfound
    obtain ⟨before, rest, heq, hmatch, -⟩ := matchBoundary_eq_some_iff.mp hfound
    exact hnone before rest heq captured hmatch

/-- A part of a form. -/
structure NamedPart where
  name : JsString
  type : Option JsString
  data : Bytes

def NamedPart.filePart (part : NamedPart) : FilePart := ⟨some part.name, part.type, part.data⟩

/-- The contents of parts by their names. -/
def contents (library : HttpLibrary) (parts : List NamedPart) : List (JsString × JsString) :=
  parts.map fun part => (part.name, asJsonSafeString library part.data part.type)

/-- The files that are reported for a form are its parts, whatever request it comes with. -/
def ReportsFiles (header : MultipartType) (parts : List NamedPart) : Prop :=
  ∀ (library : HttpLibrary) (body : Bytes) (req : HttpCall),
    req.header (js "content-type") = some header.text →
    library.parseMultipart body header.boundary.value = parts.map NamedPart.filePart →
    Multidict.Groups (contents library parts) (getFiles library body req)

/-- The files for a text that is taken for the boundary, if there is one. -/
theorem getFiles_eq {library : HttpLibrary} {body : Bytes} {req : HttpCall} {text : JsString}
    (hheader : req.header (js "content-type") = some text) :
    getFiles library body req =
      if includes text (js "multipart/form-data") then
        (matchBoundary text).elim .empty fun captured =>
          entriesToMultidict ((library.parseMultipart body captured).map fun part =>
            (part.name.getD [], asJsonSafeString library part.data part.type))
      else .empty := by
  rw [getFiles, hheader, Option.filter_some]
  split_ifs with hincludes
  · cases hboundary : matchBoundary text with
    | none => simp only [hboundary, Option.elim]
    | some captured => simp only [hboundary, Option.elim]
  · rfl

theorem groups_nil : Multidict.Groups [] .empty := by
  constructor
  · intro key
    exact iff_of_false (List.not_mem_nil (a := key)) (List.not_mem_nil (a := key))
  · intro key hkey
    cases hkey

theorem contents_eq_nil_iff {library : HttpLibrary} {parts : List NamedPart} :
    contents library parts = [] ↔ parts = [] := List.map_eq_nil_iff

/-- The object without properties groups nothing. -/
theorem eq_nil_of_groups_empty {entries : List (JsString × JsString)}
    (h : Multidict.Groups entries .empty) : entries = [] := by
  cases entries with
  | nil => rfl
  | cons entry rest =>
      have hmem := (h.1 entry.1).mpr List.mem_cons_self
      cases hmem

theorem groups_contents_iff {library : HttpLibrary} {parts : List NamedPart} :
    Multidict.Groups (contents library parts) (entriesToMultidict (contents library parts)) ↔
      ∀ part ∈ parts, Multidict.IsOrdinary part.name := by
  rw [Multidict.groups_entriesToMultidict_iff, contents, List.map_map, List.forall_mem_map]
  rfl

/-- What the parser gives for parts, by name and content. -/
theorem map_filePart (library : HttpLibrary) (parts : List NamedPart) :
    ((parts.map NamedPart.filePart).map fun part =>
        (part.name.getD [], asJsonSafeString library part.data part.type)) =
      contents library parts := List.map_map

theorem isOrdinary_a : Multidict.IsOrdinary (js "a") := ⟨by decide, by decide +kernel⟩

/-- A parser that finds some parts for a boundary, and others for any other text. -/
def boundaryLibrary (boundary : JsString) (found others : List FilePart) : HttpLibrary :=
  { (default : HttpLibrary) with
    parseMultipart := fun _ text => if text = boundary then found else others }

def formRequest (header : MultipartType) : HttpCall :=
  HttpCall.get (js "/anything") [(js "content-type", .one header.text)]

theorem header_formRequest (header : MultipartType) :
    (formRequest header).header (js "content-type") = some header.text := rfl

/-- The first match in a header captures the boundary, and the names of the parts are ordinary;
or there are no parts, and nothing is captured. -/
def MultipartType.IsRead (header : MultipartType) (parts : List NamedPart) : Prop :=
  (includes header.text (js "multipart/form-data") = true ∧
    FirstMatch header.text header.boundary.value ∧
    ∀ part ∈ parts, Multidict.IsOrdinary part.name) ∨
  (parts = [] ∧
    (includes header.text (js "multipart/form-data") = false ∨ NoMatch header.text))

theorem isRead_of_reportsFiles {header : MultipartType} {parts : List NamedPart} :
    ReportsFiles header parts → header.IsRead parts := by
  intro hreports
  -- A parser that finds something for another text only if there is nothing to be found.
  let other : FilePart := ⟨some (js "a"), none, []⟩
  let library := boundaryLibrary header.boundary.value (parts.map NamedPart.filePart)
    (if parts = [] then [other] else [])
  have hparse : library.parseMultipart [] header.boundary.value =
      parts.map NamedPart.filePart := if_pos rfl
  have hgroups := hreports library [] (formRequest header) (header_formRequest header) hparse
  rw [getFiles_eq (header_formRequest header)] at hgroups
  split_ifs at hgroups with hincludes
  · cases hfound : matchBoundary header.text with
    | none =>
        rw [hfound] at hgroups
        exact .inr ⟨contents_eq_nil_iff.mp (eq_nil_of_groups_empty hgroups),
          .inr (matchBoundary_eq_none_iff.mp hfound)⟩
    | some captured =>
        rw [hfound, Option.elim] at hgroups
        by_cases hsame : captured = header.boundary.value
        · rw [hsame, hparse, map_filePart, groups_contents_iff] at hgroups
          exact .inl ⟨hincludes, matchBoundary_eq_some_iff.mp (hsame ▸ hfound), hgroups⟩
        · have hothers : library.parseMultipart [] captured =
              if parts = [] then [other] else [] := if_neg hsame
          rw [hothers] at hgroups
          exfalso
          by_cases hparts : parts = []
          · rw [if_pos hparts, hparts] at hgroups
            have hone : Multidict.Groups [(js "a", asJsonSafeString library [] none)]
                (entriesToMultidict [(js "a", asJsonSafeString library [] none)]) := by
              rw [Multidict.groups_entriesToMultidict_iff]
              intro key hkey
              rw [List.mem_singleton.mp hkey]
              exact isOrdinary_a
            have hmem := (hgroups.1 (js "a")).mp ((hone.1 (js "a")).mpr List.mem_cons_self)
            cases hmem
          · rw [if_neg hparts] at hgroups
            exact hparts (contents_eq_nil_iff.mp (eq_nil_of_groups_empty hgroups))
  · exact .inr ⟨contents_eq_nil_iff.mp (eq_nil_of_groups_empty hgroups),
      .inl (Bool.eq_false_iff.mpr hincludes)⟩

theorem reportsFiles_of_isRead {header : MultipartType} {parts : List NamedPart} :
    header.IsRead parts → ReportsFiles header parts := by
  rintro (⟨hincludes, hfirst, hnames⟩ | ⟨rfl, hnothing⟩) library body req hheader hparse
  · rw [getFiles_eq hheader, if_pos hincludes, matchBoundary_eq_some_iff.mpr hfirst, Option.elim,
      hparse, map_filePart]
    exact groups_contents_iff.mpr hnames
  · rw [getFiles_eq hheader]
    rcases hnothing with hincludes | hnone
    · rw [if_neg (by rw [hincludes]; exact Bool.false_ne_true)]
      exact groups_nil
    · rw [matchBoundary_eq_none_iff.mpr hnone, Option.elim, ite_self]
      exact groups_nil

/-- The parts are reported exactly if the header is read. -/
theorem reportsFiles_iff (header : MultipartType) (parts : List NamedPart) :
    ReportsFiles header parts ↔ header.IsRead parts :=
  ⟨isRead_of_reportsFiles, reportsFiles_of_isRead⟩

theorem isTokenUnit_range {c : UInt16} (h : isTokenUnit c = true) :
    33 ≤ c.toNat ∧ c.toNat ≤ 126 := by
  have hlisted : (js "!#$%&'*+-.^_|~").all
      (fun d => decide (33 ≤ d.toNat ∧ d.toNat ≤ 126)) = true := by decide
  simp only [isTokenUnit, Bool.or_eq_true, isDigit, isAlpha, decide_eq_true_eq,
    UInt16.le_iff_toNat_le, UInt16.reduceToNat, ← UInt16.toNat_inj] at h
  rcases h with ((hdigit | halpha) | hother) | htick
  · omega
  · omega
  · exact of_decide_eq_true (List.all_eq_true.mp hlisted c (List.contains_iff_mem.mp hother))
  · omega

theorem isWhiteSpace_of_isTokenUnit {c : UInt16} (h : isTokenUnit c = true) :
    isWhiteSpace c = false := by
  have hrange := isTokenUnit_range h
  simp only [isWhiteSpace, Bool.or_eq_false_iff, decide_eq_false_iff_not, UInt16.le_iff_toNat_le,
    UInt16.reduceToNat, ← UInt16.toNat_inj]
  omega

theorem ne_of_isTokenUnit {c d : UInt16} (h : isTokenUnit c = true)
    (hd : isTokenUnit d = false) : c ≠ d := by
  rintro rfl
  rw [h] at hd
  cases hd

theorem isWhiteSpace_of_isBlank {s : JsString} (h : IsBlank s) :
    ∀ c ∈ s, isWhiteSpace c = true := by
  intro c hc
  rcases h c hc with rfl | rfl <;> rfl

theorem notMem_of_isBlank {s : JsString} (h : IsBlank s) : unit ';' ∉ s := by
  intro hmem
  rcases h _ hmem with heq | heq <;> cases heq

/-- Nothing is found in a text without semicolons. -/
theorem firstMatch_append_of_notMem {s rest captured : JsString} (h : unit ';' ∉ s) :
    FirstMatch (s ++ rest) captured ↔ FirstMatch rest captured := by
  induction s with
  | nil => rfl
  | cons c s ih =>
      rw [List.mem_cons, not_or] at h
      rw [List.cons_append, firstMatch_cons_iff, ih h.2]
      exact fun other hother => h.1 (matchesAt_cons_iff.mp hother).1.1.symm

/-- The name of a parameter is what comes before its equals sign. -/
theorem name_eq_of_starts {name value : JsString} (htoken : IsToken name)
    (h : js "boundary=" <+: name ++ unit '=' :: value) : name = js "boundary" := by
  obtain ⟨after, hafter⟩ := h
  have hname : (name ++ unit '=' :: value).takeWhile (fun c => c != unit '=') = name := by
    apply takeWhile_append_stop
    · exact fun c hc => bne_iff_ne.mpr (ne_of_isTokenUnit (htoken.2 c hc) (by decide))
    · intro c hc
      cases hc
      rfl
  have hboundary : (js "boundary=" ++ after).takeWhile (fun c => c != unit '=') =
      js "boundary" := rfl
  rw [← hname, ← hafter, hboundary]

/-- No match starts at the semicolon of another parameter. -/
theorem not_matchesAt_of_ne {gap name value captured : JsString} (hgap : IsBlank gap)
    (htoken : IsToken name) (hname : name ≠ js "boundary") :
    ¬ MatchesAt (unit ';' :: (gap ++ (name ++ unit '=' :: value))) captured := by
  intro hmatch
  obtain ⟨⟨-, hstarts, -⟩, -⟩ := matchesAt_cons_iff.mp hmatch
  rw [dropWhile_append_stop (isWhiteSpace_of_isBlank hgap)] at hstarts
  · exact hname (name_eq_of_starts htoken (startsWith_iff.mp hstarts))
  · intro c hc
    obtain ⟨d, rest, rfl⟩ := List.exists_cons_of_ne_nil htoken.1
    cases hc
    exact isWhiteSpace_of_isTokenUnit (htoken.2 _ List.mem_cons_self)

/-- A header in the usual spelling: small letters, no empty parameters, and no semicolon in the
values before the boundary. -/
structure MultipartType.IsPlain (header : MultipartType) : Prop where
  media : header.media = js "multipart/form-data"
  name : header.boundary.name = js "boundary"
  lead : ∀ p ∈ header.before, IsBlank p.lead
  boundary_lead : IsBlank header.boundary.lead
  written : ∀ p ∈ header.before, unit ';' ∉ p.written

/-- What follows the value of the boundary in a header. -/
def MultipartType.rest (header : MultipartType) : JsString :=
  header.after.flatMap Parameter.text ++ header.trail

theorem firstMatch_parameter {p : Parameter} (hlead : IsBlank p.lead)
    (hname : p.name ≠ js "boundary") (hwritten : unit ';' ∉ p.written) {rest captured : JsString} :
    FirstMatch (p.text ++ rest) captured ↔ FirstMatch rest captured := by
  have hsemicolon : unit ';' ∉ p.gap ++ (p.name ++ unit '=' :: p.written) := by
    simp only [List.mem_append, List.mem_cons, not_or]
    refine ⟨notMem_of_isBlank p.gap_blank, fun hmem => ?_, by decide, hwritten⟩
    exact ne_of_isTokenUnit (p.name_token.2 _ hmem) (by decide) rfl
  rw [Parameter.text, List.append_assoc, firstMatch_append_of_notMem (notMem_of_isBlank hlead),
    List.cons_append, firstMatch_cons_iff, firstMatch_append_of_notMem hsemicolon]
  intro other
  rw [List.append_assoc, List.append_assoc, List.cons_append]
  exact not_matchesAt_of_ne p.gap_blank p.name_token hname

theorem firstMatch_parameters {before : List Parameter} {rest captured : JsString}
    (h : ∀ p ∈ before, IsBlank p.lead ∧ p.name ≠ js "boundary" ∧ unit ';' ∉ p.written) :
    FirstMatch (before.flatMap Parameter.text ++ rest) captured ↔ FirstMatch rest captured := by
  induction before with
  | nil => rfl
  | cons p before ih =>
      obtain ⟨hlead, hname, hwritten⟩ := h p List.mem_cons_self
      rw [List.flatMap_cons, List.append_assoc, firstMatch_parameter hlead hname hwritten,
        ih fun q hq => h q (List.mem_cons_of_mem p hq)]

section

variable {header : MultipartType}

theorem text_of_isPlain (h : header.IsPlain) :
    header.text = js "multipart/form-data" ++ (header.before.flatMap Parameter.text ++
      (header.boundary.lead ++ unit ';' :: (header.boundary.gap ++
        (js "boundary=" ++ (header.boundary.written ++ header.rest))))) := by
  have hname : js "boundary=" = header.boundary.name ++ [unit '='] := by
    rw [h.name]
    rfl
  rw [hname, MultipartType.text, MultipartType.rest, h.media, List.flatMap_append,
    List.flatMap_cons, Parameter.text]
  simp only [List.append_assoc, List.cons_append, List.nil_append]

theorem bare_or_quoted {written value : JsString} (h : ValueText written value) :
    (written = value ∧ IsToken value) ∨ ∃ content, written = 34 :: content := by
  cases h with
  | bare token => exact .inl ⟨rfl, token⟩
  | quoted content => exact .inr ⟨_, rfl⟩

/-- A value as it is written is not empty, and does not start with white space. -/
theorem exists_written (p : Parameter) :
    ∃ c rest, p.written = c :: rest ∧ isWhiteSpace c = false := by
  rcases bare_or_quoted p.valueText with ⟨hwritten, htoken⟩ | ⟨content, hwritten⟩
  · obtain ⟨c, rest, hvalue⟩ := List.exists_cons_of_ne_nil htoken.1
    refine ⟨c, rest, hwritten.trans hvalue, isWhiteSpace_of_isTokenUnit (htoken.2 c ?_)⟩
    rw [hvalue]
    exact List.mem_cons_self
  · exact ⟨34, content, hwritten, rfl⟩

/-- The search takes all of a plain header from the value of the boundary to the next white
space. -/
theorem firstMatch_iff_of_isPlain (h : header.IsPlain) {captured : JsString} :
    FirstMatch header.text captured ↔
      captured = (header.boundary.written ++ header.rest).takeWhile fun c => !isWhiteSpace c := by
  have hothers : ∀ p ∈ header.before,
      IsBlank p.lead ∧ p.name ≠ js "boundary" ∧ unit ';' ∉ p.written := by
    intro p hp
    refine ⟨h.lead p hp, fun hname => ?_, h.written p hp⟩
    apply header.others p (List.mem_append_left _ hp)
    rw [hname]
    rfl
  obtain ⟨c, written, hwritten, hspace⟩ := exists_written header.boundary
  have hdrop : (header.boundary.gap ++ (js "boundary=" ++
      (header.boundary.written ++ header.rest))).dropWhile isWhiteSpace =
      js "boundary=" ++ (header.boundary.written ++ header.rest) :=
    dropWhile_append_stop (isWhiteSpace_of_isBlank header.boundary.gap_blank)
      fun d hd => by cases hd; rfl
  have hgroup : boundaryGroup (header.boundary.gap ++ (js "boundary=" ++
      (header.boundary.written ++ header.rest))) =
      (header.boundary.written ++ header.rest).takeWhile fun c => !isWhiteSpace c := by
    rw [boundaryGroup, hdrop, List.drop_left]
  have hgroup_ne : boundaryGroup (header.boundary.gap ++ (js "boundary=" ++
      (header.boundary.written ++ header.rest))) ≠ [] := by
    rw [hgroup, hwritten, List.cons_append, List.takeWhile_cons, hspace]
    exact List.cons_ne_nil _ _
  have hmatch : MatchesAt (unit ';' :: (header.boundary.gap ++ (js "boundary=" ++
      (header.boundary.written ++ header.rest)))) (boundaryGroup (header.boundary.gap ++
        (js "boundary=" ++ (header.boundary.written ++ header.rest)))) :=
    matchesAt_cons_iff.mpr
      ⟨⟨rfl, by rw [hdrop]; exact startsWith_iff.mpr (List.prefix_append _ _), hgroup_ne⟩, rfl⟩
  have hfound := matchBoundary_eq_some_iff.mpr (firstMatch_of_matchesAt hmatch)
  rw [text_of_isPlain h, firstMatch_append_of_notMem (by decide), firstMatch_parameters hothers,
    firstMatch_append_of_notMem (notMem_of_isBlank h.boundary_lead), ← matchBoundary_eq_some_iff,
    hfound, Option.some.injEq, hgroup]
  exact eq_comm

/-- A plain header is read exactly if the boundary is bare, with white space or nothing behind
it. -/
theorem firstMatch_boundary_iff_of_isPlain (h : header.IsPlain) :
    FirstMatch header.text header.boundary.value ↔
      header.boundary.written = header.boundary.value ∧
        ∀ c ∈ header.rest.head?, isWhiteSpace c = true := by
  rw [firstMatch_iff_of_isPlain h]
  rcases bare_or_quoted header.boundary.valueText with ⟨hwritten, htoken⟩ | ⟨content, hwritten⟩
  · have hunits : ∀ c ∈ header.boundary.value, (!isWhiteSpace c) = true := by
      intro c hc
      rw [isWhiteSpace_of_isTokenUnit (htoken.2 c hc)]
      rfl
    rw [and_iff_right hwritten, hwritten, List.takeWhile_append_of_pos hunits,
      List.self_eq_append_right]
    cases header.rest with
    | nil => simp
    | cons c rest => cases hspace : isWhiteSpace c <;> simp [hspace]
  · -- No boundary starts with a quote.
    have hquote : ∀ rest, header.boundary.value ≠ 34 :: rest := by
      intro rest heq
      have hunit := header.valid.units 34 (by rw [heq]; exact List.mem_cons_self)
      exact absurd hunit (by decide)
    refine iff_of_false (fun heq => ?_) fun hand => ?_
    · rw [hwritten, List.cons_append, List.takeWhile_cons] at heq
      exact hquote _ heq
    · exact hquote content (hand.1.symm.trans hwritten)

theorem includes_of_isPlain (h : header.IsPlain) :
    includes header.text (js "multipart/form-data") = true := by
  rw [text_of_isPlain h]
  exact includes_iff.mpr (List.prefix_append _ _).isInfix

/-- For some parts and a plain header this is all, apart from the names of the parts. -/
theorem reportsFiles_iff_of_isPlain (h : header.IsPlain) {parts : List NamedPart}
    (hparts : parts ≠ []) :
    ReportsFiles header parts ↔
      (header.boundary.written = header.boundary.value ∧
        ∀ c ∈ header.rest.head?, isWhiteSpace c = true) ∧
      ∀ part ∈ parts, Multidict.IsOrdinary part.name := by
  rw [← firstMatch_boundary_iff_of_isPlain h]
  constructor
  · intro hreports
    rcases isRead_of_reportsFiles hreports with ⟨-, hfirst, hnames⟩ | ⟨hnil, -⟩
    · exact ⟨hfirst, hnames⟩
    · exact absurd hnil hparts
  · rintro ⟨hfirst, hnames⟩
    exact reportsFiles_of_isRead (.inl ⟨includes_of_isPlain h, hfirst, hnames⟩)

end

/-- `multipart/form-data; boundary="abc"` -/
def quotedHeader : MultipartType where
  media := js "multipart/form-data"
  before := []
  boundary :=
    { lead := []
      gap := [32]
      name := js "boundary"
      written := 34 :: (js "abc" ++ [34])
      value := js "abc"
      lead_empty := fun _ hc => absurd hc List.not_mem_nil
      gap_blank := fun _ hc => .inr (List.mem_singleton.mp hc)
      name_token := ⟨by decide, List.all_eq_true.mp (by decide)⟩
      valueText := .quoted (.plain rfl (by decide) (by decide) (.plain rfl (by decide) (by decide)
        (.plain rfl (by decide) (by decide) .nil))) }
  after := []
  trail := []
  media_eq := by decide
  boundary_name := by decide
  others := fun _ hp => absurd hp List.not_mem_nil
  valid := ⟨by decide, by decide, List.all_eq_true.mp (by decide), by decide⟩
  trail_empty := fun _ hc => absurd hc List.not_mem_nil

/-- The quotes are taken for a part of the boundary. -/
theorem not_reportsFiles_quotedHeader :
    ¬ ReportsFiles quotedHeader [⟨js "file", some (js "text/plain"), [104, 105]⟩] := by
  intro hreports
  rcases isRead_of_reportsFiles hreports with ⟨-, hfirst, -⟩ | ⟨hnil, -⟩
  · have hfound := matchBoundary_eq_some_iff.mpr hfirst
    exact absurd hfound (by decide +kernel)
  · cases hnil

end TestServer
