import TestServer.Endpoints.RequestHandlers

/-!
# Revalidation with the server's own tag

A tag of `/etag/{etag}` is emitted as it stands in the target, and read back through a split at
commas, a trim and the removal of quotes. It is read back as it was if it has no comma, no quotes
around it and no white space at its ends.
-/

namespace TestServer.Endpoints

open Js

namespace EtagRevalidation

/-- The tag that is emitted for a target. -/
def etagOf (url : JsString) : JsString := (targetPath url).drop (js "/etag/").length

/-- A text in double quotes. -/
def quoted (tag : JsString) : JsString := unit '"' :: (tag ++ [unit '"'])

/-- A header whose list of tags has the given one, bare or in quotes. -/
def Presents (tag header : JsString) : Prop :=
  ∃ items lead shown trail, header = join (js ",") items ∧ lead ++ shown ++ trail ∈ items ∧
    (shown = tag ∨ shown = quoted tag) ∧
      lead.all isWhiteSpace = true ∧ trail.all isWhiteSpace = true

/-- Every header that presents the tag of the target gets a 304 from `if-none-match`, and no 412
from `if-match`. -/
structure Revalidates (url : JsString) : Prop where
  notModified : ∀ (library : HttpLibrary) (req : HttpCall) options header, req.url = url →
    Presents (etagOf url) header → req.header (js "if-none-match") = some header →
      etag.handle library req options =
        .done (respondEmpty 304 [(js "etag", .one (etagOf url))])
  matched : ∀ (library : HttpLibrary) (req : HttpCall) options header, req.url = url →
    Presents (etagOf url) header → req.header (js "if-match") = some header →
      etag.handle library req options ≠
        .done (respondEmpty 412 [(js "etag", .one (etagOf url))])

/-- The tag reads as itself. The other texts that pass do so because a piece of them reads as
`*`. -/
def ReadsBack (tag : JsString) : Prop :=
  tag ≠ [] ∧
    (unit ',' ∉ tag → tag.all (fun c => !isLineTerminator c) = true ∧
      (unquoted (trimmed tag) = tag ∨ unquoted (trimmed tag) = js "*")) ∧
    (unit ',' ∈ tag → js "*" ∈ parseEtagList tag ∧ js "*" ∈ parseEtagList (quoted tag))

theorem notMem_of_all_isWhiteSpace {s : JsString} (h : s.all isWhiteSpace = true) :
    unit ',' ∉ s := by
  intro hmem
  exact absurd (List.all_eq_true.mp h _ hmem) (by decide)

/-- White space at the ends of a text does not count. -/
theorem trimmed_append {lead s trail : JsString} (hlead : lead.all isWhiteSpace = true)
    (htrail : trail.all isWhiteSpace = true) : trimmed (lead ++ s ++ trail) = trimmed s := by
  have hlead' : ∀ c ∈ lead, isWhiteSpace c = true := List.all_eq_true.mp hlead
  have htrail' : ∀ c ∈ trail.reverse, isWhiteSpace c = true := by
    intro c hc
    exact List.all_eq_true.mp htrail c (List.mem_reverse.mp hc)
  rw [trimmed, trimmed, List.append_assoc, List.dropWhile_append_of_pos hlead',
    List.dropWhile_append]
  split_ifs with hempty
  · rw [List.isEmpty_iff.mp hempty, List.dropWhile_eq_nil_iff.mpr (List.all_eq_true.mp htrail)]
  · rw [List.reverse_append, List.dropWhile_append_of_pos htrail']

theorem trimmed_sublist (s : JsString) : List.Sublist (trimmed s) s := by
  rw [trimmed]
  have hend := ((s.dropWhile isWhiteSpace).reverse.dropWhile_suffix isWhiteSpace).sublist.reverse
  rw [List.reverse_reverse] at hend
  exact hend.trans (List.dropWhile_suffix isWhiteSpace).sublist

theorem unquoted_sublist (s : JsString) : List.Sublist (unquoted s) s := by
  rw [unquoted.eq_def]
  split
  · split_ifs
    · exact (List.dropLast_sublist _).trans (List.sublist_cons_self _ _)
    · exact List.Sublist.refl _
  · exact List.Sublist.refl _

theorem unquoted_quoted {tag : JsString} (h : tag.all (fun c => !isLineTerminator c) = true) :
    unquoted (quoted tag) = tag := by
  change (if (tag ++ [34]).getLast? = some 34 ∧
    (tag ++ [34]).dropLast.all (fun c => !isLineTerminator c) = true then (tag ++ [34]).dropLast
    else _) = tag
  rw [List.dropLast_concat, if_pos ⟨List.getLast?_concat, h⟩]

/-- The quotes around a line terminator stay. -/
theorem unquoted_quoted_of_not {tag : JsString}
    (h : ¬ tag.all (fun c => !isLineTerminator c) = true) : unquoted (quoted tag) = quoted tag := by
  change (if (tag ++ [34]).getLast? = some 34 ∧
    (tag ++ [34]).dropLast.all (fun c => !isLineTerminator c) = true then _ else _) = _
  rw [List.dropLast_concat, if_neg fun hall => h hall.2]

theorem trimmed_quoted (tag : JsString) : trimmed (quoted tag) = quoted tag := by
  have hquote : ¬ isWhiteSpace (unit '"') = true := by decide
  rw [trimmed, quoted, List.dropWhile_cons_of_neg hquote, List.reverse_cons, List.reverse_append,
    List.reverse_singleton, List.singleton_append, List.cons_append,
    List.dropWhile_cons_of_neg hquote]
  simp

theorem parseEtagList_append (a b : JsString) :
    parseEtagList (a ++ unit ',' :: b) = parseEtagList a ++ parseEtagList b := by
  rw [parseEtagList]
  change (split (a ++ unit ',' :: b) [unit ',']).map _ = _
  rw [split_append_cons_append, List.map_append]
  rfl

theorem parseEtagList_of_notMem {s : JsString} (h : unit ',' ∉ s) :
    parseEtagList s = [unquoted (trimmed s)] := by
  rw [parseEtagList]
  change (split s [unit ',']).map _ = _
  rw [split_uncut (uncut_of_notMem h)]
  rfl

/-- No tag of a list has a comma. -/
theorem notMem_of_mem_parseEtagList {s tag : JsString} (h : tag ∈ parseEtagList s) :
    unit ',' ∉ tag := by
  obtain ⟨piece, hpiece, rfl⟩ := List.mem_map.mp h
  intro hcomma
  apply notMem_of_mem_split hpiece
  exact ((unquoted_sublist _).trans (trimmed_sublist piece)).subset hcomma

/-- White space at the ends of a list does not count. -/
theorem parseEtagList_spaced {lead trail : JsString} (hlead : lead.all isWhiteSpace = true)
    (htrail : trail.all isWhiteSpace = true) (s : JsString) :
    parseEtagList (lead ++ s ++ trail) = parseEtagList s := by
  by_cases hcomma : unit ',' ∈ s
  · obtain ⟨p, rest, rfl, hp⟩ := List.eq_append_cons_of_mem hcomma
    have hrest := @parseEtagList_spaced [] trail rfl htrail rest
    have hfirst : parseEtagList (lead ++ p) = parseEtagList p := by
      have hmem : unit ',' ∉ lead ++ p := by
        rw [List.mem_append, not_or]
        exact ⟨notMem_of_all_isWhiteSpace hlead, hp⟩
      have htrim := @trimmed_append lead p [] hlead rfl
      rw [List.append_nil] at htrim
      rw [parseEtagList_of_notMem hmem, parseEtagList_of_notMem hp, htrim]
    rw [List.nil_append] at hrest
    rw [List.append_assoc, List.append_assoc, List.cons_append, ← List.append_assoc,
      parseEtagList_append, parseEtagList_append, hrest, hfirst]
  · have hmem : unit ',' ∉ lead ++ s ++ trail := by
      rw [List.mem_append, List.mem_append, not_or, not_or]
      exact ⟨⟨notMem_of_all_isWhiteSpace hlead, hcomma⟩, notMem_of_all_isWhiteSpace htrail⟩
    rw [parseEtagList_of_notMem hmem, parseEtagList_of_notMem hcomma,
      trimmed_append hlead htrail]
termination_by s.length

/-- The tags of a list are those of its items. -/
theorem parseEtagList_subset_join {items : List JsString} {item : JsString} (h : item ∈ items) :
    parseEtagList item ⊆ parseEtagList (join (js ",") items) := by
  induction items with
  | nil => cases h
  | cons first rest ih =>
      by_cases hrest : rest = []
      · subst hrest
        rw [List.mem_singleton.mp h]
        exact List.Subset.refl _
      · have hjoin : join (js ",") (first :: rest) =
            first ++ unit ',' :: join (js ",") rest := by
          rw [join_cons _ first hrest, List.append_assoc]
          rfl
        rw [hjoin, parseEtagList_append]
        rcases List.mem_cons.mp h with rfl | hmem
        · exact List.subset_append_left _ _
        · exact List.Subset.trans (ih hmem) (List.subset_append_right _ _)

variable {tag header url : JsString}

theorem notMem_quoted (h : unit ',' ∉ tag) : unit ',' ∉ quoted tag := by
  rw [quoted, List.mem_cons, List.mem_append, List.mem_singleton]
  rintro (hquote | hmem | hquote)
  · exact absurd hquote (by decide)
  · exact h hmem
  · exact absurd hquote (by decide)

theorem listsEtag_iff : listsEtag header tag = true ↔
    tag ∈ parseEtagList header ∨ js "*" ∈ parseEtagList header := by
  rw [listsEtag, Bool.or_eq_true, List.contains_iff_mem, List.contains_iff_mem]

/-- The tag is among those of what is shown, or `*` is. -/
theorem ReadsBack.listsEtag_shown (h : ReadsBack tag) {shown : JsString}
    (hshown : shown = tag ∨ shown = quoted tag) : listsEtag shown tag = true := by
  obtain ⟨-, hplain, hcommas⟩ := h
  rw [listsEtag_iff]
  by_cases hcomma : unit ',' ∈ tag
  · rcases hshown with rfl | rfl
    · exact .inr (hcommas hcomma).1
    · exact .inr (hcommas hcomma).2
  · obtain ⟨hlines, hread⟩ := hplain hcomma
    rcases hshown with rfl | rfl
    · rw [parseEtagList_of_notMem hcomma, List.mem_singleton, List.mem_singleton]
      exact hread.imp Eq.symm Eq.symm
    · rw [parseEtagList_of_notMem (notMem_quoted hcomma), trimmed_quoted, unquoted_quoted hlines]
      exact .inl List.mem_cons_self

theorem ReadsBack.listsEtag_of_presents (h : ReadsBack tag) (hpresents : Presents tag header) :
    listsEtag header tag = true := by
  obtain ⟨items, lead, shown, trail, rfl, hitem, hshown, hlead, htrail⟩ := hpresents
  have hsubset := parseEtagList_subset_join hitem
  rw [parseEtagList_spaced hlead htrail] at hsubset
  rw [listsEtag_iff]
  exact (listsEtag_iff.mp (h.listsEtag_shown hshown)).imp (@hsubset _) (@hsubset _)

/-- A header that presents a tag is not empty. -/
theorem Presents.ne_nil (h : Presents tag header) (htag : tag ≠ []) : header ≠ [] := by
  obtain ⟨items, lead, shown, trail, rfl, hitem, hshown, -, -⟩ := h
  have hne : shown ≠ [] := by
    rcases hshown with rfl | rfl
    · exact htag
    · exact List.cons_ne_nil _ _
  obtain ⟨c, hc⟩ := List.exists_mem_of_ne_nil shown hne
  apply List.ne_nil_of_mem
  have hmem : c ∈ lead ++ shown ++ trail := List.mem_append_left _ (List.mem_append_right _ hc)
  exact mem_join_of_mem hitem hmem

theorem truthyHeader_of_ne_nil {req : HttpCall} {name : JsString} (h : req.header name = some header)
    (hne : header ≠ []) : req.truthyHeader name = some header := by
  rw [HttpCall.truthyHeader, h, Option.filter_some, if_pos (decide_eq_true hne)]

/-- The details of a request are no empty response. -/
theorem details_ne_respondEmpty (data : Except Thrown RequestDetails) (headers : HeaderList)
    (statusCode : Nat) (others : HeaderList) :
    Handled.of (do
      let data ← data
      return respondWith 200 headers (.details .document data)) ≠
        .done (respondEmpty statusCode others) := by
  intro heq
  cases data with
  | error e => cases congrArg Handled.thrown heq
  | ok data => cases congrArg (fun handled => handled.actions.length) heq

theorem respondEmpty_injective {m n : Nat} {headers others : HeaderList}
    (h : Handled.done (respondEmpty m headers) = .done (respondEmpty n others)) : m = n := by
  have hactions : respondEmpty m headers = respondEmpty n others := congrArg Handled.actions h
  exact (writeHead_inj (List.cons.inj hactions).1).1

/-- A 304 comes from a header that lists the tag. -/
theorem listsEtag_of_handle_eq {library : HttpLibrary} {req : HttpCall} {options : HandleOptions}
    (h : etag.handle library req options =
      .done (respondEmpty 304 [(js "etag", .one (etagOf req.url))])) :
    ∃ header, req.truthyHeader (js "if-none-match") = some header ∧
      listsEtag header (etagOf req.url) = true := by
  rw [etag.handle] at h
  split_ifs at h with hnone hmatch
  · exact (Option.any_eq_true _ _).mp hnone
  · exact absurd (respondEmpty_injective h) (by decide)
  · exact absurd h (details_ne_respondEmpty _ _ _ _)

theorem revalidates_of_readsBack (h : ReadsBack (etagOf url)) : Revalidates url where
  notModified library req options header hurl hpresents hheader := by
    subst hurl
    rw [etag.handle]
    simp only [truthyHeader_of_ne_nil hheader (hpresents.ne_nil h.1), Option.any_some]
    exact if_pos (h.listsEtag_of_presents hpresents)
  matched library req options header hurl hpresents hheader := by
    subst hurl
    have hlists : listsEtag header (etagOf req.url) = true := h.listsEtag_of_presents hpresents
    rw [etag.handle]
    simp only [truthyHeader_of_ne_nil hheader (hpresents.ne_nil h.1), Option.any_some]
    split_ifs with hnone hnot
    · exact fun heq => absurd (respondEmpty_injective heq) (by decide)
    · rw [etagOf] at hlists
      rw [hlists] at hnot
      cases hnot
    · exact details_ne_respondEmpty _ _ _ _

/-- With a header `if-none-match` alone, a 304 means that the header lists the tag. -/
theorem listsEtag_of_notModified (h : Revalidates url) (hpresents : Presents (etagOf url) header) :
    header ≠ [] ∧ listsEtag header (etagOf url) = true := by
  have hhandle := h.notModified default (.get url [(js "if-none-match", .one header)]) ⟨[], []⟩
    header rfl hpresents rfl
  obtain ⟨sent, hsent, hlists⟩ := listsEtag_of_handle_eq hhandle
  obtain ⟨hsame, hne⟩ := Option.filter_eq_some_iff.mp hsent
  cases hsame
  exact ⟨of_decide_eq_true hne, hlists⟩

theorem presents_self (tag : JsString) : Presents tag tag :=
  ⟨[tag], [], tag, [], rfl, by simp, .inl rfl, rfl, rfl⟩

theorem presents_quoted (tag : JsString) : Presents tag (quoted tag) :=
  ⟨[quoted tag], [], quoted tag, [], rfl, by simp, .inr rfl, rfl, rfl⟩

theorem readsBack_of_revalidates (h : Revalidates url) : ReadsBack (etagOf url) := by
  obtain ⟨hne, hself⟩ := listsEtag_of_notModified h (presents_self _)
  obtain ⟨-, hquoted⟩ := listsEtag_of_notModified h (presents_quoted _)
  rw [listsEtag_iff] at hself hquoted
  refine ⟨hne, ?_, ?_⟩
  · intro hcomma
    have hlines : (etagOf url).all (fun c => !isLineTerminator c) = true := by
      by_contra hlines
      rw [parseEtagList_of_notMem (notMem_quoted hcomma), trimmed_quoted,
        unquoted_quoted_of_not hlines, List.mem_singleton, List.mem_singleton] at hquoted
      rcases hquoted with htag | hstar
      · have hlength := congrArg List.length htag
        simp only [quoted, List.length_cons, List.length_append] at hlength
        omega
      · exact absurd (List.cons.inj hstar).1 (by decide)
    rw [parseEtagList_of_notMem hcomma, List.mem_singleton, List.mem_singleton] at hself
    exact ⟨hlines, hself.imp Eq.symm Eq.symm⟩
  · intro hcomma
    constructor
    · exact hself.resolve_left fun hmem => notMem_of_mem_parseEtagList hmem hcomma
    · exact hquoted.resolve_left fun hmem => notMem_of_mem_parseEtagList hmem hcomma

/-- The tag of a target revalidates if and only if it reads back. -/
theorem revalidates_iff (url : JsString) : Revalidates url ↔ ReadsBack (etagOf url) :=
  ⟨readsBack_of_revalidates, revalidates_of_readsBack⟩

/-- A tag with a comma. -/
theorem not_revalidates_comma :
    etag.matchPath (js "/etag/a,b") none = .ok true ∧ ¬ Revalidates (js "/etag/a,b") := by
  refine ⟨by decide +kernel, fun h => ?_⟩
  have hhandle := h.notModified default
    (.get (js "/etag/a,b") [(js "if-none-match", .one (js "a,b"))]) ⟨[], []⟩ (js "a,b") rfl
    ⟨[js "a,b"], [], js "a,b", [], rfl, List.mem_cons_self, .inl rfl, rfl, rfl⟩ rfl
  cases congrArg Handled.thrown hhandle

end EtagRevalidation

end TestServer.Endpoints
