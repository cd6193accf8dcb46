import TestServer.HttpAnswers
import TestServer.Js.PathSegments

/-!
# Targets with encoded parts

A request is handled with the path name and the query of its parsed URL.

## Implementation notes

What `new URL` makes of a path that it has nothing to encode in, and of the encoded pairs of a
query, is a hypothesis on the parser.
-/

namespace TestServer

open Js Endpoints

/-- A segment with nothing to encode. -/
def PlainSegment (segment : JsString) : Prop :=
  ∀ c ∈ segment, isUnreserved c = true ∨ c = unit '%'

instance (segment : JsString) : Decidable (PlainSegment segment) := List.decidableBAll _ _

def segmentPath (segments : List JsString) : JsString := join (js "/") ([] :: segments)

/-- A path of such segments that does not look like a host. -/
def PlainPath (path : JsString) : Prop :=
  ∃ first rest, path = segmentPath (first :: rest) ∧ first ≠ [] ∧
    ∀ segment ∈ first :: rest, PlainSegment segment

/-- An encoded pair of a query. -/
def pairText (pair : Text × Text) : JsString := pair.1.encoded ++ unit '=' :: pair.2.encoded

def queryText : List (Text × Text) → JsString
  | [] => []
  | pair :: pairs => unit '?' :: join (js "&") ((pair :: pairs).map pairText)

/-- The query that the pairs are read as. -/
def decodedPairs (pairs : List (Text × Text)) : Query :=
  pairs.map fun pair => (pair.1.units, pair.2.units)

/-- `new URL` as it is documented: segments of dots are resolved, and the query is decoded. -/
structure ReadsTargets (library : HttpLibrary) : Prop where
  parses : ∀ path pairs, PlainPath path →
    (library.parseUrl (path ++ queryText pairs) (js "http://t")).isSome = true
  read : ∀ req path pairs url, PlainPath path → req.url = path ++ queryText pairs →
    routedUrl library req = some url →
      url.pathname = resolvePath path ∧ url.searchParams = decodedPairs pairs

/-- What an endpoint does with a request, if it takes the path of its URL. -/
def handledBy (library : HttpLibrary) (endpoint : HandledEndpoint) (req : HttpCall)
    (hostnamePrefix : Option JsString) : Option Handled :=
  (routedUrl library req).bind fun url =>
    if (endpoint.matchPath url.pathname hostnamePrefix).toOption = some true then
      some (endpoint.handle library req ⟨url.pathname, url.searchParams⟩)
    else none

theorem notMem_of_plainSegment {segment : JsString} (h : PlainSegment segment) {x : UInt16}
    (hreserved : isUnreserved x = false) (hpercent : x ≠ unit '%') : x ∉ segment := by
  intro hmem
  rcases h x hmem with hunreserved | heq
  · rw [hreserved] at hunreserved
    cases hunreserved
  · exact hpercent heq

theorem plainSegment_encoded (t : Text) : PlainSegment t.encoded := fun _ hc =>
  mem_of_encode t.encodeURIComponent_units hc

theorem split_segmentPath {segments : List JsString}
    (h : ∀ segment ∈ segments, PlainSegment segment) :
    split (segmentPath segments) (js "/") = [] :: segments := by
  apply split_join (js_ne_nil (by decide)) (List.cons_ne_nil _ _)
  refine List.forall_mem_cons.mpr ⟨uncut_of_notMem List.not_mem_nil, fun segment hsegment => ?_⟩
  exact uncut_of_notMem (notMem_of_plainSegment (h segment hsegment) (by decide) (by decide))

theorem split_resolvePath_segmentPath {segments : List JsString}
    (h : ∀ segment ∈ segments, PlainSegment segment) :
    split (resolvePath (segmentPath segments)) (js "/") = [] :: resolveSegments [] segments := by
  rw [split_resolvePath, split_segmentPath h, List.tail_cons]

/-- There is no other unit in such a path. -/
theorem notMem_of_plainPath {path : JsString} (h : PlainPath path) {x : UInt16}
    (hreserved : isUnreserved x = false) (hpercent : x ≠ unit '%') (hslash : x ≠ unit '/') :
    x ∉ path := by
  obtain ⟨first, rest, rfl, -, hsegments⟩ := h
  rw [segmentPath, join_cons_eq_flatMap, List.nil_append, List.mem_flatMap]
  rintro ⟨segment, hsegment, hmem⟩
  rcases List.mem_append.mp hmem with hlead | hunit
  · exact hslash (List.mem_singleton.mp hlead)
  · exact notMem_of_plainSegment (hsegments segment hsegment) hreserved hpercent hunit

section

variable {library : HttpLibrary} {req : HttpCall} {path : JsString} {pairs : List (Text × Text)}

/-- A request for the host `t` in plain HTTP. -/
def hostCall (url : JsString) (headers : HeaderList) : HttpCall :=
  .get url ((js "host", .one (js "t")) :: headers)

theorem isSome_routedUrl (hreads : ReadsTargets library) (hpath : PlainPath path)
    (pairs : List (Text × Text)) {headers : HeaderList}
    (hhost : (hostCall (path ++ queryText pairs) headers).request.host = some (js "t")) :
    (routedUrl library (hostCall (path ++ queryText pairs) headers)).isSome = true := by
  rw [routedUrl, hhost]
  exact hreads.parses path pairs hpath

theorem isSome_routedUrl_path (hreads : ReadsTargets library) (hpath : PlainPath path)
    {headers : HeaderList} (hhost : (hostCall path headers).request.host = some (js "t")) :
    (routedUrl library (hostCall path headers)).isSome = true := by
  have hparsed := @isSome_routedUrl library path hreads hpath [] headers
  rw [queryText, List.append_nil] at hparsed
  exact hparsed hhost

theorem handledBy_eq (hreads : ReadsTargets library) (hpath : PlainPath path)
    (hurl : req.url = path ++ queryText pairs) (hparsed : (routedUrl library req).isSome = true)
    (endpoint : HandledEndpoint) (hostnamePrefix : Option JsString) :
    handledBy library endpoint req hostnamePrefix =
      if (endpoint.matchPath (resolvePath path) hostnamePrefix).toOption = some true then
        some (endpoint.handle library req ⟨resolvePath path, decodedPairs pairs⟩)
      else none := by
  obtain ⟨url, hsome⟩ := Option.isSome_iff_exists.mp hparsed
  obtain ⟨hpathname, hquery⟩ := hreads.read req path pairs url hpath hurl hsome
  rw [handledBy, hsome, Option.bind_some, hpathname, hquery]

end

/-- A pair as it is read. -/
def readPair (text : JsString) : JsString × JsString :=
  let decoded (part : JsString) := (decodeURIComponent part).getD part
  (decoded (text.takeWhile fun c => decide (c ≠ unit '=')),
    decoded ((text.dropWhile fun c => decide (c ≠ unit '=')).drop 1))

def readPairs (text : JsString) : Query :=
  if text = [] then [] else (split text (js "&")).map readPair

/-- A parser that agrees with `new URL` on such targets below a plain host. -/
def plainTarget (target base : JsString) : RequestUrl where
  hostname := base.drop (js "http://").length
  pathname := resolvePath (target.takeWhile fun c => decide (c ≠ unit '?'))
  searchParams := readPairs ((target.dropWhile fun c => decide (c ≠ unit '?')).drop 1)
  href := base ++ target

/-- A text is cut at the first of a unit. -/
theorem span_of_notMem {x : UInt16} {s : JsString} (h : x ∉ s) (rest : JsString) :
    (s ++ x :: rest).takeWhile (fun c => decide (c ≠ x)) = s ∧
      (s ++ x :: rest).dropWhile (fun c => decide (c ≠ x)) = x :: rest := by
  have hne : ∀ c ∈ s, decide (c ≠ x) = true := by
    intro c hc
    rw [decide_eq_true_eq]
    rintro rfl
    exact h hc
  rw [List.takeWhile_append_of_pos hne, List.dropWhile_append_of_pos hne]
  simp

theorem readPair_pairText (pair : Text × Text) :
    readPair (pairText pair) = (pair.1.units, pair.2.units) := by
  have hequals : unit '=' ∉ pair.1.encoded := pair.1.notMem_encoded (by decide) (by decide)
  obtain ⟨htake, hdrop⟩ := span_of_notMem hequals pair.2.encoded
  rw [readPair, pairText, htake, hdrop, List.drop_one, List.tail_cons]
  simp only [Text.decodeURIComponent_encoded, Option.getD_some]

theorem ampersand_notMem_pairText (pair : Text × Text) : unit '&' ∉ pairText pair := by
  rw [pairText, List.mem_append, List.mem_cons, not_or, not_or]
  exact ⟨pair.1.notMem_encoded (by decide) (by decide), by decide,
    pair.2.notMem_encoded (by decide) (by decide)⟩

theorem readPairs_join (pair : Text × Text) (pairs : List (Text × Text)) :
    readPairs (join (js "&") ((pair :: pairs).map pairText)) = decodedPairs (pair :: pairs) := by
  have hne : join (js "&") ((pair :: pairs).map pairText) ≠ [] := by
    rw [List.map_cons, join_cons_eq_flatMap, pairText, List.append_assoc]
    exact fun h => List.cons_ne_nil _ _ (List.append_eq_nil_iff.mp h).2
  have huncut : ∀ text ∈ (pair :: pairs).map pairText, Uncut (js "&") text := by
    intro text htext
    obtain ⟨other, -, rfl⟩ := List.mem_map.mp htext
    exact uncut_of_notMem (ampersand_notMem_pairText other)
  have hcons : (pair :: pairs).map pairText ≠ [] := List.cons_ne_nil _ _
  rw [readPairs, if_neg hne, split_join (js_ne_nil (by decide)) hcons huncut, List.map_map]
  exact List.map_congr_left fun other _ => readPair_pairText other

/-- The query is cut off a path that has no mark in it. -/
theorem plainTarget_append {path : JsString} (h : unit '?' ∉ path) (pairs : List (Text × Text))
    (base : JsString) :
    (plainTarget (path ++ queryText pairs) base).pathname = resolvePath path ∧
      (plainTarget (path ++ queryText pairs) base).searchParams = decodedPairs pairs := by
  cases pairs with
  | nil =>
      have hne : ∀ c ∈ path, decide (c ≠ unit '?') = true := by
        intro c hc
        rw [decide_eq_true_eq]
        rintro rfl
        exact h hc
      have htake : path.takeWhile (fun c => decide (c ≠ unit '?')) = path :=
        List.takeWhile_eq_self_iff.mpr hne
      have hdrop : path.dropWhile (fun c => decide (c ≠ unit '?')) = [] :=
        List.dropWhile_eq_nil_iff.mpr hne
      simp only [plainTarget, queryText, List.append_nil, htake, hdrop]
      exact ⟨trivial, rfl⟩
  | cons pair pairs =>
      obtain ⟨htake, hdrop⟩ := span_of_notMem h (join (js "&") ((pair :: pairs).map pairText))
      simp only [plainTarget, queryText, htake, hdrop, List.drop_one, List.tail_cons]
      exact ⟨trivial, readPairs_join pair pairs⟩

theorem readsTargets_plainTarget {library : HttpLibrary}
    (h : library.parseUrl = fun target base => some (plainTarget target base)) :
    ReadsTargets library where
  parses path pairs _ := by rw [h]; rfl
  read req path pairs url hpath hurl hsome := by
    have hmark : unit '?' ∉ path := notMem_of_plainPath hpath (by decide) (by decide) (by decide)
    rw [routedUrl, h, hurl] at hsome
    cases hsome
    exact plainTarget_append hmark pairs _

end TestServer
