import TestServer.ChainedRequests
import TestServer.PathParameters

/-!
# Answers to chained requests

Three handlers read their parameter from the whole target instead of the path that their endpoint
has matched. What they answer on the root domain tells what they have read, so a path behind hops
is answered as it is alone only if this reads the same.
-/

namespace TestServer

open Js Library Endpoints

namespace ChainedAnswers

theorem visible_of_all {s : JsString}
    (h : s.all (fun c => decide (0x20 ≤ c ∧ c ≤ 0x7E)) = true) : ∀ c ∈ s, 0x20 ≤ c ∧ c ≤ 0x7E :=
  fun c hc => of_decide_eq_true (List.all_eq_true.mp h c hc)

/-- What is used of Node: the statuses and the values of headers it accepts, and the texts of
numbers. -/
structure NodeAccepts (library : HttpLibrary) : Prop where
  status : ∀ version, library.statusError version (some (.finite (200 : Nat))) = none
  header : ∀ version name value,
    name ∈ [js "Content-Length", js "content-type", js "cache-control", js "etag"] →
      (∀ c ∈ value, 0x20 ≤ c ∧ c ≤ 0x7E) → library.headerError version name (.one value) = none
  numberText_visible : ∀ n : ℤ, ∀ c ∈ library.numberText (toDouble n), 0x20 ≤ c ∧ c ≤ 0x7E
  numberText_injective : ∀ m n : ℤ,
    library.numberText (toDouble m) = library.numberText (toDouble n) → toDouble m = toDouble n
  numberText_ne : ∀ n : ℤ, library.numberText (toDouble n) ≠ js "NaN"

/-- The root domain is a host that the parser reads as it is. -/
def ParsesRootDomain (library : HttpLibrary) (options : HttpHandlerOptions) : Prop :=
  ∀ query, IsQueryText query → ∃ url, library.parseUrl (js "/" ++ query)
    (js "http" ++ js "://" ++ options.rootDomain) = some url ∧ url.hostname = options.rootDomain

section

variable {library : HttpLibrary} {options : HttpHandlerOptions} {hops : List ChainHop}
  {path query : JsString}

theorem NodeAccepts.acceptsLengths (h : NodeAccepts library) : AcceptsLengths library := by
  intro version n
  apply h.header version _ _ List.mem_cons_self
  intro c hc
  have hdigit := isDigit_of_mem_decimal hc
  rw [isDigit, decide_eq_true_eq] at hdigit
  exact ⟨UInt16.le_trans (by decide) hdigit.1, UInt16.le_trans hdigit.2 (by decide)⟩

/-- A request on the root domain. -/
def rootCall (options : HttpHandlerOptions) (url : JsString) : HttpCall :=
  HttpCall.get url [(js "host", .one options.rootDomain)]

theorem sameApartFromTarget_rootCall (url url' : JsString) :
    SameApartFromTarget (rootCall options url) (rootCall options url') where
  sockets := rfl
  method := rfl
  headers := List.Forall₂.cons (Or.inl rfl) List.Forall₂.nil
  body := rfl
  rawTrailers := rfl
  encrypted := rfl
  tlsSocket := rfl
  sni := rfl
  clientHello := rfl
  pipelining := rfl
  streamId := rfl
  capturing := rfl

theorem routedUrl_rootCall (hroot : ParsesRootDomain library options) (hquery : IsQueryText query)
    (hpath : IsPathname library path) :
    ∃ url, routedUrl library (rootCall options (path ++ query)) = some url ∧
      inspectedUrl library (rootCall options (path ++ query)) = some url ∧
        url.pathname = path ∧ url.hostname = options.rootDomain := by
  obtain ⟨root, hroot, hhost⟩ := hroot query hquery
  have hparts := hpath.parsed query (js "http" ++ js "://" ++ options.rootDomain) hquery
  rw [hroot, Option.map_some, Option.map_eq_some_iff] at hparts
  obtain ⟨url, hurl, hparts⟩ := hparts
  simp only [urlParts, Prod.mk.injEq] at hparts
  exact ⟨url, hurl, hurl, hparts.2.1, hparts.1.trans hhost⟩

theorem hostnamePrefixOf_self (rootDomain : JsString) :
    hostnamePrefixOf rootDomain rootDomain = some [] := by
  rw [hostnamePrefixOf, if_pos (endsWith_iff.mpr List.suffix_rfl), sliceEnd,
    Nat.sub_eq_zero_of_le (Nat.le_succ _), List.take_zero]

/-- A request on the root domain is answered by its chain. -/
theorem answerRequest_rootCall (hroot : ParsesRootDomain library options)
    (hquery : IsQueryText query) (hpath : IsPathname library path) {endpoint : HandledEndpoint}
    (hmatch : handledMatch path (some []) = .ok (some endpoint)) :
    ∃ params, answerRequest library options (rootCall options (path ++ query)) =
      .response (caught .http1
        (serveChain library (rootCall options (path ++ query)) params path (some []))) := by
  obtain ⟨url, hurl, -, hpathname, hhost⟩ := routedUrl_rootCall hroot hquery hpath
  have hhostname : hostnamePrefixOf options.rootDomain url.hostname = some [] := by
    rw [hhost]
    exact hostnamePrefixOf_self _
  have hrouted : Routed url.pathname (hostnamePrefixOf options.rootDomain url.hostname) := by
    rw [hpathname, hhostname]
    exact routed_of_handledMatch hpath.rooted hmatch
  have hrooted : startsWith (rootCall options (path ++ query)).url (js "/") = true := by
    rw [startsWith_iff]
    exact (startsWith_iff.mp hpath.rooted).trans (List.prefix_append _ _)
  have hroute : routeHost (routeContext library options)
      (rootCall options (path ++ query)).request url.toUrl = .ok none := by
    have hhostname : hostnamePrefixOf (routeContext library options).options.rootDomain
        url.toUrl.hostname = some [] := hhostname
    rw [routeHost, hhostname]
  refine ⟨url.searchParams, ?_⟩
  rw [answerRequest]
  dsimp only
  rw [routeRequest_eq hrooted hurl hrouted, hroute, hurl, hhostname, hpathname]
  rfl

/-- What is done with an exception depends on the final response only. -/
theorem finalActions_caught (version : HttpVersion) (actions : List ResponseAction)
    (thrown : Option Thrown) :
    finalActions (caught version ⟨actions, thrown⟩) =
      finalActions (caught version ⟨finalActions actions, thrown⟩) := by
  have hidem : finalActions (finalActions actions) = finalActions actions := by
    rw [finalActions, finalActions, List.filter_filter]
    congr 1
    funext action
    exact Bool.and_self _
  cases thrown with
  | none => exact hidem.symm
  | some e =>
      rw [caught, caught]
      dsimp only
      rw [any_finalActions (fun _ _ => rfl)]
      generalize actions.any _ = headersSent
      cases version with
      | http1 =>
          dsimp only
          cases http1Catch e ⟨false, headersSent⟩ with
          | none => exact hidem.symm
          | destroyed => rw [finalActions_append, finalActions_append, hidem]
          | sent statusCode body => rw [finalActions_append, finalActions_append, hidem]
      | http2 =>
          dsimp only
          cases http2Catch e ⟨false, headersSent⟩ with
          | none => exact hidem.symm
          | destroyed => rw [finalActions_append, finalActions_append, hidem]
          | sent statusCode body => rw [finalActions_append, finalActions_append, hidem]

theorem runChain_singleton (req : HttpCall) (params : Query)
    (entry : ChainEntry HandledEndpoint) :
    runChain library req params [entry] = performHandled library req.httpVersion
      (entry.endpoint.handle library req ⟨entry.path, params⟩) := by
  rw [runChain, runChain, ite_self]
  obtain ⟨actions, thrown⟩ := performHandled library req.httpVersion
    (entry.endpoint.handle library req ⟨entry.path, params⟩)
  cases thrown with
  | none => rw [Handled.andThen, Handled.done, List.append_nil]
  | some e => rfl

theorem handledMatch_of_handledChain {hostnamePrefix : Option JsString}
    (hpath : IsPathname library path) {entries : List (ChainEntry HandledEndpoint)}
    (h : handledChain path hostnamePrefix = .ok entries) :
    ∃ endpoint, handledMatch path hostnamePrefix = .ok (some endpoint) := by
  obtain ⟨rest, rfl⟩ := hpath.eq_cons
  rw [handledChain_eq] at h
  obtain ⟨endpoint, tail, hmatch, -, -⟩ := resolveHandled_succ_eq_ok_iff.mp h
  exact ⟨endpoint, hmatch⟩

/-- The final response for a chain is the one of its last handler. -/
theorem finalResponse_rootCall (hroot : ParsesRootDomain library options)
    (hquery : IsQueryText query) (hpath : IsPathname library path)
    {before : List (ChainEntry HandledEndpoint)} (hleaves : ∀ entry ∈ before, Leaves entry)
    {entry : ChainEntry HandledEndpoint}
    (hchain : handledChain path (some []) = .ok (before ++ [entry])) :
    ∃ params actions, answerRequest library options (rootCall options (path ++ query)) =
      .response actions ∧ finalActions actions = finalActions (caught .http1
        (performHandled library .http1 (entry.endpoint.handle library
          (rootCall options (path ++ query)) ⟨entry.path, params⟩))) := by
  obtain ⟨endpoint, hmatch⟩ := handledMatch_of_handledChain hpath hchain
  obtain ⟨params, hanswer⟩ := answerRequest_rootCall hroot hquery hpath hmatch
  refine ⟨params, _, hanswer, ?_⟩
  rw [serveChain, hchain]
  dsimp only
  obtain ⟨hactions, hthrown⟩ := @runChain_of_leaves library
    (rootCall options (path ++ query)) before hleaves params [entry]
  rw [runChain_singleton] at hactions hthrown
  generalize runChain library (rootCall options (path ++ query)) params (before ++ [entry]) = run
    at hactions hthrown ⊢
  obtain ⟨actions, thrown⟩ := run
  dsimp only at hactions hthrown
  rw [finalActions_caught, hactions, hthrown]
  exact (finalActions_caught .http1 _ _).symm

/-- The answer of the last handler for a request on the root domain. -/
def lastResponse (library : HttpLibrary) (options : HttpHandlerOptions)
    (entry : ChainEntry HandledEndpoint) (url : JsString) (params : Query) : List ResponseAction :=
  caught .http1 (performHandled library .http1
    (entry.endpoint.handle library (rootCall options url) ⟨entry.path, params⟩))

/-- The chain of the path alone ends with the same entry. -/
theorem handledChain_alone {hostnamePrefix : Option JsString} (hpath : IsPathname library path)
    {entries : List (ChainEntry HandledEndpoint)}
    (h : handledChain (chainPath hops path) hostnamePrefix = .ok entries)
    {entry : ChainEntry HandledEndpoint} (hmem : entry ∈ entries)
    (hname : entry.endpoint.name ∈ targetReaders) :
    ∃ before, (∀ entry ∈ before, Leaves entry) ∧
      handledChain path hostnamePrefix = .ok (before ++ [entry]) := by
  obtain ⟨rest, rfl⟩ := hpath.eq_cons
  have hdepth : WithinDepth (chainPath hops (unit '/' :: rest)) hostnamePrefix := by
    rw [WithinDepth, h]
    intro hdeep
    cases hdeep
  obtain ⟨hopEntries, tail, hhops, hsplit, hown⟩ := exists_chains hdepth
  rcases hown with ⟨chain, rfl, halone⟩ | ⟨e, e', rfl, -, -⟩
  · rw [h] at hsplit
    cases hsplit
    have hentry : entry ∈ chain := by
      rcases List.mem_append.mp hmem with hhop | hentry
      · exact absurd (hhops entry hhop) (not_leaves_of_reader hname)
      · exact hentry
    obtain ⟨⟨before, hleaves, rfl⟩, -⟩ := resolveHandled_of_reader halone hentry hname
    exact ⟨before, hleaves, halone⟩
  · rw [h] at hsplit
    cases hsplit

/-- What is answered as it is alone is so for a request on the root domain. -/
theorem sameActions_of_answeredAsAlone (hroot : ParsesRootDomain library options)
    (hquery : IsQueryText query) (hpath : IsPathname library path)
    (hchain : IsPathname library (chainPath hops path))
    (h : AnsweredAsAlone library options hops path query)
    {entries : List (ChainEntry HandledEndpoint)}
    (hentries : handledChain (chainPath hops path) none = .ok entries)
    {entry : ChainEntry HandledEndpoint} (hmem : entry ∈ entries)
    (hname : entry.endpoint.name ∈ targetReaders) :
    ∃ params params', SameActions (chainPath hops path) path
      (lastResponse library options entry (chainPath hops path ++ query) params)
      (lastResponse library options entry (path ++ query) params') := by
  obtain ⟨⟨before, hleaves, hbefore⟩, hothers⟩ := resolveHandled_of_reader hentries hmem hname
  have hresolved : handledChain (chainPath hops path) (some []) = .ok entries := hothers (some [])
  obtain ⟨before', hleaves', halone⟩ := handledChain_alone hpath hresolved hmem hname
  have hhostname : ∀ url, routedUrl library (rootCall options (path ++ query)) = some url →
      hostnamePrefixOf options.rootDomain url.hostname = some [] := by
    intro url hurl
    obtain ⟨url', hurl', -, -, hhost⟩ := routedUrl_rootCall hroot hquery hpath
    cases hurl.symm.trans hurl'
    rw [hhost]
    exact hostnamePrefixOf_self _
  have hanswer := h ⟨rootCall options (chainPath hops path ++ query),
    rootCall options (path ++ query), rfl, rfl, sameApartFromTarget_rootCall _ _,
    fun url hurl => by
      rw [hhostname url hurl]
      exact handledMatch_of_handledChain hpath halone,
    fun url hurl => by
      rw [hhostname url hurl, WithinDepth, hresolved]
      intro hdeep
      cases hdeep⟩
  rw [hbefore] at hresolved
  obtain ⟨params, actions, hactions, hfinal⟩ :=
    finalResponse_rootCall hroot hquery hchain hleaves hresolved
  obtain ⟨params', actions', hactions', hfinal'⟩ :=
    finalResponse_rootCall hroot hquery hpath hleaves' halone
  dsimp only at hanswer
  rw [hactions, hactions'] at hanswer
  cases hanswer with
  | response hsame =>
      rw [SameActions, hfinal, hfinal'] at hsame
      exact ⟨params, params', hsame⟩

theorem perform_of_accepted {version : HttpVersion} {actions : List ResponseAction}
    (h : ∀ action ∈ actions, actionError library version action = none) :
    perform library version actions = .done actions := by
  induction actions with
  | nil => rfl
  | cons action actions ih =>
      obtain ⟨haction, hrest⟩ := List.forall_mem_cons.mp h
      rw [perform, haction, ih hrest]
      rfl

theorem lastResponse_of_done {entry : ChainEntry HandledEndpoint} {url : JsString}
    {params : Query} {actions : List ResponseAction}
    (hhandle : entry.endpoint.handle library (rootCall options url) ⟨entry.path, params⟩ =
      .done actions)
    (haccepted : ∀ action ∈ actions, actionError library .http1 action = none) :
    lastResponse library options entry url params = actions := by
  rw [lastResponse, hhandle, performHandled]
  change caught .http1 ((perform library .http1 actions).andThen _) = _
  rw [perform_of_accepted haccepted]
  exact List.append_nil actions

theorem exists_details (hroot : ParsesRootDomain library options) (hquery : IsQueryText query)
    (hpath : IsPathname library path) (fieldFilter : Option FieldFilter) :
    ∃ data, buildHttpBinAnythingData library (rootCall options (path ++ query)) fieldFilter =
      .ok data := by
  obtain ⟨url, -, hurl, -, -⟩ := routedUrl_rootCall hroot hquery hpath
  rw [buildHttpBinAnythingData, hurl]
  exact ⟨_, rfl⟩

theorem actionError_writeHead (hnode : NodeAccepts library) {headers : HeaderList}
    (h : ∀ entry ∈ headers, library.headerError .http1 entry.1 entry.2 = none) :
    actionError library .http1 (writeHead 200 headers) = none := by
  have hheaders : (headers.findSome? fun entry =>
      library.headerError .http1 entry.1 entry.2) = none := List.findSome?_eq_none_iff.mpr h
  change ((library.statusError .http1 (some (.finite (200 : Nat)))).or
    (headers.findSome? fun entry => library.headerError .http1 entry.1 entry.2)).map _ = none
  rw [hnode.status, hheaders]
  rfl

theorem headerError_jsonType (hnode : NodeAccepts library) :
    library.headerError .http1 jsonType.1 jsonType.2 = none :=
  hnode.header _ _ _ (by decide) (visible_of_all (by decide))

theorem writeHead_of_sameAction {path path' : JsString} {statusCode statusCode' : Nat}
    {headers headers' : HeaderList}
    (h : SameAction path path' (writeHead statusCode headers) (writeHead statusCode' headers')) :
    statusCode = statusCode' ∧ (headers.length ≠ 1 → headers = headers') := by
  generalize haction : writeHead statusCode headers = action,
    haction' : writeHead statusCode' headers' = action' at h
  cases h with
  | same action =>
      obtain ⟨hstatus, hheaders⟩ := writeHead_inj (haction.trans haction'.symm)
      exact ⟨hstatus, fun _ => hheaders⟩
  | write h => cases haction
  | received code length length' =>
      cases haction
      cases haction'
      exact ⟨rfl, fun hlength => absurd rfl hlength⟩

/-- A response with the details of the request, and with a header of the endpoint's own. -/
theorem lastResponse_document (hnode : NodeAccepts library)
    (hroot : ParsesRootDomain library options) (hquery : IsQueryText query)
    (hpath : IsPathname library path) {entry : ChainEntry HandledEndpoint} {params : Query}
    {name value : JsString} (hname : name ∈ [js "cache-control", js "etag"])
    (hvalue : ∀ c ∈ value, 0x20 ≤ c ∧ c ≤ 0x7E)
    (hhandle : entry.endpoint.handle library (rootCall options (path ++ query))
        ⟨entry.path, params⟩ =
      .of (buildHttpBinAnythingData library (rootCall options (path ++ query)) (some getFields) >>=
        fun data => pure (respondWith 200 [jsonType, (name, .one value)]
          (.details .document data)))) :
    ∃ data, lastResponse library options entry (path ++ query) params =
      respondWith 200 [jsonType, (name, .one value)] (.details .document data) := by
  obtain ⟨data, hdata⟩ := exists_details hroot hquery hpath (some getFields)
  rw [hdata] at hhandle
  refine ⟨data, lastResponse_of_done hhandle ?_⟩
  have hheaders : ∀ entry ∈ [jsonType, (name, HeaderValue.one value)],
      library.headerError .http1 entry.1 entry.2 = none := by
    refine List.forall_mem_cons.mpr ⟨headerError_jsonType hnode, List.forall_mem_singleton.mpr ?_⟩
    exact hnode.header _ _ _ (List.mem_cons_of_mem _ (List.mem_cons_of_mem _ hname)) hvalue
  refine List.forall_mem_cons.mpr ⟨actionError_writeHead hnode hheaders, ?_⟩
  exact List.forall_mem_cons.mpr ⟨rfl, List.forall_mem_singleton.mpr rfl⟩

theorem value_eq_of_sameActions {path path' name value value' : JsString} {chunk chunk' : Chunk}
    (h : SameActions path path' (respondWith 200 [jsonType, (name, .one value)] chunk)
      (respondWith 200 [jsonType, (name, .one value')] chunk')) : value = value' := by
  obtain ⟨hhead, -⟩ := List.forall₂_cons.mp h
  have hheaders := (writeHead_of_sameAction hhead).2 (Nat.succ_ne_self 1)
  cases hheaders
  rfl

theorem visible_of_mem_drop (hpath : IsPathname library path) (n : Nat) :
    ∀ c ∈ path.drop n, 0x20 ≤ c ∧ c ≤ 0x7E := by
  intro c hc
  obtain ⟨hlow, hhigh, -⟩ := hpath.visible c (List.mem_of_mem_drop hc)
  exact ⟨UInt16.le_trans (by decide) hlow, hhigh⟩

/-- The tags of two responses are read from the two targets. -/
theorem etag_eq_of_sameActions (hnode : NodeAccepts library)
    (hroot : ParsesRootDomain library options) (hquery : IsQueryText query)
    (hpath : IsPathname library path) (hchain : IsPathname library (chainPath hops path))
    {rest : JsString} {params params' : Query}
    (h : SameActions (chainPath hops path) path
      (lastResponse library options ⟨⟨etag, etag.handle⟩, rest⟩ (chainPath hops path ++ query)
        params)
      (lastResponse library options ⟨⟨etag, etag.handle⟩, rest⟩ (path ++ query) params')) :
    (chainPath hops path).drop (js "/etag/").length = path.drop (js "/etag/").length := by
  have hresponse : ∀ {path} (_ : IsPathname library path) (params : Query), ∃ data,
      lastResponse library options ⟨⟨etag, etag.handle⟩, rest⟩ (path ++ query) params =
        respondWith 200 [jsonType, (js "etag", .one (path.drop (js "/etag/").length))]
          (.details .document data) := by
    intro path hpath params
    apply lastResponse_document hnode hroot hquery hpath (by decide) (visible_of_mem_drop hpath _)
    have htarget : targetPath (rootCall options (path ++ query)).url = path :=
      targetPath_append hpath.notMem hquery
    change etag.handle library (rootCall options (path ++ query)) ⟨rest, params⟩ = _
    rw [etag.handle, htarget]
    rfl
  obtain ⟨data, hdata⟩ := hresponse hchain params
  obtain ⟨data', hdata'⟩ := hresponse hpath params'
  rw [hdata, hdata'] at h
  exact value_eq_of_sameActions h

theorem numberTextOf_visible (hnode : NodeAccepts library) (s : JsString) :
    ∀ c ∈ numberTextOf library (parseNumber s), 0x20 ≤ c ∧ c ≤ 0x7E := by
  rw [parseNumber]
  cases parseInt s with
  | none => exact @visible_of_all (js "NaN") (by decide)
  | some n => exact hnode.numberText_visible n

theorem parseNumber_eq_of_numberTextOf (hnode : NodeAccepts library) {s t : JsString}
    (h : numberTextOf library (parseNumber s) = numberTextOf library (parseNumber t)) :
    parseNumber s = parseNumber t := by
  rw [parseNumber, parseNumber] at h ⊢
  cases hs : parseInt s with
  | none =>
      cases ht : parseInt t with
      | none => rfl
      | some n =>
          rw [hs, ht] at h
          exact absurd h.symm (hnode.numberText_ne n)
  | some m =>
      cases ht : parseInt t with
      | none =>
          rw [hs, ht] at h
          exact absurd h (hnode.numberText_ne m)
      | some n =>
          rw [hs, ht] at h
          exact congrArg some (hnode.numberText_injective m n h)

/-- The ages of two responses are read from the two targets. -/
theorem age_eq_of_sameActions (hnode : NodeAccepts library)
    (hroot : ParsesRootDomain library options) (hquery : IsQueryText query)
    (hpath : IsPathname library path) (hchain : IsPathname library (chainPath hops path))
    {rest : JsString} {params params' : Query}
    (h : SameActions (chainPath hops path) path
      (lastResponse library options ⟨⟨cacheWithAge, cacheWithAge.handle⟩, rest⟩
        (chainPath hops path ++ query) params)
      (lastResponse library options ⟨⟨cacheWithAge, cacheWithAge.handle⟩, rest⟩
        (path ++ query) params')) :
    parseNumber ((chainPath hops path).drop (js "/cache/").length) =
      parseNumber (path.drop (js "/cache/").length) := by
  have hresponse : ∀ {path} (_ : IsPathname library path) (params : Query), ∃ data,
      lastResponse library options ⟨⟨cacheWithAge, cacheWithAge.handle⟩, rest⟩ (path ++ query)
          params =
        respondWith 200 [jsonType, (js "cache-control", .one (js "public, max-age=" ++
          numberTextOf library (parseNumber (path.drop (js "/cache/").length))))]
          (.details .document data) := by
    intro path hpath params
    apply lastResponse_document hnode hroot hquery hpath (by decide)
    · intro c hc
      rcases List.mem_append.mp hc with hc | hc
      · exact visible_of_all (by decide) c hc
      · exact numberTextOf_visible hnode _ c hc
    · have htarget : targetPath (rootCall options (path ++ query)).url = path :=
        targetPath_append hpath.notMem hquery
      change cacheWithAge.handle library (rootCall options (path ++ query)) ⟨rest, params⟩ = _
      rw [cacheWithAge.handle, htarget]
  obtain ⟨data, hdata⟩ := hresponse hchain params
  obtain ⟨data', hdata'⟩ := hresponse hpath params'
  rw [hdata, hdata'] at h
  exact parseNumber_eq_of_numberTextOf hnode (List.append_cancel_left (value_eq_of_sameActions h))

/-- What the handler of `/stream/{n}` answers. -/
inductive StreamAnswer (path : JsString) : List ResponseAction → Prop
  | streamed {n : Int} (count : parseCount streamRule path = .ok n) (data : RequestDetails) :
      StreamAnswer path
        (writeHead 200 [jsonType] :: ((List.range n.toNat).map (streamLine data) ++ [.finish]))
  | refused {message : JsString}
      (count : parseCount streamRule path = .error (badRequest message)) :
      StreamAnswer path (respondWith 400 [] (.text message))

theorem streamAnswer_lastResponse (hnode : NodeAccepts library)
    (hroot : ParsesRootDomain library options) (hquery : IsQueryText query)
    (hpath : IsPathname library path) (rest : JsString) (params : Query) :
    StreamAnswer path (lastResponse library options ⟨⟨streamEndpoint, streamEndpoint.handle⟩, rest⟩
      (path ++ query) params) := by
  have htarget : targetPath (rootCall options (path ++ query)).url = path :=
    targetPath_append hpath.notMem hquery
  cases hcount : parseCount streamRule path with
  | ok n =>
      obtain ⟨data, hdata⟩ := exists_details hroot hquery hpath (some getFields)
      rw [lastResponse_of_done]
      · exact StreamAnswer.streamed hcount data
      · change streamEndpoint.handle library (rootCall options (path ++ query)) ⟨rest, params⟩ = _
        rw [streamEndpoint.handle, htarget, hcount, hdata]
        rfl
      · have hheaders : ∀ entry ∈ [jsonType],
            library.headerError .http1 entry.1 entry.2 = none :=
          List.forall_mem_singleton.mpr (headerError_jsonType hnode)
        refine List.forall_mem_cons.mpr ⟨actionError_writeHead hnode hheaders, ?_⟩
        intro action haction
        rcases List.mem_append.mp haction with haction | haction
        · obtain ⟨id, -, rfl⟩ := List.mem_map.mp haction
          rfl
        · rw [List.mem_singleton.mp haction]
          rfl
  | error e =>
      have hnone : ∀ n, parseCount streamRule path ≠ .ok n := by
        intro n hn
        rw [hcount] at hn
        cases hn
      obtain ⟨message, hmessage⟩ := PathParameters.exists_statusError_of_parseCount hnone
      have hhandle : streamEndpoint.handle library (rootCall options (path ++ query))
          ⟨rest, params⟩ = ⟨[], some (badRequest message)⟩ := by
        rw [streamEndpoint.handle, htarget, hmessage]
        rfl
      have hresponse : lastResponse library options
          ⟨⟨streamEndpoint, streamEndpoint.handle⟩, rest⟩ (path ++ query) params =
            respondWith 400 [] (.text message) := by
        rw [lastResponse]
        dsimp only
        rw [hhandle]
        rfl
      rw [hresponse]
      exact StreamAnswer.refused hmessage

/-- What a refused count is refused for. -/
theorem refused_cases {message : JsString}
    (h : parseCount streamRule path = .error (badRequest message)) :
    (InvalidCount path ∧ message = streamRule.invalid ++ path) ∨
      message = streamRule.exceeds ++ integer streamRule.most := by
  have hcount := h
  rw [parseCount] at h
  split at h
  · cases h
    exact Or.inl ⟨hcount, rfl⟩
  · split_ifs at h
    · cases h
      exact Or.inl ⟨hcount, rfl⟩
    · cases h
      exact Or.inr rfl

theorem head?_invalid (path : JsString) :
    (streamRule.invalid ++ path).head? = some (unit 'I') :=
  congrArg (fun lead => (lead ++ path).head?) (js_ofList _)

theorem head?_exceeds (rest : JsString) :
    (streamRule.exceeds ++ rest).head? = some (unit 'S') :=
  congrArg (fun lead => (lead ++ rest).head?) (js_ofList _)

/-- The texts of two bodies begin the same, where paths do. -/
theorem head?_eq_of_sameChunk {path path' s t : JsString} (hpath : path.head? = some (unit '/'))
    (hpath' : path'.head? = some (unit '/')) (h : SameChunk path path' (.text s) (.text t)) :
    s.head? = t.head? := by
  cases h with
  | same chunk => rfl
  | reported lead rest =>
      cases lead with
      | nil =>
          rw [List.nil_append, List.nil_append, List.head?_append, List.head?_append, hpath, hpath']
      | cons c lead => rfl

theorem finalActions_streamed (count : Nat) (data : RequestDetails) :
    finalActions (writeHead 200 [jsonType] :: ((List.range count).map (streamLine data) ++
      [.finish])) =
      writeHead 200 [jsonType] :: ((List.range count).map (streamLine data) ++ [.finish]) := by
  apply List.filter_eq_self.mpr
  intro action haction
  rcases List.mem_cons.mp haction with rfl | haction
  · rfl
  · rcases List.mem_append.mp haction with haction | haction
    · obtain ⟨id, -, rfl⟩ := List.mem_map.mp haction
      rfl
    · rw [List.mem_singleton.mp haction]

/-- The same answers are answers to the same counts, or to texts that are no counts. -/
theorem sameCount_of_streamAnswers {path path' : JsString} {actions actions' : List ResponseAction}
    (hpath : path.head? = some (unit '/')) (hpath' : path'.head? = some (unit '/'))
    (hanswer : StreamAnswer path actions) (hanswer' : StreamAnswer path' actions')
    (h : SameActions path path' actions actions') :
    parseCount streamRule path = parseCount streamRule path' ∨
      InvalidCount path ∧ InvalidCount path' := by
  cases hanswer with
  | @streamed n count data =>
      cases hanswer' with
      | @streamed n' count' data' =>
          left
          rw [SameActions, finalActions_streamed, finalActions_streamed] at h
          have hlength := h.length_eq
          simp only [List.length_cons, List.length_append, List.length_map, List.length_range,
            List.length_nil] at hlength
          have hn : 0 ≤ n := (PathParameters.parseCount_eq_ok_iff.mp count).2.1
          have hn' : 0 ≤ n' := (PathParameters.parseCount_eq_ok_iff.mp count').2.1
          have heq : n = n' := by omega
          rw [count, count', heq]
      | refused count' =>
          rw [SameActions, finalActions_streamed] at h
          have hstatus := (writeHead_of_sameAction (List.forall₂_cons.mp h).1).1
          cases hstatus
  | @refused message count =>
      cases hanswer' with
      | streamed count' data' =>
          rw [SameActions, finalActions_streamed] at h
          have hstatus := (writeHead_of_sameAction (List.forall₂_cons.mp h).1).1
          cases hstatus
      | @refused message' count' =>
          have hbody := (List.forall₂_cons.mp (List.forall₂_cons.mp h).2).1
          have hhead : message.head? = message'.head? := by
            cases hbody with
            | same action => rfl
            | write h => exact head?_eq_of_sameChunk hpath hpath' h
          rcases refused_cases count with ⟨hinvalid, rfl⟩ | rfl
          · rcases refused_cases count' with ⟨hinvalid', rfl⟩ | rfl
            · exact Or.inr ⟨hinvalid, hinvalid'⟩
            · rw [head?_invalid, head?_exceeds] at hhead
              exact absurd hhead (by decide)
          · rcases refused_cases count' with ⟨hinvalid', rfl⟩ | rfl
            · rw [head?_invalid, head?_exceeds] at hhead
              exact absurd hhead (by decide)
            · exact Or.inl (count.trans count'.symm)

/-- What is answered as it is alone reads the same from both paths. -/
theorem readsOwnPath_of_answeredAsAlone (hnode : NodeAccepts library)
    (hroot : ParsesRootDomain library options) (hquery : IsQueryText query)
    (hpath : IsPathname library path) (hchain : IsPathname library (chainPath hops path))
    (h : AnsweredAsAlone library options hops path query) : ReadsOwnPath hops path := by
  intro entries hentries entry hmem
  have hendpoint := endpoint_mem_of_resolve hentries entry hmem
  obtain ⟨endpoint, rest⟩ := entry
  have hhead : ∀ {path}, IsPathname library path → path.head? = some (unit '/') := by
    intro path hpath
    obtain ⟨rest, rfl⟩ := hpath.eq_cons
    rfl
  constructor
  · intro hname
    obtain rfl : endpoint = ⟨etag, etag.handle⟩ :=
      eq_of_name hendpoint (List.mem_of_getElem? (i := 15) rfl) hname
    obtain ⟨params, params', hsame⟩ :=
      sameActions_of_answeredAsAlone hroot hquery hpath hchain h hentries hmem
        (List.mem_of_getElem? (i := 0) rfl)
    exact etag_eq_of_sameActions hnode hroot hquery hpath hchain hsame
  · intro hname
    obtain rfl : endpoint = ⟨cacheWithAge, cacheWithAge.handle⟩ :=
      eq_of_name hendpoint (List.mem_of_getElem? (i := 8) rfl) hname
    obtain ⟨params, params', hsame⟩ :=
      sameActions_of_answeredAsAlone hroot hquery hpath hchain h hentries hmem
        (List.mem_of_getElem? (i := 1) rfl)
    exact age_eq_of_sameActions hnode hroot hquery hpath hchain hsame
  · intro hname
    obtain rfl : endpoint = ⟨streamEndpoint, streamEndpoint.handle⟩ :=
      eq_of_name hendpoint (List.mem_of_getElem? (i := 37) rfl) hname
    obtain ⟨params, params', hsame⟩ :=
      sameActions_of_answeredAsAlone hroot hquery hpath hchain h hentries hmem
        (List.mem_of_getElem? (i := 2) rfl)
    exact sameCount_of_streamAnswers (hhead hchain) (hhead hpath)
      (streamAnswer_lastResponse hnode hroot hquery hchain rest params)
      (streamAnswer_lastResponse hnode hroot hquery hpath rest params') hsame

/-- A path behind hops is answered as it is alone exactly if no handler of its chain reads something
else from the target. -/
theorem answeredAsAlone_iff (hnode : NodeAccepts library)
    (hroot : ParsesRootDomain library options) (hquery : IsQueryText query)
    (hpath : IsPathname library path) (hchain : IsPathname library (chainPath hops path)) :
    AnsweredAsAlone library options hops path query ↔ ReadsOwnPath hops path :=
  ⟨readsOwnPath_of_answeredAsAlone hnode hroot hquery hpath hchain,
    answeredAsAlone_of_readsOwnPath hnode.acceptsLengths hquery hpath hchain⟩

end

/-- A parser that agrees with `new URL` on plain targets below a plain host. -/
def targetUrl (target base : JsString) : RequestUrl where
  hostname := base.drop (if startsWith base (js "https://") then js "https://" else js "http://").length
  pathname := targetPath target
  searchParams := (split ((target.dropWhile fun c => decide (c ≠ unit '?')).drop 1) (js "&")).map
    fun pair => (pair.takeWhile fun c => decide (c ≠ unit '='),
      (pair.dropWhile fun c => decide (c ≠ unit '=')).drop 1)
  href := base ++ target

/-- The text of an integer, and of what is no integer. -/
def plainText : JsNumber → JsString
  | .finite value =>
      integer value.num ++ if value.den = 1 then [] else unit '/' :: decimal value.den
  | .infinite negative => if negative then js "-Infinity" else js "Infinity"

def plainLibrary : HttpLibrary :=
  { (default : HttpLibrary) with
    parseUrl := fun target base => some (targetUrl target base)
    numberText := plainText
    statusError := fun _ _ => none
    headerError := fun _ _ _ => none }

def plainOptions : HttpHandlerOptions := ⟨js "testserver.host", false, fun _ => .ok none⟩

theorem dropWhile_append_query {path query : JsString} (hpath : unit '?' ∉ path)
    (hquery : IsQueryText query) :
    (path ++ query).dropWhile (fun c => decide (c ≠ unit '?')) = query := by
  rw [List.dropWhile_append_of_pos (ne_query_of_notMem hpath)]
  cases query with
  | nil => rfl
  | cons c rest =>
      rw [hquery c rfl]
      exact List.dropWhile_cons_of_neg (by decide)

def isVisiblePath (path : JsString) : Bool :=
  startsWith path (js "/") && path.all fun c => decide (0x21 ≤ c ∧ c ≤ 0x7E ∧ c ≠ unit '?')

theorem isPathname_plainLibrary {path : JsString} (h : isVisiblePath path = true) :
    IsPathname plainLibrary path := by
  obtain ⟨hrooted, hall⟩ := Bool.and_eq_true_iff.mp h
  have hvisible : ∀ c ∈ path, 0x21 ≤ c ∧ c ≤ 0x7E ∧ c ≠ unit '?' :=
    fun c hc => of_decide_eq_true (List.all_eq_true.mp hall c hc)
  have hpath : unit '?' ∉ path := fun hmem => (hvisible _ hmem).2.2 rfl
  refine ⟨hrooted, hvisible, fun query base hquery => ?_⟩
  change some (urlParts (targetUrl (path ++ query) base)) =
    some ((targetUrl (js "/" ++ query) base).hostname, path,
      (targetUrl (js "/" ++ query) base).searchParams)
  rw [urlParts, targetUrl, targetUrl]
  dsimp only
  rw [targetPath_append hpath hquery, dropWhile_append_query hpath hquery,
    dropWhile_append_query (show unit '?' ∉ js "/" by decide) hquery]

theorem isQueryText_nil : IsQueryText [] := by
  intro c h
  cases h

theorem parsesRootDomain_plain : ParsesRootDomain plainLibrary plainOptions :=
  fun _ _ => ⟨_, rfl, rfl⟩

theorem mem_integer {n : Int} {c : UInt16} (h : c ∈ integer n) :
    c = unit '-' ∨ isDigit c = true := by
  rw [integer] at h
  split_ifs at h
  · rcases List.mem_cons.mp h with rfl | h
    · exact Or.inl rfl
    · exact Or.inr (isDigit_of_mem_decimal h)
  · exact Or.inr (isDigit_of_mem_decimal h)

theorem mem_plainText_finite {value : ℚ} {c : UInt16} (h : c ∈ plainText (.finite value)) :
    c = unit '-' ∨ c = unit '/' ∨ isDigit c = true := by
  rw [plainText] at h
  rcases List.mem_append.mp h with h | h
  · rcases mem_integer h with h | h
    · exact Or.inl h
    · exact Or.inr (Or.inr h)
  · split_ifs at h
    · cases h
    · rcases List.mem_cons.mp h with h | h
      · exact Or.inr (Or.inl h)
      · exact Or.inr (Or.inr (isDigit_of_mem_decimal h))

theorem plainText_visible (n : JsNumber) : ∀ c ∈ plainText n, 0x20 ≤ c ∧ c ≤ 0x7E := by
  intro c hc
  cases n with
  | finite value =>
      rcases mem_plainText_finite hc with rfl | rfl | hdigit
      · decide
      · decide
      · rw [isDigit, decide_eq_true_eq] at hdigit
        exact ⟨UInt16.le_trans (by decide) hdigit.1, UInt16.le_trans hdigit.2 (by decide)⟩
  | infinite negative =>
      have hall : ∀ negative, (plainText (.infinite negative)).all
          (fun c => decide (0x20 ≤ c ∧ c ≤ 0x7E)) = true := by decide
      exact visible_of_all (hall negative) c hc

theorem notMem_plainText_finite (value : ℚ) :
    unit 'I' ∉ plainText (.finite value) ∧ unit 'N' ∉ plainText (.finite value) := by
  constructor
  · intro h
    exact absurd (mem_plainText_finite h) (by decide)
  · intro h
    exact absurd (mem_plainText_finite h) (by decide)

theorem plainText_finite_injective {value other : ℚ}
    (h : plainText (.finite value) = plainText (.finite other)) : value = other := by
  have hrest : ∀ value : ℚ, NoDigit (if value.den = 1 then [] else unit '/' :: decimal value.den) := by
    intro value
    split_ifs
    · intro c h
      cases h
    · exact NoDigit.cons (by decide)
  obtain ⟨hnum, hden⟩ := integer_append_inj (hrest value) (hrest other) h
  apply Rat.ext hnum
  by_cases hone : value.den = 1
  · by_cases hone' : other.den = 1
    · rw [hone, hone']
    · rw [if_pos hone, if_neg hone'] at hden
      cases hden
  · by_cases hone' : other.den = 1
    · rw [if_neg hone, if_pos hone'] at hden
      cases hden
    · rw [if_neg hone, if_neg hone'] at hden
      exact decimal_injective (List.cons.inj hden).2

theorem plainText_injective {n n' : JsNumber} (h : plainText n = plainText n') : n = n' := by
  have hinfinite : ∀ negative, unit 'I' ∈ plainText (.infinite negative) := by decide
  cases n with
  | finite value =>
      cases n' with
      | finite other => rw [plainText_finite_injective h]
      | infinite negative => exact absurd (h ▸ hinfinite negative) (notMem_plainText_finite value).1
  | infinite negative =>
      cases n' with
      | finite other => exact absurd (h ▸ hinfinite negative) (notMem_plainText_finite other).1
      | infinite negative' =>
          cases negative <;> cases negative' <;> first | rfl | exact absurd h (by decide)

theorem nodeAccepts_plainLibrary : NodeAccepts plainLibrary where
  status _ := rfl
  header _ _ _ _ _ := rfl
  numberText_visible n := plainText_visible _
  numberText_injective m n h := plainText_injective h
  numberText_ne n h := by
    have hnan : unit 'N' ∈ plainText (toDouble n) := by
      change plainText (toDouble n) = js "NaN" at h
      rw [h]
      decide
    have hinfinite : ∀ negative, unit 'N' ∉ plainText (.infinite negative) := by decide
    cases hn : toDouble n with
    | finite value =>
        rw [hn] at hnan
        exact (notMem_plainText_finite value).2 hnan
    | infinite negative =>
        rw [hn] at hnan
        exact hinfinite negative hnan

def delayZero : ChainHop := .delay (js "0") (by decide) (by decide)

/-- A chain with no handler that reads the target. -/
theorem readsOwnPath_of_names {hops : List ChainHop} {path : JsString}
    (h : (handledChain (chainPath hops path) none).map (fun entries =>
      entries.all fun entry => decide (entry.endpoint.name ∉ targetReaders)) = .ok true) :
    ReadsOwnPath hops path := by
  intro entries hentries entry hmem
  rw [hentries] at h
  have hname := of_decide_eq_true (List.all_eq_true.mp (Except.ok.inj h) entry hmem)
  rw [targetReaders, List.mem_cons, List.mem_cons, List.mem_singleton, not_or, not_or] at hname
  exact ⟨fun h => absurd h hname.1, fun h => absurd h hname.2.1, fun h => absurd h hname.2.2⟩

/-- A status behind a delay. -/
theorem answeredAsAlone_iff_delay_status :
    AnsweredAsAlone plainLibrary plainOptions [delayZero] (js "/status/418") [] := by
  apply (answeredAsAlone_iff nodeAccepts_plainLibrary parsesRootDomain_plain isQueryText_nil
    (isPathname_plainLibrary (by decide)) (isPathname_plainLibrary (by decide))).mpr
  exact readsOwnPath_of_names (by decide +kernel)

/-- A stream behind a delay is a bad request. -/
theorem not_answeredAsAlone_delay_stream :
    ¬ AnsweredAsAlone plainLibrary plainOptions [delayZero] (js "/stream/5") [] := by
  intro h
  have hreads := readsOwnPath_of_answeredAsAlone nodeAccepts_plainLibrary parsesRootDomain_plain
    isQueryText_nil (isPathname_plainLibrary (by decide)) (isPathname_plainLibrary (by decide)) h
  have hstream : (handledChain (chainPath [delayZero] (js "/stream/5")) none).map (fun entries =>
      entries.any fun entry => decide (entry.endpoint.name = js "streamEndpoint")) = .ok true := by
    decide +kernel
  have halone : parseCount streamRule (js "/stream/5") = .ok 5 := by decide
  cases hentries : handledChain (chainPath [delayZero] (js "/stream/5")) none with
  | error e =>
      rw [hentries] at hstream
      cases hstream
  | ok entries =>
      rw [hentries] at hstream
      obtain ⟨entry, hmem, hname⟩ := List.any_eq_true.mp (Except.ok.inj hstream)
      rcases (hreads entries hentries entry hmem).streamEndpoint (of_decide_eq_true hname) with
        hsame | ⟨-, hinvalid⟩
      · have hcount := PathParameters.parseCount_eq_ok_iff.mp (hsame.trans halone)
        exact absurd hcount.1 (by decide)
      · rw [InvalidCount, halone] at hinvalid
        cases hinvalid

end ChainedAnswers

end TestServer
