import TestServer.ChainHops

/-!
# Requests for a path behind hops

A path behind `/delay` and `/info` is routed as it is alone. It is answered as it is alone, apart
from what reports the target or the bytes of the request, if no handler reads something else from
the whole target than from the path.

## Implementation notes

A path is one that the parser of URLs leaves as it is.
-/

namespace TestServer

open Js Library Endpoints

namespace ChainedAnswers

/-- The text of a query, with its question mark. -/
def IsQueryText (query : JsString) : Prop := ∀ c ∈ query.head?, c = unit '?'

/-- What a URL says besides its text. -/
def urlParts (url : RequestUrl) : JsString × JsString × Query :=
  (url.hostname, url.pathname, url.searchParams)

/-- A path that the parser leaves as it is: the URL is that of the root, with this path name. -/
structure IsPathname (library : HttpLibrary) (path : JsString) : Prop where
  rooted : startsWith path (js "/") = true
  visible : ∀ c ∈ path, 0x21 ≤ c ∧ c ≤ 0x7E ∧ c ≠ unit '?'
  parsed : ∀ query base, IsQueryText query →
    (library.parseUrl (path ++ query) base).map urlParts =
      (library.parseUrl (js "/" ++ query) base).map fun url =>
        (url.hostname, path, url.searchParams)

inductive SameAnswer (path path' : JsString) : Answer → Answer → Prop
  | before (route : Route) : SameAnswer path path' (.before route) (.before route)
  | response {actions actions' : List ResponseAction} (h : SameActions path path' actions actions') :
      SameAnswer path path' (.response actions) (.response actions')

section

variable (library : HttpLibrary) (options : HttpHandlerOptions)

/-- The path of a chain with the limit of its depth kept on a host. -/
def WithinDepth (path : JsString) (hostnamePrefix : Option JsString) : Prop :=
  handledChain path hostnamePrefix ≠ .error (.statusError 400 (depthMessage path))

/-- Requests for a path behind some hops and for the path alone, which an endpoint matches, where
the chain is not too deep. -/
structure ChainedCalls (hops : List ChainHop) (path query : JsString) where
  chained : HttpCall
  alone : HttpCall
  chained_url : chained.url = chainPath hops path ++ query
  alone_url : alone.url = path ++ query
  sameRequest : SameApartFromTarget chained alone
  matched : ∀ url, routedUrl library alone = some url → ∃ endpoint,
    handledMatch path (hostnamePrefixOf options.rootDomain url.hostname) = .ok (some endpoint)
  withinDepth : ∀ url, routedUrl library alone = some url →
    WithinDepth (chainPath hops path) (hostnamePrefixOf options.rootDomain url.hostname)

/-- The path is answered behind the hops as it is alone. -/
def AnsweredAsAlone (hops : List ChainHop) (path query : JsString) : Prop :=
  ∀ calls : ChainedCalls library options hops path query,
    SameAnswer (chainPath hops path) path (answerRequest library options calls.chained)
      (answerRequest library options calls.alone)

end

/-- All handlers of a chain read the same from its whole path and from the path behind the hops. -/
def ReadsOwnPath (hops : List ChainHop) (path : JsString) : Prop :=
  ∀ entries, handledChain (chainPath hops path) none = .ok entries →
    ∀ entry ∈ entries, ReadsSame entry.endpoint (chainPath hops path) path

theorem ne_query_of_notMem {path : JsString} (hpath : unit '?' ∉ path) :
    ∀ c ∈ path, decide (c ≠ unit '?') = true := by
  intro c hc
  rw [decide_eq_true_eq]
  rintro rfl
  exact hpath hc

theorem targetPath_append {path query : JsString} (hpath : unit '?' ∉ path)
    (hquery : IsQueryText query) : targetPath (path ++ query) = path := by
  rw [targetPath, List.takeWhile_append_of_pos (ne_query_of_notMem hpath)]
  cases query with
  | nil => rw [List.takeWhile_nil, List.append_nil]
  | cons c rest =>
      rw [hquery c rfl, List.takeWhile_cons_of_neg (by decide), List.append_nil]

/-- An endpoint claims no path of an ACME challenge, and the root for the example page only. -/
structure Routed (path : JsString) (hostnamePrefix : Option JsString) : Prop where
  rooted : startsWith path (js "/") = true
  notAcme : startsWith path acmePath = false
  notDocs : ¬ (path = js "/" ∧ hostnamePrefix ≠ some (js "example"))

/-- An endpoint that takes a path owns it. -/
theorem name_of_matchPath {endpoint : HandledEndpoint} (hmem : endpoint ∈ handledEndpoints)
    {path : JsString} {hostnamePrefix : Option JsString}
    (hmatch : endpoint.matchPath path hostnamePrefix = .ok true) :
    httpOwner asciiUpperCase path = endpoint.name := by
  have hmem : endpoint.toHttpEndpoint ∈ httpEndpointsIn asciiUpperCase := by
    rw [httpEndpointsIn_ascii, ← map_handledEndpoints]
    exact List.mem_map_of_mem hmem
  exact owned_httpEndpointsIn upperCase_ascii _ hmem path hostnamePrefix (by rw [claims, hmatch])

theorem example_of_matchPath_root {endpoint : HandledEndpoint} (hmem : endpoint ∈ handledEndpoints)
    {hostnamePrefix : Option JsString}
    (hmatch : endpoint.matchPath (js "/") hostnamePrefix = .ok true) :
    hostnamePrefix = some (js "example") := by
  obtain rfl : endpoint = ⟨examplePage, examplePage.handle⟩ :=
    eq_of_name hmem (List.mem_of_getElem? (i := 16) rfl) (name_of_matchPath hmem hmatch).symm
  exact (of_decide_eq_true (Except.ok.inj hmatch)).2

theorem name_ne_nil : (handledEndpoints.all fun endpoint => decide (endpoint.name ≠ [])) = true := by
  decide +kernel

theorem not_matchPath_acme {endpoint : HandledEndpoint} (hmem : endpoint ∈ handledEndpoints)
    (rest : JsString) (hostnamePrefix : Option JsString) :
    endpoint.matchPath (acmePath ++ rest) hostnamePrefix ≠ .ok true := by
  intro hmatch
  exact of_decide_eq_true (List.all_eq_true.mp name_ne_nil endpoint hmem)
    (name_of_matchPath hmem hmatch).symm

theorem routed_of_handledMatch {path : JsString} {hostnamePrefix : Option JsString}
    {endpoint : HandledEndpoint} (hrooted : startsWith path (js "/") = true)
    (h : handledMatch path hostnamePrefix = .ok (some endpoint)) :
    Routed path hostnamePrefix := by
  obtain ⟨hmem, hmatch⟩ := handledMatch_eq_some_iff.mp h
  refine ⟨hrooted, ?_, ?_⟩
  · rw [Bool.eq_false_iff]
    intro hacme
    obtain ⟨rest, rfl⟩ := startsWith_iff.mp hacme
    exact not_matchPath_acme hmem rest hostnamePrefix hmatch
  · rintro ⟨rfl, hother⟩
    exact hother (example_of_matchPath_root hmem hmatch)

section

variable {library : HttpLibrary} {options : HttpHandlerOptions}

/-- How a request is routed below a path that an endpoint matches. -/
theorem routeRequest_eq {req : HttpCall} {url : RequestUrl}
    (hrooted : startsWith req.url (js "/") = true) (hurl : routedUrl library req = some url)
    (hrouted : Routed url.pathname (hostnamePrefixOf options.rootDomain url.hostname)) :
    routeRequest (routeContext library options) req.httpVersion req.request =
      if isMisdirected (routeContext library options) req.httpVersion req.request then
        .ok .misdirected
      else
        (routeHost (routeContext library options) req.request url.toUrl).map fun route =>
          route.getD (if req.method = js "OPTIONS" then .corsPreflight
            else .routed url.pathname (hostnamePrefixOf options.rootDomain url.hostname)) := by
  have hproxy : isProxyRequest (routeContext library options) req.request = .ok false :=
    if_pos hrooted
  have hparsed : (routeContext library options).parseUrl req.request.url
      (protocol req.request ++ js "://" ++ headerText req.request.host) = some url.toUrl := by
    change (routedUrl library req).map RequestUrl.toUrl = _
    rw [hurl]
    rfl
  rw [routeRequest, hproxy]
  change (if isMisdirected _ _ _ = true then _ else _) = _
  by_cases hmisdirected :
      isMisdirected (routeContext library options) req.httpVersion req.request = true
  · rw [if_pos hmisdirected, if_pos hmisdirected]
    rfl
  · rw [if_neg hmisdirected, if_neg hmisdirected, hparsed]
    dsimp only
    rw [routeUrl, if_neg (by rw [hrouted.notAcme]; exact Bool.false_ne_true)]
    cases routeHost (routeContext library options) req.request url.toUrl with
    | error message => rfl
    | ok route =>
        cases route with
        | some route => rfl
        | none =>
            change routePath _ _ _ _ = _
            refine (if_neg hrouted.notDocs).trans ?_
            change (if req.method = js "OPTIONS" then _ else _) = Except.ok (if _ then _ else _)
            split_ifs
            · rfl
            · rfl

theorem routeRequest_eq_of_none {req : HttpCall} (hrooted : startsWith req.url (js "/") = true)
    (hurl : routedUrl library req = none) :
    routeRequest (routeContext library options) req.httpVersion req.request =
      if isMisdirected (routeContext library options) req.httpVersion req.request then
        .ok .misdirected
      else .error (js "Invalid URL") := by
  have hproxy : isProxyRequest (routeContext library options) req.request = .ok false :=
    if_pos hrooted
  have hparsed : (routeContext library options).parseUrl req.request.url
      (protocol req.request ++ js "://" ++ headerText req.request.host) = none := by
    change (routedUrl library req).map RequestUrl.toUrl = _
    rw [hurl]
    rfl
  rw [routeRequest, hproxy]
  change (if isMisdirected _ _ _ = true then _ else _) = _
  by_cases hmisdirected :
      isMisdirected (routeContext library options) req.httpVersion req.request = true
  · rw [if_pos hmisdirected, if_pos hmisdirected]
    rfl
  · rw [if_neg hmisdirected, if_neg hmisdirected, hparsed]

/-- The answers for particular hosts are no routes to endpoints. -/
theorem routeHost_eq_some {context : HandlerContext} {req : HttpRequest} {url : Url}
    {route : Route} (h : routeHost context req url = .ok (some route)) :
    (∃ message, route = .invalidEndpoint message) ∨ ∃ host, route = .redirect host := by
  rw [routeHost] at h
  split at h
  · dsimp only at h
    split at h
    · cases h
      exact Or.inl ⟨_, rfl⟩
    · obtain ⟨untrustedRootHost, -, h⟩ := bind_ok_iff.mp h
      split_ifs at h
      · cases h
        exact Or.inr ⟨_, rfl⟩
      · cases h
  · cases h

end

section

variable {library : HttpLibrary} {options : HttpHandlerOptions} {hops : List ChainHop}
  {path query : JsString}

theorem IsPathname.notMem (h : IsPathname library path) : unit '?' ∉ path :=
  fun hmem => (h.visible _ hmem).2.2 rfl

theorem IsPathname.eq_cons (h : IsPathname library path) : ∃ rest, path = unit '/' :: rest := by
  obtain ⟨rest, rfl⟩ := startsWith_iff.mp h.rooted
  exact ⟨rest, rfl⟩

theorem allowCORS_eq {req req' : HttpCall} (h : SameApartFromTarget req req') :
    allowCORS req = allowCORS req' := by
  rw [allowCORS, allowCORS, h.truthyHeader_eq (show js "origin" ≠ pathHeader by decide),
    h.truthyHeader_eq (show js "access-control-request-method" ≠ pathHeader by decide),
    h.truthyHeader_eq (show js "access-control-request-headers" ≠ pathHeader by decide),
    h.truthyHeader_eq (show js "access-control-request-private-network" ≠ pathHeader by decide)]

theorem request_eq {req req' : HttpCall} (h : SameApartFromTarget req req') :
    req.request = { req'.request with url := req.url } := by
  rw [HttpCall.request, HttpCall.request, h.method, h.encrypted, h.sni,
    h.header_eq (show js ":authority" ≠ pathHeader by decide),
    h.header_eq (show js "host" ≠ pathHeader by decide)]

/-- The two targets are parsed alike, with any base. -/
theorem parseUrl_parts (hpath : IsPathname library path)
    (hchain : IsPathname library (chainPath hops path)) (hquery : IsQueryText query)
    (base : JsString) :
    (library.parseUrl (chainPath hops path ++ query) base = none ∧
        library.parseUrl (path ++ query) base = none) ∨
      ∃ url url', library.parseUrl (chainPath hops path ++ query) base = some url ∧
        library.parseUrl (path ++ query) base = some url' ∧
        url.pathname = chainPath hops path ∧ url'.pathname = path ∧
        url.hostname = url'.hostname ∧ url.searchParams = url'.searchParams := by
  have hpath := hpath.parsed query base hquery
  have hchain := hchain.parsed query base hquery
  cases hroot : library.parseUrl (js "/" ++ query) base with
  | none =>
      rw [hroot, Option.map_none, Option.map_eq_none_iff] at hpath hchain
      exact Or.inl ⟨hchain, hpath⟩
  | some root =>
      rw [hroot, Option.map_some, Option.map_eq_some_iff] at hpath hchain
      obtain ⟨url', hurl', hparts'⟩ := hpath
      obtain ⟨url, hurl, hparts⟩ := hchain
      simp only [urlParts, Prod.mk.injEq] at hparts hparts'
      refine Or.inr ⟨url, url', hurl, hurl', hparts.2.1, hparts'.2.1, ?_, ?_⟩
      · rw [hparts.1, hparts'.1]
      · rw [hparts.2.2, hparts'.2.2]

theorem sameRead_of_chained (hpath : IsPathname library path)
    (hchain : IsPathname library (chainPath hops path)) (hquery : IsQueryText query)
    {chained alone : HttpCall} (hchained : chained.url = chainPath hops path ++ query)
    (halone : alone.url = path ++ query) (hsame : SameApartFromTarget chained alone) :
    SameRead library chained alone := by
  refine ⟨hsame, ?_⟩
  rw [inspectedUrl, inspectedUrl, hchained, halone, hsame.tlsSocket,
    hsame.truthyHeader_eq (show js ":authority" ≠ pathHeader by decide),
    hsame.header_eq (show js "host" ≠ pathHeader by decide)]
  rcases parseUrl_parts hpath hchain hquery _ with ⟨h, h'⟩ | ⟨url, url', h, h', -, -, -, hparams⟩
  · rw [h, h']
  · rw [h, h']
    exact congrArg some hparams

theorem routedUrl_parts (hpath : IsPathname library path)
    (hchain : IsPathname library (chainPath hops path)) (hquery : IsQueryText query)
    {chained alone : HttpCall} (hchained : chained.url = chainPath hops path ++ query)
    (halone : alone.url = path ++ query) (hsame : SameApartFromTarget chained alone) :
    (routedUrl library chained = none ∧ routedUrl library alone = none) ∨
      ∃ url url', routedUrl library chained = some url ∧ routedUrl library alone = some url' ∧
        url.pathname = chainPath hops path ∧ url'.pathname = path ∧
        url.hostname = url'.hostname ∧ url.searchParams = url'.searchParams := by
  have hhost : chained.request.host = alone.request.host := by rw [request_eq hsame]
  have hprotocol : protocol chained.request = protocol alone.request := by
    rw [request_eq hsame]
    rfl
  rw [routedUrl, routedUrl, hchained, halone, hhost, hprotocol]
  exact parseUrl_parts hpath hchain hquery _

/-- The chain of a path behind hops is run as the path's own is. -/
theorem sameHandled_serveChain (hlengths : AcceptsLengths library)
    (hpath : IsPathname library path) {chained alone : HttpCall}
    (hsame : SameRead library chained alone)
    (hchained : targetPath chained.url = chainPath hops path)
    (halone : targetPath alone.url = path) (hreads : ReadsOwnPath hops path)
    {hostnamePrefix : Option JsString} (hdepth : WithinDepth (chainPath hops path) hostnamePrefix)
    (query : Query) :
    SameHandled (chainPath hops path) path
      (serveChain library chained query (chainPath hops path) hostnamePrefix)
      (serveChain library alone query path hostnamePrefix) := by
  obtain ⟨rest, hrest⟩ := hpath.eq_cons
  rw [WithinDepth, hrest] at hdepth
  obtain ⟨before, tail, hleaves, hchain, hown⟩ := exists_chains hdepth
  rw [← hrest] at hchain hown
  rw [serveChain, serveChain]
  rcases hown with ⟨chain, rfl, hown⟩ | ⟨e, e', rfl, hown, hthrown⟩
  · have hchain : handledChain (chainPath hops path) hostnamePrefix = .ok (before ++ chain) := hchain
    rw [hchain, hown]
    dsimp only
    have hentries : ∀ entry ∈ chain, HandlesSame entry.endpoint.handle library chained alone := by
      intro entry hentry
      apply handlesSame_of_mem hsame
      · exact endpoint_mem_of_resolve hown entry hentry
      · rw [hchained, halone]
        by_cases hname : entry.endpoint.name ∈ targetReaders
        · apply hreads (before ++ chain) _ entry (List.mem_append_right before hentry)
          exact (resolveHandled_of_reader hchain (List.mem_append_right before hentry) hname).2 none
        · rw [targetReaders, List.mem_cons, List.mem_cons, List.mem_singleton, not_or,
            not_or] at hname
          exact ⟨fun h => absurd h hname.1, fun h => absurd h hname.2.1,
            fun h => absurd h hname.2.2⟩
    have hrun := sameHandled_runChain hlengths hsame.toSameApartFromTarget hentries query
    obtain ⟨hactions, hthrown⟩ := @runChain_of_leaves library chained before hleaves query chain
    rw [hchained, halone] at hrun
    constructor
    · rw [SameActions, hactions]
      exact hrun.actions
    · rw [hthrown]
      exact hrun.thrown
  · have hchain : handledChain (chainPath hops path) hostnamePrefix = .error e := hchain
    rw [hchain, hown]
    exact ⟨sameActions_refl [], hthrown⟩

theorem routed_chainPath {hostnamePrefix : Option JsString}
    (hchain : IsPathname library (chainPath hops path)) (h : Routed path hostnamePrefix) :
    Routed (chainPath hops path) hostnamePrefix := by
  cases hops with
  | nil => exact h
  | cons hop hops =>
      refine ⟨hchain.rooted, ?_, ?_⟩
      · cases hop with
        | delay _ _ _ => rfl
        | info _ _ _ _ _ => rfl
      · rintro ⟨hroot, -⟩
        cases hop with
        | delay _ _ _ => cases hroot
        | info _ _ _ _ _ => cases hroot

/-- What reads the same from both paths is answered the same. -/
theorem answeredAsAlone_of_readsOwnPath (hlengths : AcceptsLengths library)
    (hquery : IsQueryText query) (hpath : IsPathname library path)
    (hchain : IsPathname library (chainPath hops path)) (hreads : ReadsOwnPath hops path) :
    AnsweredAsAlone library options hops path query := by
  rintro ⟨chained, alone, hchained, halone, hsame, hmatched, hdepth⟩
  have hread := sameRead_of_chained hpath hchain hquery hchained halone hsame
  have htarget : targetPath chained.url = chainPath hops path := by
    rw [hchained]
    exact targetPath_append hchain.notMem hquery
  have htarget' : targetPath alone.url = path := by
    rw [halone]
    exact targetPath_append hpath.notMem hquery
  have hrooted : startsWith chained.url (js "/") = true := by
    rw [hchained, startsWith_iff]
    exact (startsWith_iff.mp hchain.rooted).trans (List.prefix_append _ _)
  have hrooted' : startsWith alone.url (js "/") = true := by
    rw [halone, startsWith_iff]
    exact (startsWith_iff.mp hpath.rooted).trans (List.prefix_append _ _)
  have hmisdirected : isMisdirected (routeContext library options) chained.httpVersion
      chained.request = isMisdirected (routeContext library options) alone.httpVersion
        alone.request := by
    rw [request_eq hsame, hsame.httpVersion_eq]
    rfl
  rw [answerRequest, answerRequest]
  dsimp only
  rcases routedUrl_parts hpath hchain hquery hchained halone hsame with
    ⟨hurl, hurl'⟩ | ⟨url, url', hurl, hurl', hpathname, hpathname', hhost, hparams⟩
  · rw [routeRequest_eq_of_none hrooted hurl, routeRequest_eq_of_none hrooted' hurl', hmisdirected,
      hsame.httpVersion_eq]
    split_ifs
    · exact SameAnswer.before _
    · exact SameAnswer.response (sameActions_refl _)
  · obtain ⟨endpoint, hendpoint⟩ := hmatched url' hurl'
    have hdepth := hdepth url' hurl'
    have hrouted := routed_of_handledMatch hpath.rooted hendpoint
    have hrouted' := routed_chainPath hchain hrouted
    have hroute : routeHost (routeContext library options) chained.request url.toUrl =
        routeHost (routeContext library options) alone.request url'.toUrl := by
      rw [request_eq hsame, routeHost, routeHost, hhost]
    rw [← hpathname'] at hrouted
    rw [← hpathname, ← hhost] at hrouted'
    rw [routeRequest_eq hrooted hurl hrouted', routeRequest_eq hrooted' hurl' hrouted, hmisdirected,
      hroute, hsame.method, hpathname, hpathname', hhost, hurl, hurl']
    dsimp only [Option.elim_some]
    rw [hparams, allowCORS_eq hsame, hsame.httpVersion_eq]
    by_cases hrefused :
        isMisdirected (routeContext library options) alone.httpVersion alone.request = true
    · rw [if_pos hrefused, if_pos hrefused]
      exact SameAnswer.before _
    · rw [if_neg hrefused, if_neg hrefused]
      cases hfound : routeHost (routeContext library options) alone.request url'.toUrl with
      | error message => exact SameAnswer.response (sameActions_refl _)
      | ok route =>
          cases route with
          | some route =>
              rcases routeHost_eq_some hfound with ⟨message, rfl⟩ | ⟨host, rfl⟩
              · exact SameAnswer.before _
              · exact SameAnswer.before _
          | none =>
              split_ifs
              · exact SameAnswer.response (sameActions_refl _)
              · apply SameAnswer.response
                apply sameActions_caught
                apply sameHandled_andThen (sameHandled_refl _)
                exact sameHandled_serveChain hlengths hpath hread htarget htarget' hreads hdepth _

end

end ChainedAnswers

end TestServer
