import TestServer.ResponsePhases

/-!
# Walks over redirects

The endpoints that count redirects answer with as many of them as their path says, one for each
request: who follows them from the root domain comes to `/get`, which answers.
-/

namespace TestServer

open Js Library Endpoints ChainedAnswers

namespace RedirectWalks

variable {library : HttpLibrary} {options : HttpHandlerOptions}

/-- The value of a header that a redirect is read from. -/
def locationValue (headers : HeaderList) : Option JsString :=
  headers.findSome? fun entry =>
    match entry.2 with
    | .one value => if entry.1 = js "location" then some value else none
    | .many _ => none

/-- Where a response with the status 302 redirects to. -/
def redirection (actions : List ResponseAction) : Option JsString :=
  actions.findSome? fun action =>
    match action with
    | .writeHead (some (.finite statusCode)) headers =>
        if statusCode = 302 then locationValue headers else none
    | _ => none

/-- The target of a location, which is below its own host or below an origin. -/
def locationTarget (origin location : JsString) : Option JsString :=
  if startsWith location (js "/") ∧ ¬ startsWith location (js "//") then some location
  else if startsWith location (origin ++ js "/") then some (location.drop origin.length)
  else none

/-- The origin of requests on the root domain. -/
def rootOrigin (options : HttpHandlerOptions) : JsString := js "http://" ++ options.rootDomain

/-- The target that the answer for a target on the root domain redirects to. -/
def follow (library : HttpLibrary) (options : HttpHandlerOptions) (target : JsString) :
    Option JsString :=
  match answerRequest library options (rootCall options target) with
  | .before _ => none
  | .response actions => (redirection actions).bind (locationTarget (rootOrigin options))

/-- Where so many redirects lead. -/
def followed (library : HttpLibrary) (options : HttpHandlerOptions) :
    Nat → JsString → Option JsString
  | 0, target => some target
  | n + 1, target => (follow library options target).bind (followed library options n)

/-- What is used of Node: it accepts the heads of redirects and of what they lead to. -/
structure AcceptsRedirects (library : HttpLibrary) : Prop where
  status : ∀ statusCode ∈ [200, 302],
    library.statusError .http1 (some (.finite (statusCode : Nat))) = none
  header : ∀ name value, name ∈ [js "location", js "Content-Type"] →
    (∀ c ∈ value, 0x20 ≤ c ∧ c ≤ 0x7E) → library.headerError .http1 name (.one value) = none

/-- The paths that redirects lead to are parsed as they are. -/
structure ParsesRedirects (library : HttpLibrary) : Prop where
  get : IsPathname library (js "/get")
  count : ∀ lead ∈ [js "/relative-redirect/", js "/absolute-redirect/"], ∀ n,
    IsPathname library (lead ++ decimal n)

/-- An endpoint that counts redirects: its name, the beginning of its paths, and the beginning of
the paths it redirects to. -/
structure Redirector where
  name : JsString
  lead : JsString
  next : JsString
deriving DecidableEq

def redirectors : List Redirector :=
  [⟨js "redirectN", js "/redirect/", js "/relative-redirect/"⟩,
    ⟨js "relativeRedirectN", js "/relative-redirect/", js "/relative-redirect/"⟩,
    ⟨js "absoluteRedirectN", js "/absolute-redirect/", js "/absolute-redirect/"⟩]

/-- The target of the redirect for a count. -/
def nextTarget (next : JsString) (n : Int) : JsString :=
  if n ≤ 1 then js "/get" else next ++ integer (n - 1)

theorem lead_mem_of_redirectors : ∀ redirector ∈ redirectors,
    ∃ next ∈ redirectors, next.lead = redirector.next ∧ next.next = redirector.next ∧
      next.lead ∈ [js "/relative-redirect/", js "/absolute-redirect/"] := by
  decide

theorem exists_nextTarget_eq {redirector : Redirector} (h : redirector ∈ redirectors) (n : Int) :
    ∃ c rest, nextTarget redirector.next n = unit '/' :: c :: rest ∧ c ≠ unit '/' := by
  rw [nextTarget]
  split_ifs with hn
  · exact ⟨unit 'g', js "et", by decide, by decide⟩
  · simp only [redirectors, List.mem_cons, List.not_mem_nil, or_false] at h
    obtain rfl | rfl | rfl := h
    · exact ⟨unit 'r', js "elative-redirect/" ++ integer (n - 1), rfl, by decide⟩
    · exact ⟨unit 'r', js "elative-redirect/" ++ integer (n - 1), rfl, by decide⟩
    · exact ⟨unit 'a', js "bsolute-redirect/" ++ integer (n - 1), rfl, by decide⟩

theorem getBaseUrl_rootCall (url : JsString) :
    getBaseUrl (rootCall options url) = rootOrigin options := by
  have hauthority : (rootCall options url).truthyHeader (js ":authority") = none := rfl
  have hhost : (rootCall options url).header (js "host") = some options.rootDomain := rfl
  rw [getBaseUrl, hauthority, hhost]
  rfl

theorem countdown_of_count {rule : CountRule} {path : JsString} {n : Int}
    (h : parseCount rule path = .ok n) (base next : JsString) :
    countdown rule base next path =
      .ok (respondEmpty 302 [location (base ++ nextTarget next n)]) := by
  have htarget : base ++ nextTarget next n =
      if n ≤ 1 then base ++ js "/get" else base ++ next ++ integer (n - 1) := by
    rw [nextTarget]
    split_ifs with hn
    · rfl
    · exact (List.append_assoc ..).symm
  rw [countdown, h, htarget]
  rfl

/-- A redirector answers with the next target, from below its own host or from an origin. -/
theorem handle_of_redirector {redirector : Redirector} (h : redirector ∈ redirectors)
    {endpoint : HandledEndpoint} (hmem : endpoint ∈ handledEndpoints)
    (hname : endpoint.name = redirector.name) {path : JsString} {hostnamePrefix : Option JsString}
    (hmatch : endpoint.matchPath path hostnamePrefix = .ok true) :
    ∃ n, parseCount (redirectRule redirector.lead) path = .ok n ∧
      ∃ base ∈ [[], rootOrigin options], ∀ url params,
        endpoint.handle library (rootCall options url) ⟨path, params⟩ =
          .done (respondEmpty 302 [location (base ++ nextTarget redirector.next n)]) := by
  simp only [redirectors, List.mem_cons, List.not_mem_nil, or_false] at h
  obtain rfl | rfl | rfl := h
  · obtain rfl : endpoint = ⟨redirectN, redirectN.handle⟩ :=
      eq_of_name hmem (List.mem_of_getElem? (i := 28) rfl) hname
    obtain ⟨n, hn⟩ := PathParameters.exists_parseCount_of_matchPath hmatch
    refine ⟨n, hn, [], List.mem_cons_self, fun url params => ?_⟩
    change redirectN.handle library (rootCall options url) ⟨path, params⟩ = _
    rw [redirectN.handle, countdown_of_count hn]
    rfl
  · obtain rfl : endpoint = ⟨relativeRedirectN, relativeRedirectN.handle⟩ :=
      eq_of_name hmem (List.mem_of_getElem? (i := 30) rfl) hname
    obtain ⟨n, hn⟩ := PathParameters.exists_parseCount_of_matchPath hmatch
    refine ⟨n, hn, [], List.mem_cons_self, fun url params => ?_⟩
    change relativeRedirectN.handle library (rootCall options url) ⟨path, params⟩ = _
    rw [relativeRedirectN.handle, countdown_of_count hn]
    rfl
  · obtain rfl : endpoint = ⟨absoluteRedirectN, absoluteRedirectN.handle⟩ :=
      eq_of_name hmem (List.mem_of_getElem? (i := 0) rfl) hname
    obtain ⟨n, hn⟩ := PathParameters.exists_parseCount_of_matchPath hmatch
    refine ⟨n, hn, rootOrigin options, List.mem_cons_of_mem _ List.mem_cons_self,
      fun url params => ?_⟩
    change absoluteRedirectN.handle library (rootCall options url) ⟨path, params⟩ = _
    rw [absoluteRedirectN.handle, getBaseUrl_rootCall, countdown_of_count hn]
    rfl

theorem locationTarget_of_base {base : JsString} (hbase : base ∈ [[], rootOrigin options])
    {c : UInt16} (hc : c ≠ unit '/') (rest : JsString) :
    locationTarget (rootOrigin options) (base ++ unit '/' :: c :: rest) =
      some (unit '/' :: c :: rest) := by
  simp only [List.mem_cons, List.not_mem_nil, or_false] at hbase
  obtain rfl | rfl := hbase
  · have hrooted : startsWith (unit '/' :: c :: rest) (js "/") = true :=
      startsWith_iff.mpr ⟨c :: rest, rfl⟩
    have hdoubled : ¬ startsWith (unit '/' :: c :: rest) (js "//") = true := by
      rw [startsWith_iff]
      rintro ⟨tail, htail⟩
      exact hc (List.cons.inj (List.cons.inj htail).2).1.symm
    rw [List.nil_append, locationTarget, if_pos ⟨hrooted, hdoubled⟩]
  · have hrooted : ¬ startsWith (rootOrigin options ++ unit '/' :: c :: rest) (js "/") = true := by
      rw [startsWith_iff]
      rintro ⟨tail, htail⟩
      exact absurd (List.cons.inj htail).1 (by decide)
    have horigin : startsWith (rootOrigin options ++ unit '/' :: c :: rest)
        (rootOrigin options ++ js "/") = true := by
      rw [startsWith_iff]
      exact (List.prefix_append_right_inj _).mpr ⟨c :: rest, rfl⟩
    rw [locationTarget, if_neg (fun h => hrooted h.1), if_pos horigin, List.drop_left]

/-- What is before the final response redirects nowhere. -/
theorem redirection_finalActions (actions : List ResponseAction) :
    redirection (finalActions actions) = redirection actions := by
  induction actions with
  | nil => rfl
  | cons action actions ih =>
      cases action with
      | informational code headers => exact ih
      | writeHead statusCode headers =>
          change redirection (.writeHead statusCode headers :: finalActions actions) = _
          rw [redirection, List.findSome?_cons, ← redirection, ih]
          rfl
      | _ => exact ih

theorem redirection_respondEmpty (target : JsString) :
    redirection (respondEmpty 302 [location target]) = some target := by
  have hlocation : locationValue [location target] = some target := by
    simp [locationValue, location]
  simp [redirection, respondEmpty, writeHead, hlocation]

theorem visible_of_base (hdomain : ∀ c ∈ options.rootDomain, 0x20 ≤ c ∧ c ≤ 0x7E)
    {base : JsString} (hbase : base ∈ [[], rootOrigin options]) :
    ∀ c ∈ base, 0x20 ≤ c ∧ c ≤ 0x7E := by
  simp only [List.mem_cons, List.not_mem_nil, or_false] at hbase
  obtain rfl | rfl := hbase
  · exact List.forall_mem_nil _
  · intro c hc
    obtain hc | hc := List.mem_append.mp hc
    · exact visible_of_all (by decide) c hc
    · exact hdomain c hc

theorem isPathname_nextTarget (hparses : ParsesRedirects library) {redirector : Redirector}
    (h : redirector ∈ redirectors) (n : Int) :
    IsPathname library (nextTarget redirector.next n) := by
  obtain ⟨next, -, hlead, -, hmem⟩ := lead_mem_of_redirectors redirector h
  rw [nextTarget]
  split_ifs with hn
  · exact hparses.get
  · rw [hlead] at hmem
    rw [integer, if_neg (by omega)]
    exact hparses.count redirector.next hmem _

/-- The endpoints of a chain take their paths. -/
theorem matchPath_of_resolveHandled {initialPath : JsString} {hostnamePrefix : Option JsString}
    {turns : Nat} {path : Option JsString} {entries : List (ChainEntry HandledEndpoint)}
    (h : resolveHandled initialPath hostnamePrefix turns path = .ok entries) :
    ∀ entry ∈ entries, entry.endpoint ∈ handledEndpoints ∧
      entry.endpoint.matchPath entry.path hostnamePrefix = .ok true := by
  induction turns generalizing path entries with
  | zero =>
      match path with
      | none | some [] =>
          cases h
          exact List.forall_mem_nil _
      | some (c :: rest) => cases h
  | succ turns ih =>
      match path with
      | none | some [] =>
          cases h
          exact List.forall_mem_nil _
      | some (c :: rest) =>
          obtain ⟨endpoint, tail, hfound, htail, rfl⟩ := resolveHandled_succ_eq_ok_iff.mp h
          exact List.forall_mem_cons.mpr ⟨handledMatch_eq_some_iff.mp hfound, ih htail⟩

theorem actionError_of_accepts (haccepts : AcceptsRedirects library) {statusCode : Nat}
    (hstatus : statusCode ∈ [200, 302]) {headers : HeaderList}
    (h : ∀ entry ∈ headers, library.headerError .http1 entry.1 entry.2 = none) :
    actionError library .http1 (writeHead statusCode headers) = none := by
  have hheaders : (headers.findSome? fun entry =>
      library.headerError .http1 entry.1 entry.2) = none := List.findSome?_eq_none_iff.mpr h
  rw [writeHead, actionError, haccepts.status statusCode hstatus, hheaders]
  rfl

/-- A request whose chain ends with a redirector is redirected to the next target. -/
theorem follow_of_chain (haccepts : AcceptsRedirects library) (hparses : ParsesRedirects library)
    (hroot : ParsesRootDomain library options)
    (hdomain : ∀ c ∈ options.rootDomain, 0x20 ≤ c ∧ c ≤ 0x7E)
    {path query : JsString} (hquery : IsQueryText query) (hpath : IsPathname library path)
    {before : List (ChainEntry HandledEndpoint)} (hleaves : ∀ entry ∈ before, Leaves entry)
    {entry : ChainEntry HandledEndpoint}
    (hchain : handledChain path (some []) = .ok (before ++ [entry]))
    {redirector : Redirector} (h : redirector ∈ redirectors)
    (hname : entry.endpoint.name = redirector.name) :
    ∃ n, parseCount (redirectRule redirector.lead) entry.path = .ok n ∧
      follow library options (path ++ query) = some (nextTarget redirector.next n) := by
  obtain ⟨hmem, hmatch⟩ := matchPath_of_resolveHandled hchain entry
    (List.mem_append_right _ (List.mem_singleton_self entry))
  obtain ⟨n, hn, base, hbase, hhandle⟩ :=
    @handle_of_redirector library options redirector h _ hmem hname _ _ hmatch
  refine ⟨n, hn, ?_⟩
  obtain ⟨params, actions, hanswer, hfinal⟩ :=
    finalResponse_rootCall hroot hquery hpath hleaves hchain
  have hvisible : ∀ c ∈ base ++ nextTarget redirector.next n, 0x20 ≤ c ∧ c ≤ 0x7E := by
    intro c hc
    obtain hc | hc := List.mem_append.mp hc
    · exact visible_of_base hdomain hbase c hc
    · exact visible_of_mem_drop (isPathname_nextTarget hparses h n) 0 c hc
  have haccepted : ∀ action ∈ respondEmpty 302 [location (base ++ nextTarget redirector.next n)],
      actionError library .http1 action = none := by
    refine List.forall_mem_cons.mpr ⟨?_, List.forall_mem_singleton.mpr rfl⟩
    exact actionError_of_accepts haccepts (by decide)
      (List.forall_mem_singleton.mpr (haccepts.header _ _ List.mem_cons_self hvisible))
  have hlast := lastResponse_of_done (hhandle (path ++ query) params) haccepted
  rw [lastResponse] at hlast
  rw [hlast] at hfinal
  have hredirection : redirection actions = some (base ++ nextTarget redirector.next n) := by
    rw [← redirection_finalActions, hfinal, redirection_finalActions, redirection_respondEmpty]
  obtain ⟨c, rest, htarget, hc⟩ := exists_nextTarget_eq h n
  rw [follow, hanswer]
  dsimp only
  rw [hredirection, Option.bind_some, htarget, locationTarget_of_base hbase hc]

theorem isCounted_append_decimal (lead : JsString) (n : Nat) :
    isCounted lead (lead ++ decimal n) = true := by
  rw [isCounted, List.drop_left, Bool.and_eq_true_iff, Bool.and_eq_true_iff]
  refine ⟨⟨startsWith_iff.mpr (List.prefix_append _ _), decide_eq_true (decimal_ne_nil n)⟩, ?_⟩
  exact List.all_eq_true.mpr fun c hc => isDigit_of_mem_decimal hc

theorem parseCount_append_decimal {lead : JsString} {n : Nat} (hlow : 1 ≤ n) (hhigh : n ≤ 100) :
    parseCount (redirectRule lead) (lead ++ decimal n) = .ok n := by
  apply PathParameters.parseCount_eq_ok_iff.mpr
  have hdrop : (lead ++ decimal n).drop (redirectRule lead).lead.length = decimal n :=
    List.drop_left
  have hleast : (redirectRule lead).least = 1 := rfl
  have hmost : (redirectRule lead).most = 100 := rfl
  rw [hdrop, hleast, hmost]
  exact ⟨parseInt_decimal n, by omega, by omega⟩

theorem matchPath_countEndpoint (name : JsString) {lead : JsString} {n : Nat} (hlow : 1 ≤ n)
    (hhigh : n ≤ 100) (hostnamePrefix : Option JsString) :
    (countEndpoint name (redirectRule lead)).matchPath (lead ++ decimal n) hostnamePrefix =
      .ok true := by
  have hcounted : isCounted (redirectRule lead).lead (lead ++ decimal n) = true :=
    isCounted_append_decimal lead n
  rw [countEndpoint]
  dsimp only
  rw [if_pos hcounted, parseCount_append_decimal hlow hhigh]
  rfl

/-- An endpoint that counts takes the paths that end with a count. -/
theorem exists_endpoint_of_redirector {redirector : Redirector} (h : redirector ∈ redirectors)
    {n : Nat} (hlow : 1 ≤ n) (hhigh : n ≤ 100) :
    ∃ endpoint ∈ handledEndpoints, endpoint.name = redirector.name ∧
      endpoint.matchPath (redirector.lead ++ decimal n) (some []) = .ok true := by
  simp only [redirectors, List.mem_cons, List.not_mem_nil, or_false] at h
  obtain rfl | rfl | rfl := h
  · exact ⟨⟨redirectN, redirectN.handle⟩, List.mem_of_getElem? (i := 28) rfl, rfl,
      matchPath_countEndpoint _ hlow hhigh _⟩
  · exact ⟨⟨relativeRedirectN, relativeRedirectN.handle⟩, List.mem_of_getElem? (i := 30) rfl, rfl,
      matchPath_countEndpoint _ hlow hhigh _⟩
  · exact ⟨⟨absoluteRedirectN, absoluteRedirectN.handle⟩, List.mem_of_getElem? (i := 0) rfl, rfl,
      matchPath_countEndpoint _ hlow hhigh _⟩

theorem handledChain_of_matchPath {endpoint : HandledEndpoint} (hmem : endpoint ∈ handledEndpoints)
    (hdelay : endpoint.name ≠ js "delayEndpoint") (hinfo : endpoint.name ≠ js "informational")
    {path : JsString} (hpath : path ≠ [])
    (hmatch : endpoint.matchPath path (some []) = .ok true) :
    handledChain path (some []) = .ok [⟨endpoint, path⟩] := by
  cases path with
  | nil => exact absurd rfl hpath
  | cons c rest =>
      rw [handledChain_eq]
      refine resolveHandled_succ_eq_ok_iff.mpr
        ⟨endpoint, [], handledMatch_of_mem hmem hmatch, ?_, rfl⟩
      rw [getRemainingPath_eq_none endpoint hmem hdelay hinfo, resolveHandled_nothing]

theorem name_ne_of_redirectors : ∀ redirector ∈ redirectors,
    redirector.name ≠ js "delayEndpoint" ∧ redirector.name ≠ js "informational" := by
  decide

theorem integer_pred (n : Nat) : integer (((n + 1 : Nat) : Int) - 1) = decimal n := by
  have hpred : ((n + 1 : Nat) : Int) - 1 = n := by omega
  rw [hpred, integer, if_neg (by omega), Int.natAbs_natCast]

/-- A count is walked down to the end. -/
theorem followed_of_count (haccepts : AcceptsRedirects library) (hparses : ParsesRedirects library)
    (hroot : ParsesRootDomain library options)
    (hdomain : ∀ c ∈ options.rootDomain, 0x20 ≤ c ∧ c ≤ 0x7E) {redirector : Redirector}
    (h : redirector ∈ redirectors) (hnext : redirector.next = redirector.lead)
    {n : Nat} (hlow : 1 ≤ n) (hhigh : n ≤ 100) :
    followed library options n (redirector.lead ++ decimal n) = some (js "/get") := by
  induction n with
  | zero => cases hlow
  | succ n ih =>
      obtain ⟨endpoint, hendpoint, hname, hmatch⟩ := exists_endpoint_of_redirector h hlow hhigh
      obtain ⟨hdelay, hinfo⟩ := name_ne_of_redirectors redirector h
      have hchain := handledChain_of_matchPath hendpoint (hname ▸ hdelay) (hname ▸ hinfo)
        (List.append_ne_nil_of_right_ne_nil _ (decimal_ne_nil _)) hmatch
      obtain ⟨next, -, hlead, -, hmem⟩ := lead_mem_of_redirectors redirector h
      have hpath := hparses.count redirector.lead (by rwa [← hnext, ← hlead]) (n + 1)
      obtain ⟨m, hm, hfollow⟩ := follow_of_chain haccepts hparses hroot hdomain isQueryText_nil
        hpath (List.forall_mem_nil _) hchain h hname
      cases (parseCount_append_decimal hlow hhigh).symm.trans hm
      rw [List.append_nil] at hfollow
      rw [followed, hfollow, Option.bind_some, nextTarget]
      split_ifs with hn
      · obtain rfl : n = 0 := by omega
        rfl
      · rw [integer_pred, hnext]
        exact ih (by omega) (by omega)

/-- `/get` answers with the details of the request. -/
theorem exists_answer_get (haccepts : AcceptsRedirects library)
    (hparses : ParsesRedirects library) (hroot : ParsesRootDomain library options) :
    ∃ actions data, answerRequest library options (rootCall options (js "/get")) =
        .response actions ∧
      finalActions actions = respondWith 200 jsonHeaders (.details .document data) := by
  let endpoint : HandledEndpoint := ⟨getMethodEndpoint, methodHandler⟩
  have hmem : endpoint ∈ handledEndpoints := List.mem_of_getElem? (i := 18) rfl
  have hchain : handledChain (js "/get") (some []) = .ok [⟨endpoint, js "/get"⟩] :=
    handledChain_of_matchPath hmem (by decide) (by decide) (by decide) (by decide)
  obtain ⟨params, actions, hanswer, hfinal⟩ := finalResponse_rootCall hroot isQueryText_nil
    hparses.get (List.forall_mem_nil Leaves) hchain
  obtain ⟨data, hdata⟩ := exists_details hroot isQueryText_nil hparses.get (some getFields)
  have hhandle : methodHandler library (rootCall options (js "/get" ++ [])) ⟨js "/get", params⟩ =
      .done (respondWith 200 jsonHeaders (.details .document data)) := by
    have hmethod : asciiUpperCase ((js "/get").drop 1) = js "GET" := by decide
    rw [methodHandler]
    dsimp only
    have hsame : (rootCall options (js "/get" ++ [])).method = js "GET" := rfl
    rw [hmethod, hsame, if_neg fun h => h rfl, if_pos rfl, buildHttpBinAnythingEndpoint, hdata]
    rfl
  have haccepted : ∀ action ∈ respondWith 200 jsonHeaders (.details .document data),
      actionError library .http1 action = none := by
    have hheader := haccepts.header (js "Content-Type") (js "application/json") (by decide)
      (visible_of_all (by decide))
    refine List.forall_mem_cons.mpr ⟨?_, List.forall_mem_cons.mpr
      ⟨rfl, List.forall_mem_singleton.mpr rfl⟩⟩
    exact actionError_of_accepts haccepts (by decide) (List.forall_mem_singleton.mpr hheader)
  have hlast : lastResponse library options ⟨endpoint, js "/get"⟩ (js "/get" ++ []) params = _ :=
    lastResponse_of_done hhandle haccepted
  rw [lastResponse] at hlast
  rw [hlast] at hfinal
  exact ⟨actions, data, hanswer, hfinal⟩

theorem redirection_details (data : RequestDetails) :
    redirection (respondWith 200 jsonHeaders (.details .document data)) = none := by
  simp [redirection, respondWith, writeHead]

theorem acceptsRedirects_plainLibrary : AcceptsRedirects plainLibrary where
  status _ _ := rfl
  header _ _ _ _ := rfl

theorem parsesRedirects_plainLibrary : ParsesRedirects plainLibrary where
  get := isPathname_plainLibrary (by decide)
  count lead hlead n := by
    have hlead : startsWith lead (js "/") = true ∧
        lead.all (fun c => decide (0x21 ≤ c ∧ c ≤ 0x7E ∧ c ≠ unit '?')) = true := by
      have hall : ∀ lead ∈ [js "/relative-redirect/", js "/absolute-redirect/"],
          startsWith lead (js "/") = true ∧
            lead.all (fun c => decide (0x21 ≤ c ∧ c ≤ 0x7E ∧ c ≠ unit '?')) = true := by decide
      exact hall lead hlead
    apply isPathname_plainLibrary
    rw [isVisiblePath, Bool.and_eq_true_iff, List.all_append, Bool.and_eq_true_iff]
    refine ⟨startsWith_iff.mpr ((startsWith_iff.mp hlead.1).trans (List.prefix_append _ _)),
      hlead.2, List.all_eq_true.mpr fun c hc => ?_⟩
    have hdigit := isDigit_of_mem_decimal hc
    rw [isDigit, decide_eq_true_eq] at hdigit
    refine decide_eq_true ⟨UInt16.le_trans (by decide) hdigit.1,
      UInt16.le_trans hdigit.2 (by decide), ?_⟩
    rintro rfl
    exact absurd hdigit.2 (by decide)

end RedirectWalks

end TestServer
