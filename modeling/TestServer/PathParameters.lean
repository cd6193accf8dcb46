import TestServer.Endpoints.HttpHandlers
import TestServer.Routing

/-!
# Parameters in paths

Endpoints check the number in a path when they match it, and their handlers read it again. All
that pass the first check pass the second one, but for `/status/{code}`, which takes numbers that
are no status, and `/stream/{n}`, whose handler reads the target of the request instead.

## Implementation notes

What a second check throws is an error with a status; a handler throws other errors for requests
whose details cannot be read, and for random bytes of no size.
-/

namespace TestServer

open Js Library Endpoints ProcessConnection

namespace PathParameters

/-- The HTTP endpoints that read a number from their path. -/
inductive Parameterised where
  | status
  | informational
  | bytesEndpoint
  | streamEndpoint
  | streamBytesEndpoint
  | redirectN
  | relativeRedirectN
  | absoluteRedirectN
  | cacheWithAge
  | delayEndpoint

namespace Parameterised

def lead : Parameterised → JsString
  | status => js "/status/"
  | informational => js "/info/"
  | bytesEndpoint => js "/bytes/"
  | streamEndpoint => js "/stream/"
  | streamBytesEndpoint => js "/stream-bytes/"
  | redirectN => js "/redirect/"
  | relativeRedirectN => js "/relative-redirect/"
  | absoluteRedirectN => js "/absolute-redirect/"
  | cacheWithAge => js "/cache/"
  | delayEndpoint => js "/delay/"

def handled : Parameterised → HandledEndpoint
  | status => ⟨Endpoints.status, status.handle⟩
  | informational => ⟨Endpoints.informational, informational.handle⟩
  | bytesEndpoint => ⟨Endpoints.bytesEndpoint, bytesEndpoint.handle⟩
  | streamEndpoint => ⟨Endpoints.streamEndpoint, streamEndpoint.handle⟩
  | streamBytesEndpoint => ⟨Endpoints.streamBytesEndpoint, streamBytesEndpoint.handle⟩
  | redirectN => ⟨Endpoints.redirectN, redirectN.handle⟩
  | relativeRedirectN => ⟨Endpoints.relativeRedirectN, relativeRedirectN.handle⟩
  | absoluteRedirectN => ⟨Endpoints.absoluteRedirectN, absoluteRedirectN.handle⟩
  | cacheWithAge => ⟨Endpoints.cacheWithAge, cacheWithAge.handle⟩
  | delayEndpoint => ⟨Endpoints.delayEndpoint, delayEndpoint.handle⟩

end Parameterised

/-- The greatest status that Node accepts. -/
def greatestStatus : HttpVersion → Int
  | .http1 => 999
  | .http2 => 599

/-- A status that Node accepts for a final response. -/
def FinalStatus (version : HttpVersion) (statusCode : Option JsNumber) : Prop :=
  ∃ q : ℚ, statusCode = some (.finite q) ∧ 200 ≤ q ∧ q ≤ greatestStatus version

/-- No parameter is refused, and all statuses are accepted. -/
structure HandlesSafely (version : HttpVersion) (handled : Handled) : Prop where
  parses : ∀ statusCode message, handled.thrown ≠ some (.statusError statusCode message)
  final : ∀ statusCode headers, .writeHead statusCode headers ∈ handled.actions →
    FinalStatus version statusCode

/-- Whatever chain a path is left in, its resolution throws an error of the client. -/
def Rejected (path : JsString) (hostnamePrefix : Option JsString) : Prop :=
  ∀ toUpperCase, UpperCase toUpperCase → ∀ initialPath turns, ∃ statusCode message,
    resolveFrom HttpEndpoint.toChainableEndpoint (httpEndpointsIn toUpperCase) initialPath
      hostnamePrefix turns (some path) = .error (.statusError statusCode message) ∧
      400 ≤ statusCode ∧ statusCode < 500

/-- What is accepted in a match is handled, and all else with the leading part is rejected. -/
structure AcceptsSafely (endpoint : Parameterised) (library : HttpLibrary) (req : HttpCall)
    (options : HandleOptions) (hostnamePrefix : Option JsString) : Prop where
  handles : endpoint.handled.matchPath options.path hostnamePrefix = .ok true →
    HandlesSafely req.httpVersion (endpoint.handled.handle library req options)
  rejects : startsWith options.path endpoint.lead = true →
    endpoint.handled.matchPath options.path hostnamePrefix ≠ .ok true →
      Rejected options.path hostnamePrefix

/-- A path with a number that is below or above all statuses. -/
def NoStatus (version : HttpVersion) (path : JsString) : Prop :=
  startsWith path (js "/status/") = true ∧
    ∃ n, parseInt (path.drop (js "/status/").length) = some n ∧
      (n < 100 ∨ greatestStatus version < n)

/-- A counted path, where the target of the request has no such count after as many units. -/
def OtherTarget (url path : JsString) : Prop :=
  streamEndpoint.matchPath path none = .ok true ∧
    ∀ n, parseInt ((targetPath url).drop (js "/stream/").length) = some n → n < 0 ∨ 100 < n

/-- The kinds of requests for which an accepted parameter is no good. -/
def Mishandled (endpoint : Parameterised) (req : HttpCall) (path : JsString) : Prop :=
  match endpoint with
  | .status => NoStatus req.httpVersion path
  | .streamEndpoint => OtherTarget req.url path
  | _ => False

/-- What is thrown, if anything, has no status. -/
def OtherErrors {α : Type} (x : Except Thrown α) : Prop :=
  ∀ statusCode message, x ≠ .error (.statusError statusCode message)

theorem OtherErrors.bind {α β : Type} {x : Except Thrown α} {f : α → Except Thrown β}
    (hx : OtherErrors x) (hf : ∀ a, x = .ok a → OtherErrors (f a)) : OtherErrors (x >>= f) := by
  intro statusCode message h
  rcases bind_error_iff.mp h with h | ⟨a, ha, h⟩
  · exact hx statusCode message h
  · exact hf a ha statusCode message h

theorem OtherErrors.mapM {α β : Type} {f : α → Except Thrown β} (hf : ∀ a, OtherErrors (f a))
    (xs : List α) : OtherErrors (xs.mapM f) := by
  intro statusCode message h
  obtain ⟨a, -, ha⟩ := exists_mem_of_mapM_eq_error h
  exact hf a statusCode message ha

theorem OtherErrors.ok {α : Type} (a : α) : OtherErrors (.ok a) :=
  fun _ _ h => nomatch h

theorem otherErrors_capitalised (part : JsString) : OtherErrors (capitalised part) := by
  intro statusCode message h
  cases part <;> cases h

theorem otherErrors_canonicalHeaders (library : HttpLibrary) (headers : HeaderList) :
    OtherErrors (canonicalHeaders library headers) := by
  apply OtherErrors.bind
  · apply OtherErrors.mapM
    intro entry
    apply OtherErrors.bind
    · apply OtherErrors.bind
      · exact OtherErrors.mapM otherErrors_capitalised _
      · exact fun parts _ => OtherErrors.ok _
    · exact fun name _ => OtherErrors.ok _
  · exact fun pairs _ => OtherErrors.ok _

/-- Reading the details of a request fails without a status. -/
theorem otherErrors_details (library : HttpLibrary) (req : HttpCall)
    (fieldFilter : Option FieldFilter) :
    OtherErrors (buildHttpBinAnythingData library req fieldFilter) := by
  rw [buildHttpBinAnythingData]
  cases inspectedUrl library req with
  | none => exact fun _ _ h => nomatch h
  | some url =>
      apply OtherErrors.bind
      · exact otherErrors_canonicalHeaders library req.headers
      · exact fun headers _ => OtherErrors.ok _

/-- All statuses are ones that both protocols accept. -/
def PlainStatuses (actions : List ResponseAction) : Prop :=
  ∀ statusCode headers, .writeHead statusCode headers ∈ actions →
    ∃ n : Nat, statusCode = some (.finite n) ∧ 200 ≤ n ∧ n ≤ 599

theorem PlainStatuses.final {actions : List ResponseAction} (h : PlainStatuses actions)
    (version : HttpVersion) : ∀ statusCode headers, .writeHead statusCode headers ∈ actions →
      FinalStatus version statusCode := by
  intro statusCode headers hmem
  obtain ⟨n, rfl, hlow, hhigh⟩ := h statusCode headers hmem
  have hgreatest : 599 ≤ greatestStatus version := by cases version <;> decide
  refine ⟨n, rfl, by exact_mod_cast hlow, ?_⟩
  calc (n : ℚ) ≤ (599 : ℤ) := by exact_mod_cast hhigh
    _ ≤ greatestStatus version := Int.cast_le.mpr hgreatest

/-- A response with one status. -/
theorem plainStatuses_of_head {n : Nat} {headers : HeaderList} {rest : List ResponseAction}
    (hn : 200 ≤ n ∧ n ≤ 599) (hrest : ∀ statusCode headers, .writeHead statusCode headers ∉ rest) :
    PlainStatuses (writeHead n headers :: rest) := by
  intro statusCode fields hmem
  rcases List.mem_cons.mp hmem with heq | hmem
  · cases heq
    exact ⟨n, rfl, hn⟩
  · exact absurd hmem (hrest statusCode fields)

theorem plainStatuses_respondWith {n : Nat} (hn : 200 ≤ n ∧ n ≤ 599) (headers : HeaderList)
    (chunk : Chunk) : PlainStatuses (respondWith n headers chunk) := by
  apply plainStatuses_of_head hn
  intro statusCode fields hmem
  simp only [List.mem_cons, reduceCtorEq, List.not_mem_nil, or_self] at hmem

theorem plainStatuses_respondEmpty {n : Nat} (hn : 200 ≤ n ∧ n ≤ 599) (headers : HeaderList) :
    PlainStatuses (respondEmpty n headers) := by
  apply plainStatuses_of_head hn
  intro statusCode fields hmem
  simp only [List.mem_cons, reduceCtorEq, List.not_mem_nil, or_self] at hmem

theorem handlesSafely_done {actions : List ResponseAction} (h : PlainStatuses actions)
    (version : HttpVersion) : HandlesSafely version (.done actions) :=
  ⟨fun _ _ hthrown => (nomatch hthrown), h.final version⟩

/-- A handler that throws at most an error without a status before it does anything. -/
theorem handlesSafely_of {x : Except Thrown (List ResponseAction)} (herrors : OtherErrors x)
    (h : ∀ actions, x = .ok actions → PlainStatuses actions) (version : HttpVersion) :
    HandlesSafely version (.of x) := by
  cases x with
  | ok actions => exact handlesSafely_done (h actions rfl) version
  | error e =>
      refine ⟨fun statusCode message hthrown => ?_, fun _ _ hmem => (nomatch hmem)⟩
      exact herrors statusCode message (congrArg Except.error (Option.some.inj hthrown))

/-- A handler that responds with what it makes of the details of a request. -/
theorem handlesSafely_details {library : HttpLibrary} {req : HttpCall}
    {fieldFilter : Option FieldFilter} {respond : RequestDetails → List ResponseAction}
    (h : ∀ data, PlainStatuses (respond data)) (version : HttpVersion) :
    HandlesSafely version (.of (do
      let data ← buildHttpBinAnythingData library req fieldFilter
      return respond data)) := by
  apply handlesSafely_of
  · exact (otherErrors_details library req fieldFilter).bind fun data _ => OtherErrors.ok _
  · intro actions hactions
    obtain ⟨data, -, hreturn⟩ := bind_ok_iff.mp hactions
    cases hreturn
    exact h data

/-- A count that is read when a path is matched is read again. -/
theorem exists_parseCount_of_matchPath {name path : JsString} {rule : CountRule}
    {hostnamePrefix : Option JsString}
    (h : (countEndpoint name rule).matchPath path hostnamePrefix = .ok true) :
    ∃ n, parseCount rule path = .ok n := by
  simp only [countEndpoint] at h
  split_ifs at h
  · obtain ⟨n, hn, -⟩ := bind_ok_iff.mp h
    exact ⟨n, hn⟩
  · cases h

theorem parseCount_eq_ok_iff {rule : CountRule} {path : JsString} {n : Int} :
    parseCount rule path = .ok n ↔
      parseInt (path.drop rule.lead.length) = some n ∧ rule.least ≤ n ∧ n ≤ rule.most := by
  rw [parseCount]
  cases hn : parseInt (path.drop rule.lead.length) with
  | none =>
      constructor
      · intro h
        cases h
      · rintro ⟨h, -⟩
        cases h
  | some m =>
      dsimp only
      split_ifs with hleast hmost
      · constructor
        · intro h
          cases h
        · rintro ⟨hm, hlow, -⟩
          cases hm
          omega
      · constructor
        · intro h
          cases h
        · rintro ⟨hm, -, hhigh⟩
          cases hm
          omega
      · constructor
        · intro h
          cases h
          exact ⟨rfl, by omega, by omega⟩
        · rintro ⟨hm, -, -⟩
          cases hm
          rfl

theorem handlesSafely_countdown {name path lead base next : JsString}
    {hostnamePrefix : Option JsString}
    (h : (countEndpoint name (redirectRule lead)).matchPath path hostnamePrefix = .ok true)
    (version : HttpVersion) :
    HandlesSafely version (.of (countdown (redirectRule lead) base next path)) := by
  obtain ⟨n, hn⟩ := exists_parseCount_of_matchPath h
  rw [countdown, hn]
  exact handlesSafely_done (plainStatuses_respondEmpty (by decide) _) version

theorem handlesSafely_bytes (library : HttpLibrary) (req : HttpCall) {options : HandleOptions}
    {hostnamePrefix : Option JsString}
    (h : bytesEndpoint.matchPath options.path hostnamePrefix = .ok true) (version : HttpVersion) :
    HandlesSafely version (bytesEndpoint.handle library req options) := by
  obtain ⟨n, hn⟩ := exists_parseCount_of_matchPath h
  have hrule : parseCount (bytesRule (js "/bytes/")) options.path = .ok n := hn
  rw [bytesEndpoint.handle, hrule]
  exact handlesSafely_done (plainStatuses_respondWith (by decide) _ _) version

theorem handlesSafely_streamBytes (library : HttpLibrary) (req : HttpCall)
    {options : HandleOptions} {hostnamePrefix : Option JsString}
    (h : streamBytesEndpoint.matchPath options.path hostnamePrefix = .ok true)
    (version : HttpVersion) :
    HandlesSafely version (streamBytesEndpoint.handle library req options) := by
  obtain ⟨n, hn⟩ := exists_parseCount_of_matchPath h
  have hrule : parseCount (bytesRule (js "/stream-bytes/")) options.path = .ok n := hn
  have hhead : ∀ rest, (∀ statusCode headers, .writeHead statusCode headers ∉ rest) →
      PlainStatuses (writeHead 200 [binaryType] :: rest) :=
    fun rest hrest => plainStatuses_of_head (by decide) hrest
  rw [streamBytesEndpoint.handle, hrule]
  dsimp only
  cases parseChunkSize options.query with
  | some chunkSize =>
      apply handlesSafely_done
      apply hhead
      intro statusCode headers hmem
      simp at hmem
  | none =>
      dsimp only
      split_ifs with hpos
      · cases queryGet options.query (js "seed") with
        | some seed =>
            apply handlesSafely_done
            apply hhead
            intro statusCode headers hmem
            simp at hmem
        | none =>
            refine ⟨fun statusCode message hthrown => (nomatch hthrown), ?_⟩
            exact (hhead [] fun _ _ => List.not_mem_nil).final version
      · apply handlesSafely_done
        apply hhead
        intro statusCode headers hmem
        simp at hmem

theorem handlesSafely_cacheWithAge (library : HttpLibrary) (req : HttpCall)
    (options : HandleOptions) (version : HttpVersion) :
    HandlesSafely version (cacheWithAge.handle library req options) :=
  handlesSafely_details (fun _ => plainStatuses_respondWith (by decide) _ _) version

theorem handlesSafely_delay (library : HttpLibrary) (req : HttpCall)
    (options : HandleOptions) (version : HttpVersion) :
    HandlesSafely version (delayEndpoint.handle library req options) := by
  rw [delayEndpoint.handle]
  split_ifs
  · apply handlesSafely_done
    intro statusCode headers hmem
    cases hmem
  · exact handlesSafely_details (fun _ => plainStatuses_respondWith (by decide) _ _) version

theorem handlesSafely_informational (library : HttpLibrary) (req : HttpCall)
    (options : HandleOptions) (version : HttpVersion) :
    HandlesSafely version (informational.handle library req options) := by
  have hinterim : ∀ code links actions, PlainStatuses actions →
      PlainStatuses (.informational code links :: actions) := by
    intro code links actions hactions statusCode headers hmem
    rcases List.mem_cons.mp hmem with heq | hmem
    · cases heq
    · exact hactions statusCode headers hmem
  rw [informational.handle]
  by_cases hleaves : leavesPath informational options.path = true
  · simp only [if_pos hleaves]
    apply handlesSafely_done
    exact hinterim _ _ _ fun _ _ hmem => (nomatch hmem)
  · simp only [if_neg hleaves]
    apply handlesSafely_done
    exact hinterim _ _ _ (plainStatuses_respondWith (by decide) _ _)

theorem streamEndpoint_matchPath (path : JsString) (hostnamePrefix : Option JsString) :
    streamEndpoint.matchPath path hostnamePrefix = streamEndpoint.matchPath path none := rfl

/-- The lines are sent for a count in the target. -/
theorem handlesSafely_stream_of_count {library : HttpLibrary} {req : HttpCall}
    {options : HandleOptions} {n : Int} (h : parseCount streamRule (targetPath req.url) = .ok n)
    (version : HttpVersion) :
    HandlesSafely version (streamEndpoint.handle library req options) := by
  rw [streamEndpoint.handle, h]
  apply handlesSafely_details
  intro data
  apply plainStatuses_of_head (by decide)
  intro statusCode headers hmem
  simp [streamLine] at hmem

/-- A target without a count is refused while the request is handled. -/
theorem not_handlesSafely_stream {library : HttpLibrary} {req : HttpCall}
    {options : HandleOptions} {statusCode : Nat} {message : JsString}
    (h : parseCount streamRule (targetPath req.url) = .error (.statusError statusCode message))
    (version : HttpVersion) :
    ¬ HandlesSafely version (streamEndpoint.handle library req options) := by
  intro hsafe
  apply hsafe.parses statusCode message
  rw [streamEndpoint.handle, h]
  rfl

theorem exists_statusError_of_parseCount {rule : CountRule} {path : JsString}
    (h : ∀ n, parseCount rule path ≠ .ok n) :
    ∃ message, parseCount rule path = .error (.statusError 400 message) := by
  cases hcount : parseCount rule path with
  | ok n => exact absurd hcount (h n)
  | error e =>
      rw [parseCount] at hcount
      split at hcount
      · cases hcount
        exact ⟨_, rfl⟩
      · split_ifs at hcount
        · cases hcount
          exact ⟨_, rfl⟩
        · cases hcount
          exact ⟨_, rfl⟩

theorem handlesSafely_stream_iff {library : HttpLibrary} {req : HttpCall}
    {options : HandleOptions} {hostnamePrefix : Option JsString} (version : HttpVersion) :
    (streamEndpoint.matchPath options.path hostnamePrefix = .ok true →
      HandlesSafely version (streamEndpoint.handle library req options)) ↔
      ¬ OtherTarget req.url options.path := by
  rw [streamEndpoint_matchPath]
  by_cases hcount : ∃ n, parseCount streamRule (targetPath req.url) = .ok n
  · obtain ⟨n, hn⟩ := hcount
    obtain ⟨hparse, hlow, hhigh⟩ := parseCount_eq_ok_iff.mp hn
    refine ⟨fun _ hother => ?_, fun _ _ => handlesSafely_stream_of_count hn version⟩
    have hout := hother.2 n hparse
    simp only [streamRule] at hlow hhigh
    omega
  · obtain ⟨message, herror⟩ := exists_statusError_of_parseCount (not_exists.mp hcount)
    constructor
    · exact fun hsafe hother => not_handlesSafely_stream herror version (hsafe hother.1)
    · intro hother hmatch
      exfalso
      apply hother
      refine ⟨hmatch, fun n hparse => ?_⟩
      by_contra hin
      apply hcount
      refine ⟨n, parseCount_eq_ok_iff.mpr ⟨hparse, ?_⟩⟩
      simp only [streamRule]
      omega

theorem status_matchPath_eq_ok_iff {path : JsString} {hostnamePrefix : Option JsString} :
    Endpoints.status.matchPath path hostnamePrefix = .ok true ↔
      startsWith path (js "/status/") = true ∧
        ∃ n, parseInt (path.drop (js "/status/").length) = some n ∧ (n < 100 ∨ 200 ≤ n) := by
  simp only [Endpoints.status]
  split_ifs with hlead
  · cases hn : parseInt (path.drop (js "/status/").length) with
    | none => simp
    | some n =>
        dsimp only
        split_ifs with hinterim
        · constructor
          · intro h
            cases h
          · rintro ⟨-, m, hm, hout⟩
            cases hm
            omega
        · exact iff_of_true rfl ⟨hlead, n, rfl, by omega⟩
  · constructor
    · intro h
      cases h
    · exact fun h => absurd h.1 hlead

/-- The status that a number is written as is accepted if the number is. -/
theorem finalStatus_toDouble_iff {version : HttpVersion} {n : Int} :
    FinalStatus version (some (toDouble n)) ↔ 200 ≤ n ∧ n ≤ greatestStatus version := by
  have hgreatest : greatestStatus version ≤ 999 := by cases version <;> decide
  by_cases hsmall : |n| < 2 ^ 53
  · rw [toDouble_intCast hsmall]
    constructor
    · rintro ⟨q, hq, hlow, hhigh⟩
      cases hq
      exact ⟨by exact_mod_cast hlow, by exact_mod_cast hhigh⟩
    · rintro ⟨hlow, hhigh⟩
      exact ⟨n, rfl, by exact_mod_cast hlow, by exact_mod_cast hhigh⟩
  · have hlarge : 2 ^ 53 ≤ |n| := not_lt.mp hsmall
    constructor
    · rintro ⟨q, hq, hlow, hhigh⟩
      have hfinite : toDouble n = .finite q := Option.some.inj hq
      exfalso
      rcases lt_or_ge n 0 with hneg | hpos
      · have hq := toDouble_nonpos hneg hfinite
        linarith
      · rw [abs_of_nonneg hpos] at hlarge
        have hq := le_of_toDouble hlarge hfinite
        have hbound : (greatestStatus version : ℚ) ≤ (999 : ℤ) := Int.cast_le.mpr hgreatest
        norm_num at hbound hq
        linarith
    · rintro ⟨hlow, hhigh⟩
      rw [abs_of_nonneg (by omega)] at hlarge
      omega

theorem handlesSafely_status (library : HttpLibrary) (req : HttpCall) {options : HandleOptions}
    {n : Int} (hn : parseInt (options.path.drop (js "/status/").length) = some n)
    (version : HttpVersion) :
    HandlesSafely version (status.handle library req options) ↔
      200 ≤ n ∧ n ≤ greatestStatus version := by
  have hhandle : status.handle library req options =
      .done [.writeHead (some (toDouble n)) [], .finish] := by
    rw [status.handle, parseNumber, hn]
    rfl
  rw [hhandle, ← finalStatus_toDouble_iff]
  constructor
  · exact fun hsafe => hsafe.final _ _ List.mem_cons_self
  · intro hfinal
    refine ⟨fun _ _ hthrown => (nomatch hthrown), fun statusCode headers hmem => ?_⟩
    rcases List.mem_cons.mp hmem with heq | hmem
    · cases heq
      exact hfinal
    · simp only [List.mem_cons, reduceCtorEq, List.not_mem_nil, or_self] at hmem

theorem handlesSafely_status_iff (library : HttpLibrary) (req : HttpCall)
    {options : HandleOptions} {hostnamePrefix : Option JsString} (version : HttpVersion) :
    (Endpoints.status.matchPath options.path hostnamePrefix = .ok true →
      HandlesSafely version (status.handle library req options)) ↔
      ¬ NoStatus version options.path := by
  have hgreatest : 200 ≤ greatestStatus version := by cases version <;> decide
  rw [status_matchPath_eq_ok_iff]
  constructor
  · rintro hsafe ⟨hlead, n, hn, hout⟩
    have hin := (handlesSafely_status library req hn version).mp (hsafe ⟨hlead, n, hn, by omega⟩)
    omega
  · rintro hstatus ⟨hlead, n, hn, haccepted⟩
    apply (handlesSafely_status library req hn version).mpr
    by_contra hin
    apply hstatus
    exact ⟨hlead, n, hn, by omega⟩

theorem Parameterised.mem_httpEndpoints (endpoint : Parameterised) :
    endpoint.handled.toHttpEndpoint ∈ httpEndpoints := by
  rw [← map_handledEndpoints]
  apply List.mem_map_of_mem
  cases endpoint <;> simp [handled, handledEndpoints]

theorem Parameterised.mem_httpEndpointsIn (endpoint : Parameterised)
    (toUpperCase : JsString → JsString) :
    endpoint.handled.toHttpEndpoint ∈ httpEndpointsIn toUpperCase := by
  cases endpoint <;> simp [handled, httpEndpointsIn]

theorem Parameterised.owner_lead (endpoint : Parameterised) (toUpperCase : JsString → JsString)
    (rest : JsString) :
    httpOwner toUpperCase (endpoint.lead ++ rest) = endpoint.handled.name := by
  cases endpoint <;> rfl

/-- Where an endpoint owns a path, no other endpoint is found for it. -/
theorem eq_of_findMatch {toUpperCase : JsString → JsString} (hupper : UpperCase toUpperCase)
    {endpoint other : HttpEndpoint} {path : JsString} {hostnamePrefix : Option JsString}
    (hmem : endpoint ∈ httpEndpointsIn toUpperCase) (hother : other ∈ httpEndpointsIn toUpperCase)
    (howner : httpOwner toUpperCase path = endpoint.name)
    (hclaims : claims other.toChainableEndpoint path hostnamePrefix = true) : other = endpoint := by
  apply List.inj_on_of_nodup_map (nodup_httpEndpointsIn toUpperCase) hother hmem
  rw [← howner, owned_httpEndpointsIn hupper other hother path hostnamePrefix hclaims]

/-- A path that its endpoint does not take has no endpoint, or is a bad request. -/
theorem rejected_of_not_matched {endpoint : Parameterised} {path : JsString}
    {hostnamePrefix : Option JsString} (hlead : startsWith path endpoint.lead = true)
    (hmatch : endpoint.handled.matchPath path hostnamePrefix ≠ .ok true) :
    Rejected path hostnamePrefix := by
  intro toUpperCase hupper initialPath turns
  obtain ⟨rest, rfl⟩ := startsWith_iff.mp hlead
  obtain ⟨c, tail, hpath⟩ : ∃ c tail, endpoint.lead ++ rest = c :: tail := by
    cases endpoint <;> exact ⟨_, _, rfl⟩
  cases turns with
  | zero =>
      rw [hpath]
      exact ⟨400, _, rfl, by decide, by decide⟩
  | succ turns =>
      have hfind : findMatch HttpEndpoint.toChainableEndpoint (endpoint.lead ++ rest)
            hostnamePrefix (httpEndpointsIn toUpperCase) = .ok none ∨
          ∃ message, findMatch HttpEndpoint.toChainableEndpoint (endpoint.lead ++ rest)
            hostnamePrefix (httpEndpointsIn toUpperCase) = .error (badRequest message) := by
        rw [findMatch_eq]
        cases hfound : (httpEndpointsIn toUpperCase).find? fun e =>
            claims e.toChainableEndpoint (endpoint.lead ++ rest) hostnamePrefix with
        | none => exact Or.inl rfl
        | some other =>
            right
            have hclaims := List.find?_some hfound
            obtain rfl := eq_of_findMatch hupper (endpoint.mem_httpEndpointsIn toUpperCase)
              (List.mem_of_find?_eq_some hfound) (endpoint.owner_lead toUpperCase rest) hclaims
            cases hother : endpoint.handled.matchPath (endpoint.lead ++ rest) hostnamePrefix with
            | ok taken =>
                rw [claims, hother] at hclaims
                exact absurd (hother.trans (congrArg Except.ok hclaims)) hmatch
            | error e =>
                obtain ⟨message, rfl⟩ := httpEndpoints_throwBadRequest _
                  endpoint.mem_httpEndpoints _ _ _ hother
                exact ⟨message, by dsimp only; rw [hother]; rfl⟩
      rw [hpath] at hfind ⊢
      rcases hfind with hnone | ⟨message, herror⟩
      · exact ⟨404, _, by rw [resolveFrom, hnone]; rfl, by decide, by decide⟩
      · exact ⟨400, message, by rw [resolveFrom, herror]; rfl, by decide, by decide⟩

/-- An endpoint handles what it accepts, and rejects the rest, but for the two exceptions. -/
theorem acceptsSafely_iff (endpoint : Parameterised) (library : HttpLibrary) (req : HttpCall)
    (options : HandleOptions) (hostnamePrefix : Option JsString) :
    AcceptsSafely endpoint library req options hostnamePrefix ↔
      ¬ Mishandled endpoint req options.path := by
  have hsplit : AcceptsSafely endpoint library req options hostnamePrefix ↔
      (endpoint.handled.matchPath options.path hostnamePrefix = .ok true →
        HandlesSafely req.httpVersion (endpoint.handled.handle library req options)) :=
    ⟨AcceptsSafely.handles, fun h => ⟨h, fun hlead => rejected_of_not_matched hlead⟩⟩
  rw [hsplit]
  cases endpoint with
  | status => exact handlesSafely_status_iff library req req.httpVersion
  | streamEndpoint => exact handlesSafely_stream_iff req.httpVersion
  | informational =>
      refine iff_of_true (fun _ => ?_) not_false
      exact handlesSafely_informational library req options req.httpVersion
  | bytesEndpoint =>
      refine iff_of_true (fun hmatch => ?_) not_false
      exact handlesSafely_bytes library req hmatch req.httpVersion
  | streamBytesEndpoint =>
      refine iff_of_true (fun hmatch => ?_) not_false
      exact handlesSafely_streamBytes library req hmatch req.httpVersion
  | redirectN | relativeRedirectN | absoluteRedirectN =>
      refine iff_of_true (fun hmatch => ?_) not_false
      exact handlesSafely_countdown hmatch req.httpVersion
  | cacheWithAge =>
      refine iff_of_true (fun _ => ?_) not_false
      exact handlesSafely_cacheWithAge library req options req.httpVersion
  | delayEndpoint =>
      refine iff_of_true (fun _ => ?_) not_false
      exact handlesSafely_delay library req options req.httpVersion

/-- `/status/99999` is accepted, and its status is none. -/
theorem not_acceptsSafely_status :
    ¬ ∀ endpoint library req options hostnamePrefix,
      AcceptsSafely endpoint library req options hostnamePrefix := by
  intro hall
  have hsafe := (hall .status default (.get (js "/status/99999") [])
    ⟨js "/status/99999", []⟩ none).handles (by decide +kernel)
  have hfinal := (handlesSafely_status default (.get (js "/status/99999") []) (n := 99999)
    (by decide +kernel) .http1).mp hsafe
  exact absurd hfinal.2 (by decide)

end PathParameters

end TestServer
