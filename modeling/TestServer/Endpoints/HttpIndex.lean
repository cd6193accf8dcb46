import TestServer.EndpointChain
import TestServer.Js.Number

/-!
# HTTP endpoints

The endpoints of `src/endpoints/http`, as far as they match a path and split it,
and their table in the order of their names.

## Implementation notes

Paths are path names of parsed URLs, so their letters are ASCII.
-/

namespace TestServer.Endpoints

open Js Library

structure HttpEndpoint extends ChainableEndpoint where
  needsRawData : Bool

def badRequest (message : JsString) : Thrown := .statusError 400 message

/-- An endpoint whose match cannot throw and that leaves nothing. -/
def plainEndpoint (name : JsString) (takes : JsString → Bool) : HttpEndpoint where
  name := name
  matchPath path _ := .ok (takes path)
  getRemainingPath _ := none
  needsRawData := false

/-- An endpoint with one path. -/
def pathEndpoint (name only : JsString) : HttpEndpoint :=
  plainEndpoint name fun path => decide (path = only)

/-- An endpoint that takes every path that goes on after a leading part. -/
def tailEndpoint (name lead : JsString) : HttpEndpoint :=
  plainEndpoint name fun path => startsWith path lead && decide (path.length > lead.length)

/-- An endpoint with a leading part and two segments. -/
def credentialsEndpoint (name lead : JsString) : HttpEndpoint :=
  plainEndpoint name fun path =>
    match split path (js "/") with
    | [[], first, username, password] =>
        decide (first = lead ∧ username ≠ [] ∧ password ≠ [])
    | _ => false

/-- The bounds of a count in a path, and how the messages about it begin. -/
structure CountRule where
  lead : JsString
  least : Int
  most : Int
  invalid : JsString
  exceeds : JsString

/-- The count at the end of a path. -/
def parseCount (rule : CountRule) (path : JsString) : Except Thrown Int :=
  match parseInt (path.drop rule.lead.length) with
  | none => .error (badRequest (rule.invalid ++ path))
  | some n =>
      if n < rule.least then .error (badRequest (rule.invalid ++ path))
      else if n > rule.most then .error (badRequest (rule.exceeds ++ integer rule.most))
      else .ok n

/-- Whether a path is a leading part and digits. -/
def isCounted (lead path : JsString) : Bool :=
  startsWith path lead && decide (path.drop lead.length ≠ []) &&
    (path.drop lead.length).all isDigit

/-- An endpoint with a count at its end. -/
def countEndpoint (name : JsString) (rule : CountRule) : HttpEndpoint where
  name := name
  matchPath path _ :=
    if isCounted rule.lead path then do
      let _ ← parseCount rule path
      return true
    else .ok false
  getRemainingPath _ := none
  needsRawData := false

def anything : HttpEndpoint :=
  plainEndpoint (js "anything") fun path =>
    decide (path = js "/anything") || startsWith path (js "/anything/")

def echo : HttpEndpoint :=
  { pathEndpoint (js "echo") (js "/echo") with needsRawData := true }

def headers : HttpEndpoint := pathEndpoint (js "headers") (js "/headers")

def ip : HttpEndpoint := pathEndpoint (js "ip") (js "/ip")

def userAgent : HttpEndpoint := pathEndpoint (js "userAgent") (js "/user-agent")

/-- `METHODS` of Node's `http` module. -/
def httpMethods : List JsString :=
  [js "ACL", js "BIND", js "CHECKOUT", js "CONNECT", js "COPY", js "DELETE", js "GET", js "HEAD",
    js "LINK", js "LOCK", js "M-SEARCH", js "MERGE", js "MKACTIVITY", js "MKCALENDAR",
    js "MKCOL", js "MOVE", js "NOTIFY", js "OPTIONS", js "PATCH", js "POST", js "PROPFIND",
    js "PROPPATCH", js "PURGE", js "PUT", js "QUERY", js "REBIND", js "REPORT", js "SEARCH",
    js "SOURCE", js "SUBSCRIBE", js "TRACE", js "UNBIND", js "UNLINK", js "UNLOCK",
    js "UNSUBSCRIBE"]

def nonGetMethods : List JsString := httpMethods.filter fun method => decide (method ≠ js "GET")

def getMethodEndpoint : HttpEndpoint :=
  plainEndpoint (js "getMethodEndpoint") fun path =>
    decide (asciiUpperCase (path.drop 1) = js "GET")

def nonGetMethodEndpoint : HttpEndpoint :=
  plainEndpoint (js "nonGetMethodEndpoint") fun path =>
    nonGetMethods.any fun method => decide (asciiUpperCase (path.drop 1) = method)

def basicAuth : HttpEndpoint := credentialsEndpoint (js "basicAuth") (js "basic-auth")

def hiddenBasicAuth : HttpEndpoint :=
  credentialsEndpoint (js "hiddenBasicAuth") (js "hidden-basic-auth")

def bearer : HttpEndpoint := pathEndpoint (js "bearer") (js "/bearer")

def base64Decode : HttpEndpoint := tailEndpoint (js "base64Decode") (js "/base64/")

def bytesEndpoint : HttpEndpoint :=
  countEndpoint (js "bytesEndpoint")
    ⟨js "/bytes/", 0, 102400, js "Invalid byte count in ", js "Byte count exceeds maximum of "⟩

def streamBytesEndpoint : HttpEndpoint :=
  countEndpoint (js "streamBytesEndpoint")
    ⟨js "/stream-bytes/", 0, 102400, js "Invalid byte count in ",
      js "Byte count exceeds maximum of "⟩

def streamEndpoint : HttpEndpoint :=
  countEndpoint (js "streamEndpoint")
    ⟨js "/stream/", 0, 100, js "Invalid stream count in ", js "Stream count exceeds maximum of "⟩

def delayEndpoint : HttpEndpoint where
  name := js "delayEndpoint"
  matchPath path _ :=
    if ¬ startsWith path (js "/delay/") then .ok false
    else if ¬ parseFloatIsNumber (segmentAfter (js "/delay/") path).1 then
      .error (badRequest (js "Invalid delay duration in " ++ path))
    else .ok true
  getRemainingPath path := (segmentAfter (js "/delay/") path).2
  needsRawData := false

def uuid : HttpEndpoint := pathEndpoint (js "uuid") (js "/uuid")

def cache : HttpEndpoint := pathEndpoint (js "cache") (js "/cache")

def cacheWithAge : HttpEndpoint where
  name := js "cacheWithAge"
  matchPath path _ :=
    if ¬ startsWith path (js "/cache/") then .ok false
    else match parseInt (path.drop (js "/cache/").length) with
      | none => .error (badRequest (js "Invalid cache duration in " ++ path))
      | some _ => .ok true
  getRemainingPath _ := none
  needsRawData := false

def etag : HttpEndpoint := tailEndpoint (js "etag") (js "/etag/")

def getCookies : HttpEndpoint := pathEndpoint (js "getCookies") (js "/cookies")

def setCookies : HttpEndpoint :=
  plainEndpoint (js "setCookies") fun path =>
    decide (path = js "/cookies/set") ||
      startsWith path (js "/cookies/set/") && decide ((split path (js "/")).length = 5)

def deleteCookies : HttpEndpoint := pathEndpoint (js "deleteCookies") (js "/cookies/delete")

def status : HttpEndpoint where
  name := js "status"
  matchPath path _ :=
    if ¬ startsWith path (js "/status/") then .ok false
    else match parseInt (path.drop (js "/status/").length) with
      | none => .error (badRequest (js "Invalid status code in " ++ path))
      | some statusCode =>
          if 100 ≤ statusCode ∧ statusCode < 200 then
            .error (badRequest (js "1xx codes are informational and cannot be used as a final " ++
              js "response. Use /info/" ++ integer statusCode ++ js " instead."))
          else .ok true
  getRemainingPath _ := none
  needsRawData := false

def isSupportedInformationalCode (code : Int) : Bool :=
  decide (100 ≤ code ∧ code < 200 ∧ code ≠ 101)

def informational : HttpEndpoint where
  name := js "informational"
  matchPath path _ :=
    if ¬ startsWith path (js "/info/") then .ok false
    else match parseInt (segmentAfter (js "/info/") path).1 with
      | none => .error (badRequest (js "Invalid status code in " ++ path))
      | some code =>
          if isSupportedInformationalCode code then .ok true
          else .error (badRequest (integer code ++
            js " is not a 1xx informational status code. Use any code in 100-199 except 101 " ++
            js "(which is reserved for protocol upgrades)."))
  getRemainingPath path := (segmentAfter (js "/info/") path).2
  needsRawData := false

def responseHeaders : HttpEndpoint :=
  pathEndpoint (js "responseHeaders") (js "/response-headers")

def redirectTo : HttpEndpoint := pathEndpoint (js "redirectTo") (js "/redirect-to")

/-- A redirect endpoint, by its leading part. -/
def redirectRule (lead : JsString) : CountRule :=
  ⟨lead, 1, 100, js "Invalid redirect count in ", js "Redirect count exceeds maximum of "⟩

def redirectN : HttpEndpoint := countEndpoint (js "redirectN") (redirectRule (js "/redirect/"))

def relativeRedirectN : HttpEndpoint :=
  countEndpoint (js "relativeRedirectN") (redirectRule (js "/relative-redirect/"))

def absoluteRedirectN : HttpEndpoint :=
  countEndpoint (js "absoluteRedirectN") (redirectRule (js "/absolute-redirect/"))

def deny : HttpEndpoint := pathEndpoint (js "deny") (js "/deny")

def html : HttpEndpoint := pathEndpoint (js "html") (js "/html")

def json : HttpEndpoint := pathEndpoint (js "json") (js "/json")

def xml : HttpEndpoint := pathEndpoint (js "xml") (js "/xml")

def robotsTxt : HttpEndpoint := pathEndpoint (js "robotsTxt") (js "/robots.txt")

def brotli : HttpEndpoint := pathEndpoint (js "brotli") (js "/encoding/brotli")

def deflate : HttpEndpoint := pathEndpoint (js "deflate") (js "/encoding/deflate")

def gzip : HttpEndpoint := pathEndpoint (js "gzip") (js "/encoding/gzip")

def identity : HttpEndpoint := pathEndpoint (js "identity") (js "/encoding/identity")

def utf8Encoding : HttpEndpoint := pathEndpoint (js "utf8Encoding") (js "/encoding/utf8")

def zstd : HttpEndpoint := pathEndpoint (js "zstd") (js "/encoding/zstd")

def trailers : HttpEndpoint := pathEndpoint (js "trailers") (js "/trailers")

def closeEndpoint : HttpEndpoint := pathEndpoint (js "closeEndpoint") (js "/error/close")

def resetEndpoint : HttpEndpoint := pathEndpoint (js "resetEndpoint") (js "/error/reset")

def certNames : List JsString :=
  [js "untrusted-root", js "intermediate", js "self-signed", js "client-cert"]

def tlsCertificates : HttpEndpoint :=
  plainEndpoint (js "tlsCertificates") fun path =>
    startsWith path (js "/tls/certs/") &&
      certNames.any fun name => decide (path.drop (js "/tls/certs/").length = name)

def tlsClientHello : HttpEndpoint := pathEndpoint (js "tlsClientHello") (js "/tls/client-hello")

def tlsFingerprint : HttpEndpoint := pathEndpoint (js "tlsFingerprint") (js "/tls/fingerprint")

def versionJson : HttpEndpoint := pathEndpoint (js "versionJson") (js "/version")

def examplePage : HttpEndpoint where
  name := js "examplePage"
  matchPath path hostnamePrefix :=
    .ok (decide (path = js "/" ∧ hostnamePrefix = some (js "example")))
  getRemainingPath _ := none
  needsRawData := false

/-- The exports of `http-index.ts` by name. -/
def httpEndpoints : List HttpEndpoint :=
  [absoluteRedirectN, anything, base64Decode, basicAuth, bearer, brotli, bytesEndpoint, cache,
    cacheWithAge, closeEndpoint, deflate, delayEndpoint, deleteCookies, deny, echo, etag,
    examplePage, getCookies, getMethodEndpoint, gzip, headers, hiddenBasicAuth, html, identity,
    informational, ip, json, nonGetMethodEndpoint, redirectN, redirectTo, relativeRedirectN,
    resetEndpoint, responseHeaders, robotsTxt, setCookies, status, streamBytesEndpoint,
    streamEndpoint, tlsCertificates, tlsClientHello, tlsFingerprint, trailers, userAgent,
    utf8Encoding, uuid, versionJson, xml, zstd]

/-- Whether all that a match throws are errors with the status of a bad request. -/
def ThrowsBadRequest (endpoint : HttpEndpoint) : Prop :=
  ∀ path hostnamePrefix e, endpoint.matchPath path hostnamePrefix = .error e →
    ∃ message, e = badRequest message

theorem throwsBadRequest_plainEndpoint (name : JsString) (takes : JsString → Bool) :
    ThrowsBadRequest (plainEndpoint name takes) := by
  intro path hostnamePrefix e h
  cases h

theorem throwsBadRequest_countEndpoint (name : JsString) (rule : CountRule) :
    ThrowsBadRequest (countEndpoint name rule) := by
  intro path hostnamePrefix e h
  simp only [countEndpoint] at h
  split at h
  · rcases bind_error_iff.mp h with h | ⟨_, _, h⟩
    · simp only [parseCount] at h
      split at h
      · cases h
        exact ⟨_, rfl⟩
      · split at h
        · cases h
          exact ⟨_, rfl⟩
        · split at h <;> cases h
          exact ⟨_, rfl⟩
    · cases h
  · cases h

theorem throwsBadRequest_delayEndpoint : ThrowsBadRequest delayEndpoint := by
  intro path hostnamePrefix e h
  simp only [delayEndpoint] at h
  split at h
  · cases h
  · split at h <;> cases h
    exact ⟨_, rfl⟩

theorem throwsBadRequest_cacheWithAge : ThrowsBadRequest cacheWithAge := by
  intro path hostnamePrefix e h
  simp only [cacheWithAge] at h
  split at h
  · cases h
  · split at h <;> cases h
    exact ⟨_, rfl⟩

theorem throwsBadRequest_status : ThrowsBadRequest status := by
  intro path hostnamePrefix e h
  simp only [status] at h
  split at h
  · cases h
  · split at h
    · cases h
      exact ⟨_, rfl⟩
    · split at h <;> cases h
      exact ⟨_, rfl⟩

theorem throwsBadRequest_informational : ThrowsBadRequest informational := by
  intro path hostnamePrefix e h
  simp only [informational] at h
  split at h
  · cases h
  · split at h
    · cases h
      exact ⟨_, rfl⟩
    · split at h <;> cases h
      exact ⟨_, rfl⟩

/-- Every endpoint throws errors of bad requests only. -/
theorem httpEndpoints_throwBadRequest : ∀ endpoint ∈ httpEndpoints, ThrowsBadRequest endpoint := by
  simp only [httpEndpoints, List.forall_mem_cons]
  and_intros
  all_goals try first
    | exact throwsBadRequest_plainEndpoint _ _
    | exact throwsBadRequest_countEndpoint _ _
  · exact throwsBadRequest_cacheWithAge
  · exact throwsBadRequest_delayEndpoint
  · intro path hostnamePrefix e h
    cases h
  · exact throwsBadRequest_informational
  · exact throwsBadRequest_status
  · exact List.forall_mem_nil _

end TestServer.Endpoints
