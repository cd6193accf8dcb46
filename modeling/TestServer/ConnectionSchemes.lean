import TestServer.WrapperStacks
import TestServer.HttpAnswers

/-!
# The scheme of a connection

Three places ask whether a request came over TLS. The router looks at the `encrypted` flags of
the socket and of the stream under it; the reported URL and the absolute redirects ask whether
the socket is a `TLSSocket`, which the socket of an HTTP/2 session never is.

## Implementation notes

The URL parser is a parameter. All that is used of it is that the scheme of a URL is the one its
text names, or else that of the base.
-/

namespace TestServer

open Js Endpoints ProcessConnection

namespace Connection

/-- The `encrypted` property of the first of some streams, each of which wraps the next. -/
def encryptedOf : List Duplex → Option Bool
  | [] => none
  | stream :: wrapped =>
      match stream.kind with
      | .tcpSocket => none
      | .tlsSocket => some true
      | .dataCapturingStream => some ((encryptedOf wrapped).getD false)

def encrypted (conn : Connection) : Option Bool := encryptedOf (conn.outermost :: conn.wrapped)

/-- What is read of `req.socket`. -/
structure SocketView where
  encrypted : Option Bool
  /-- The property of the stream of a socket that has one. -/
  streamEncrypted : Option Bool
  isTlsSocket : Bool

/-- The socket of a request. For HTTP/2 it is the one that Node puts on the captured stream. -/
def socketView (conn : Connection) : HttpVersion → SocketView
  | .http1 => ⟨conn.encrypted, none, conn.outermost.kind == .tlsSocket⟩
  | .http2 => ⟨none, conn.encrypted, false⟩

/-- `isHttps` of `handleRequest`. -/
def SocketView.isHttps (view : SocketView) : Bool :=
  view.encrypted.getD false || view.streamEncrypted.getD false

end Connection

/-- A request that is received on a connection. -/
structure RequestOn (conn : Connection) (version : HttpVersion) (req : HttpCall) : Prop where
  sockets : req.toRequestSockets = conn.requestSockets version
  encrypted : req.encrypted = (conn.socketView version).isHttps
  tlsSocket : req.tlsSocket = (conn.socketView version).isTlsSocket

/-- The units of a scheme after its first one. -/
def isSchemeUnit (c : UInt16) : Bool :=
  isAlpha c || isDigit c || c == unit '+' || c == unit '-' || c == unit '.'

/-- The scheme that the text of a URL names. Tabs and line ends are passed over, and so are blanks
in front. -/
def schemeOf (text : JsString) : Option JsString :=
  match (text.filter fun c => c != 9 && c != 10 && c != 13).dropWhile fun c => c ≤ 32 with
  | [] => none
  | c :: rest =>
      if isAlpha c ∧ (rest.dropWhile isSchemeUnit).head? = some (unit ':') then
        some (asciiLowerCase (c :: rest.takeWhile isSchemeUnit))
      else none

/-- What is known of `new URL(target, base).href`. -/
def ReadsSchemes (library : HttpLibrary) : Prop :=
  ∀ target base url, library.parseUrl target base = some url →
    schemeOf url.href = (schemeOf target).or (schemeOf base)

/-- The targets of the redirects that are written. -/
def locations : ResponseAction → List JsString
  | .writeHead _ headers =>
      (headers.filter fun entry => decide (entry.1 = js "location")).map fun entry => entry.2.text
  | _ => []

/-- Every place has one scheme for a request. -/
structure SchemesAgree (library : HttpLibrary) (req : HttpCall) (scheme : JsString) : Prop where
  routed : protocol req.request = scheme
  reported : ∀ fieldFilter details text,
    buildHttpBinAnythingData library req fieldFilter = .ok details →
    (js "url", some (JsonValue.str text)) ∈ details → schemeOf text = some scheme
  redirected : ∀ options, ∀ action ∈ (absoluteRedirectN.handle library req options).actions,
    ∀ target ∈ locations action, schemeOf target = some scheme

/-- The scheme of a connection with some layers. -/
def schemeFor (layers : List Connection.TlsLayer) : JsString :=
  if layers.isEmpty then js "http" else js "https"

/-- The details of a request are reported: its URL can be parsed, and its headers be named. -/
def Reportable (library : HttpLibrary) (req : HttpCall) : Prop :=
  (inspectedUrl library req).isSome = true ∧
    ∃ headers, canonicalHeaders library req.headers = .ok headers

theorem schemeOf_append (secure : Bool) (rest : JsString) :
    schemeOf ((if secure then js "https" else js "http") ++ js "://" ++ rest) =
      some (if secure then js "https" else js "http") := by
  cases secure <;> rfl

namespace Connection

/-- On a connection with some layers, the outermost stream is the socket of the last one. -/
def Secured (n : Nat) (conn : Connection) : Prop :=
  conn.outermost.kind = if n = 0 then .tcpSocket else .tlsSocket

variable {n : Nat} {conn : Connection}

theorem Secured.encrypted (h : Secured n conn) :
    conn.encrypted = if n = 0 then none else some true := by
  rw [Secured] at h
  by_cases hn : n = 0
  · rw [if_pos hn] at h ⊢
    rw [Connection.encrypted, encryptedOf, h]
  · rw [if_neg hn] at h ⊢
    rw [Connection.encrypted, encryptedOf, h]

theorem Secured.isHttps (h : Secured n conn) (version : HttpVersion) :
    ((conn.under version).socketView version).isHttps = decide (n ≠ 0) := by
  cases version with
  | http1 =>
      rw [under, socketView, SocketView.isHttps, h.encrypted]
      by_cases hn : n = 0 <;> simp [hn]
  | http2 =>
      -- The capturing stream takes over the flag of what it wraps.
      have hcapture : conn.capture.encrypted = some (conn.encrypted.getD false) := rfl
      rw [under, socketView, SocketView.isHttps, hcapture, h.encrypted]
      by_cases hn : n = 0 <;> simp [hn]

theorem Secured.isTlsSocket (h : Secured n conn) (version : HttpVersion) :
    ((conn.under version).socketView version).isTlsSocket =
      decide (version = .http1 ∧ n ≠ 0) := by
  cases version with
  | http1 =>
      rw [Secured] at h
      rw [under, socketView, h]
      by_cases hn : n = 0 <;> simp [hn]
  | http2 => rfl

/-- What the two tests say about a request on a connection. -/
theorem view_of_processInitialConnection {trust : Bool} {remoteAddress : Option JsString}
    {reads : List (Option Bytes)} {layers : List TlsLayer} {version : HttpVersion}
    (h : processInitialConnection trust remoteAddress reads layers = some (version, conn)) :
    (conn.socketView version).isHttps = decide (layers.length ≠ 0) ∧
      (conn.socketView version).isTlsSocket = decide (version = .http1 ∧ layers.length ≠ 0) := by
  obtain ⟨inner, hsecured, rfl⟩ := exists_of_processInitialConnection (P := Secured)
    (fun _ => rfl) (fun _ _ _ _ => rfl) h
  exact ⟨hsecured.isHttps version, hsecured.isTlsSocket version⟩

end Connection

section

variable {library : HttpLibrary} {req : HttpCall}

theorem mem_of_mem_restrict {details : RequestDetails} {fields : List JsString}
    {field : JsString × Option JsonValue} (h : field ∈ details.restrict fields) :
    field ∈ details := by
  obtain ⟨name, -, hfind⟩ := List.mem_filterMap.mp h
  exact List.mem_of_find?_eq_some hfind

/-- The reported fields have different names. -/
theorem value_of_mem_fields
    {args data files form headers json method origin url value : Option JsonValue}
    (h : (js "url", value) ∈ [(js "args", args), (js "data", data), (js "files", files),
      (js "form", form), (js "headers", headers), (js "json", json), (js "method", method),
      (js "origin", origin), (js "url", url)]) : value = url := by
  simp only [List.mem_cons, Prod.mk.injEq, List.not_mem_nil, or_false] at h
  rcases h with ⟨h, -⟩ | ⟨h, -⟩ | ⟨h, -⟩ | ⟨h, -⟩ | ⟨h, -⟩ | ⟨h, -⟩ | ⟨h, -⟩ | ⟨h, -⟩ | ⟨-, h⟩
  case inr.inr.inr.inr.inr.inr.inr.inr => exact h
  all_goals exact absurd h (by decide)

/-- The URL that is reported is that of the request, whatever fields are asked for. -/
theorem url_of_buildHttpBinAnythingData {fieldFilter : Option FieldFilter}
    {details : RequestDetails} {text : JsString}
    (hbuild : buildHttpBinAnythingData library req fieldFilter = .ok details)
    (hurl : (js "url", some (JsonValue.str text)) ∈ details) :
    Reportable library req ∧ ∃ url, inspectedUrl library req = some url ∧ text = url.href := by
  rw [buildHttpBinAnythingData] at hbuild
  cases hinspected : inspectedUrl library req with
  | none =>
      rw [hinspected] at hbuild
      cases hbuild
  | some url =>
      rw [hinspected] at hbuild
      obtain ⟨headers, hheaders, hbuild⟩ := Library.bind_ok_iff.mp hbuild
      refine ⟨⟨by rw [hinspected]; rfl, headers, hheaders⟩, url, rfl, ?_⟩
      cases fieldFilter with
      | none =>
          cases hbuild
          cases value_of_mem_fields hurl
          rfl
      | some fieldFilter =>
          cases hbuild
          dsimp only at hurl
          rw [fieldFilter.pick_eq library rfl] at hurl
          cases value_of_mem_fields (mem_of_mem_restrict hurl)
          rfl

/-- Where details are reported, so is the URL of the request. -/
theorem exists_details_of_reportable {url : RequestUrl} (h : Reportable library req)
    (hurl : inspectedUrl library req = some url) :
    ∃ details, buildHttpBinAnythingData library req none = .ok details ∧
      (js "url", some (JsonValue.str url.href)) ∈ details := by
  obtain ⟨-, headers, hheaders⟩ := h
  rw [buildHttpBinAnythingData, hurl]
  refine ⟨_, Library.bind_ok_iff.mpr ⟨headers, hheaders, rfl⟩, ?_⟩
  simp only [List.mem_cons, true_or, or_true]

/-- The scheme of a reported URL is the one of the target, or else of what the socket is. -/
theorem schemeOf_href (hlibrary : ReadsSchemes library) {url : RequestUrl}
    (hurl : inspectedUrl library req = some url) :
    schemeOf url.href =
      (schemeOf req.url).or (some (if req.tlsSocket then js "https" else js "http")) := by
  rw [hlibrary _ _ url hurl, schemeOf_append]

/-- An absolute redirect has the scheme of what the socket is. -/
theorem schemeOf_of_mem_locations {options : HandleOptions} {action : ResponseAction}
    {target : JsString} (haction : action ∈ (absoluteRedirectN.handle library req options).actions)
    (htarget : target ∈ locations action) :
    schemeOf target = some (if req.tlsSocket then js "https" else js "http") := by
  rw [absoluteRedirectN.handle, countdown] at haction
  cases hn : parseCount (redirectRule (js "/absolute-redirect/")) options.path with
  | error e =>
      rw [hn] at haction
      cases haction
  | ok n =>
      rw [hn] at haction
      rcases List.mem_cons.mp haction with rfl | haction
      · have hhead : target = if n ≤ 1 then getBaseUrl req ++ js "/get"
            else getBaseUrl req ++ js "/absolute-redirect/" ++ integer (n - 1) :=
          List.mem_singleton.mp htarget
        rw [hhead, getBaseUrl]
        split
        · rw [List.append_assoc, schemeOf_append]
        · rw [List.append_assoc, List.append_assoc, schemeOf_append]
      · rw [List.mem_singleton.mp haction] at htarget
        cases htarget

/-- A redirect that always has a location. -/
theorem exists_location (library : HttpLibrary) (req : HttpCall) :
    ∃ options, ∃ action ∈ (absoluteRedirectN.handle library req options).actions,
      ∃ target, target ∈ locations action := by
  refine ⟨⟨js "/absolute-redirect/1", []⟩, writeHead 302 [location (getBaseUrl req ++ js "/get")],
    ?_, getBaseUrl req ++ js "/get", List.mem_singleton_self _⟩
  have hn : parseCount (redirectRule (js "/absolute-redirect/")) (js "/absolute-redirect/1") =
      .ok 1 := by decide +kernel
  rw [absoluteRedirectN.handle, countdown, hn]
  exact List.mem_cons_self

end

/-- The three places agree with the layers of a connection exactly if it is not HTTP/2 over TLS,
and the target, where it is reported, names no other scheme. -/
theorem schemesAgree_iff (library : HttpLibrary) (hlibrary : ReadsSchemes library)
    {trust : Bool} {remoteAddress : Option JsString} {reads : List (Option Bytes)}
    {layers : List Connection.TlsLayer} {version : HttpVersion} {conn : Connection}
    (h : Connection.processInitialConnection trust remoteAddress reads layers =
      some (version, conn))
    (req : HttpCall) (hreq : RequestOn conn version req) :
    SchemesAgree library req (schemeFor layers) ↔
      (version = .http1 ∨ layers = []) ∧
      (Reportable library req → ∀ scheme, schemeOf req.url = some scheme →
        scheme = schemeFor layers) := by
  obtain ⟨hhttps, htls⟩ := Connection.view_of_processInitialConnection h
  rw [← hreq.encrypted] at hhttps
  rw [← hreq.tlsSocket] at htls
  have hempty : layers.isEmpty = !decide (layers.length ≠ 0) := by
    cases layers <;> rfl
  have hprotocol : protocol req.request = schemeFor layers := by
    rw [protocol, schemeFor, hempty]
    change (if req.encrypted = true then _ else _) = _
    rw [hhttps]
    cases decide (layers.length ≠ 0) <;> rfl
  constructor
  · intro hagree
    have hsocket : (if req.tlsSocket then js "https" else js "http") = schemeFor layers := by
      obtain ⟨options, action, haction, target, htarget⟩ := exists_location library req
      have hscheme := hagree.redirected options action haction target htarget
      rw [schemeOf_of_mem_locations haction htarget] at hscheme
      exact Option.some.inj hscheme
    constructor
    · by_contra hnot
      rw [not_or] at hnot
      have hfalse : req.tlsSocket = false := by
        rw [htls, decide_eq_false_iff_not]
        exact fun hand => hnot.1 hand.1
      have hnonempty : layers.isEmpty = false := by
        rw [List.isEmpty_eq_false_iff]
        exact hnot.2
      rw [hfalse, schemeFor, hnonempty] at hsocket
      exact absurd hsocket (by decide)
    · intro hreport scheme hscheme
      obtain ⟨url, hurl⟩ := Option.isSome_iff_exists.mp hreport.1
      obtain ⟨details, hbuild, hmem⟩ := exists_details_of_reportable hreport hurl
      have hreported := hagree.reported none details url.href hbuild hmem
      rw [schemeOf_href hlibrary hurl, hscheme, Option.some_or] at hreported
      exact Option.some.inj hreported
  · rintro ⟨hwhere, htarget⟩
    have hsocket : (if req.tlsSocket then js "https" else js "http") = schemeFor layers := by
      rw [schemeFor, hempty, htls]
      rcases hwhere with rfl | rfl
      · simp only [true_and]
        cases decide (layers.length ≠ 0) <;> rfl
      · simp
    constructor
    · exact hprotocol
    · intro fieldFilter details text hbuild hmem
      obtain ⟨hreport, url, hurl, rfl⟩ := url_of_buildHttpBinAnythingData hbuild hmem
      rw [schemeOf_href hlibrary hurl, hsocket]
      cases hscheme : schemeOf req.url with
      | none => rfl
      | some scheme => rw [htarget hreport scheme hscheme, Option.some_or]
    · intro options action haction target hmem
      rw [schemeOf_of_mem_locations haction hmem, hsocket]

/-- A handshake with what is decrypted behind it. -/
theorem processInitialConnection_oneLayer {reads : List (Option Bytes)} {destination : Destination}
    (h : (processProtocolData [] reads).map Prod.fst = some destination) :
    Connection.processInitialConnection false none [some [tlsHandshakeByte]] [⟨none, reads⟩] =
      ((Connection.ofSocket blankSocket).storeClientHello none).handleConnection.dispatch
        destination [] := by
  have htls : processProtocolData [] [some [tlsHandshakeByte]] =
      some (.tls, [tlsHandshakeByte]) := by
    decide +kernel
  obtain ⟨next, hnext, hdestination⟩ := Option.map_eq_some_iff.mp h
  rw [Connection.processInitialConnection, if_neg (by decide), htls, Option.bind_some,
    Connection.dispatch, hnext, Option.bind_some, hdestination]
  rfl

/-- A parser that knows one URL. -/
def oneUrlLibrary : HttpLibrary :=
  { (default : HttpLibrary) with
    parseUrl := fun target base =>
      if target = js "/anything" ∧ base = js "https://testserver.host" then
        some ⟨⟨js "testserver.host", js "/anything"⟩, [], js "https://testserver.host/anything"⟩
      else none }

theorem readsSchemes_oneUrlLibrary : ReadsSchemes oneUrlLibrary := by
  intro target base url hurl
  change (if target = js "/anything" ∧ base = js "https://testserver.host" then _ else none) = _
    at hurl
  split at hurl
  · next heq =>
      obtain ⟨rfl, rfl⟩ := heq
      cases hurl
      decide +kernel
  · cases hurl

def requestOn (conn : Connection) (version : HttpVersion) (url : JsString) : HttpCall :=
  { HttpCall.get url [(js "host", .one (js "testserver.host"))] with
    toRequestSockets := conn.requestSockets version
    encrypted := (conn.socketView version).isHttps
    tlsSocket := (conn.socketView version).isTlsSocket }

theorem requestOn_spec (conn : Connection) (version : HttpVersion) (url : JsString) :
    RequestOn conn version (requestOn conn version url) := ⟨rfl, rfl, rfl⟩

/-- HTTP/1 over TLS. -/
theorem schemesAgree_iff_http1 :
    ∃ conn, Connection.processInitialConnection false none [some [tlsHandshakeByte]]
        [⟨none, Connection.getReads⟩] = some (.http1, conn) ∧
      SchemesAgree oneUrlLibrary (requestOn conn .http1 (js "/anything")) (js "https") := by
  have hrun := processInitialConnection_oneLayer Connection.processProtocolData_getReads
  refine ⟨_, hrun, ?_⟩
  refine (schemesAgree_iff oneUrlLibrary readsSchemes_oneUrlLibrary hrun _
    (requestOn_spec _ .http1 _)).mpr ⟨.inl rfl, fun _ scheme hscheme => ?_⟩
  have hnone : schemeOf (js "/anything") = none := by decide +kernel
  cases hnone.symm.trans hscheme

/-- HTTP/2 over TLS: a client that is routed as one of HTTPS is sent to plain HTTP. -/
theorem schemesAgree_http2_fails :
    ∃ conn, Connection.processInitialConnection false none [some [tlsHandshakeByte]]
        [⟨none, [some http2Preface]⟩] = some (.http2, conn) ∧
      RequestOn conn .http2 (requestOn conn .http2 (js "/absolute-redirect/2")) ∧
      protocol (requestOn conn .http2 (js "/absolute-redirect/2")).request = js "https" ∧
      getBaseUrl (requestOn conn .http2 (js "/absolute-redirect/2")) =
        js "http://testserver.host" ∧
      ∀ library, ¬ SchemesAgree library (requestOn conn .http2 (js "/absolute-redirect/2"))
        (js "https") := by
  have hpreface : (processProtocolData [] [some http2Preface]).map Prod.fst = some .http2 := by
    decide +kernel
  refine ⟨_, processInitialConnection_oneLayer hpreface, requestOn_spec _ .http2 _, rfl,
    by decide +kernel, fun library hagree => ?_⟩
  obtain ⟨options, action, haction, target, htarget⟩ := exists_location library
    (requestOn _ .http2 (js "/absolute-redirect/2"))
  have hscheme := hagree.redirected options action haction target htarget
  rw [schemeOf_of_mem_locations haction htarget] at hscheme
  exact absurd (Option.some.inj hscheme) (by decide)

end TestServer
