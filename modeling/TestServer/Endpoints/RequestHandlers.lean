import Mathlib.Data.List.DropRight
import TestServer.Endpoints.FixedHandlers
import TestServer.Js.Coercion

/-!
# Handlers that inspect the request

The handlers of the endpoints in `src/endpoints/http` that read the request or its connection:
its headers, its body, its target and its TLS handshake.
-/

namespace TestServer.Endpoints

open Js ProcessConnection

def anything.handle : HttpHandler := buildHttpBinAnythingEndpoint none

def headers.handle : HttpHandler := buildHttpBinAnythingEndpoint (some ⟨[js "headers"], by decide⟩)

def originField : FieldFilter := ⟨[js "origin"], by decide⟩

def ip.handle : HttpHandler := buildHttpBinAnythingEndpoint (some originField)

def userAgent.handle : HttpHandler := fun _ req _ =>
  .done (respondWith 200 [jsonType] (.json .document
    (.object [(js "user-agent", ((req.header (js "user-agent")).map .str).getD .null)])))

/-- `GET_FIELDS` -/
def getFields : FieldFilter :=
  ⟨[js "url", js "args", js "headers", js "origin"], by decide⟩

def otherFields : FieldFilter :=
  ⟨[js "url", js "args", js "form", js "data", js "origin", js "headers", js "files", js "json"],
    by decide⟩

def methodHandler : HttpHandler := fun library req options =>
  let requiredMethod := asciiUpperCase (options.path.drop 1)
  if requiredMethod ≠ req.method then
    .done (respondWith 405 [] (.text (js "Method Not Allowed")))
  else
    let fields := if requiredMethod = js "GET" then getFields else otherFields
    buildHttpBinAnythingEndpoint (some fields) library req options

/-- The lines for the frames of a request. -/
def echoLines (req : HttpCall) (requestStreamId : Nat) (captured : CapturedFrames) :
    List FrameOutput :=
  let headers : Headers := req.headers.map fun entry => (entry.1, entry.2.values)
  captured.globalFrames.map connectionLine ++ captured.streamFrames.map (requestLine headers) ++
    captured.laterFrames.filterMap (echoCallback headers requestStreamId)

def pipeliningText : JsString :=
  js "Echo endpoint does not support request pipelining. Send requests sequentially or use " ++
    js "HTTP/2 multiplexing instead."

def echo.handle : HttpHandler := fun _ req _ =>
  match req.httpVersion with
  | .http2 =>
      match req.capturingStream, req.streamId with
      | none, _ =>
          .done (respondWith 500 []
            (.text (js "Echo endpoint requires data capturing stream")))
      | some _, none =>
          .done (respondWith 500 [] (.text (js "Could not determine stream ID")))
      | some captured, some requestStreamId =>
          .done (respondWith 200 [(js "Content-Type", .one (js "text/plain"))]
            (.frames (echoLines req requestStreamId captured)))
  | .http1 =>
      if req.pipelining then .done (respondWith 400 [] (.text pipeliningText))
      else
        let rawData := req.receivedData.flatten
        .done (respondWith 200 [(js "Content-Length", .one (decimal rawData.length))]
          (.received rawData))

def trailers.handle : HttpHandler := fun _ req _ =>
  let teHeader := ((req.headers.find? fun entry => decide (entry.1 = js "te")).map fun entry =>
    join (js ", ") entry.2.values).getD []
  let willSendTrailers := ((split teHeader (js ",")).map trimmed).contains (js "trailers")
  let body := JsonValue.object
    [(js "received-trailers", .array (req.rawTrailers.map .str)),
      (js "will-send-trailers", .bool willSendTrailers)]
  .done ([writeHead 200 [(js "trailer", .one (js "example-trailer")), jsonType]] ++
    (if willSendTrailers then
      [.addTrailers [(js "example-trailer", .one (js "example value"))]] else []) ++
    [.write (.json .document body), .finish])

def checkBasicAuth (req : HttpCall) (username password : JsString) : Bool :=
  match req.truthyHeader (js "authorization") with
  | none => false
  | some authHeader =>
      let expectedAuth := toBase64 (encodeUtf8 (username ++ js ":" ++ password))
      match split authHeader (js " ") with
      | authType :: authValue :: _ =>
          decide (authType = js "Basic" ∧ authValue = expectedAuth)
      | _ => false

/-- The two segments that follow the first one. -/
def credentials (path : JsString) : JsString × JsString :=
  let parts := (split path (js "/")).drop 2
  (parts.head?.getD (js "undefined"), (parts.drop 1).head?.getD (js "undefined"))

def authenticatedBody (field text : JsString) : Chunk :=
  .json .document (.object [(js "authenticated", .bool true), (field, .str text)])

def basicAuth.handle : HttpHandler := fun _ req options =>
  let (username, password) := credentials options.path
  if req.truthyHeader (js "authorization") = none then
    .done (respondEmpty 401 [(js "www-authenticate", .one (js "Basic realm=\"Fake Realm\""))])
  else if checkBasicAuth req username password then
    .done (respondWith 200 [jsonType] (authenticatedBody (js "user") username))
  else .done (respondEmpty 403 [])

def hiddenBasicAuth.handle : HttpHandler := fun _ req options =>
  let (username, password) := credentials options.path
  if checkBasicAuth req username password then
    .done (respondWith 200 [jsonType] (authenticatedBody (js "user") username))
  else .done (respondEmpty 404 [])

def bearer.handle : HttpHandler := fun _ req _ =>
  match (req.header (js "authorization")).filter (startsWith · (js "Bearer ")) with
  | some authHeader =>
      let token := authHeader.drop (js "Bearer ").length
      if token = [] then .done (respondEmpty 401 [(js "www-authenticate", .one (js "Bearer"))])
      else .done (respondWith 200 [jsonType] (authenticatedBody (js "token") token))
  | none => .done (respondEmpty 401 [(js "www-authenticate", .one (js "Bearer"))])

/-- `req.url.split('?')[0]` -/
def targetPath (url : JsString) : JsString := url.takeWhile fun c => decide (c ≠ unit '?')

def cache.handle : HttpHandler := fun library req _ =>
  if (req.truthyHeader (js "if-modified-since")).isSome ∨
      (req.truthyHeader (js "if-none-match")).isSome then
    .done (respondEmpty 304 [])
  else .of do
    let data ← buildHttpBinAnythingData library req (some getFields)
    return respondWith 200 [jsonType] (.details .document data)

/-- The number that a text starts with. -/
def parseNumber (s : JsString) : Option JsNumber := (parseInt s).map fun n => toDouble n

def numberTextOf (library : HttpLibrary) (n : Option JsNumber) : JsString :=
  n.elim (js "NaN") library.numberText

def cacheWithAge.handle : HttpHandler := fun library req _ => .of do
  let n := parseNumber ((targetPath req.url).drop (js "/cache/").length)
  let data ← buildHttpBinAnythingData library req (some getFields)
  return respondWith 200
    [jsonType, (js "cache-control", .one (js "public, max-age=" ++ numberTextOf library n))]
    (.details .document data)

def isLineTerminator (c : UInt16) : Bool :=
  decide (c = 10) || decide (c = 13) || decide (c = 0x2028) || decide (c = 0x2029)

/-- `s.replace(/^"(.*)"$/, '$1')` -/
def unquoted (s : JsString) : JsString :=
  match s with
  | 34 :: rest =>
      if rest.getLast? = some 34 ∧ rest.dropLast.all (fun c => !isLineTerminator c) then
        rest.dropLast
      else s
  | _ => s

def parseEtagList (header : JsString) : List JsString :=
  (split header (js ",")).map fun s => unquoted (trimmed s)

/-- Whether a list of tags has the given one or stands for all. -/
def listsEtag (header etagValue : JsString) : Bool :=
  (parseEtagList header).contains etagValue || (parseEtagList header).contains (js "*")

def etag.handle : HttpHandler := fun library req _ =>
  let etagValue := (targetPath req.url).drop (js "/etag/").length
  let etagHeader : JsString × HeaderValue := (js "etag", .one etagValue)
  if (req.truthyHeader (js "if-none-match")).any (listsEtag · etagValue) then
    .done (respondEmpty 304 [etagHeader])
  else if (req.truthyHeader (js "if-match")).any fun header => !listsEtag header etagValue then
    .done (respondEmpty 412 [etagHeader])
  else .of do
    let data ← buildHttpBinAnythingData library req (some getFields)
    return respondWith 200 [jsonType, etagHeader] (.details .document data)

def streamRule : CountRule :=
  ⟨js "/stream/", 0, 100, js "Invalid stream count in ", js "Stream count exceeds maximum of "⟩

/-- The object of one line. -/
def streamLine (data : RequestDetails) (id : Nat) : ResponseAction :=
  .write (.details .line ((js "id", some (.num (.finite id))) :: data))

def streamEndpoint.handle : HttpHandler := fun library req _ => .of do
  let n ← parseCount streamRule (targetPath req.url)
  let data ← buildHttpBinAnythingData library req (some getFields)
  return writeHead 200 [jsonType] :: ((List.range n.toNat).map (streamLine data) ++ [.finish])

def notTlsBody : Chunk := .json .compact (.object [(js "error", .str (js "Not a TLS connection"))])

def tlsFingerprint.handle : HttpHandler := fun _ req _ =>
  match req.clientHello with
  | none => .done (respondWith 400 [jsonType] notTlsBody)
  | some helloData =>
      if helloData.ja3 = [] ∨ helloData.ja4 = [] then
        .done (respondWith 500 [jsonType] (.json .compact
          (.object [(js "error", .str (js "TLS fingerprint not available"))])))
      else
        .done (respondWith 200 [jsonType] (.json .compact
          (.object [(js "ja3", .str helloData.ja3), (js "ja4", .str helloData.ja4)])))

/-- The name of a number in a table. -/
def tableName (library : HttpLibrary) (table : NameTable) : JsonValue → JsonValue
  | .num (.finite q) =>
      if q.den = 1 ∧ 0 ≤ q then ((library.names table q.num.toNat).map .str).getD .null
      else .null
  | _ => .null

/-- An undefined number is `none`. -/
def annotateId (library : HttpLibrary) (table : NameTable) : Option JsonValue → JsonValue
  | some id => .object [(js "id", id), (js "name", tableName library table id)]
  | none => .object [(js "name", .null)]

/-- `value.map(f)` -/
def mapElements (f : JsonValue → JsonValue) : Option JsonValue → Except Thrown JsonValue
  | some (.array elements) => .ok (.array (elements.map f))
  | _ => .error (.error (js "Cannot read properties of undefined (reading 'map')"))

def annotateIds (library : HttpLibrary) (table : NameTable) (ids : Option JsonValue) :
    Except Thrown JsonValue :=
  mapElements (fun id => annotateId library table (some id)) ids

/-- An object whose only field is a list of annotated numbers. -/
def annotatedList (library : HttpLibrary) (table : NameTable) (field : JsString)
    (data : JsonValue) : Except Thrown JsonValue := do
  let list ← annotateIds library table (data.get field)
  return .object [(field, list)]

/-- An entry of `key_share`. -/
def annotateEntry (library : HttpLibrary) (entry : JsonValue) : JsonValue :=
  .object ((js "group", annotateId library .supportedGroups (entry.get (js "group"))) ::
    ((entry.get (js "keyExchangeLength")).map fun length =>
      (js "keyExchangeLength", length)).toList)

/-- `{ ...members, [key]: value }` -/
def spreadWith (members : List (JsString × JsonValue)) (key : JsString) (value : JsonValue) :
    List (JsString × JsonValue) :=
  if key ∈ members.map Prod.fst then
    members.map fun member => if member.1 = key then (key, value) else member
  else members ++ [(key, value)]

def annotateExtensionData (library : HttpLibrary) (extensionId : Nat) :
    Option JsonValue → Except Thrown JsonValue
  | none => .ok .null
  | some (.object []) => .ok (.object [])
  | some data =>
      match extensionId with
      | 5 =>
          let statusType := annotateId library .certificateStatusTypes (data.get (js "statusType"))
          match data with
          | .object members => .ok (.object (spreadWith members (js "statusType") statusType))
          | _ => .ok (.object [(js "statusType", statusType)])
      | 10 => annotatedList library .supportedGroups (js "groups") data
      | 11 => annotatedList library .ecPointFormats (js "formats") data
      | 13 | 50 => annotatedList library .signatureAlgorithms (js "algorithms") data
      | 17 => annotatedList library .certificateStatusTypes (js "statusTypes") data
      | 27 => annotatedList library .certificateCompressionAlgorithms (js "algorithms") data
      | 43 => annotatedList library .tlsVersions (js "versions") data
      | 45 => annotatedList library .pskKeyExchangeModes (js "modes") data
      | 51 => do
          let entries ← mapElements (annotateEntry library) (data.get (js "entries"))
          return .object [(js "entries", entries)]
      | _ => .ok data

/-- A number of the handshake as a value. -/
def idValue (id : Nat) : JsonValue := .num (.finite id)

def annotateNumbers (library : HttpLibrary) (table : NameTable) (ids : List Nat) : JsonValue :=
  .array (ids.map fun id => annotateId library table (some (idValue id)))

def annotateExtension (library : HttpLibrary) (ext : HelloExtension) : Except Thrown JsonValue := do
  let data ← annotateExtensionData library ext.id ext.data
  return .object [(js "id", idValue ext.id),
    (js "name", tableName library .extensions (idValue ext.id)), (js "data", data)]

/-- What `/tls/client-hello` reports. -/
def clientHelloJson (library : HttpLibrary) (helloData : ClientHello) :
    Except Thrown JsonValue := do
  let extensions ← helloData.extensions.mapM (annotateExtension library)
  return .object
    [(js "version", annotateId library .tlsVersions (some (idValue helloData.version))),
      (js "random", .str (hexText helloData.random)),
      (js "sessionId",
        if helloData.sessionId = [] then .null else .str (hexText helloData.sessionId)),
      (js "cipherSuites", annotateNumbers library .cipherSuites helloData.cipherSuites),
      (js "compressionMethods",
        annotateNumbers library .compressionMethods helloData.compressionMethods),
      (js "extensions", .array extensions)]

def tlsClientHello.handle : HttpHandler := fun library req _ =>
  match req.clientHello with
  | none => .done (respondWith 400 [jsonType] notTlsBody)
  | some helloData =>
      let head := writeHead 200 [jsonType]
      match clientHelloJson library helloData with
      | .ok hello => .done [head, .write (.json .compact hello), .finish]
      -- The body is built once the head is written.
      | .error e => ⟨[head], some e⟩

end TestServer.Endpoints
