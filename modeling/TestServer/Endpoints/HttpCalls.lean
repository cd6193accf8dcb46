import TestServer.ConnectionOrigin
import TestServer.Endpoints.Echo
import TestServer.Js.Base64
import TestServer.Js.JsonText
import TestServer.Js.UriEncode

/-!
# Requests and responses of HTTP endpoints

What the handlers of `src/endpoints/http` are given, and what they do with their response.

## Implementation notes

A handler gives the list of what it does until it is done or throws. Node's modules and the
third-party packages are a parameter. The values written with a response are kept as they are
before they are turned into bytes.
-/

namespace TestServer.Endpoints

open Js ProcessConnection

inductive HeaderValue where
  | one (value : JsString)
  | many (values : List JsString)
deriving DecidableEq

def HeaderValue.values : HeaderValue → List JsString
  | one value => [value]
  | many values => values

/-- The text of a value: the elements of a list are separated by commas. -/
def HeaderValue.text : HeaderValue → JsString
  | one value => value
  | many values => join (js ",") values

def HeaderValue.json : HeaderValue → JsonValue
  | one value => .str value
  | many values => .array (values.map .str)

abbrev HeaderList := List (JsString × HeaderValue)

structure HelloExtension where
  id : Nat
  data : Option JsonValue

/-- `TlsClientHelloData` -/
structure ClientHello where
  version : Nat
  random : Bytes
  sessionId : Bytes
  cipherSuites : List Nat
  compressionMethods : List Nat
  extensions : List HelloExtension
  ja3 : JsString
  ja4 : JsString

/-- The frames of an HTTP/2 request: those that are captured before its handler runs, and those
that are captured then. -/
structure CapturedFrames where
  globalFrames : List Bytes
  streamFrames : List Bytes
  laterFrames : List Bytes

/-- A request with all that its handlers read of it and of its connection. -/
structure HttpCall extends RequestSockets where
  url : JsString
  method : JsString
  headers : HeaderList
  body : Bytes
  rawTrailers : List JsString
  encrypted : Bool
  /-- Whether `req.socket` is a `TLSSocket`. -/
  tlsSocket : Bool
  sni : Option JsString
  /-- What `getClientHello` finds. -/
  clientHello : Option ClientHello
  pipelining : Bool
  receivedData : List Bytes
  streamId : Option Nat
  capturingStream : Option CapturedFrames

namespace HttpCall

/-- A GET request in plain HTTP/1 on a connection that tells nothing. -/
def get (url : JsString) (headers : HeaderList) : HttpCall where
  httpVersion := .http1
  socket := blankSocket
  sessionSocket := none
  url := url
  method := js "GET"
  headers := headers
  body := []
  rawTrailers := []
  encrypted := false
  tlsSocket := false
  sni := none
  clientHello := none
  pipelining := false
  receivedData := []
  streamId := none
  capturingStream := none

/-- `req.headers[name]` -/
def header (req : HttpCall) (name : JsString) : Option JsString :=
  (req.headers.find? fun entry => decide (entry.1 = name)).map fun entry => entry.2.text

/-- The part of a header's text that counts as true. -/
def truthyHeader (req : HttpCall) (name : JsString) : Option JsString :=
  (req.header name).filter fun value => decide (value ≠ [])

/-- The request as far as it is routed. -/
def request (req : HttpCall) : HttpRequest where
  url := req.url
  method := req.method
  host := (req.header (js ":authority")).or (req.header (js "host"))
  encrypted := req.encrypted
  sni := req.sni

end HttpCall

abbrev Query := List (JsString × JsString)

/-- `query.get(name)` -/
def queryGet (query : Query) (name : JsString) : Option JsString :=
  (query.find? fun entry => decide (entry.1 = name)).map Prod.snd

/-- `new Set(query.keys())` -/
def queryKeys (query : Query) : List JsString := (query.map Prod.fst).reverse.dedup.reverse

structure HandleOptions where
  path : JsString
  query : Query

/-- How a value is written as JSON. -/
inductive JsonLayout where
  /-- `JSON.stringify(value)` -/
  | compact
  /-- `JSON.stringify(value) + '\n'` -/
  | line
  /-- `JSON.stringify(value, null, 2)` -/
  | indented
  /-- `serializeJson(value)` -/
  | document
deriving DecidableEq

/-- The details of a request, in their order. A field that is undefined is `none`. -/
abbrev RequestDetails := List (JsString × Option JsonValue)

def RequestDetails.json (details : RequestDetails) : JsonValue :=
  .object (details.filterMap fun field => field.2.map (field.1, ·))

/-- The fields of some names, in the order of these names. -/
def RequestDetails.restrict (details : RequestDetails) (fields : List JsString) :
    RequestDetails :=
  fields.filterMap fun name => details.find? fun field => decide (field.1 = name)

/-- A piece of the body of a response. -/
inductive Chunk where
  | text (s : JsString)
  | bytes (data : Bytes)
  | json (layout : JsonLayout) (value : JsonValue)
  | details (layout : JsonLayout) (fields : RequestDetails)
  /-- The bytes received with the request. -/
  | received (data : Bytes)
  /-- The frames received with the request. -/
  | frames (lines : List FrameOutput)

/-- What a handler does with its response or with the connection. -/
inductive ResponseAction where
  | setHeader (name : JsString) (value : HeaderValue)
  /-- `sendInformational(res, code, headers)` -/
  | informational (code : Option Int) (headers : HeaderList)
  | writeHead (statusCode : Option JsNumber) (headers : HeaderList)
  | write (chunk : Chunk)
  | addTrailers (headers : HeaderList)
  | finish
  /-- `res.destroy()` -/
  | destroy
  | endSocket
  | resetSocket

/-- `writeHead` with a status of the program's own. -/
def writeHead (statusCode : Nat) (headers : HeaderList) : ResponseAction :=
  .writeHead (some (.finite statusCode)) headers

theorem writeHead_inj {m n : Nat} {headers others : HeaderList}
    (h : writeHead m headers = writeHead n others) : m = n ∧ headers = others := by
  simp only [writeHead, ResponseAction.writeHead.injEq, Option.some.injEq,
    JsNumber.finite.injEq, Nat.cast_inj] at h
  exact h

/-- `res.writeHead(statusCode, headers)` and `res.end(chunk)` -/
def respondWith (statusCode : Nat) (headers : HeaderList) (chunk : Chunk) : List ResponseAction :=
  [writeHead statusCode headers, .write chunk, .finish]

/-- `res.writeHead(statusCode, headers).end()` -/
def respondEmpty (statusCode : Nat) (headers : HeaderList) : List ResponseAction :=
  [writeHead statusCode headers, .finish]

/-- What a handler has done, and what it throws then. -/
structure Handled where
  actions : List ResponseAction
  thrown : Option Thrown

def Handled.done (actions : List ResponseAction) : Handled := ⟨actions, none⟩

/-- A handler that throws before it does anything. -/
def Handled.of : Except Thrown (List ResponseAction) → Handled
  | .ok actions => .done actions
  | .error e => ⟨[], some e⟩

/-- What is done next, unless something is thrown. -/
def Handled.andThen (first next : Handled) : Handled :=
  match first.thrown with
  | some _ => first
  | none => ⟨first.actions ++ next.actions, next.thrown⟩

/-- A parsed URL with its query and its text. -/
structure RequestUrl extends Url where
  searchParams : Query
  href : JsString

structure FilePart where
  name : Option JsString
  type : Option JsString
  data : Bytes

/-- The hash of a text. -/
structure Digest where
  bytes : Bytes
  length_eq : bytes.length = 32

instance : Inhabited JsonValue := ⟨.null⟩

instance : Inhabited Digest := ⟨⟨List.replicate 32 0, List.length_replicate⟩⟩

/-- The tables of `read-tls-client-hello`. -/
inductive NameTable where
  | cipherSuites
  | extensions
  | supportedGroups
  | signatureAlgorithms
  | ecPointFormats
  | tlsVersions
  | compressionMethods
  | pskKeyExchangeModes
  | certificateCompressionAlgorithms
  | certificateStatusTypes
deriving DecidableEq

/-- What is used of lodash, as it is documented. -/
structure Lodash where
  fromPairs : HeaderList → JsonValue
  /-- Every pair is a member of the object, and a later pair of the same key replaces its value. -/
  fromPairs_eq : ∀ pairs, fromPairs pairs =
    .object (pairs.map fun pair => (pair.1, pair.2.json))
  pick : RequestDetails → List JsString → RequestDetails
  /-- Of the names of members, those members are taken. -/
  pick_eq : ∀ details fields, (∀ name ∈ fields, name ∈ details.map Prod.fst) →
    pick details fields = details.restrict fields

instance : Inhabited Lodash where
  default :=
    { fromPairs := fun pairs => .object (pairs.map fun pair => (pair.1, pair.2.json))
      fromPairs_eq := fun _ => rfl
      pick := RequestDetails.restrict
      pick_eq := fun _ _ _ => rfl }

/-- What the handlers use of Node and of packages, and what is read when the server starts. -/
structure HttpLibrary where
  lodash : Lodash
  parseAbsolute : JsString → Option Url
  /-- `new URL(target, base)` -/
  parseUrl : JsString → JsString → Option RequestUrl
  toLowerCase : JsString → JsString
  /-- `new TextDecoder('utf8', { fatal: true })` -/
  utf8Decoder : Bytes → Option JsString
  fromBase64 : JsString → Bytes
  numberText : JsNumber → JsString
  parseMultipart : Bytes → JsString → List FilePart
  parseQuerystring : JsString → JsonValue
  parseCookie : JsString → List (JsString × JsString)
  /-- `Cookie.serialize(key, value, { path: '/' })` -/
  serializeCookie : JsString → JsString → Except JsString JsString
  sha256 : JsString → Digest
  /-- The bytes of a call, by how many calls there were before it. -/
  randomBytes : Nat → Nat → Bytes
  randomUUID : JsString
  brotliCompressSync : Bytes → Bytes
  deflateSync : Bytes → Bytes
  gzipSync : Bytes → Bytes
  zstdCompressSync : Bytes → Bytes
  names : NameTable → Nat → Option JsString
  /-- What a status or a header is refused with. -/
  statusError : HttpVersion → Option JsNumber → Option JsString
  headerError : HttpVersion → JsString → HeaderValue → Option JsString
  /-- What `resolved[name] ??= provider()` gives, if there is a provider. -/
  certificate : JsString → Option (Except JsString JsString)
  versionHash : JsString
  utf8Html : JsString
deriving Inhabited

/-- `handle` of an endpoint. -/
abbrev HttpHandler := HttpLibrary → HttpCall → HandleOptions → Handled

/-- `serializeJson` of `src/util.ts`. -/
def serializeJson (library : HttpLibrary) (value : JsonValue) : JsString :=
  stringifyIndented library.numberText value ++ js "\n"

def JsonLayout.text (library : HttpLibrary) (value : JsonValue) : JsonLayout → JsString
  | compact => stringify library.numberText value
  | line => stringify library.numberText value ++ js "\n"
  | indented => stringifyIndented library.numberText value
  | document => serializeJson library value

/-- A list of values stays one for cookies. -/
def decodedHeaders (headers : Headers) : JsonValue :=
  .object (headers.map fun entry =>
    match entry.2 with
    | [value] =>
        (entry.1, if entry.1 = js "set-cookie" then .array [.str value] else .str value)
    | values => (entry.1, .array (values.map .str)))

def frameJson (frame : FrameOutput) : JsonValue :=
  .object ([(js "stream_id", .num (.finite frame.streamId)), (js "type", .str frame.type),
    (js "flags", .array (frame.flags.map .str)), (js "length", .num (.finite frame.length)),
    (js "payload_hex", .str frame.payloadHex)] ++
      (frame.decodedHeaders.map fun headers =>
        (js "decoded_headers", decodedHeaders headers)).toList)

/-- The bytes of a piece of a body. -/
def Chunk.encode (library : HttpLibrary) : Chunk → Bytes
  | text s => encodeUtf8 s
  | bytes data => data
  | json layout value => encodeUtf8 (layout.text library value)
  | details layout fields => encodeUtf8 (layout.text library fields.json)
  | received data => data
  | frames lines => lines.flatMap fun frame =>
      encodeUtf8 (JsonLayout.line.text library (frameJson frame))

end TestServer.Endpoints
