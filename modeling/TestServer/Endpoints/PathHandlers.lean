import TestServer.Endpoints.RequestHandlers
import TestServer.InterimResponses

/-!
# Handlers that read the path and the query

The handlers of the endpoints in `src/endpoints/http` whose response depends on the path that is
matched and on the query.

## Implementation notes

A loop has the number of its turns that are left as fuel, and starts with as many as there are
bytes to send. No number of the random bytes of a request is used twice.
-/

namespace TestServer.Endpoints

open Js ProcessConnection

def status.handle : HttpHandler := fun _ _ options =>
  let statusCode := parseNumber (options.path.drop (js "/status/").length)
  .done [.writeHead statusCode [], .finish]

/-- An integer as a value. -/
def intValue (n : Option Int) : JsonValue :=
  match n with
  | some n => .num (.finite n)
  | none => .null

/-- Whether an endpoint leaves a path for the next one. -/
def leavesPath (endpoint : HttpEndpoint) (path : JsString) : Bool :=
  (endpoint.getRemainingPath path).any fun rest => decide (rest ≠ [])

def informational.handle : HttpHandler := fun library _ options =>
  let code := parseCode options.path
  let links := getAll options.query (js "link")
  let headers : HeaderList := if links ≠ [] then [(js "link", .many links)] else []
  if leavesPath informational options.path then .done [.informational code headers]
  else
    let headersJson := JsonValue.object (headers.map fun entry => (entry.1, entry.2.json))
    let body := Chunk.json .indented (.object [(js "sent", .object
      [(js "code", intValue code), (js "headers", headersJson)])])
    .done (.informational code headers :: respondWith 200
      [jsonType, (js "content-length", .one (decimal (body.encode library).length))] body)

def delayFields : FieldFilter :=
  ⟨[js "url", js "args", js "form", js "data", js "origin", js "headers", js "files"], by decide⟩

def delayEndpoint.handle : HttpHandler := fun library req options =>
  if leavesPath delayEndpoint options.path then .done []
  else buildHttpBinAnythingEndpoint (some delayFields) library req options

def responseHeaders.handle : HttpHandler := fun _ _ options =>
  let assigned : HeaderList := (queryKeys options.query).map fun key =>
    match getAll options.query key with
    | [value] => (key, .one value)
    | values => (key, .many values)
  -- Neither a text nor an array for `__proto__` is a property of its own.
  let headers := propertyOrder (assigned.filter fun entry => decide (entry.1 ≠ js "__proto__"))
  .done ((headers.map fun entry => .setHeader entry.1 entry.2) ++
    respondWith 200 [jsonType]
      (.json .document (.object (headers.map fun entry => (entry.1, entry.2.json)))))

def location (target : JsString) : JsString × HeaderValue := (js "location", .one target)

def missingUrlText : JsString := js "Missing \"url\" query parameter"

def redirectTo.handle : HttpHandler := fun _ _ options =>
  match (queryGet options.query (js "url")).filter fun url => decide (url ≠ []) with
  | none => .done (respondWith 400 [] (.text missingUrlText))
  | some url =>
      let statusText := ((queryGet options.query (js "status_code")).filter fun text =>
        decide (text ≠ [])).getD (js "302")
      .done [.writeHead (parseNumber statusText) [location url], .finish]

/-- A redirect that counts down, from below a base. -/
def countdown (rule : CountRule) (base next path : JsString) :
    Except Thrown (List ResponseAction) := do
  let n ← parseCount rule path
  let target := if n ≤ 1 then base ++ js "/get" else base ++ next ++ integer (n - 1)
  return respondEmpty 302 [location target]

def redirectN.handle : HttpHandler := fun _ _ options =>
  .of (countdown (redirectRule (js "/redirect/")) [] (js "/relative-redirect/") options.path)

def relativeRedirectN.handle : HttpHandler := fun _ _ options =>
  .of (countdown (redirectRule (js "/relative-redirect/")) [] (js "/relative-redirect/")
    options.path)

def getBaseUrl (req : HttpCall) : JsString :=
  (if req.tlsSocket then js "https" else js "http") ++ js "://" ++
    headerText ((req.truthyHeader (js ":authority")).or (req.header (js "host")))

def absoluteRedirectN.handle : HttpHandler := fun _ req options =>
  .of (countdown (redirectRule (js "/absolute-redirect/")) (getBaseUrl req)
    (js "/absolute-redirect/") options.path)

/-- A count of bytes below a leading part. -/
def bytesRule (lead : JsString) : CountRule :=
  ⟨lead, 0, 102400, js "Invalid byte count in ", js "Byte count exceeds maximum of "⟩

/-- `Buffer.concat(parts, totalLength)` -/
def bufferConcat (parts : List Bytes) (totalLength : Nat) : Bytes :=
  (parts.flatten ++ List.replicate totalLength 0).take totalLength

/-- The loop that hashes a seed with a counter: its parts, and the counter after it. -/
def hashParts (library : HttpLibrary) (seed : JsString) :
    (turns remaining counter : Nat) → List Bytes × Nat
  | 0, _, counter => ([], counter)
  | turns + 1, remaining, counter =>
      if remaining = 0 then ([], counter)
      else
        let hash := (library.sha256 (seed ++ js ":" ++ decimal counter)).bytes
        let (parts, last) := hashParts library seed turns (remaining - hash.length) (counter + 1)
        (hash.take (min remaining hash.length) :: parts, last)

def binaryType : JsString × HeaderValue := contentType (js "application/octet-stream")

def bytesEndpoint.handle : HttpHandler := fun library _ options => .of do
  let n ← parseCount (bytesRule (js "/bytes/")) options.path
  let data :=
    match queryGet options.query (js "seed") with
    | some seed => bufferConcat (hashParts library seed n.toNat n.toNat 0).1 n.toNat
    | none => library.randomBytes 0 n.toNat
  return respondWith 200 [binaryType, (js "content-length", .one (integer n))] (.bytes data)

/-- The loop that sends chunks, with what is counted of hashes or of random bytes. -/
def streamChunks (library : HttpLibrary) (seed : Option JsString) (chunkSize : Nat) :
    (turns remaining counter : Nat) → List Bytes
  | 0, _, _ => []
  | turns + 1, remaining, counter =>
      if remaining = 0 then []
      else
        let size := min remaining chunkSize
        match seed with
        | some seed =>
            let (parts, last) := hashParts library seed size size counter
            bufferConcat parts size ::
              streamChunks library (some seed) chunkSize turns (remaining - size) last
        | none =>
            library.randomBytes counter size ::
              streamChunks library none chunkSize turns (remaining - size) (counter + 1)

/-- `Math.max(1, parseInt(query.get('chunk_size') || '10240', 10))` -/
def parseChunkSize (query : Query) : Option Nat :=
  let text := ((queryGet query (js "chunk_size")).filter fun text => decide (text ≠ [])).getD
    (js "10240")
  (parseInt text).map fun n => (max 1 n).toNat

/-- What `randomBytes` throws for a size that is no number. -/
def sizeError : Thrown :=
  .error (js "The value of \"size\" is out of range. It must be >= 0 && <= 2147483647. Received NaN")

def streamBytesEndpoint.handle : HttpHandler := fun library _ options =>
  let head := writeHead 200 [binaryType]
  match parseCount (bytesRule (js "/stream-bytes/")) options.path with
  | .error e => ⟨[], some e⟩
  | .ok n =>
      match parseChunkSize options.query with
      | some chunkSize =>
          let chunks := streamChunks library (queryGet options.query (js "seed")) chunkSize
            n.toNat n.toNat 0
          .done (head :: (chunks.map fun chunk => .write (.bytes chunk)) ++ [.finish])
      | none =>
          if n > 0 then
            match queryGet options.query (js "seed") with
            -- Without parts `Buffer.concat` does not look at the length.
            | some _ => .done [head, .write (.bytes []), .finish]
            | none => ⟨[head], some sizeError⟩
          else .done [head, .finish]

/-- `s.replace(/=+$/, '')` -/
def dropPadding (s : JsString) : JsString := s.rdropWhile fun c => decide (c = unit '=')

def incorrectBase64Text : JsString :=
  js "Incorrect Base64 data try: SGVsbG8gd29ybGQ= which decodes to: Hello world"

def base64Decode.handle : HttpHandler := fun library _ options =>
  let encoded := options.path.drop (js "/base64/").length
  let normalized := encoded.map fun c =>
    if c = unit '-' then unit '+' else if c = unit '_' then unit '/' else c
  let decoded := library.fromBase64 normalized
  if dropPadding (toBase64 decoded) = dropPadding normalized then
    .done (respondWith 200 [htmlType] (.bytes decoded))
  else .done (respondWith 200 [htmlType] (.text incorrectBase64Text))

def getCookies.handle : HttpHandler := fun library req _ =>
  let cookies := library.parseCookie ((req.header (js "cookie")).getD [])
  .done (respondWith 200 jsonHeaders (.json .document
    (.object [(js "cookies", .object (cookies.map fun cookie => (cookie.1, .str cookie.2)))])))

/-- The response that sends cookies. -/
def sendCookies (cookies : List JsString) : List ResponseAction :=
  respondEmpty 302 ((js "Location", .one (js "/cookies")) ::
    cookies.map fun cookie => (js "set-cookie", .one cookie))

def cookiesToSet (options : HandleOptions) : List (JsString × JsString) :=
  match (split options.path (js "/")).drop 3 with
  | name :: rest => [(name, rest.head?.getD (js "undefined"))]
  | [] => (queryKeys options.query).map fun key =>
      (key, (queryGet options.query key).getD (js "null"))

def setCookies.handle : HttpHandler := fun library _ options => .of do
  let cookies ← (cookiesToSet options).mapM fun cookie =>
    (library.serializeCookie cookie.1 cookie.2).mapError Thrown.error
  return sendCookies cookies

def deleteCookies.handle : HttpHandler := fun _ _ options =>
  .done (sendCookies ((queryKeys options.query).map fun key =>
    key ++ js "=; Expires=Thu, 01-Jan-1970 00:00:00 GMT; Max-Age=0; Path=/"))

def tlsCertificates.handle : HttpHandler := fun library _ options =>
  let name := options.path.drop (js "/tls/certs/").length
  match library.certificate name with
  | none => .done (respondWith 503 [plainType] (.text (js "Certificate is not available")))
  | some (.error message) => ⟨[], some (.error message)⟩
  | some (.ok pem) =>
      let type := if name = js "client-cert" then js "application/x-pem-file"
        else js "application/x-x509-ca-cert"
      .done (respondWith 200
        [contentType type, (js "content-disposition",
          .one (js "attachment; filename=\"testserver-" ++ name ++ js ".pem\""))] (.text pem))

end TestServer.Endpoints
