import TestServer.Endpoints.HttpCalls

/-!
# Details of a request

`src/httpbin-compat.ts`: the JSON that the inspecting endpoints report.

## Implementation notes

The values of a query are collected in an ordinary object, so that what a key inherits is read
for it, and assigning `__proto__` sets the prototype. The arrays in that object hold texts and
what a key has inherited.
-/

namespace TestServer

open Js Library Endpoints ProcessConnection

/-- `asJsonSafeString` -/
def asJsonSafeString (library : HttpLibrary) (data : Bytes) (contentType : Option JsString) :
    JsString :=
  match library.utf8Decoder data with
  | some text => text
  | none =>
      js "data:" ++ contentType.getD (js "application/octet-stream") ++ js ";base64," ++ toBase64 data

/-- An element of an array of a multi-dict. -/
inductive DictElement where
  | text (s : JsString)
  | length (n : Nat)
  | function
  /-- `Object.prototype` -/
  | objectPrototype
deriving DecidableEq

def DictElement.json : DictElement → JsonValue
  | text s => .str s
  | length n => .num (.finite n)
  | function => .null
  | objectPrototype => .object []

/-- The value of a key. -/
inductive DictValue where
  | one (element : DictElement)
  | many (elements : List DictElement)
deriving DecidableEq

def DictValue.json : DictValue → JsonValue
  | one element => element.json
  | many elements => .array (elements.map DictElement.json)

/-- An object with its own properties, and its prototype if that is an array. -/
structure Multidict where
  own : InsertionMap JsString DictValue
  prototype : Option (List DictElement)
deriving DecidableEq

namespace Multidict

def empty : Multidict := ⟨.empty, none⟩

def protoKey : JsString := js "__proto__"

/-- The names of functions that every object inherits. -/
def objectMethods : List JsString :=
  [js "constructor", js "__defineGetter__", js "__defineSetter__", js "hasOwnProperty",
    js "__lookupGetter__", js "__lookupSetter__", js "isPrototypeOf", js "propertyIsEnumerable",
    js "toString", js "valueOf", js "toLocaleString"]

/-- The names of functions that an array inherits besides. -/
def arrayMethods : List JsString :=
  [js "at", js "concat", js "copyWithin", js "fill", js "find", js "findIndex", js "findLast",
    js "findLastIndex", js "lastIndexOf", js "pop", js "push", js "reverse", js "shift",
    js "unshift", js "slice", js "sort", js "splice", js "includes", js "indexOf", js "join",
    js "keys", js "entries", js "values", js "forEach", js "filter", js "flat", js "flatMap",
    js "map", js "every", js "some", js "reduce", js "reduceRight", js "toReversed",
    js "toSorted", js "toSpliced", js "with"]

/-- What a key reads as if it is no own property. -/
def inherited (prototype : Option (List DictElement)) (key : JsString) : Option DictValue :=
  match prototype with
  | none =>
      if key = protoKey then some (.one .objectPrototype)
      else if key ∈ objectMethods then some (.one .function)
      else none
  | some elements =>
      if key = protoKey then some (.many elements)
      else if key = js "length" then some (.one (.length elements.length))
      else if key ∈ objectMethods ∨ key ∈ arrayMethods then some (.one .function)
      else ((arrayIndex key).bind fun index => elements[index]?).map .one

/-- `result[key]` -/
def read (result : Multidict) (key : JsString) : Option DictValue :=
  (result.own.get key).or (inherited result.prototype key)

/-- `result[key] = value` -/
def assign (result : Multidict) (key : JsString) (value : DictValue) : Multidict :=
  if key = protoKey then
    match value with
    | .many elements => { result with prototype := some elements }
    | .one _ => result
  else { result with own := result.own.set key value }

/-- The callback that reduces the entries. -/
def add (result : Multidict) (entry : JsString × JsString) : Multidict :=
  match result.read entry.1 with
  | none => result.assign entry.1 (.one (.text entry.2))
  | some (.many elements) => result.assign entry.1 (.many (elements ++ [.text entry.2]))
  | some (.one element) => result.assign entry.1 (.many [element, .text entry.2])

def json (result : Multidict) : JsonValue :=
  .object (result.own.entries.map fun entry => (entry.1, entry.2.json))

end Multidict

def entriesToMultidict (entries : List (JsString × JsString)) : Multidict :=
  entries.foldl Multidict.add .empty

example : entriesToMultidict [(js "a", js "1"), (js "b", js "2"), (js "a", js "3")] =
    ⟨⟨[(js "a", .many [.text (js "1"), .text (js "3")]), (js "b", .one (.text (js "2")))],
      by decide +kernel⟩, none⟩ := by
  decide +kernel

def getUrlArgs (url : RequestUrl) : Multidict := entriesToMultidict url.searchParams

/-- The group of `/;\s*boundary=(\S+)/` in a text. -/
def matchBoundary : JsString → Option JsString
  | [] => none
  | c :: rest =>
      let spaced := rest.dropWhile isWhiteSpace
      let boundary := (spaced.drop (js "boundary=").length).takeWhile fun d => !isWhiteSpace d
      if c = unit ';' ∧ startsWith spaced (js "boundary=") ∧ boundary ≠ [] then some boundary
      else matchBoundary rest

def getFiles (library : HttpLibrary) (body : Bytes) (req : HttpCall) : Multidict :=
  match (req.header (js "content-type")).filter (includes · (js "multipart/form-data")) with
  | none => .empty
  | some contentType =>
      match matchBoundary contentType with
      | none => .empty
      | some boundary =>
          entriesToMultidict ((library.parseMultipart body boundary).map fun part =>
            (part.name.getD [], asJsonSafeString library part.data part.type))

/-- A part of a name with a capital first letter. Reading the first unit of none throws. -/
def capitalised : JsString → Except Thrown JsString
  | [] => .error (.error (js "Cannot read properties of undefined (reading 'toUpperCase')"))
  | c :: rest => .ok (asciiUpperCase [c] ++ rest)

def canonicalName (name : JsString) : Except Thrown JsString := do
  let parts ← (split name (js "-")).mapM capitalised
  return join (js "-") parts

/-- The text that an entry is compared by. -/
def sortText (entry : JsString × HeaderValue) : JsString := entry.1 ++ js "," ++ entry.2.text

def canonicalHeaders (library : HttpLibrary) (headers : HeaderList) : Except Thrown JsonValue := do
  let pairs ← headers.mapM fun entry => do
    let name ← canonicalName entry.1
    return (name, entry.2)
  return library.lodash.fromPairs (pairs.insertionSort fun a b => sortText a ≤ sortText b)

/-- `JSON.parse`, where a text that is none gives `null`. -/
def jsonBody (input : Bytes) : JsonValue := (jsonParse (decodeUtf8 input)).getD .null

/-- The names of the details, in their order. -/
def detailNames : List JsString :=
  [js "args", js "data", js "files", js "form", js "headers", js "json", js "method", js "origin",
    js "url"]

/-- The names of some details. -/
structure FieldFilter where
  fields : List JsString
  isDetail : ∀ name ∈ fields, name ∈ detailNames

theorem FieldFilter.pick_eq (library : HttpLibrary) (fieldFilter : FieldFilter)
    {details : RequestDetails} (h : details.map Prod.fst = detailNames) :
    library.lodash.pick details fieldFilter.fields = details.restrict fieldFilter.fields := by
  apply library.lodash.pick_eq
  rw [h]
  exact fieldFilter.isDetail

/-- The URL that a request is for. -/
def inspectedUrl (library : HttpLibrary) (req : HttpCall) : Option RequestUrl :=
  library.parseUrl req.url ((if req.tlsSocket then js "https" else js "http") ++ js "://" ++
    headerText ((req.truthyHeader (js ":authority")).or (req.header (js "host"))))

def buildHttpBinAnythingData (library : HttpLibrary) (req : HttpCall)
    (fieldFilter : Option FieldFilter) : Except Thrown RequestDetails := do
  let some url := inspectedUrl library req | .error (.error (js "Invalid URL"))
  let contentType := req.header (js "content-type")
  let headers ← canonicalHeaders library req.headers
  let result : RequestDetails :=
    [(js "args", some (getUrlArgs url).json),
      (js "data", some (.str (asJsonSafeString library req.body contentType))),
      (js "files", some (getFiles library req.body req).json),
      (js "form", some (
        if contentType.any (startsWith · (js "application/x-www-form-urlencoded")) then
          library.parseQuerystring (decodeUtf8 req.body)
        else .object [])),
      (js "headers", some headers),
      (js "json", some (jsonBody req.body)),
      (js "method", some (.str req.method)),
      (js "origin", (origin req.toRequestSockets).map .str),
      (js "url", some (.str url.href))]
  return match fieldFilter with
    | none => result
    | some fieldFilter => library.lodash.pick result fieldFilter.fields

def jsonHeaders : HeaderList := [(js "Content-Type", .one (js "application/json"))]

def buildHttpBinAnythingEndpoint (fieldFilter : Option FieldFilter) : HttpHandler :=
  fun library req _ => .of do
    let result ← buildHttpBinAnythingData library req fieldFilter
    return respondWith 200 jsonHeaders (.details .document result)

end TestServer
