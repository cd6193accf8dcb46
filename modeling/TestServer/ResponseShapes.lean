import TestServer.ByteStreams
import TestServer.HttpAnswers

/-!
# Shapes of responses

What the handlers of the HTTP endpoints do with their response, up to what they put into it: a
complete response, an exception before or after its head, or the end of the connection.
-/

namespace TestServer

open Js Endpoints ProcessConnection

/-- The value of a header, whatever the case of its name. -/
def headerValue (headers : HeaderList) (name : JsString) : Option JsString :=
  (headers.find? fun entry => decide (asciiLowerCase entry.1 = name)).map fun entry =>
    entry.2.text

def declaredLength (headers : HeaderList) : Option JsString :=
  headerValue headers (js "content-length")

/-- Whether a head declares a JSON body that is sent as it is. -/
def declaresJson (headers : HeaderList) : Bool :=
  decide (headerValue headers (js "content-type") = some (js "application/json")) &&
    (headerValue headers (js "content-encoding")).all fun encoding =>
      decide (encoding = js "identity")

/-- The value that a piece of a body is the text of. -/
def Endpoints.Chunk.document : Chunk → Option (JsonLayout × JsonValue)
  | .json layout value => some (layout, value)
  | .details layout fields => some (layout, fields.json)
  | _ => none

theorem encode_of_document {library : HttpLibrary} {chunk : Chunk} {layout : JsonLayout}
    {value : JsonValue} (h : chunk.document = some (layout, value)) :
    chunk.encode library = encodeUtf8 (layout.text library value) := by
  cases chunk with
  | json layout value =>
      cases h
      rfl
  | details layout fields =>
      cases h
      rfl
  | text s => cases h
  | bytes data => cases h
  | received data => cases h
  | frames lines => cases h

/-- Whether an action comes before the head of a response. -/
def Endpoints.ResponseAction.isPreliminary : ResponseAction → Bool
  | .setHeader _ _ => true
  | .informational _ _ => true
  | _ => false

/-- A complete response. -/
structure HttpResponse where
  before : List ResponseAction
  statusCode : Option JsNumber
  headers : HeaderList
  trailers : List HeaderList
  chunks : List Chunk

namespace HttpResponse

def actions (r : HttpResponse) : List ResponseAction :=
  r.before ++ .writeHead r.statusCode r.headers ::
    (r.trailers.map .addTrailers ++ (r.chunks.map .write ++ [.finish]))

def body (library : HttpLibrary) (r : HttpResponse) : Bytes :=
  r.chunks.flatMap (Chunk.encode library)

/-- The head of a response tells the truth of its body. -/
structure Proper (library : HttpLibrary) (r : HttpResponse) : Prop where
  before : ∀ action ∈ r.before, action.isPreliminary = true
  length : ∀ text ∈ declaredLength r.headers, text = decimal (r.body library).length
  json : declaresJson r.headers = true →
    (∃ chunk, r.chunks = [chunk] ∧ chunk.document.isSome = true) ∨
      ∀ chunk ∈ r.chunks, ∃ value, chunk.document = some (.line, value)

end HttpResponse

/-- What a handler that leaves no path can do. -/
inductive Exit (library : HttpLibrary) : Handled → Prop where
  | responds (r : HttpResponse) (h : r.Proper library) : Exit library (.done r.actions)
  | throws (e : Thrown) : Exit library ⟨[], some e⟩
  | breaks (statusCode : Option JsNumber) (headers : HeaderList) (e : Thrown) :
      Exit library ⟨[.writeHead statusCode headers], some e⟩
  | closes : Exit library (.done [.endSocket])
  | resets : Exit library (.done [.resetSocket])

namespace Exit

variable {library : HttpLibrary} {statusCode : Option JsNumber} {headers : HeaderList}

theorem of_document {chunk : Chunk} {layout : JsonLayout} {value : JsonValue}
    (hdocument : chunk.document = some (layout, value)) (hlength : declaredLength headers = none) :
    Exit library (.done [.writeHead statusCode headers, .write chunk, .finish]) := by
  refine responds ⟨[], statusCode, headers, [], [chunk]⟩ ⟨List.forall_mem_nil _, ?_, ?_⟩
  · intro text htext
    rw [hlength] at htext
    cases htext
  · intro _
    refine .inl ⟨chunk, rfl, ?_⟩
    rw [hdocument]
    rfl

/-- The body may be anything where the head does not say what it is. -/
theorem of_chunks {chunks : List Chunk} (hlength : declaredLength headers = none)
    (hother : declaresJson headers = false) :
    Exit library (.done (.writeHead statusCode headers :: (chunks.map .write ++ [.finish]))) := by
  refine responds ⟨[], statusCode, headers, [], chunks⟩ ⟨List.forall_mem_nil _, ?_, ?_⟩
  · intro text htext
    rw [hlength] at htext
    cases htext
  · intro hjson
    rw [hother] at hjson
    cases hjson

theorem of_empty (hlength : declaredLength headers = none) :
    Exit library (.done [.writeHead statusCode headers, .finish]) := by
  refine responds ⟨[], statusCode, headers, [], []⟩ ⟨List.forall_mem_nil _, ?_, ?_⟩
  · intro text htext
    rw [hlength] at htext
    cases htext
  · exact fun _ => .inr (List.forall_mem_nil _)

/-- A body of lines. -/
theorem of_lines {chunks : List Chunk} (hlength : declaredLength headers = none)
    (hlines : ∀ chunk ∈ chunks, ∃ value, chunk.document = some (.line, value)) :
    Exit library (.done (.writeHead statusCode headers :: (chunks.map .write ++ [.finish]))) := by
  refine responds ⟨[], statusCode, headers, [], chunks⟩
    ⟨List.forall_mem_nil _, ?_, fun _ => .inr hlines⟩
  intro text htext
  rw [hlength] at htext
  cases htext

/-- A body whose length is declared. -/
theorem of_length {chunk : Chunk} {text : JsString} (hlength : declaredLength headers = some text)
    (htext : text = decimal (chunk.encode library).length) (hother : declaresJson headers = false) :
    Exit library (.done [.writeHead statusCode headers, .write chunk, .finish]) := by
  refine responds ⟨[], statusCode, headers, [], [chunk]⟩ ⟨List.forall_mem_nil _, ?_, ?_⟩
  · intro declared hdeclared
    rw [hlength] at hdeclared
    cases hdeclared
    rw [HttpResponse.body, List.flatMap_singleton]
    exact htext
  · intro hjson
    rw [hother] at hjson
    cases hjson

/-- A handler that goes on with what something gives. -/
theorem of_bind {α : Type} {value : Except Thrown α} {f : α → List ResponseAction}
    (h : ∀ a, value = .ok a → Exit library (.done (f a))) :
    Exit library (.of (value >>= fun a => pure (f a))) := by
  cases value with
  | error e => exact throws e
  | ok a => exact h a rfl

theorem buildHttpBinAnythingEndpoint (fieldFilter : Option FieldFilter) (req : HttpCall)
    (options : HandleOptions) :
    Exit library (TestServer.buildHttpBinAnythingEndpoint fieldFilter library req options) :=
  of_bind fun _ _ => of_document rfl rfl

theorem methodHandler (req : HttpCall) (options : HandleOptions) :
    Exit library (Endpoints.methodHandler library req options) := by
  rw [Endpoints.methodHandler]
  dsimp only
  split_ifs
  · exact @of_chunks _ _ _ [_] rfl rfl
  · exact buildHttpBinAnythingEndpoint _ _ _
  · exact buildHttpBinAnythingEndpoint _ _ _

theorem echo (req : HttpCall) (options : HandleOptions) :
    Exit library (echo.handle library req options) := by
  rw [echo.handle]
  dsimp only
  split
  · split
    · exact @of_chunks _ _ _ [_] rfl rfl
    · exact @of_chunks _ _ _ [_] rfl rfl
    · exact @of_chunks _ _ _ [_] rfl rfl
  · split_ifs
    · exact @of_chunks _ _ _ [_] rfl rfl
    · exact of_length rfl rfl rfl

theorem trailers (req : HttpCall) (options : HandleOptions) :
    Exit library (trailers.handle library req options) := by
  rw [trailers.handle]
  generalize List.contains _ (js "trailers") = willSendTrailers
  have hproper (trailers : List HeaderList) (body : JsonValue) : HttpResponse.Proper library
      ⟨[], some (.finite (200 : Nat)), [(js "trailer", .one (js "example-trailer")), jsonType],
        trailers, [.json .document body]⟩ := by
    refine ⟨List.forall_mem_nil _, ?_, fun _ => .inl ⟨_, rfl, rfl⟩⟩
    intro text htext
    cases htext
  cases willSendTrailers with
  | true => exact responds _ (hproper [[(js "example-trailer", .one (js "example value"))]] _)
  | false => exact responds _ (hproper [] _)

theorem basicAuth (req : HttpCall) (options : HandleOptions) :
    Exit library (basicAuth.handle library req options) := by
  simp only [basicAuth.handle]
  split_ifs
  · exact of_empty rfl
  · exact of_document rfl rfl
  · exact of_empty rfl

theorem hiddenBasicAuth (req : HttpCall) (options : HandleOptions) :
    Exit library (hiddenBasicAuth.handle library req options) := by
  simp only [hiddenBasicAuth.handle]
  split_ifs
  · exact of_document rfl rfl
  · exact of_empty rfl

theorem bearer (req : HttpCall) (options : HandleOptions) :
    Exit library (bearer.handle library req options) := by
  rw [bearer.handle]
  split
  · dsimp only
    split_ifs
    · exact of_empty rfl
    · exact of_document rfl rfl
  · exact of_empty rfl

theorem cache (req : HttpCall) (options : HandleOptions) :
    Exit library (cache.handle library req options) := by
  rw [cache.handle]
  split_ifs
  · exact of_empty rfl
  · exact of_bind fun _ _ => of_document rfl rfl

theorem etag (req : HttpCall) (options : HandleOptions) :
    Exit library (etag.handle library req options) := by
  rw [etag.handle]
  split_ifs
  · exact of_empty rfl
  · exact of_empty rfl
  · exact of_bind fun _ _ => of_document rfl rfl

theorem streamEndpoint (req : HttpCall) (options : HandleOptions) :
    Exit library (streamEndpoint.handle library req options) := by
  rw [streamEndpoint.handle]
  cases parseCount streamRule (targetPath req.url) with
  | error e => exact throws e
  | ok n =>
      refine of_bind fun data _ => ?_
      have hlines := @of_lines library (some (.finite (200 : Nat))) [jsonType]
        ((List.range n.toNat).map fun id : Nat =>
          .details .line ((js "id", some (.num (.finite id))) :: data)) rfl ?_
      · rw [List.map_map] at hlines
        exact hlines
      · intro chunk hchunk
        obtain ⟨id, -, rfl⟩ := List.mem_map.mp hchunk
        exact ⟨_, rfl⟩

theorem tlsFingerprint (req : HttpCall) (options : HandleOptions) :
    Exit library (tlsFingerprint.handle library req options) := by
  rw [tlsFingerprint.handle]
  split
  · exact of_document rfl rfl
  · split_ifs
    · exact of_document rfl rfl
    · exact of_document rfl rfl

theorem tlsClientHello (req : HttpCall) (options : HandleOptions) :
    Exit library (tlsClientHello.handle library req options) := by
  rw [tlsClientHello.handle]
  split
  · exact of_document rfl rfl
  · dsimp only
    split
    · exact of_document rfl rfl
    · exact breaks _ _ _

/-- The last hop of a chain. -/
theorem informational (req : HttpCall) (options : HandleOptions)
    (hleaves : leavesPath Endpoints.informational options.path = false) :
    Exit library (informational.handle library req options) := by
  rw [informational.handle]
  dsimp only
  rw [hleaves, if_neg Bool.false_ne_true]
  refine responds ⟨[.informational _ _], _, _, [], [_]⟩ ⟨?_, ?_, fun _ => .inl ⟨_, rfl, rfl⟩⟩
  · exact List.forall_mem_singleton.mpr rfl
  · intro text htext
    cases htext
    rw [HttpResponse.body, List.flatMap_singleton]
    rfl

theorem delayEndpoint (req : HttpCall) (options : HandleOptions)
    (hleaves : leavesPath Endpoints.delayEndpoint options.path = false) :
    Exit library (delayEndpoint.handle library req options) := by
  rw [delayEndpoint.handle, hleaves, if_neg Bool.false_ne_true]
  exact buildHttpBinAnythingEndpoint _ _ _

theorem responseHeaders (req : HttpCall) (options : HandleOptions) :
    Exit library (responseHeaders.handle library req options) := by
  rw [responseHeaders.handle]
  refine responds ⟨_, _, [jsonType], [], [_]⟩ ⟨?_, ?_, fun _ => .inl ⟨_, rfl, rfl⟩⟩
  · intro action haction
    obtain ⟨entry, -, rfl⟩ := List.mem_map.mp haction
    rfl
  · intro text htext
    cases htext

theorem redirectTo (req : HttpCall) (options : HandleOptions) :
    Exit library (redirectTo.handle library req options) := by
  rw [redirectTo.handle]
  split
  · exact @of_chunks _ _ _ [_] rfl rfl
  · exact of_empty rfl

theorem countdown (rule : CountRule) (base next path : JsString) :
    Exit library (.of (Endpoints.countdown rule base next path)) :=
  of_bind fun _ _ => of_empty rfl

theorem length_bufferConcat (parts : List Bytes) (n : Nat) : (bufferConcat parts n).length = n := by
  simp [bufferConcat]

theorem nonneg_of_parseCount {lead path : JsString} {n : Int}
    (h : parseCount (bytesRule lead) path = .ok n) : 0 ≤ n := by
  rw [parseCount] at h
  split at h
  · cases h
  · split_ifs at h with hleast
    cases h
    exact not_lt.mp hleast

theorem bytesEndpoint (hrandom : ByteStreams.SizedRandom library) (req : HttpCall)
    (options : HandleOptions) : Exit library (bytesEndpoint.handle library req options) := by
  rw [bytesEndpoint.handle]
  refine of_bind fun n hn => of_length rfl ?_ rfl
  have hlength : integer n = decimal n.toNat := by
    obtain ⟨m, rfl⟩ := Int.eq_ofNat_of_zero_le (nonneg_of_parseCount hn)
    rfl
  refine hlength.trans (congrArg decimal ?_)
  split
  · exact (length_bufferConcat _ _).symm
  · exact (hrandom _ _).symm

theorem streamBytesEndpoint (req : HttpCall) (options : HandleOptions) :
    Exit library (streamBytesEndpoint.handle library req options) := by
  rw [streamBytesEndpoint.handle]
  dsimp only
  split
  · exact throws _
  · split
    · generalize streamChunks library _ _ _ _ _ = chunks
      have hchunks := @of_chunks library (some (.finite (200 : Nat))) [binaryType]
        (chunks.map .bytes) rfl rfl
      rw [List.map_map] at hchunks
      exact hchunks
    · split_ifs
      · split
        · exact @of_chunks _ _ _ [_] rfl rfl
        · exact breaks _ _ _
      · exact of_empty rfl

theorem base64Decode (req : HttpCall) (options : HandleOptions) :
    Exit library (base64Decode.handle library req options) := by
  rw [base64Decode.handle]
  split_ifs
  · exact @of_chunks _ _ _ [_] rfl rfl
  · exact @of_chunks _ _ _ [_] rfl rfl

theorem sendCookies (cookies : List JsString) :
    Exit library (.done (Endpoints.sendCookies cookies)) := by
  refine of_empty ?_
  rw [declaredLength, headerValue, Option.map_eq_none_iff, List.find?_eq_none]
  intro entry hentry
  obtain rfl | hentry := List.mem_cons.mp hentry
  · decide
  · obtain ⟨cookie, -, rfl⟩ := List.mem_map.mp hentry
    change ¬ decide (asciiLowerCase (js "set-cookie") = js "content-length") = true
    decide

theorem tlsCertificates (req : HttpCall) (options : HandleOptions) :
    Exit library (tlsCertificates.handle library req options) := by
  rw [tlsCertificates.handle]
  dsimp only
  split
  · exact @of_chunks _ _ _ [_] rfl rfl
  · exact throws _
  · split_ifs
    · exact @of_chunks _ _ _ [_] rfl rfl
    · exact @of_chunks _ _ _ [_] rfl rfl

end Exit

/-- Each handler whose endpoint leaves no path sends a complete response, or throws, or drops the
connection. -/
theorem exit_handle {library : HttpLibrary} (hrandom : ByteStreams.SizedRandom library)
    (req : HttpCall) : ∀ endpoint ∈ handledEndpoints, ∀ options : HandleOptions,
      leavesPath endpoint.toHttpEndpoint options.path = false →
        Exit library (endpoint.handle library req options) := by
  simp only [handledEndpoints, List.forall_mem_cons]
  and_intros
  · exact fun _ _ => Exit.countdown _ _ _ _
  · exact fun _ _ => Exit.buildHttpBinAnythingEndpoint _ _ _
  · exact fun _ _ => Exit.base64Decode _ _
  · exact fun _ _ => Exit.basicAuth _ _
  · exact fun _ _ => Exit.bearer _ _
  · exact fun _ _ => @Exit.of_chunks _ _ _ [_] rfl rfl
  · exact fun _ _ => Exit.bytesEndpoint hrandom _ _
  · exact fun _ _ => Exit.cache _ _
  · exact fun _ _ => Exit.of_bind fun _ _ => Exit.of_document rfl rfl
  · exact fun _ _ => Exit.closes
  · exact fun _ _ => @Exit.of_chunks _ _ _ [_] rfl rfl
  · exact fun _ => Exit.delayEndpoint _ _
  · exact fun _ _ => Exit.sendCookies _
  · exact fun _ _ => @Exit.of_chunks _ _ _ [_] rfl rfl
  · exact fun _ _ => Exit.echo _ _
  · exact fun _ _ => Exit.etag _ _
  · exact fun _ _ => @Exit.of_chunks _ _ _ [_] rfl rfl
  · exact fun _ _ => Exit.of_document rfl rfl
  · exact fun _ _ => Exit.methodHandler _ _
  · exact fun _ _ => @Exit.of_chunks _ _ _ [_] rfl rfl
  · exact fun _ _ => Exit.buildHttpBinAnythingEndpoint _ _ _
  · exact fun _ _ => Exit.hiddenBasicAuth _ _
  · exact fun _ _ => @Exit.of_chunks _ _ _ [_] rfl rfl
  · exact fun _ _ => Exit.of_document rfl rfl
  · exact fun _ => Exit.informational _ _
  · exact fun _ _ => Exit.buildHttpBinAnythingEndpoint _ _ _
  · exact fun _ _ => Exit.of_document rfl rfl
  · exact fun _ _ => Exit.methodHandler _ _
  · exact fun _ _ => Exit.countdown _ _ _ _
  · exact fun _ _ => Exit.redirectTo _ _
  · exact fun _ _ => Exit.countdown _ _ _ _
  · exact fun _ _ => Exit.resets
  · exact fun _ _ => Exit.responseHeaders _ _
  · exact fun _ _ => @Exit.of_chunks _ _ _ [_] rfl rfl
  · exact fun _ _ => Exit.of_bind fun _ _ => Exit.sendCookies _
  · exact fun _ _ => Exit.of_empty rfl
  · exact fun _ _ => Exit.streamBytesEndpoint _ _
  · exact fun _ _ => Exit.streamEndpoint _ _
  · exact fun _ _ => Exit.tlsCertificates _ _
  · exact fun _ _ => Exit.tlsClientHello _ _
  · exact fun _ _ => Exit.tlsFingerprint _ _
  · exact fun _ _ => Exit.trailers _ _
  · exact fun _ _ => Exit.of_document rfl rfl
  · exact fun _ _ => @Exit.of_chunks _ _ _ [_] rfl rfl
  · exact fun _ _ => Exit.of_document rfl rfl
  · exact fun _ _ => Exit.of_document rfl rfl
  · exact fun _ _ => @Exit.of_chunks _ _ _ [_] rfl rfl
  · exact fun _ _ => @Exit.of_chunks _ _ _ [_] rfl rfl
  · exact List.forall_mem_nil _

end TestServer
