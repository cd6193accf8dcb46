import TestServer.Endpoints.Echo
import TestServer.Http1Connection

/-!
# One HTTP/2 connection

The handler made by `createHttp2Handler` in `src/http-handler.ts` and the HTTP/2
branch of `src/endpoints/http/echo.ts`, over the frame-capturing stream. An
event is a frame, a request, the resumption of a handler, a queued callback or
the end of a request.

## Implementation notes

A stream that is destroyed has no session, and what is captured is found through
the session. What a handler finds of its stream comes with the event.

The callback that `echo` registers is named by the stream of its request. Of a
chain that ends in `echo`, only the number of hops before it is kept. The frames
received when `echo` ends are recorded with the response; the code itself never
reads this record.
-/

namespace TestServer

open Js Library Endpoints ProcessConnection

structure Http2Request extends HttpRequest where
  headers : Headers

/-- The course that a request takes over HTTP/2. -/
def http2CourseOf (context : HandlerContext) (req : HttpRequest) : Course :=
  match routeRequest context .http2 req with
  | .ok (.routed path hostnamePrefix) =>
      match httpChain path hostnamePrefix with
      | .ok entries =>
          if entries.any fun entry => entry.endpoint.needsRawData then .echo (entries.length - 1)
          else .chain
      | .error _ => .answered
  | .ok (.acmeChallenge _) => .acmeChallenge
  | _ => .answered

/-- Where the handling of a request stands. -/
inductive RequestPhase where
  /-- A hop before `echo` is awaited, with a number of hops after it. -/
  | hop (rest : Nat)
  /-- A chain without `echo` is running; its capture was stopped, or its stream was not found. -/
  | chain (stopped : Bool)
  | acmeChallenge
  /-- `echo` has registered its callback. -/
  | echoing
  /-- `echo` has ended its response. -/
  | ended
  /-- `handleRequest` is done. -/
  | handled
deriving DecidableEq

/-- What a handler finds of the stream of its request. -/
structure StreamAccess where
  /-- Whether `stream?.session?.socket?.stream` is there. -/
  capturingStream : Bool
  /-- Whether `stream?.id` is there. -/
  streamId : Bool
deriving DecidableEq

namespace StreamAccess

def attached : StreamAccess := ⟨true, true⟩

/-- A stream that is destroyed keeps its id. -/
def detached : StreamAccess := ⟨false, true⟩

/-- Whether the capture of the stream can be reached. -/
def reaches (access : StreamAccess) : Bool := access.capturingStream && access.streamId

end StreamAccess

/-- Whether all is done for a request. -/
def RequestPhase.isDone : RequestPhase → Bool
  | .ended => true
  | .handled => true
  | _ => false

def RequestPhase.isEchoing : RequestPhase → Bool
  | .echoing => true
  | _ => false

/-- What an `echo` has written. -/
structure EchoResponse where
  /-- The lines written before `res.end()`. -/
  written : List FrameOutput
  /-- The frames received when `res.end()` was called first. -/
  receivedAtEnd : Option (List (Nat × Bytes))
  /-- The lines written after it. -/
  lateWrites : List FrameOutput
deriving DecidableEq

/-- `res.write`, which counts as late after `res.end()`. -/
def EchoResponse.write (response : EchoResponse) (line : FrameOutput) : EchoResponse :=
  if response.receivedAtEnd.isSome then
    { response with lateWrites := response.lateWrites ++ [line] }
  else { response with written := response.written ++ [line] }

structure Http2Connection where
  capture : DataCapturingStream
  requests : InsertionMap Nat RequestPhase
  responses : InsertionMap Nat EchoResponse
deriving DecidableEq

namespace Http2Connection

/-- A connection that nothing has been read from. -/
def initial : Http2Connection where
  capture :=
    { readingStarted := false, globalFrames := [], streams := .empty, partialData := []
      pendingInitialData := none, immediates := [], pushed := [], routed := [] }
  requests := .empty
  responses := .empty

inductive Event where
  /-- A frame is cut off the incoming data. -/
  | frame (frame : Bytes)
  /-- The server hands a request to the handler. -/
  | request (streamId : Nat) (access : StreamAccess)
  /-- A handler goes on after an `await`. -/
  | resume (streamId : Nat) (access : StreamAccess)
  /-- A handler throws, or leaves its chain. -/
  | leave (streamId : Nat)
  /-- The first queued callback runs. -/
  | immediate
  /-- The request of an `echo` emits `end` or `error`. -/
  | finish (streamId : Nat)
deriving DecidableEq

def setPhase (s : Http2Connection) (streamId : Nat) (phase : RequestPhase) : Http2Connection :=
  { s with requests := s.requests.set streamId phase }

section

variable (context : HandlerContext) (requests : Nat → Http2Request)

/-- `echo` registers its callback and writes the frames that are captured. -/
def registerEcho (s : Http2Connection) (streamId : Nat) : Http2Connection :=
  let (capture, globalFrames, streamFrames) := s.capture.addStreamCallback streamId streamId
  { capture := capture
    requests := s.requests.set streamId .echoing
    responses := s.responses.set streamId
      { written := globalFrames.map connectionLine ++
          streamFrames.map (requestLine (requests streamId).headers)
        receivedAtEnd := none
        lateWrites := [] } }

/-- The HTTP/2 branch of `echo`, up to its return. -/
def startEcho (s : Http2Connection) (streamId : Nat) (access : StreamAccess) : Http2Connection :=
  if !access.capturingStream then
    -- 500: 'Echo endpoint requires data capturing stream'
    s.setPhase streamId .handled
  else if !access.streamId then
    -- 500: 'Could not determine stream ID'
    s.setPhase streamId .handled
  else registerEcho requests s streamId

/-- `stopRawDataCapture`, and the chain after it up to its first `await`. -/
def startChain (s : Http2Connection) (streamId : Nat) (access : StreamAccess) : Http2Connection :=
  if access.streamId && access.capturingStream then
    { s with
      capture := s.capture.stopCapturingStream streamId
      requests := s.requests.set streamId (.chain true) }
  else s.setPhase streamId (.chain false)

/-- `handleRequest` up to its first `await`. -/
def startRequest (s : Http2Connection) (streamId : Nat) (access : StreamAccess) :
    Http2Connection :=
  match http2CourseOf context (requests streamId).toHttpRequest with
  | .echo 0 => startEcho requests s streamId access
  | .echo (rest + 1) => s.setPhase streamId (.hop rest)
  | .chain => startChain s streamId access
  | .acmeChallenge => s.setPhase streamId .acmeChallenge
  | .answered => s.setPhase streamId .handled

/-- A handler goes on up to its next `await`. -/
def resume (s : Http2Connection) (streamId : Nat) (access : StreamAccess) :
    RequestPhase → Option Http2Connection
  | .hop 0 => some (startEcho requests s streamId access)
  | .hop (rest + 1) => some (s.setPhase streamId (.hop rest))
  | .chain _ => some (s.setPhase streamId .handled)
  | .acmeChallenge => some (s.setPhase streamId .handled)
  | _ => none

def leave (s : Http2Connection) (streamId : Nat) : RequestPhase → Option Http2Connection
  | .hop _ => some (s.setPhase streamId .handled)
  | .chain _ => some (s.setPhase streamId .handled)
  | _ => none

/-- A queued callback runs: it writes, whether or not the response has ended. -/
def runCallback (s : Http2Connection) (callback : Nat) (frame : Bytes) : Http2Connection :=
  match s.responses.get callback, echoCallback (requests callback).headers callback frame with
  | some response, some line =>
      { s with responses := s.responses.set callback (response.write line) }
  | _, _ => s

/-- The `end` and `error` listeners of `echo`. Ending a response again does nothing. -/
def finish (s : Http2Connection) (streamId : Nat) : Http2Connection :=
  { capture := s.capture.removeStreamCallback streamId
    requests := s.requests.set streamId .ended
    responses :=
      match s.responses.get streamId with
      | some response =>
          s.responses.set streamId
            { response with
              receivedAtEnd := response.receivedAtEnd.or (some s.capture.routed) }
      | none => s.responses }

/-- A request comes once for each stream, after a frame of that stream. -/
def step (s : Http2Connection) : Event → Option Http2Connection
  | .frame frame => do
      let header ← parseFrameHeader frame 0
      if frame.length = frameHeaderSize + header.length then
        some { s with capture := s.capture.routeFrame header.streamId frame }
      else none
  | .request streamId access =>
      if streamId ≠ 0 ∧ s.requests.get streamId = none ∧
          (s.capture.routed.any fun r => r.1 == streamId) = true then
        some (startRequest context requests s streamId access)
      else none
  | .resume streamId access => do
      let phase ← s.requests.get streamId
      resume requests s streamId access phase
  | .leave streamId => do
      let phase ← s.requests.get streamId
      leave s streamId phase
  | .immediate =>
      match s.capture.immediates with
      | [] => none
      | (callback, frame) :: rest =>
          some (runCallback requests
            { s with capture := { s.capture with immediates := rest } } callback frame)
  | .finish streamId => do
      let phase ← s.requests.get streamId
      if phase = .echoing ∨ phase = .ended then some (s.finish streamId) else none

end

end Http2Connection

/-- A request for `/echo` over plain text. -/
def plainEcho : Http2Request where
  url := js "/echo"
  method := js "GET"
  host := some (js "t")
  encrypted := false
  sni := none
  headers := []

/-- The frame of a request on stream 1. -/
def headersFrame : Bytes := [0, 0, 1, 1, 5, 0, 0, 0, 1, 0x82]

def windowUpdate (streamId : UInt8) : Bytes := [0, 0, 4, 8, 0, 0, 0, 0, streamId, 0, 0, 0, 1]

end TestServer
