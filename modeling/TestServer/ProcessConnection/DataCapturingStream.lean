import TestServer.Library.Framing
import TestServer.Library.InsertionMap
import TestServer.Library.Runs

/-!
# The frame-capturing stream under an HTTP/2 connection

`DataCapturingStream` of `src/process-connection.ts`. Each chunk read from the
wrapped connection is cut into HTTP/2 frames, which are routed to the stream
they name, and is then pushed on unchanged to the HTTP/2 server.

## Implementation notes

Registered callbacks are named by numbers. `immediates` is the queue of
`setImmediate` calls, `pushed` the chunks handed to the reader, and `routed`
records the calls of `routeFrame`; the code itself never reads these three.
-/

namespace TestServer.ProcessConnection

open Library Library.Framing

abbrev Bytes := List UInt8

def frameHeaderSize : Nat := 9

structure ParsedFrameHeader where
  length : Nat
  type : Nat
  flags : Nat
  streamId : Nat
deriving DecidableEq, Repr

/-- `data[i]` of a buffer, for an index within it. -/
def byteAt (data : Bytes) (i : Nat) : Nat := (data.getD i 0).toNat

theorem byteAt_drop (data : Bytes) (offset i : Nat) :
    byteAt (data.drop offset) i = byteAt data (offset + i) := by
  simp [byteAt, List.getD_eq_getElem?_getD]

theorem byteAt_append {data : Bytes} {i : Nat} (rest : Bytes) (h : i < data.length) :
    byteAt (data ++ rest) i = byteAt data i := by
  simp [byteAt, List.getD_eq_getElem?_getD, List.getElem?_append_left h]

def parseFrameHeader (data : Bytes) (offset : Nat) : Option ParsedFrameHeader :=
  if offset + frameHeaderSize > data.length then none
  else some
    { length := (byteAt data offset <<< 16) ||| (byteAt data (offset + 1) <<< 8) |||
        byteAt data (offset + 2)
      type := byteAt data (offset + 3)
      flags := byteAt data (offset + 4)
      streamId := ((byteAt data (offset + 5) &&& 0x7f) <<< 24) |||
        (byteAt data (offset + 6) <<< 16) ||| (byteAt data (offset + 7) <<< 8) |||
        byteAt data (offset + 8) }

/-- The bytes of `'PRI * HTTP/2.0\r\n\r\nSM\r\n\r\n'`. -/
def http2Preface : Bytes :=
  "PRI * HTTP/2.0\r\n\r\nSM\r\n\r\n".toList.map fun c => c.toNat.toUInt8

structure StreamState where
  callback : Option Nat
  buffer : List Bytes
  stopped : Bool
deriving DecidableEq

structure DataCapturingStream where
  readingStarted : Bool
  globalFrames : List Bytes
  streams : InsertionMap Nat StreamState
  partialData : Bytes
  pendingInitialData : Option Bytes
  immediates : List (Nat × Bytes)
  pushed : List Bytes
  routed : List (Nat × Bytes)
deriving DecidableEq

namespace DataCapturingStream

/-- The frame callbacks that a connection-level frame is handed to. -/
def callbacks (s : DataCapturingStream) : List Nat :=
  s.streams.values.filterMap StreamState.callback

/-- A stream's own frame goes to its callback, or to its buffer unless capture
was stopped: the new stream state and the queued callback. -/
def captureFrame (state : StreamState) (frame : Bytes) : StreamState × List (Nat × Bytes) :=
  match state.callback with
  | some cb => (state, [(cb, frame)])
  | none =>
      if state.stopped then (state, [])
      else ({ state with buffer := state.buffer ++ [frame] }, [])

def routeFrame (s : DataCapturingStream) (streamId : Nat) (frame : Bytes) :
    DataCapturingStream :=
  if streamId = 0 then
    { s with
      globalFrames := s.globalFrames ++ [frame]
      immediates := s.immediates ++ s.callbacks.map fun cb => (cb, frame)
      routed := s.routed ++ [(streamId, frame)] }
  else
    -- An unknown stream id starts out capturing.
    let captured := captureFrame ((s.streams.get streamId).getD ⟨none, [], false⟩) frame
    { s with
      streams := s.streams.set streamId captured.1
      immediates := s.immediates ++ captured.2
      routed := s.routed ++ [(streamId, frame)] }

/-- The `while` loop of `processIncomingData`: the final offset, and the stream
after routing the complete frames from `offset` on. -/
def routeFrames (fullData : Bytes) : Nat → Nat → DataCapturingStream →
    Nat × DataCapturingStream
  | 0, offset, s => (offset, s)
  | fuel + 1, offset, s =>
      if offset < fullData.length then
        match parseFrameHeader fullData offset with
        | none => (offset, s)
        | some header =>
            let frameEnd := offset + frameHeaderSize + header.length
            if frameEnd > fullData.length then (offset, s)
            else
              routeFrames fullData fuel frameEnd
                (s.routeFrame header.streamId ((fullData.take frameEnd).drop offset))
      else (offset, s)

/-- The preface test compares the decoded text; a UTF-8 decoding is this ASCII
text only if the bytes are these bytes. -/
def startsWithPreface (s : DataCapturingStream) (fullData : Bytes) : Bool :=
  s.globalFrames.length == 0 && decide (http2Preface.length ≤ fullData.length) &&
    fullData.take http2Preface.length == http2Preface

def processIncomingData (s : DataCapturingStream) (data : Bytes) : DataCapturingStream :=
  let fullData := if s.partialData.length > 0 then s.partialData ++ data else data
  let start := if s.startsWithPreface fullData then http2Preface.length else 0
  let (offset, s) := routeFrames fullData fullData.length start s
  { s with partialData := if offset < fullData.length then fullData.drop offset else [] }

/-- The constructor, which is always given the data sniffed so far. -/
def construct (initialData : Bytes) : DataCapturingStream :=
  let s := processIncomingData
    { readingStarted := false, globalFrames := [], streams := .empty, partialData := []
      pendingInitialData := none, immediates := [], pushed := [], routed := [] } initialData
  { s with pendingInitialData := some initialData }

/-- `_read`: the first call pushes the initial data and starts listening. -/
def read (s : DataCapturingStream) : DataCapturingStream :=
  if s.readingStarted then s
  else
    { s with
      readingStarted := true
      pushed := s.pushed ++ s.pendingInitialData.toList
      pendingInitialData := none }

def stopCapturingStream (s : DataCapturingStream) (streamId : Nat) : DataCapturingStream :=
  { s with streams := s.streams.set streamId ⟨none, [], true⟩ }

/-- Returns the connection frames and the stream's own frames captured so far. -/
def addStreamCallback (s : DataCapturingStream) (streamId callback : Nat) :
    DataCapturingStream × List Bytes × List Bytes :=
  let state := (s.streams.get streamId).getD ⟨none, [], false⟩
  ({ s with streams := s.streams.set streamId ⟨some callback, [], false⟩ },
    s.globalFrames, state.buffer)

def removeStreamCallback (s : DataCapturingStream) (streamId : Nat) : DataCapturingStream :=
  { s with streams := s.streams.delete streamId }

/-- What can happen to the stream once it is built: the reader asks for data,
the connection delivers a chunk, or a request handler uses the stream. -/
inductive Event where
  | read
  | chunk (data : Bytes)
  | stopCapturing (streamId : Nat)
  | addCallback (streamId callback : Nat)
  | removeCallback (streamId : Nat)
deriving DecidableEq

/-- Chunks are taken from the wrapped connection only after the first read. -/
def step (s : DataCapturingStream) : Event → Option DataCapturingStream
  | .read => some s.read
  | .chunk data =>
      if s.readingStarted then
        let s := s.processIncomingData data
        some { s with pushed := s.pushed ++ [data] }
      else none
  | .stopCapturing streamId => some (s.stopCapturingStream streamId)
  | .addCallback streamId callback => some (s.addStreamCallback streamId callback).1
  | .removeCallback streamId => some (s.removeStreamCallback streamId)

end DataCapturingStream

end TestServer.ProcessConnection
