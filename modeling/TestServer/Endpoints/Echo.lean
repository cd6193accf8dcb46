import TestServer.Js.Json
import TestServer.Js.Number
import TestServer.ProcessConnection.DataCapturingStream

/-!
# Echoed frames

The HTTP/2 part of `src/endpoints/http/echo.ts`: what is written for a frame.

## Implementation notes

A line of the response is given by the record that is turned into JSON.
-/

namespace TestServer.Endpoints

open Js ProcessConnection

/-- Decoded headers. -/
abbrev Headers := List (JsString × List JsString)

structure ParsedFrame where
  streamId : Nat
  type : JsString
  flags : List JsString
  length : Nat
  payloadHex : JsString
deriving DecidableEq

structure FrameOutput extends ParsedFrame where
  decodedHeaders : Option Headers
deriving DecidableEq

def frameTypes : List JsString :=
  [js "DATA", js "HEADERS", js "PRIORITY", js "RST_STREAM", js "SETTINGS", js "PUSH_PROMISE",
    js "PING", js "GOAWAY", js "WINDOW_UPDATE", js "CONTINUATION"]

def frameFlags : Nat → List (Nat × JsString)
  | 0x0 => [(0x1, js "END_STREAM"), (0x8, js "PADDED")]
  | 0x1 => [(0x1, js "END_STREAM"), (0x4, js "END_HEADERS"), (0x8, js "PADDED"),
      (0x20, js "PRIORITY")]
  | 0x4 => [(0x1, js "ACK")]
  | 0x5 => [(0x4, js "END_HEADERS"), (0x8, js "PADDED")]
  | 0x6 => [(0x1, js "ACK")]
  | 0x9 => [(0x4, js "END_HEADERS")]
  | _ => []

/-- `payload.toString('hex')`. -/
def hexText (payload : Bytes) : JsString :=
  payload.flatMap fun b => [hexDigit (b.toNat / 16), hexDigit (b.toNat % 16)]

def frameToOutput (frameBuffer : Bytes) : ParsedFrame :=
  let length := (byteAt frameBuffer 0 <<< 16) ||| (byteAt frameBuffer 1 <<< 8) |||
    byteAt frameBuffer 2
  let typeNum := byteAt frameBuffer 3
  let flagsByte := byteAt frameBuffer 4
  { streamId := ((byteAt frameBuffer 5 &&& 0x7f) <<< 24) ||| (byteAt frameBuffer 6 <<< 16) |||
      (byteAt frameBuffer 7 <<< 8) ||| byteAt frameBuffer 8
    type := frameTypes[typeNum]?.getD (js "UNKNOWN_" ++ numberText (some typeNum))
    flags := ((frameFlags typeNum).filter fun flag => flagsByte &&& flag.1 != 0).map Prod.snd
    length := length
    payloadHex := hexText ((frameBuffer.take (9 + length)).drop 9) }

/-- `writeFrame`: the frame that completes the headers of a request comes with them. -/
def writeFrame (frame : ParsedFrame) (req : Option Headers) : FrameOutput :=
  let completes := (frame.type == js "HEADERS" || frame.type == js "CONTINUATION") &&
    frame.flags.contains (js "END_HEADERS")
  { frame with decodedHeaders := if completes then req else none }

/-- The line for a frame of the connection. -/
def connectionLine (frameBuffer : Bytes) : FrameOutput :=
  writeFrame (frameToOutput frameBuffer) none

/-- The line for a frame of a request with the given headers. -/
def requestLine (headers : Headers) (frameBuffer : Bytes) : FrameOutput :=
  writeFrame (frameToOutput frameBuffer) (some headers)

/-- The callback that `echo` registers for a stream: the line it writes. -/
def echoCallback (headers : Headers) (requestStreamId : Nat) (frameBuffer : Bytes) :
    Option FrameOutput :=
  if (frameToOutput frameBuffer).streamId = 0 then some (connectionLine frameBuffer)
  else if (frameToOutput frameBuffer).streamId = requestStreamId then
    some (requestLine headers frameBuffer)
  else none

@[simp] theorem streamId_connectionLine (frameBuffer : Bytes) :
    (connectionLine frameBuffer).streamId = (frameToOutput frameBuffer).streamId := rfl

@[simp] theorem streamId_requestLine (headers : Headers) (frameBuffer : Bytes) :
    (requestLine headers frameBuffer).streamId = (frameToOutput frameBuffer).streamId := rfl

end TestServer.Endpoints
