import TestServer.Endpoints.HttpIndex
import TestServer.Js.Utf8
import TestServer.ProcessConnection.ProxyProtocol

/-!
# Processing a connection

`ConnectionProcessor` of `src/process-connection.ts`: the PROXY header is read
off a new connection, and the bytes that follow decide which handler takes it.

## Implementation notes

A read is the chunk that `connection.read()` returns, or nothing. Every read but
the first comes after a `readable` event. `httpMethods` is the list `http.METHODS`.
-/

namespace TestServer.ProcessConnection

open Js Endpoints

/-- What becomes of a connection, with the reads that are left. -/
inductive HeaderOutcome where
  /-- The connection waits for more input. -/
  | waiting (bufferedData : Bytes)
  | destroyed
  /-- `processProtocolData` is called, with the metadata attached and the data at hand. -/
  | processing (proxy : Option ProxyProtocolData) (data : Bytes) (unread : List (Option Bytes))
deriving DecidableEq

/-- The metadata attached to the connection: none without an address. -/
def attachedProxy (result : ProxyProtocolResult) : Option ProxyProtocolData :=
  result.proxy.filter fun proxy => !proxy.sourceAddress.isEmpty

inductive HeaderDecision where
  | wait
  | destroy
  | process (proxy : Option ProxyProtocolData) (data : Bytes)
deriving DecidableEq

/-- `parseProxyProtocolHeader`, once the chunk at hand is added to the buffer. -/
def decideHeader (data : Bytes) : HeaderDecision :=
  if data.length = 0 then .wait
  else
    match detectProxyProtocol data with
    | .incomplete => if data.length > 256 then .process none data else .wait
    | .none => .process none data
    | _ =>
        match parseProxyProtocol data with
        | none => if data.length > 512 then .destroy else .wait
        | some result => .process (attachedProxy result) result.remainingData

/-- `parseProxyProtocolHeader` for a connection with the given reads. -/
def parseProxyProtocolHeader (bufferedData : Bytes) : List (Option Bytes) → HeaderOutcome
  | [] => .waiting bufferedData
  | chunk :: reads =>
      let data := bufferedData ++ chunk.getD []
      match decideHeader data with
      | .wait => parseProxyProtocolHeader data reads
      | .destroy => .destroyed
      | .process proxy rest => .processing proxy rest reads

inductive Destination where
  | tls
  | http2
  | http1
  /-- The connection is destroyed. -/
  | rejected
deriving DecidableEq

def tlsHandshakeByte : UInt8 := 0x16

def isTLS (initialData : Bytes) : Bool := initialData.head? == some tlsHandshakeByte

def isHTTP2 (initialData : Bytes) : Bool :=
  let comparisonLength := min initialData.length http2Preface.length
  initialData.take comparisonLength == http2Preface.take comparisonLength

def methodPrefixes : List JsString := httpMethods.map fun method => method ++ js " "

def longestPrefix : Nat := (methodPrefixes.map List.length).foldr max 0

def couldBeHttp (initialData : Bytes) : Bool :=
  let initialString := decodeUtf8 (initialData.take longestPrefix)
  methodPrefixes.any fun method =>
    let comparisonLength := min initialString.length method.length
    initialString.take comparisonLength == method.take comparisonLength

/-- Where `processProtocolData` sends a connection with the given first data. -/
def destination (initialData : Bytes) : Destination :=
  if isTLS initialData then .tls
  else if isHTTP2 initialData then .http2
  else if couldBeHttp initialData then .http1
  else .rejected

/-- `processProtocolData` for a connection with the given reads: where it is sent, and the
data it is sent with. An empty read after the first one is followed by another call. -/
def processProtocolData (initialData : Bytes) : List (Option Bytes) → Option (Destination × Bytes)
  | [] => if initialData.length = 0 then none else some (destination initialData, initialData)
  | chunk :: reads =>
      if initialData.length = 0 then processProtocolData (chunk.getD []) reads
      else some (destination initialData, initialData)

end TestServer.ProcessConnection
