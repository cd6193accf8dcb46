import TestServer.HttpHandler
import TestServer.ProcessConnection.ConnectionProcessor

/-!
# Where a request comes from

The sockets of a request, and the origin that `src/httpbin-compat.ts` reports. The
metadata of the PROXY protocol is handed on by each wrapper of a connection.
-/

namespace TestServer

open Js ProcessConnection

structure OriginSocket where
  remoteAddress : Option JsString
  proxyProtocol : Option ProxyProtocolData
deriving DecidableEq

/-- The socket of an HTTP/2 session, with the stream that it wraps if it is a
`JSStreamSocket`. -/
structure SessionSocket extends OriginSocket where
  stream : Option OriginSocket
deriving DecidableEq

structure RequestSockets where
  httpVersion : HttpVersion
  socket : OriginSocket
  sessionSocket : Option SessionSocket
deriving DecidableEq

def getConnectionSocket (req : RequestSockets) : OriginSocket :=
  if req.httpVersion = .http2 then
    match req.sessionSocket with
    | some sessionSocket => sessionSocket.stream.getD sessionSocket.toOriginSocket
    | none => req.socket
  else req.socket

def rawOrigin (socket : OriginSocket) : Option JsString :=
  (socket.proxyProtocol.map ProxyProtocolData.sourceAddress).or socket.remoteAddress

/-- `s.replace(/^::ffff:/, '')`. -/
def dropMappedPrefix (s : JsString) : JsString :=
  if startsWith s (js "::ffff:") then s.drop 7 else s

def origin (req : RequestSockets) : Option JsString :=
  (rawOrigin (getConnectionSocket req)).map dropMappedPrefix

/-- The socket of a connection, once its first reads are looked at for a PROXY header. -/
def connectionSocket (remoteAddress : Option JsString) (reads : List (Option Bytes)) :
    OriginSocket :=
  match parseProxyProtocolHeader [] reads with
  | .processing proxy _ _ => ⟨remoteAddress, proxy⟩
  | _ => ⟨remoteAddress, none⟩

/-- A TLS socket has the address of the socket under it, and is given its metadata. -/
def tlsSocket (rawSocket : OriginSocket) : OriginSocket :=
  { remoteAddress := rawSocket.remoteAddress
    proxyProtocol := rawSocket.proxyProtocol }

def dataCapturingStream (wrapped : OriginSocket) : OriginSocket :=
  { remoteAddress := wrapped.remoteAddress
    proxyProtocol := wrapped.proxyProtocol }

/-- A socket that tells nothing. -/
def blankSocket : OriginSocket := ⟨none, none⟩

/-- The sockets of a request on a connection. -/
def requestSockets (httpVersion : HttpVersion) (encrypted : Bool) (connection : OriginSocket) :
    RequestSockets :=
  let stream := if encrypted then tlsSocket connection else connection
  match httpVersion with
  | .http1 => ⟨.http1, stream, none⟩
  | .http2 => ⟨.http2, blankSocket, some ⟨blankSocket, some (dataCapturingStream stream)⟩⟩

/-- The wrappers of a connection do not change its origin. -/
theorem getConnectionSocket_requestSockets (httpVersion : HttpVersion) (encrypted : Bool)
    (connection : OriginSocket) :
    getConnectionSocket (requestSockets httpVersion encrypted connection) = connection := by
  cases httpVersion with
  | http1 => cases encrypted <;> rfl
  | http2 => cases encrypted <;> rfl

end TestServer
