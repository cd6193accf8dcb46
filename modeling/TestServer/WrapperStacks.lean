import TestServer.ConnectionOrigin
import TestServer.Endpoints.HttpCalls

/-!
# Stacks of wrappers

A TLS handshake wraps its connection in a `TLSSocket`, and what is decrypted is looked at again.
HTTP/2 puts a `DataCapturingStream` on top. The metadata is handed on by every wrapper, but the
reference to the raw TCP socket is lost from the second TLS layer on.

## Implementation notes

A stream of a connection is referred to by the number of streams under it, so `0` is the TCP
socket. A handshake that fails has no layer.
-/

namespace TestServer

open Js Endpoints ProcessConnection

inductive StreamKind where
  | tcpSocket
  | tlsSocket
  | dataCapturingStream
deriving DecidableEq

/-- The metadata of a stream. -/
structure Duplex extends OriginSocket where
  kind : StreamKind
  clientHello : Option ClientHello
  underlyingSocket : Option Nat

/-- `instanceof net.Socket`, which a `TLSSocket` is too. -/
def Duplex.isNetSocket (stream : Duplex) : Bool := stream.kind != .dataCapturingStream

/-- A stream and those that it wraps, from the outside in. -/
structure Connection where
  outermost : Duplex
  wrapped : List Duplex

namespace Connection

/-- The TCP socket of a connection. -/
def rawSocket : Nat := 0

def reference (conn : Connection) : Nat := conn.wrapped.length

def ofSocket (socket : OriginSocket) : Connection :=
  ⟨⟨socket, .tcpSocket, none, none⟩, []⟩

/-- The client hello is kept if it can be read. -/
def storeClientHello (conn : Connection) (clientHello : Option ClientHello) : Connection :=
  { conn with outermost.clientHello := clientHello.or conn.outermost.clientHello }

/-- The end of `TlsConnectionHandler.handleConnection`: the TLS socket on a connection. -/
def handleConnection (conn : Connection) : Connection where
  outermost :=
    { tlsSocket conn.outermost.toOriginSocket with
      kind := .tlsSocket
      clientHello := conn.outermost.clientHello
      underlyingSocket :=
        if conn.outermost.isNetSocket then some conn.reference
        else conn.outermost.underlyingSocket }
  wrapped := conn.outermost :: conn.wrapped

/-- The constructor of `DataCapturingStream`. -/
def capture (conn : Connection) : Connection where
  outermost :=
    { dataCapturingStream conn.outermost.toOriginSocket with
      kind := .dataCapturingStream
      clientHello := conn.outermost.clientHello
      underlyingSocket := conn.outermost.underlyingSocket.or
        (if conn.outermost.isNetSocket then some conn.reference else none) }
  wrapped := conn.outermost :: conn.wrapped

/-- A TLS layer: the client hello, and the reads of what is decrypted. -/
structure TlsLayer where
  clientHello : Option ClientHello
  reads : List (Option Bytes)

/-- The HTTP handler that a connection comes to, with the streams that it is given. -/
def dispatch (conn : Connection) : Destination → List TlsLayer → Option (HttpVersion × Connection)
  | .tls, layer :: layers =>
      (processProtocolData [] layer.reads).bind fun next =>
        dispatch (conn.storeClientHello layer.clientHello).handleConnection next.1 layers
  | .http2, [] => some (.http2, conn.capture)
  | .http1, [] => some (.http1, conn)
  | _, _ => none

/-- The metadata that is parsed on the TCP socket. -/
def parsedProxy (trustProxyProtocol : Bool) (reads : List (Option Bytes)) :
    Option ProxyProtocolData :=
  if trustProxyProtocol then (connectionSocket none reads).proxyProtocol else none

/-- `processInitialConnection`, for a connection with the given reads and TLS layers. -/
def processInitialConnection (trustProxyProtocol : Bool) (remoteAddress : Option JsString)
    (reads : List (Option Bytes)) (layers : List TlsLayer) : Option (HttpVersion × Connection) :=
  if trustProxyProtocol then
    match parseProxyProtocolHeader [] reads with
    | .processing proxy data unread =>
        (processProtocolData data unread).bind fun next =>
          dispatch (ofSocket ⟨remoteAddress, proxy⟩) next.1 layers
    | _ => none
  else
    (processProtocolData [] reads).bind fun next =>
      dispatch (ofSocket ⟨remoteAddress, none⟩) next.1 layers

/-- The sockets of a request on a connection. -/
def requestSockets (conn : Connection) : HttpVersion → RequestSockets
  | .http1 => ⟨.http1, conn.outermost.toOriginSocket, none⟩
  | .http2 => ⟨.http2, blankSocket, some ⟨blankSocket, some conn.outermost.toOriginSocket⟩⟩

/-- What `/error/reset` resets: nothing is the socket of an HTTP/2 session. -/
def resetTarget (conn : Connection) : HttpVersion → Option Nat
  | .http1 => some (conn.outermost.underlyingSocket.getD conn.reference)
  | .http2 => conn.outermost.underlyingSocket

/-- A request on the connection finds the TCP socket and what was parsed on it. -/
def ReachesRaw (parsed : Option ProxyProtocolData) (version : HttpVersion)
    (conn : Connection) : Prop :=
  conn.outermost.underlyingSocket = some rawSocket ∧
    (getConnectionSocket (conn.requestSockets version)).proxyProtocol = parsed

/-- The streams that a handler is given on a connection. -/
def under (conn : Connection) : HttpVersion → Connection
  | .http1 => conn
  | .http2 => conn.capture

section

variable {P : Nat → Connection → Prop} {conn conn' : Connection} {version : HttpVersion}

/-- What holds after one more handshake if it held before holds after all of them. -/
theorem exists_of_dispatch
    (step : ∀ n conn hello, P n conn → P (n + 1) (conn.storeClientHello hello).handleConnection)
    {n : Nat} {layers : List TlsLayer} {destination : Destination} (h : P n conn)
    (hdispatch : conn.dispatch destination layers = some (version, conn')) :
    ∃ inner, P (n + layers.length) inner ∧ conn' = inner.under version := by
  induction layers generalizing n conn destination with
  | nil =>
      cases destination with
      | tls => cases hdispatch
      | http2 =>
          cases hdispatch
          exact ⟨_, h, rfl⟩
      | http1 =>
          cases hdispatch
          exact ⟨_, h, rfl⟩
      | rejected => cases hdispatch
  | cons layer layers ih =>
      cases destination with
      | tls =>
          obtain ⟨next, -, hnext⟩ := Option.bind_eq_some_iff.mp hdispatch
          have hinner := ih (step n conn layer.clientHello h) hnext
          rwa [Nat.add_assoc, Nat.add_comm 1] at hinner
      | http2 => cases hdispatch
      | http1 => cases hdispatch
      | rejected => cases hdispatch

/-- The same from the TCP socket on, which has what was parsed on it. -/
theorem exists_of_processInitialConnection {trust : Bool} {remoteAddress : Option JsString}
    {reads : List (Option Bytes)} {layers : List TlsLayer}
    (init : ∀ remoteAddress, P 0 (ofSocket ⟨remoteAddress, parsedProxy trust reads⟩))
    (step : ∀ n conn hello, P n conn → P (n + 1) (conn.storeClientHello hello).handleConnection)
    (h : processInitialConnection trust remoteAddress reads layers = some (version, conn)) :
    ∃ inner, P layers.length inner ∧ conn = inner.under version := by
  rw [← Nat.zero_add layers.length]
  unfold processInitialConnection at h
  cases trust with
  | false =>
      obtain ⟨next, -, hnext⟩ := Option.bind_eq_some_iff.mp h
      exact exists_of_dispatch step (init remoteAddress) hnext
  | true =>
      rw [parsedProxy, if_pos rfl, connectionSocket] at init
      cases hheader : parseProxyProtocolHeader [] reads with
      | processing proxy data unread =>
          simp only [if_true, hheader] at h
          rw [hheader] at init
          obtain ⟨next, -, hnext⟩ := Option.bind_eq_some_iff.mp h
          exact exists_of_dispatch step (init remoteAddress) hnext
      | waiting bufferedData =>
          simp only [if_true, hheader] at h
          cases h
      | destroyed =>
          simp only [if_true, hheader] at h
          cases h

end

/-- What is known of a connection on which `n` handshakes are done. -/
structure Layered (proxy : Option ProxyProtocolData) (n : Nat) (conn : Connection) : Prop where
  isNetSocket : conn.outermost.isNetSocket = true
  reference : conn.reference = n
  proxyProtocol : conn.outermost.proxyProtocol = proxy
  underlyingSocket : conn.outermost.underlyingSocket = if n = 0 then none else some (n - 1)

variable {proxy : Option ProxyProtocolData} {n : Nat} {conn : Connection}

theorem layered_ofSocket (remoteAddress : Option JsString) :
    Layered proxy 0 (ofSocket ⟨remoteAddress, proxy⟩) where
  isNetSocket := rfl
  reference := rfl
  proxyProtocol := rfl
  underlyingSocket := rfl

/-- The TLS socket refers to the socket that it wraps. -/
theorem Layered.handleConnection (h : Layered proxy n conn) (hello : Option ClientHello) :
    Layered proxy (n + 1) (conn.storeClientHello hello).handleConnection where
  isNetSocket := rfl
  reference := congrArg (· + 1) h.reference
  proxyProtocol := h.proxyProtocol
  underlyingSocket := by
    have hnet : (conn.storeClientHello hello).outermost.isNetSocket = true := h.isNetSocket
    have href : (conn.storeClientHello hello).reference = n := h.reference
    simp only [Connection.handleConnection, hnet, if_true, href, Nat.add_one_ne_zero, if_false,
      Nat.add_sub_cancel]

/-- What a request finds through the layers of a connection, with a capturing stream on top
for HTTP/2. -/
theorem Layered.capture (h : Layered proxy n conn) :
    conn.capture.outermost.underlyingSocket = some (n - 1) := by
  simp only [Connection.capture, h.underlyingSocket, h.isNetSocket, h.reference, if_true]
  by_cases hn : n = 0
  · rw [if_pos hn, Option.none_or, hn]
  · rw [if_neg hn, Option.some_or]

/-- The streams that an HTTP handler is given. -/
structure Given (proxy : Option ProxyProtocolData) (n : Nat) (version : HttpVersion)
    (conn : Connection) : Prop where
  proxyProtocol : (getConnectionSocket (conn.requestSockets version)).proxyProtocol = proxy
  underlyingSocket : conn.outermost.underlyingSocket =
    if n = 0 ∧ version = .http1 then none else some (n - 1)
  reference : version = .http1 → conn.reference = n

theorem Layered.given_http1 (h : Layered proxy n conn) : Given proxy n .http1 conn where
  proxyProtocol := h.proxyProtocol
  underlyingSocket := by
    rw [h.underlyingSocket]
    simp only [and_true]
  reference _ := h.reference

theorem Layered.given_http2 (h : Layered proxy n conn) : Given proxy n .http2 conn.capture where
  proxyProtocol := h.proxyProtocol
  underlyingSocket := by
    rw [h.capture, if_neg (fun hversion => HttpVersion.noConfusion hversion.2)]
  reference hversion := HttpVersion.noConfusion hversion

theorem Layered.given {version : HttpVersion} (h : Layered proxy n conn) :
    Given proxy n version (conn.under version) := by
  cases version with
  | http1 => exact h.given_http1
  | http2 => exact h.given_http2

theorem given_of_processInitialConnection {trust : Bool} {remoteAddress : Option JsString}
    {reads : List (Option Bytes)} {layers : List TlsLayer} {version : HttpVersion}
    (h : processInitialConnection trust remoteAddress reads layers = some (version, conn)) :
    Given (parsedProxy trust reads) layers.length version conn := by
  obtain ⟨inner, hlayered, rfl⟩ := exists_of_processInitialConnection
    (P := Layered (parsedProxy trust reads))
    (fun remoteAddress => layered_ofSocket remoteAddress)
    (fun n conn hello hlayered => hlayered.handleConnection hello) h
  exact hlayered.given

variable {trust : Bool} {remoteAddress : Option JsString} {reads : List (Option Bytes)}
  {layers : List TlsLayer} {version : HttpVersion}

/-- A connection reaches its TCP socket under one TLS layer, or under the capturing stream
alone. -/
theorem reachesRaw_iff
    (h : processInitialConnection trust remoteAddress reads layers = some (version, conn)) :
    ReachesRaw (parsedProxy trust reads) version conn ↔
      layers.length = 1 ∨ layers.length = 0 ∧ version = .http2 := by
  have hgiven := given_of_processInitialConnection h
  rw [ReachesRaw, and_iff_left hgiven.proxyProtocol, hgiven.underlyingSocket]
  cases version with
  | http1 =>
      by_cases hzero : layers.length = 0
      · simp [hzero]
      · have hone : layers.length - 1 = 0 ↔ layers.length = 1 := by omega
        simp [hzero, rawSocket, hone]
  | http2 =>
      have hone : layers.length - 1 = 0 ↔ layers.length = 1 ∨ layers.length = 0 := by omega
      simp [rawSocket, hone]

/-- The reads of a request in plain HTTP/1. -/
def getReads : List (Option Bytes) := [some (encodeUtf8 (js "GET / HTTP/1.1"))]

theorem processProtocolData_getReads :
    (processProtocolData [] getReads).map Prod.fst = some .http1 := by decide +kernel

/-- Whatever TLS layer there is, the connection goes on to the next one. -/
theorem dispatch_getReads (conn : Connection) (clientHello : Option ClientHello) :
    conn.dispatch .tls [⟨clientHello, getReads⟩] =
      some (.http1, (conn.storeClientHello clientHello).handleConnection) := by
  obtain ⟨next, hnext, hdestination⟩ := Option.map_eq_some_iff.mp processProtocolData_getReads
  simp only [dispatch, hnext, Option.bind_some, hdestination]

/-- A handshake behind a PROXY header. -/
def proxiedReads : List (Option Bytes) :=
  [some (encodeUtf8 (js "PROXY TCP4 1.2.3.4 5.6.7.8 80 443\x0D\n") ++ [tlsHandshakeByte])]

theorem reachesRaw_iff_proxied :
    ∃ conn,
      processInitialConnection true none proxiedReads [⟨none, getReads⟩] = some (.http1, conn) ∧
      ReachesRaw (some ⟨js "1.2.3.4", 80, js "5.6.7.8", 443⟩) .http1 conn := by
  have hheader : parseProxyProtocolHeader [] proxiedReads =
      .processing (some ⟨js "1.2.3.4", 80, js "5.6.7.8", 443⟩) [tlsHandshakeByte] [] := by
    decide +kernel
  have hparsed : parsedProxy true proxiedReads = some ⟨js "1.2.3.4", 80, js "5.6.7.8", 443⟩ := by
    rw [parsedProxy, if_pos rfl, connectionSocket, hheader]
  have htls : processProtocolData [tlsHandshakeByte] [] = some (.tls, [tlsHandshakeByte]) := by
    decide +kernel
  have hrun : ∃ conn,
      processInitialConnection true none proxiedReads [⟨none, getReads⟩] =
        some (.http1, conn) := by
    simp only [processInitialConnection, if_true, hheader, htls, Option.bind_some,
      dispatch_getReads, Option.some.injEq, Prod.mk.injEq, true_and, exists_eq']
  obtain ⟨conn, hconn⟩ := hrun
  refine ⟨conn, hconn, ?_⟩
  rw [← hparsed]
  exact (reachesRaw_iff hconn).mpr (.inl rfl)

/-- Under two TLS layers a request finds the inner TLS socket. -/
theorem not_reachesRaw_twoLayers :
    ∃ conn,
      processInitialConnection false none [some [tlsHandshakeByte]]
        [⟨none, [some [tlsHandshakeByte]]⟩, ⟨none, getReads⟩] = some (.http1, conn) ∧
      ¬ ReachesRaw none .http1 conn := by
  have htls : processProtocolData [] [some [tlsHandshakeByte]] =
      some (.tls, [tlsHandshakeByte]) := by
    decide +kernel
  have hrun : processInitialConnection false none [some [tlsHandshakeByte]]
      [⟨none, [some [tlsHandshakeByte]]⟩, ⟨none, getReads⟩] = some (.http1,
        ((ofSocket blankSocket).handleConnection.storeClientHello none).handleConnection) := by
    rw [processInitialConnection, if_neg (by decide), htls, Option.bind_some, dispatch, htls,
      Option.bind_some, dispatch_getReads]
    rfl
  refine ⟨_, hrun, ?_⟩
  intro h
  cases h.1

/-- `/error/reset` resets the TCP socket up to one TLS layer. -/
theorem resetTarget_eq_rawSocket_iff
    (h : processInitialConnection trust remoteAddress reads layers = some (version, conn)) :
    conn.resetTarget version = some rawSocket ↔ layers.length ≤ 1 := by
  have hgiven := given_of_processInitialConnection h
  have hone : layers.length - 1 = 0 ↔ layers.length ≤ 1 := by omega
  cases version with
  | http1 =>
      rw [resetTarget, hgiven.underlyingSocket, hgiven.reference rfl]
      by_cases hzero : layers.length = 0
      · simp [hzero, rawSocket]
      · simp [hzero, rawSocket, hone]
  | http2 =>
      rw [resetTarget, hgiven.underlyingSocket]
      simp [rawSocket, hone]

end Connection

end TestServer
