import TestServer.Endpoints.EndpointConfig
import TestServer.Endpoints.WsIndex

/-!
# WebSocket upgrades

`handleWebSocketUpgrade` of `src/ws-handler.ts`, which runs as the listener of
an event: what it does with the socket, and what it throws.

## Implementation notes

The URL parser is a parameter. The WebSocket server takes over the socket in
the last step; the handlers that run later are not followed.
-/

namespace TestServer

open Js Endpoints

structure Url where
  hostname : JsString
  pathname : JsString
deriving DecidableEq

/-- A parser that agrees with `new URL` on plain paths below a plain host. -/
def plainUrl (target base : JsString) : Option Url :=
  some ⟨base.drop (js "http://").length, target⟩

structure UpgradeRequest where
  url : JsString
  host : Option JsString
  secWebSocketProtocol : Option JsString
deriving DecidableEq

/-- What is done with the socket. -/
inductive SocketAction where
  | write (text : JsString)
  | destroy
  /-- The forced subprotocol, if a chain forces one or none, the header, and the chain. -/
  | handleUpgrade (forced : Option (Option JsString)) (secWebSocketProtocol : Option JsString)
      (entries : List (JsString × JsString))
deriving DecidableEq

/-- A run of the listener. -/
structure Upgrade where
  actions : List SocketAction
  thrown : Option Thrown
deriving DecidableEq

/-- The head of an error response. -/
def errorHead (statusCode : Nat) (reason : JsString) : JsString :=
  js "HTTP/1.1 " ++ decimal statusCode ++ js " " ++ reason ++ js "\r\n\r\n"

def reject (statusCode : Nat) (reason : JsString) : Upgrade :=
  ⟨[.write (errorHead statusCode reason), .destroy], none⟩

/-- The response to a chain that cannot be resolved. -/
def rejectChain : Thrown → Upgrade
  | .statusError statusCode _ =>
      reject statusCode (if statusCode = 404 then js "Not Found" else js "Bad Request")
  | .error _ => reject 500 (js "Internal Server Error")

/-- The text that a missing header gives in a template. -/
def headerText (header : Option JsString) : JsString := header.getD (js "undefined")

/-- What precedes the root domain in the name of a host below it. -/
def hostnamePrefixOf (rootDomain hostname : JsString) : Option JsString :=
  if endsWith hostname rootDomain then some (sliceEnd hostname (rootDomain.length + 1)) else none

/-- The header that makes `ws` ask for the subprotocol. -/
def askedProtocol (header : Option JsString) : Option JsString :=
  match header with
  | some (c :: rest) => some (c :: rest)
  | _ => some (js "_")

/-- What is wrong with the endpoint parts of the host, if it has any. -/
def hostError (rootDomain hostname : JsString) : Option JsString :=
  match hostnamePrefixOf rootDomain hostname with
  | some (_ :: _) => validateEndpointParts (getSNIPrefixParts hostname rootDomain)
  | _ => none

/-- Whether the endpoint of an entry has a say in the subprotocol. -/
def selectsProtocol (entry : ChainEntry WebSocketEndpoint) : Bool :=
  entry.endpoint.getProtocol.isSome

def chainNames (entries : List (ChainEntry WebSocketEndpoint)) : List (JsString × JsString) :=
  entries.map fun entry => (entry.endpoint.name, entry.path)

/-- The part of the listener that follows the resolution of the chain. -/
def upgradeChain (req : UpgradeRequest) (entries : List (ChainEntry WebSocketEndpoint)) : Upgrade :=
  match entries.filter selectsProtocol with
  | [] => ⟨[.handleUpgrade none req.secWebSocketProtocol (chainNames entries)], none⟩
  | [entry] =>
      match entry.endpoint.getProtocol with
      | none => ⟨[.handleUpgrade none req.secWebSocketProtocol (chainNames entries)], none⟩
      | some getProtocol =>
          match getProtocol entry.path with
          | .error e => ⟨[], some e⟩
          | .ok protocol =>
              ⟨[.handleUpgrade (some protocol) (askedProtocol req.secWebSocketProtocol)
                (chainNames entries)], none⟩
  | _ :: _ :: _ => reject 400 (js "Bad Request")

def wsChain (rootDomain : JsString) (url : Url) :
    Except Thrown (List (ChainEntry WebSocketEndpoint)) :=
  resolveEndpointChain WebSocketEndpoint.toChainableEndpoint wsEndpoints url.pathname
    (hostnamePrefixOf rootDomain url.hostname)

def invalidUrl : Thrown := .error (js "Invalid URL")

def handleWebSocketUpgrade (parseUrl : JsString → JsString → Option Url) (rootDomain : JsString)
    (req : UpgradeRequest) : Upgrade :=
  match parseUrl req.url (js "http://" ++ headerText req.host) with
  | none => ⟨[], some invalidUrl⟩
  | some url =>
      match hostError rootDomain url.hostname with
      | some _ => reject 400 (js "Bad Request")
      | none =>
          match wsChain rootDomain url with
          | .error e => rejectChain e
          | .ok entries => upgradeChain req entries

end TestServer
