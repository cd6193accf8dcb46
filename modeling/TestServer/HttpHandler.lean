import TestServer.Endpoints.HttpIndex
import TestServer.WsHandler

/-!
# HTTP requests

`src/http-handler.ts`: how a request is answered or routed to a chain of
endpoints, and what the handlers of the two protocols make of an exception.

## Implementation notes

The URL parser, the case mapping of names, setting the CORS headers, the answers
to ACME challenges and the handlers of the endpoints are parameters. The host of
a request is its `:authority` over HTTP/2, and its `Host` over HTTP/1.
-/

namespace TestServer

open Js Library Endpoints

inductive HttpVersion where
  | http1
  | http2
deriving DecidableEq

structure HttpRequest where
  url : JsString
  method : JsString
  host : Option JsString
  encrypted : Bool
  /-- The server name of the TLS connection. -/
  sni : Option JsString
deriving DecidableEq

structure HttpHandlerOptions where
  rootDomain : JsString
  usingPublicCA : Bool
  acmeChallengeCallback : JsString → Except JsString (Option JsString)

/-- How a request is answered, or the path and the host it is routed by. -/
inductive Route where
  | proxyReject
  | misdirected
  | acmeChallenge (response : Option JsString)
  | invalidEndpoint (message : JsString)
  | redirect (untrustedRootHost : Option JsString)
  | docs
  | corsPreflight
  | routed (path : JsString) (hostnamePrefix : Option JsString)
deriving DecidableEq

def addCertOptions (acc : Record) (part : JsString) : Except JsString Record :=
  match findEndpoint tlsEndpoints part with
  | some endpoint => mergeContribution acc endpoint.configureCertOptions
  | none => .ok acc

def getCombinedCertOptions (prefixParts : List JsString) : Except JsString Record :=
  prefixParts.foldlM addCertOptions .empty

def getLocalOnlyRedirectHost (prefixParts : List JsString) (options : HttpHandlerOptions) :
    Except JsString (Option JsString) :=
  if ¬ options.usingPublicCA then .ok none
  else do
    let certOptions ← getCombinedCertOptions prefixParts
    if certOptions.get (js "requiredType") ≠ some (.str (js "local")) ∨
        (certOptions.get (js "selfSigned")).any JsValue.truthy = true ∨
        prefixParts.any (fun part => decide (part = js "untrusted-root")) = true then
      return none
    else
      return some (join (js "--") (prefixParts ++ [js "untrusted-root"]) ++ js "." ++
        options.rootDomain)

/-- Whether some part configures TLS, which plain HTTP would ignore. -/
def needsTls (prefixParts : List JsString) : Bool :=
  prefixParts.any fun part =>
    match findEndpoint tlsEndpoints part with
    | some endpoint => !endpoint.plainTextAllowed
    | none => false

/-- `authority.replace(/:\d+$/, '')`. -/
def dropPort (authority : JsString) : JsString :=
  match authority.reverse.takeWhile isDigit, authority.reverse.dropWhile isDigit with
  | _ :: _, 58 :: rest => rest.reverse
  | _, _ => authority

def acmePath : JsString := js "/.well-known/acme-challenge/"

/-- What the handler runs with: the parameters of the model. -/
structure HandlerContext where
  parseAbsolute : JsString → Option Url
  parseUrl : JsString → JsString → Option Url
  toLowerCase : JsString → JsString
  allowCORS : HttpVersion → HttpRequest → Except JsString Unit
  options : HttpHandlerOptions
  /-- What the handlers of a chain throw before a header is sent. -/
  runHandlers : HttpVersion → HttpRequest → List (ChainEntry HttpEndpoint) → Except Thrown Unit

section

variable (context : HandlerContext)

/-- `protocol` of `handleRequest`. -/
def protocol (req : HttpRequest) : JsString := if req.encrypted then js "https" else js "http"

/-- Whether a target in absolute form is for another host. -/
def isProxyRequest (req : HttpRequest) : Except JsString Bool :=
  if startsWith req.url (js "/") then .ok false
  else
    match context.parseAbsolute req.url with
    | none => .error (js "Invalid URL")
    | some url => .ok (!endsWith url.hostname context.options.rootDomain)

/-- Whether an HTTP/2 request is for another host than its connection. -/
def isMisdirected (version : HttpVersion) (req : HttpRequest) : Bool :=
  match version, req.host, req.sni with
  | .http2, some (c :: authority), some (d :: sni) =>
      req.encrypted &&
        decide (context.toLowerCase (d :: sni) ≠
          context.toLowerCase (dropPort (c :: authority)))
  | _, _, _ => false

def acmeToken (path : JsString) : JsString := (split path (js "/"))[3]?.getD (js "undefined")

/-- The answer that the host below the root domain calls for, if any. -/
def routeHost (req : HttpRequest) (url : Url) : Except JsString (Option Route) :=
  match hostnamePrefixOf context.options.rootDomain url.hostname with
  | some (_ :: _) =>
      let prefixParts := getSNIPrefixParts url.hostname context.options.rootDomain
      match validateEndpointParts prefixParts with
      | some message => .ok (some (.invalidEndpoint message))
      | none => do
          let untrustedRootHost ← getLocalOnlyRedirectHost prefixParts context.options
          if (!req.encrypted && needsTls prefixParts) || untrustedRootHost.isSome then
            return some (.redirect untrustedRootHost)
          else return none
  | _ => .ok none

/-- The part of `handleRequest` that follows the answers for particular hosts. -/
def routePath (version : HttpVersion) (req : HttpRequest) (url : Url) : Except JsString Route :=
  let hostnamePrefix := hostnamePrefixOf context.options.rootDomain url.hostname
  if url.pathname = js "/" ∧ hostnamePrefix ≠ some (js "example") then .ok .docs
  else do
    context.allowCORS version req
    if req.method = js "OPTIONS" then return .corsPreflight
    else return .routed url.pathname hostnamePrefix

/-- `handleRequest` once the target is parsed. -/
def routeUrl (version : HttpVersion) (req : HttpRequest) (url : Url) : Except JsString Route :=
  if startsWith url.pathname acmePath then do
    let response ← context.options.acmeChallengeCallback (acmeToken url.pathname)
    return .acmeChallenge (response.filter fun text => decide (text ≠ []))
  else do
    match ← routeHost context req url with
    | some route => return route
    | none => routePath context version req url

/-- `handleRequest` up to the resolution of the chain. -/
def routeRequest (version : HttpVersion) (req : HttpRequest) : Except JsString Route := do
  if ← isProxyRequest context req then return .proxyReject
  else if isMisdirected context version req then return .misdirected
  else
    match context.parseUrl req.url (protocol req ++ js "://" ++ headerText req.host) with
    | none => .error (js "Invalid URL")
    | some url => routeUrl context version req url

def httpChain (path : JsString) (hostnamePrefix : Option JsString) :
    Except Thrown (List (ChainEntry HttpEndpoint)) :=
  resolveEndpointChain HttpEndpoint.toChainableEndpoint httpEndpoints path hostnamePrefix

/-- What `handleRequest` throws before a header is sent. -/
def handleRequest (version : HttpVersion) (req : HttpRequest) : Except Thrown Unit :=
  match routeRequest context version req with
  | .error message => .error (.error message)
  | .ok (.routed path hostnamePrefix) => do
      let entries ← httpChain path hostnamePrefix
      context.runHandlers version req entries
  | .ok _ => .ok ()

end

structure ResponseState where
  closed : Bool
  headersSent : Bool
deriving DecidableEq

inductive ErrorResponse where
  | none
  | destroyed
  | sent (statusCode : Nat) (body : JsString)
deriving DecidableEq

def handlerFailed : ErrorResponse := .sent 500 (js "HTTP handler failed")

/-- The `catch` of `createHttp1Handler`. -/
def http1Catch (e : Thrown) (res : ResponseState) : ErrorResponse :=
  if res.closed then .none
  else if res.headersSent then .destroyed
  else
    match e with
    | .statusError statusCode message => .sent statusCode message
    | .error _ => handlerFailed

/-- The `catch` of `createHttp2Handler`. -/
def http2Catch (_ : Thrown) (res : ResponseState) : ErrorResponse :=
  if res.closed then .none
  else if res.headersSent then .destroyed
  else handlerFailed

/-- The status that an error response sends. -/
def ErrorResponse.statusCode : ErrorResponse → Option Nat
  | .sent statusCode _ => some statusCode
  | _ => .none

/-- A server for the domain `t` whose handlers do not throw. -/
def plainContext : HandlerContext where
  parseAbsolute _ := none
  parseUrl := plainUrl
  toLowerCase := asciiLowerCase
  allowCORS _ _ := .ok ()
  options := ⟨js "t", false, fun _ => .ok none⟩
  runHandlers _ _ _ := .ok ()

end TestServer
