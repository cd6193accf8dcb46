import TestServer.Endpoints.HttpHandlers

/-!
# Answers to HTTP requests

`src/http-handler.ts` with the handlers of the endpoints: the headers that are set for any
endpoint, the chain of handlers, and the response to an exception.

## Implementation notes

The answers that a request gets before its chain is resolved are kept as its route. What is done
with a response is listed in order; a refused status or header throws, and what was done before
stays.
-/

namespace TestServer

open Js Endpoints

section

variable (library : HttpLibrary)

/-- What Node throws for an action. -/
def actionError (version : HttpVersion) : ResponseAction → Option Thrown
  | .setHeader name value => (library.headerError version name value).map .error
  | .writeHead statusCode headers =>
      ((library.statusError version statusCode).or
        (headers.findSome? fun entry => library.headerError version entry.1 entry.2)).map .error
  | _ => none

/-- Perform some actions up to the first one that is refused. -/
def perform (version : HttpVersion) : List ResponseAction → Handled
  | [] => .done []
  | action :: rest =>
      match actionError library version action with
      | some e => ⟨[], some e⟩
      | none =>
          let handled := perform version rest
          ⟨action :: handled.actions, handled.thrown⟩

/-- A handler whose actions are performed. -/
def performHandled (version : HttpVersion) (handled : Handled) : Handled :=
  (perform library version handled.actions).andThen ⟨[], handled.thrown⟩

/-- `res.writableEnded`, once some actions are performed. -/
def writableEnded (performed : List ResponseAction) : Bool :=
  performed.any fun action =>
    match action with
    | .finish => true
    | _ => false

/-- The handlers of a chain one after the other, until the response is ended. -/
def runChain (req : HttpCall) (query : Query) : List (ChainEntry HandledEndpoint) → Handled
  | [] => .done []
  | entry :: rest =>
      let handled := performHandled library req.httpVersion
        (entry.endpoint.handle library req ⟨entry.path, query⟩)
      handled.andThen (if writableEnded handled.actions then .done [] else runChain req query rest)

def handledChain (path : JsString) (hostnamePrefix : Option JsString) :
    Except Thrown (List (ChainEntry HandledEndpoint)) :=
  resolveEndpointChain (fun endpoint => endpoint.toHttpEndpoint.toChainableEndpoint)
    handledEndpoints path hostnamePrefix

def serveChain (req : HttpCall) (query : Query) (path : JsString)
    (hostnamePrefix : Option JsString) : Handled :=
  match handledChain path hostnamePrefix with
  | .error e => ⟨[], some e⟩
  | .ok entries => runChain library req query entries

def allowCORS (req : HttpCall) : List ResponseAction :=
  match req.truthyHeader (js "origin") with
  | none => []
  | some origin =>
      [.setHeader (js "access-control-allow-origin") (.one origin),
        .setHeader (js "access-control-allow-credentials") (.one (js "true"))] ++
      ((req.truthyHeader (js "access-control-request-method")).map fun method =>
        .setHeader (js "access-control-allow-method") (.one method)).toList ++
      ((req.truthyHeader (js "access-control-request-headers")).map fun headers =>
        .setHeader (js "access-control-allow-headers") (.one headers)).toList ++
      ((req.truthyHeader (js "access-control-request-private-network")).map fun _ =>
        .setHeader (js "access-control-allow-private-network") (.one (js "true"))).toList

/-- What the handlers of the two protocols make of an exception. -/
def caught (version : HttpVersion) (handled : Handled) : List ResponseAction :=
  match handled.thrown with
  | none => handled.actions
  | some e =>
      let headersSent := handled.actions.any fun action =>
        match action with
        | .writeHead _ _ => true
        | _ => false
      let response :=
        match version with
        | .http1 => http1Catch e ⟨false, headersSent⟩
        | .http2 => http2Catch e ⟨false, headersSent⟩
      match response with
      | .none => handled.actions
      | .destroyed => handled.actions ++ [.destroy]
      | .sent statusCode body => handled.actions ++ respondWith statusCode [] (.text body)

/-- A request is answered before its chain is resolved, or by what is done with its response. -/
inductive Answer where
  | before (route : Route)
  | response (actions : List ResponseAction)

variable (options : HttpHandlerOptions)

/-- The routing of requests; the headers for any endpoint are set after it. -/
def routeContext : HandlerContext where
  parseAbsolute := library.parseAbsolute
  parseUrl target base := (library.parseUrl target base).map RequestUrl.toUrl
  toLowerCase := library.toLowerCase
  allowCORS _ _ := .ok ()
  options := options
  runHandlers _ _ _ := .ok ()

/-- The URL that a request is routed by. -/
def routedUrl (req : HttpCall) : Option RequestUrl :=
  library.parseUrl req.url (protocol req.request ++ js "://" ++ headerText req.request.host)

/-- `handleRequest` in the handler of its protocol. -/
def answerRequest (req : HttpCall) : Answer :=
  let version := req.httpVersion
  let setHeaders := perform library version (allowCORS req)
  match routeRequest (routeContext library options) version req.request with
  | .error message => .response (caught version ⟨[], some (.error message)⟩)
  | .ok .corsPreflight =>
      .response (caught version
        (setHeaders.andThen (perform library version (respondEmpty 200 []))))
  | .ok (.routed path hostnamePrefix) =>
      let query := (routedUrl library req).elim [] RequestUrl.searchParams
      .response (caught version
        (setHeaders.andThen (serveChain library req query path hostnamePrefix)))
  | .ok route => .before route

end

end TestServer
