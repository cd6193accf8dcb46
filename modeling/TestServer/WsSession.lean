import TestServer.Endpoints.WsHandlers
import TestServer.Library.Runs

/-!
# WebSocket sessions

The callback of `wss.handleUpgrade` in `src/ws-handler.ts`, which runs the handlers of a chain one
after the other, together with the listeners and the timers that the handlers leave behind.

## Implementation notes

All that can come between two turns of the loop is an event of its own, in any order. The `ws`
package leaves the open state for reasons of its own at any time: the client closes, the protocol
is broken or the socket is lost. What it refuses to close with is a parameter, and so is whether a
refusal leaves the connection open. A frame tells which handler has sent it.
-/

namespace TestServer

open Js Endpoints ProcessConnection

/-- `ws.readyState`, once the handshake is over. -/
inductive ReadyState where
  | opened
  | closing
  | closed
deriving DecidableEq

/-- What is handed to `ws.send`, and what `ws.close` sends. -/
inductive WsFrame where
  | message (text : JsString)
  | repeated (interval : Nat) (text : JsString)
  | echoed (data : Bytes) (isBinary : Bool)
  | close (code : Option Int) (reason : Option JsString)
deriving DecidableEq

structure WsLibrary where
  acceptsClose : Option Int → Option JsString → Bool
  /-- Whether an open connection is closing after a `ws.close` that throws. -/
  refusalCloses : Bool

/-- A package that takes the codes and the reasons of the protocol, and stops sending after any
`ws.close`. -/
def strictLibrary : WsLibrary where
  acceptsClose code reason :=
    (code.any fun code => decide (1000 ≤ code ∧ code ≤ 1014 ∧ code ∉ [1004, 1005, 1006] ∨
      3000 ≤ code ∧ code ≤ 4999)) && decide ((encodeUtf8 (reason.getD [])).length ≤ 123)
  refusalCloses := true

/-- A timer of the repeat endpoint. -/
structure WsInterval where
  message : JsString
  freqMs : Option JsNumber
  cleared : Bool
deriving DecidableEq

abbrev WsEntry := ChainEntry HandledWsEndpoint

/-- Where the loop over the entries stands. -/
inductive WsScript where
  | running (rest : List WsEntry)
  | delaying (ms : Option JsNumber) (rest : List WsEntry)
  /-- The callback is over, with the entries whose handlers have not done what they do. -/
  | returned (rest : List WsEntry)

/-- The entries that the loop is not done with. -/
def WsScript.left : WsScript → List WsEntry
  | running rest => rest
  | delaying _ rest => rest
  | returned rest => rest

structure WsSession where
  readyState : ReadyState
  script : WsScript
  /-- The listeners of the echo endpoint. -/
  listeners : Nat
  intervals : List WsInterval
  sent : List WsFrame
  socketDestroyed : Bool

namespace WsSession

inductive Event where
  /-- The loop goes on. -/
  | turn
  /-- A delay is over. -/
  | elapse
  | message (data : Bytes) (isBinary : Bool)
  | tick (interval : Nat)
  /-- The package leaves the open state by itself. -/
  | closing
  /-- The `close` event. -/
  | closed
deriving DecidableEq

def start (entries : List WsEntry) : WsSession where
  readyState := .opened
  script := .running entries
  listeners := 0
  intervals := []
  sent := []
  socketDestroyed := false

def clear (interval : WsInterval) : WsInterval := { interval with cleared := true }

section

variable (library : WsLibrary) (query : Query)

/-- `ws.send` behind a check of the state. -/
def send (s : WsSession) (frames : List WsFrame) : WsSession :=
  if s.readyState = .opened then { s with sent := s.sent ++ frames } else s

/-- `ws.close(code, reason)`, and whether it throws. -/
def close (s : WsSession) (code : Option Int) (reason : Option JsString) : WsSession × Bool :=
  if s.readyState = .opened then
    if library.acceptsClose code reason then
      ({ s with readyState := .closing, sent := s.sent ++ [.close code reason] }, false)
    else ({ s with readyState := if library.refusalCloses then .closing else .opened }, true)
  else (s, false)

def internalError : WsFrame := .close (some 1011) (some (js "Internal error"))

/-- The `catch` block, for an exception of the first entry that is left. -/
def fail (s : WsSession) (left : List WsEntry) : WsSession :=
  let s := if s.readyState = .opened then
      (s.close library (some 1011) (some (js "Internal error"))).1
    else s
  { s with script := .returned left }

/-- What a handler does, and the loop on the entries behind it. -/
def apply (s : WsSession) (entry : WsEntry) (rest : List WsEntry) : WsEffect → WsSession
  | .nothing => { s with script := .running rest }
  | .delay ms => { s with script := .delaying ms rest }
  | .send message => { s.send [.message message] with script := .running rest }
  | .close code reason =>
      match s.close library code reason with
      | (s, false) => { s with script := .running rest }
      | (s, true) => s.fail library (entry :: rest)
  | .listen => { s with listeners := s.listeners + 1, script := .running rest }
  | .every freqMs message =>
      { s with intervals := s.intervals ++ [⟨message, freqMs, false⟩], script := .running rest }
  | .destroySocket => { s with socketDestroyed := true, script := .running rest }

/-- `endpoint.handle(ws, req, { path, query })` -/
def effectOf (entry : WsEntry) : Except Thrown WsEffect :=
  entry.endpoint.handle ⟨entry.path, query⟩

/-- A turn of the loop over the entries. -/
def turn (s : WsSession) : List WsEntry → WsSession
  | [] => { s with script := .returned [] }
  | entry :: rest =>
      if s.readyState ≠ .opened then { s with script := .returned (entry :: rest) }
      else
        match effectOf query entry with
        | .error _ => s.fail library (entry :: rest)
        | .ok effect => s.apply library entry rest effect

/-- The callback of a timer. -/
def tick (s : WsSession) (i : Nat) (interval : WsInterval) : WsSession :=
  if s.readyState = .opened then s.send [.repeated i interval.message]
  else { s with intervals := s.intervals.set i (clear interval) }

def step (s : WsSession) : Event → Option WsSession
  | .turn =>
      match s.script with
      | .running entries => some (s.turn library query entries)
      | _ => none
  | .elapse =>
      match s.script with
      | .delaying _ rest => some { s with script := .running rest }
      | _ => none
  | .message data isBinary =>
      if s.readyState = .closed then none
      else some (s.send (List.replicate s.listeners (.echoed data isBinary)))
  | .tick i =>
      match s.intervals[i]? with
      | some interval => if interval.cleared then none else some (s.tick i interval)
      | none => none
  | .closing =>
      if s.readyState = .opened then some { s with readyState := .closing } else none
  | .closed =>
      if s.readyState = .closed then none
      else some { s with readyState := .closed, intervals := s.intervals.map clear }

end

end WsSession

def handledWsChain (path : JsString) (hostnamePrefix : Option JsString) :
    Except Thrown (List WsEntry) :=
  resolveEndpointChain (fun endpoint => endpoint.toWebSocketEndpoint.toChainableEndpoint)
    handledWsEndpoints path hostnamePrefix

/-- An entry without its handler. -/
def WsEntry.plain (entry : WsEntry) : ChainEntry WebSocketEndpoint :=
  ⟨entry.endpoint.toWebSocketEndpoint, entry.path⟩

end TestServer
