import TestServer.Endpoints.HttpCalls
import TestServer.Endpoints.WsParams

/-!
# Handlers of WebSocket endpoints

What the handlers of `src/endpoints/ws` do with the connection that they are given, and the table
of `src/endpoints/ws-index.ts` with them.

## Implementation notes

A handler throws, or does one thing with the connection. What that comes to depends on the state
of the connection, which is not looked at here.
-/

namespace TestServer.Endpoints

open Js

/-- What a handler does with its connection. -/
inductive WsEffect where
  | nothing
  /-- `await delay(ms)` -/
  | delay (ms : Option JsNumber)
  /-- `ws.send(message)`, if the connection is open -/
  | send (message : JsString)
  /-- `ws.close(code, reason)` -/
  | close (code : Option Int) (reason : Option JsString)
  /-- `ws.on('message', …)` with a listener that sends back what it gets -/
  | listen
  /-- `setInterval` with a message to send, and `ws.on('close', …)` to clear it -/
  | every (freqMs : Option JsNumber) (message : JsString)
  /-- `ws._socket?.destroy()` -/
  | destroySocket
deriving DecidableEq

abbrev WsHandler := HandleOptions → Except Thrown WsEffect

/-- `Math.min(delaySeconds, 10) * 1000` -/
def cappedDelayMs : JsNumber → JsNumber
  | .finite seconds => toDouble (min seconds 10 * 1000)
  | .infinite negative => if negative then .infinite true else .finite 10000

def wsCloseEndpoint.handle : WsHandler := fun options =>
  .ok (.close (parseCloseCode options.path) (queryGet options.query (js "reason")))

def wsDelayEndpoint.handle : WsHandler := fun options =>
  .ok (.delay ((parseDelaySeconds options.path).map cappedDelayMs))

def wsEchoEndpoint.handle : WsHandler := fun _ => .ok .listen

def wsMessageEndpoint.handle : WsHandler := fun options => do
  let message ← parseMessage options.path
  return .send message

def wsRepeatEndpoint.handle : WsHandler := fun options => do
  let params ← parseRepeatParams options.path
  return .every params.freqMs params.message

def wsResetEndpoint.handle : WsHandler := fun _ => .ok .destroySocket

def wsSubprotocolEndpoint.handle : WsHandler := fun _ => .ok .nothing

def wsNoSubprotocolEndpoint.handle : WsHandler := fun _ => .ok .nothing

structure HandledWsEndpoint extends WebSocketEndpoint where
  handle : WsHandler

def handledWsEndpoints : List HandledWsEndpoint :=
  [⟨wsCloseEndpoint, wsCloseEndpoint.handle⟩, ⟨wsDelayEndpoint, wsDelayEndpoint.handle⟩,
    ⟨wsEchoEndpoint, wsEchoEndpoint.handle⟩, ⟨wsMessageEndpoint, wsMessageEndpoint.handle⟩,
    ⟨wsNoSubprotocolEndpoint, wsNoSubprotocolEndpoint.handle⟩,
    ⟨wsRepeatEndpoint, wsRepeatEndpoint.handle⟩, ⟨wsResetEndpoint, wsResetEndpoint.handle⟩,
    ⟨wsSubprotocolEndpoint, wsSubprotocolEndpoint.handle⟩]

/-- Without their handlers they are the endpoints that upgrades are matched by. -/
theorem map_handledWsEndpoints :
    handledWsEndpoints.map HandledWsEndpoint.toWebSocketEndpoint = wsEndpoints := rfl

end TestServer.Endpoints
