import TestServer.EndpointChain
import TestServer.Js.Number
import TestServer.Js.Uri

/-!
# WebSocket endpoints

The endpoints of `src/endpoints/ws`, as far as they match a path, split it and
select a subprotocol, and their table in the order of their names.
-/

namespace TestServer.Endpoints

open Js

/-- What `decodeURIComponent` throws. -/
def uriError : Thrown := .error (js "URI malformed")

structure WebSocketEndpoint extends ChainableEndpoint where
  /-- A subprotocol to select, or `none` to select none; absent without an opinion. -/
  getProtocol : Option (JsString → Except Thrown (Option JsString))

/-- What an endpoint with one path segment leaves. -/
def wsRemaining (lead path : JsString) : Option JsString :=
  (segmentAfter lead path).2.map (js "/ws" ++ ·)

def parseCloseCode (path : JsString) : Option Int :=
  if path = js "/ws/close" then some 1000
  else parseInt (path.drop (js "/ws/close/").length)

def wsCloseEndpoint : WebSocketEndpoint where
  name := js "wsCloseEndpoint"
  matchPath path _ :=
    if ¬ startsWith path (js "/ws/close/") ∧ path ≠ js "/ws/close" then .ok false
    else
      let code := parseCloseCode path
      let invalid := Thrown.statusError 400 (js "Invalid WebSocket close code: " ++ numberText code)
      match code with
      | none => .error invalid
      | some code => if code < 1000 ∨ code > 4999 then .error invalid else .ok true
  getRemainingPath _ := none
  getProtocol := none

def wsDelayEndpoint : WebSocketEndpoint where
  name := js "wsDelayEndpoint"
  matchPath path _ :=
    if ¬ startsWith path (js "/ws/delay/") then .ok false
    else if ¬ parseFloatIsNumber (segmentAfter (js "/ws/delay/") path).1 then
      .error (.statusError 400 (js "Invalid delay duration in " ++ path))
    else .ok true
  getRemainingPath := wsRemaining (js "/ws/delay/")
  getProtocol := none

def wsEchoEndpoint : WebSocketEndpoint where
  name := js "wsEchoEndpoint"
  matchPath path _ := .ok (decide (path = js "/ws/echo"))
  getRemainingPath _ := none
  getProtocol := none

def wsMessageEndpoint : WebSocketEndpoint where
  name := js "wsMessageEndpoint"
  matchPath path _ := .ok (startsWith path (js "/ws/message/"))
  getRemainingPath := wsRemaining (js "/ws/message/")
  getProtocol := none

def noSubprotocolPath : JsString := js "/ws/no-subprotocol"

def wsNoSubprotocolEndpoint : WebSocketEndpoint where
  name := js "wsNoSubprotocolEndpoint"
  matchPath path _ :=
    .ok (decide (path = noSubprotocolPath) || startsWith path (noSubprotocolPath ++ js "/"))
  getRemainingPath path :=
    if path.length > noSubprotocolPath.length then
      some (js "/ws" ++ path.drop noSubprotocolPath.length)
    else none
  getProtocol := some fun _ => .ok none

def repeatPrefix : JsString := js "/ws/repeat/"

/-- A text up to its first slash, and what follows that slash. -/
def cutSlash (s : JsString) : JsString × Option JsString :=
  match indexOf s (js "/") 0 with
  | some idx => (s.take idx, some (s.drop (idx + 1)))
  | none => (s, none)

/-- The interval of a repeated message, decoding the message first. -/
def parseRepeatFrequency (path : JsString) : Except Thrown (Option Int) :=
  match cutSlash (path.drop repeatPrefix.length) with
  | (_, none) => .ok none
  | (message, some afterMessage) =>
      match decodeURIComponent message with
      | none => .error uriError
      | some _ => .ok (parseInt (cutSlash afterMessage).1)

def wsRepeatEndpoint : WebSocketEndpoint where
  name := js "wsRepeatEndpoint"
  matchPath path _ :=
    if ¬ startsWith path repeatPrefix then .ok false
    else do
      let freqMs ← parseRepeatFrequency path
      let invalid := Thrown.statusError 400 (js "Invalid repeat frequency in " ++ path)
      match freqMs with
      | none => .error invalid
      | some freqMs => if freqMs ≤ 0 then .error invalid else .ok true
  getRemainingPath path :=
    match (cutSlash (path.drop repeatPrefix.length)).2 with
    | none => none
    | some afterMessage => (cutSlash afterMessage).2.map (js "/ws/" ++ ·)
  getProtocol := none

def wsResetEndpoint : WebSocketEndpoint where
  name := js "wsResetEndpoint"
  matchPath path _ := .ok (decide (path = js "/ws/error/reset"))
  getRemainingPath _ := none
  getProtocol := none

def subprotocolPrefix : JsString := js "/ws/subprotocol/"

/-- The percent-encoded name of a subprotocol. -/
def subprotocolName (path : JsString) : JsString := (segmentAfter subprotocolPrefix path).1

def wsSubprotocolEndpoint : WebSocketEndpoint where
  name := js "wsSubprotocolEndpoint"
  matchPath path _ :=
    .ok (startsWith path subprotocolPrefix && decide (path.length > subprotocolPrefix.length))
  getRemainingPath := wsRemaining subprotocolPrefix
  getProtocol := some fun path =>
    match decodeURIComponent (subprotocolName path) with
    | none => .error uriError
    | some protocol => .ok (some protocol)

/-- The exports of `ws-index.ts` by name. -/
def wsEndpoints : List WebSocketEndpoint :=
  [wsCloseEndpoint, wsDelayEndpoint, wsEchoEndpoint, wsMessageEndpoint, wsNoSubprotocolEndpoint,
    wsRepeatEndpoint, wsResetEndpoint, wsSubprotocolEndpoint]

/-- An endpoint of the table that selects a subprotocol by name, or selects none, and no other
endpoint does either. -/
theorem getProtocol_cases {endpoint : WebSocketEndpoint} (hmem : endpoint ∈ wsEndpoints)
    {getProtocol : JsString → Except Thrown (Option JsString)}
    (hget : endpoint.getProtocol = some getProtocol) :
    endpoint = wsNoSubprotocolEndpoint ∨ endpoint = wsSubprotocolEndpoint := by
  simp only [wsEndpoints, List.mem_cons, List.not_mem_nil, or_false] at hmem
  rcases hmem with rfl | rfl | rfl | rfl | rfl | rfl | rfl | rfl
  case inr.inr.inr.inr.inl => exact Or.inl rfl
  case inr.inr.inr.inr.inr.inr.inr => exact Or.inr rfl
  all_goals cases hget

end TestServer.Endpoints
