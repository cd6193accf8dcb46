import TestServer.HttpHandler
import Mathlib.Tactic.SplitIfs

/-!
# One HTTP/1 connection

The capture of raw data in `src/process-connection.ts`, the handler made by
`createHttp1Handler` in `src/http-handler.ts` and the HTTP/1 branch of
`src/endpoints/http/echo.ts`, on one socket. An event is the arrival of a chunk
or the resumption of a handler.

## Implementation notes

A byte is named by its place in the stream. The requests of a connection are
given by the lengths of their heads and bodies and by the course their handlers
take. A chunk starts the handlers of all heads it completes, up to their first
await, before it is captured. Of a chain that ends in `echo`, only the number of
hops before it is kept.
-/

namespace TestServer

open Js Library Endpoints

/-- The course of a handler. -/
inductive Course where
  /-- A chain that needs raw data, with the number of hops before `echo`. -/
  | echo (hops : Nat)
  /-- Any other chain, which stops the capture. -/
  | chain
  | acmeChallenge
  /-- An answer or an error before a chain is resolved. -/
  | answered
deriving DecidableEq

/-- The course that a request takes over HTTP/1. -/
def courseOf (context : HandlerContext) (req : HttpRequest) : Course :=
  match routeRequest context .http1 req with
  | .ok (.routed path hostnamePrefix) =>
      match httpChain path hostnamePrefix with
      | .ok entries =>
          if entries.any fun entry => entry.endpoint.needsRawData then .echo (entries.length - 1)
          else .chain
      | .error _ => .answered
  | .ok (.acmeChallenge _) => .acmeChallenge
  | _ => .answered

structure WireRequest where
  headLength : Nat
  headLength_pos : 0 < headLength
  bodyLength : Nat
  course : Course

/-- Where a handler stands. -/
inductive HandlerPhase where
  /-- A hop before `echo` is awaited, with a number of hops after it. -/
  | hop (rest : Nat)
  /-- `echo` waits for a tick. -/
  | tick
  /-- `echo` waits for the body of the request. -/
  | body
  | acmeChallenge
  /-- All that is left is to settle. -/
  | settling
deriving DecidableEq

/-- Whether a handler may still answer as `echo`. -/
def HandlerPhase.mayEcho : HandlerPhase → Bool
  | .hop _ => true
  | .tick => true
  | .body => true
  | .acmeChallenge => false
  | .settling => false

structure Http1Connection where
  /-- The number of bytes received. -/
  received : Nat
  /-- The number of handlers started. -/
  started : Nat
  receivedData : Option (List (List Nat))
  requestsInBatch : Nat
  pipelining : Bool
  handlers : InsertionMap Nat HandlerPhase
  /-- The requests that `echo` has answered with 200, with the bodies of the answers. -/
  echoed : List (Nat × List Nat)
deriving DecidableEq

namespace Http1Connection

def initial : Http1Connection where
  received := 0
  started := 0
  receivedData := some []
  requestsInBatch := 0
  pipelining := false
  handlers := .empty
  echoed := []

inductive Event where
  | chunk (length : Nat)
  | resume (request : Nat)
  /-- The handler throws, or leaves its chain. -/
  | leave (request : Nat)
deriving DecidableEq

section

variable (requests : Nat → WireRequest)

/-- The place of the first byte of a request. -/
def start : Nat → Nat
  | 0 => 0
  | i + 1 => start i + (requests i).headLength + (requests i).bodyLength

def headEnd (i : Nat) : Nat := start requests i + (requests i).headLength

def bodyEnd (i : Nat) : Nat := start requests (i + 1)

/-- The places of the bytes of a request. -/
def bytesOf (i : Nat) : List Nat :=
  List.range' (start requests i) ((requests i).headLength + (requests i).bodyLength)

/-- The phase that a handler reaches at its first await. -/
def firstPhase : Course → HandlerPhase
  | .echo 0 => .tick
  | .echo (rest + 1) => .hop rest
  | .acmeChallenge => .acmeChallenge
  | .chain => .settling
  | .answered => .settling

/-- Start the handler of the next request. -/
def startHandler (s : Http1Connection) : Http1Connection :=
  let course := (requests s.started).course
  let batch := s.requestsInBatch + 1
  { s with
    started := s.started + 1
    receivedData := if course = .chain then none else s.receivedData
    requestsInBatch := batch
    pipelining := s.pipelining || decide (batch > 1)
    handlers := s.handlers.set s.started (firstPhase course) }

/-- Start the handlers of the heads that end at the given place or before it. -/
def startHandlers (upTo : Nat) : Nat → Http1Connection → Http1Connection
  | 0, s => s
  | n + 1, s =>
      if headEnd requests s.started ≤ upTo then startHandlers upTo n (startHandler requests s)
      else s

/-- Parse a chunk and capture it. -/
def receive (s : Http1Connection) (length : Nat) : Http1Connection :=
  let t := startHandlers requests (s.received + length) length s
  { t with
    received := s.received + length
    receivedData := t.receivedData.map (· ++ [List.range' s.received length]) }

def setPhase (s : Http1Connection) (i : Nat) (phase : HandlerPhase) : Http1Connection :=
  { s with handlers := s.handlers.set i phase }

/-- The `finally` of `createHttp1Handler`. -/
def settle (s : Http1Connection) (i : Nat) : Http1Connection :=
  let batch := s.requestsInBatch - 1
  { s with
    receivedData := some []
    requestsInBatch := batch
    pipelining := if batch = 0 then false else s.pipelining
    handlers := s.handlers.delete i }

def resume (s : Http1Connection) (i : Nat) : HandlerPhase → Option Http1Connection
  | .hop 0 => some (s.setPhase i .tick)
  | .hop (rest + 1) => some (s.setPhase i (.hop rest))
  | .tick => some (s.setPhase i (if s.pipelining then .settling else .body))
  | .body =>
      if bodyEnd requests i ≤ s.received then
        some { s.setPhase i .settling with
          echoed := s.echoed ++ [(i, (s.receivedData.getD []).flatten)] }
      else none
  | .acmeChallenge => some { s.setPhase i .settling with receivedData := some [] }
  | .settling => some (s.settle i)

def step (s : Http1Connection) : Event → Option Http1Connection
  | .chunk length => if 0 < length then some (s.receive requests length) else none
  | .resume i => do
      let phase ← s.handlers.get i
      s.resume requests i phase
  | .leave i => do
      let phase ← s.handlers.get i
      if phase.mayEcho then some (s.setPhase i .settling) else none

end

end Http1Connection

end TestServer
