import TestServer.Js.Text
import TestServer.Library.Fallible

/-!
# Chains of endpoints

`resolveEndpointChain` of `src/endpoint-chain.ts`, for any table of endpoints. A
path is matched by the first endpoint that takes it, and the path that this
endpoint leaves is matched in turn.
-/

namespace TestServer

open Js Library

def maxChainDepth : Nat := 10

/-- What a call may throw. -/
inductive Thrown where
  | statusError (statusCode : Nat) (message : JsString)
  /-- Any other error. -/
  | error (message : JsString)
deriving DecidableEq

structure ChainableEndpoint where
  name : JsString
  matchPath : JsString → Option JsString → Except Thrown Bool
  getRemainingPath : JsString → Option JsString

/-- The segment of a path that follows a leading part, and the rest of the path from the slash
after that segment on. -/
def segmentAfter (lead path : JsString) : JsString × Option JsString :=
  match indexOf path (js "/") lead.length with
  | some idx => ((path.take idx).drop lead.length, some (path.drop idx))
  | none => (path.drop lead.length, none)

/-- An endpoint of a chain, with the path it has matched. -/
structure ChainEntry (ε : Type) where
  endpoint : ε
  path : JsString

section

variable {ε : Type} (chainable : ε → ChainableEndpoint) (endpoints : List ε)

/-- The first endpoint that matches a path, unless one before it throws. -/
def findMatch (path : JsString) (hostnamePrefix : Option JsString) :
    List ε → Except Thrown (Option ε)
  | [] => .ok none
  | endpoint :: rest => do
      if ← (chainable endpoint).matchPath path hostnamePrefix then return some endpoint
      else findMatch path hostnamePrefix rest

def noMatchMessage (initialPath : JsString) (hostnamePrefix : Option JsString) : JsString :=
  js "Could not match endpoint for " ++ initialPath ++
    match hostnamePrefix with
    | some (c :: rest) => js " (" ++ (c :: rest) ++ js ")"
    | _ => []

def depthMessage (initialPath : JsString) : JsString :=
  js "Endpoint chain exceeded maximum depth for " ++ initialPath

/-- The loop, with the number of turns that are left. -/
def resolveFrom (initialPath : JsString) (hostnamePrefix : Option JsString) :
    Nat → Option JsString → Except Thrown (List (ChainEntry ε))
  | _, none => .ok []
  | _, some [] => .ok []
  | 0, some (_ :: _) => .error (.statusError 400 (depthMessage initialPath))
  | turns + 1, some (c :: rest) => do
      match ← findMatch chainable (c :: rest) hostnamePrefix endpoints with
      | none => .error (.statusError 404 (noMatchMessage initialPath hostnamePrefix))
      | some endpoint =>
          let entries ← resolveFrom initialPath hostnamePrefix turns
            ((chainable endpoint).getRemainingPath (c :: rest))
          return ⟨endpoint, c :: rest⟩ :: entries

def resolveEndpointChain (initialPath : JsString) (hostnamePrefix : Option JsString) :
    Except Thrown (List (ChainEntry ε)) :=
  resolveFrom chainable endpoints initialPath hostnamePrefix (maxChainDepth + 1) (some initialPath)

end

section

variable {ε : Type} {chainable : ε → ChainableEndpoint} {endpoints : List ε}
  {initialPath : JsString} {hostnamePrefix : Option JsString}

theorem mem_of_findMatch {path : JsString} {endpoint : ε} {table : List ε}
    (h : findMatch chainable path hostnamePrefix table = .ok (some endpoint)) :
    endpoint ∈ table := by
  induction table with
  | nil => cases h
  | cons e rest ih =>
      obtain ⟨matched, _, h⟩ := bind_ok_iff.mp h
      cases matched with
      | true =>
          cases h
          exact List.mem_cons_self
      | false => exact List.mem_cons_of_mem e (ih h)

/-- Every endpoint of a chain is one of the table. -/
theorem endpoint_mem_of_resolveFrom {turns : Nat} {path : Option JsString}
    {entries : List (ChainEntry ε)}
    (h : resolveFrom chainable endpoints initialPath hostnamePrefix turns path = .ok entries) :
    ∀ entry ∈ entries, entry.endpoint ∈ endpoints := by
  induction turns generalizing path entries with
  | zero =>
      match path with
      | none | some [] =>
          cases h
          intro entry hentry
          cases hentry
      | some (c :: rest) => cases h
  | succ turns ih =>
      match path with
      | none | some [] =>
          cases h
          intro entry hentry
          cases hentry
      | some (c :: rest) =>
          obtain ⟨found, hfound, h⟩ := bind_ok_iff.mp h
          cases found with
          | none => cases h
          | some endpoint =>
              obtain ⟨tail, htail, h⟩ := bind_ok_iff.mp h
              cases h
              intro entry hentry
              cases hentry with
              | head => exact mem_of_findMatch hfound
              | tail _ hentry => exact ih htail entry hentry

theorem endpoint_mem_of_resolve {entries : List (ChainEntry ε)}
    (h : resolveEndpointChain chainable endpoints initialPath hostnamePrefix = .ok entries) :
    ∀ entry ∈ entries, entry.endpoint ∈ endpoints :=
  endpoint_mem_of_resolveFrom h

theorem thrown_of_findMatch {P : Thrown → Prop} {path : JsString} {e : Thrown} {table : List ε}
    (htable : ∀ endpoint ∈ table, ∀ e, (chainable endpoint).matchPath path hostnamePrefix =
      .error e → P e)
    (h : findMatch chainable path hostnamePrefix table = .error e) : P e := by
  induction table with
  | nil => cases h
  | cons endpoint rest ih =>
      rcases bind_error_iff.mp h with h | ⟨matched, _, h⟩
      · exact htable endpoint List.mem_cons_self e h
      · cases matched with
        | true => cases h
        | false => exact ih (fun f hf => htable f (List.mem_cons_of_mem endpoint hf)) h

/-- What holds of the two errors of the loop and of all that the endpoints throw holds of all
that the resolution of a chain throws. -/
theorem thrown_of_resolve {P : Thrown → Prop}
    (hdepth : ∀ message, P (.statusError 400 message))
    (hnone : ∀ message, P (.statusError 404 message))
    (htable : ∀ endpoint ∈ endpoints, ∀ path e,
      (chainable endpoint).matchPath path hostnamePrefix = .error e → P e)
    {e : Thrown}
    (h : resolveEndpointChain chainable endpoints initialPath hostnamePrefix = .error e) :
    P e := by
  have hloop : ∀ turns path,
      resolveFrom chainable endpoints initialPath hostnamePrefix turns path = .error e → P e := by
    intro turns
    induction turns with
    | zero =>
        intro path h
        match path with
        | none | some [] => cases h
        | some (c :: rest) =>
            cases h
            exact hdepth _
    | succ turns ih =>
        intro path h
        match path with
        | none | some [] => cases h
        | some (c :: rest) =>
            rcases bind_error_iff.mp h with h | ⟨found, _, h⟩
            · exact thrown_of_findMatch (fun f hf => htable f hf (c :: rest)) h
            · cases found with
              | none =>
                  cases h
                  exact hnone _
              | some endpoint =>
                  rcases bind_error_iff.mp h with h | ⟨_, _, h⟩
                  · exact ih _ h
                  · cases h
  exact hloop _ _ h

end

end TestServer
