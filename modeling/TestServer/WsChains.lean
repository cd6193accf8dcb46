import TestServer.Endpoints.WsParams
import TestServer.Js.Numerals
import TestServer.Js.UriEncode
import TestServer.Routing

/-!
# WebSocket chains as paths

The steps of a chain written as a path are resolved to their endpoints again, in
their order, and every endpoint reads the parameters of its step.

## Implementation notes

Each endpoint cuts its parameters out of a path in one place and the rest of the
path in another. A step is read off any path that it starts, whatever follows.
-/

namespace TestServer

open Js Endpoints

inductive WsStep where
  | delay (seconds : Decimal)
  | message (text : Text)
  | repeated (text : Text) (freqMs : Nat) (positive : 0 < freqMs)
  | subprotocol (name : Text) (nonempty : name.units ≠ [])
  | noSubprotocol
  | echo
  | close (code : Nat) (valid : 1000 ≤ code ∧ code ≤ 4999)
  | reset

namespace WsStep

/-- Whether nothing can follow the step. -/
def ends : WsStep → Bool
  | echo | close _ _ | reset => true
  | _ => false

def written : WsStep → JsString
  | delay seconds => js "/delay/" ++ seconds.text
  | message text => js "/message/" ++ text.encoded
  | repeated text freqMs _ => js "/repeat/" ++ (text.encoded ++ unit '/' :: decimal freqMs)
  | subprotocol name _ => js "/subprotocol/" ++ name.encoded
  | noSubprotocol => js "/no-subprotocol"
  | echo => js "/echo"
  | close code _ => js "/close/" ++ decimal code
  | reset => js "/error/reset"

def endpoint : WsStep → WebSocketEndpoint
  | delay _ => wsDelayEndpoint
  | message _ => wsMessageEndpoint
  | repeated _ _ _ => wsRepeatEndpoint
  | subprotocol _ _ => wsSubprotocolEndpoint
  | noSubprotocol => wsNoSubprotocolEndpoint
  | echo => wsEchoEndpoint
  | close _ _ => wsCloseEndpoint
  | reset => wsResetEndpoint

/-- The endpoint of the step reads the parameters of the step from a path. -/
def ReadFrom (path : JsString) : WsStep → Prop
  | delay seconds => parseDelaySeconds path = some seconds.number
  | message text => parseMessage path = .ok text.units
  | repeated text freqMs _ =>
      parseRepeatParams path = .ok ⟨text.units, some (toDouble freqMs)⟩
  | subprotocol name _ =>
      wsSubprotocolEndpoint.getProtocol.map (fun getProtocol => getProtocol path) =
        some (.ok (some name.units))
  | noSubprotocol =>
      wsNoSubprotocolEndpoint.getProtocol.map (fun getProtocol => getProtocol path) =
        some (.ok none)
  | close code _ => parseCloseCode path = some (code : Int)
  | echo | reset => True

end WsStep

/-- A chain with as many endpoints as can be resolved. -/
structure WsChain where
  steps : List WsStep
  nonempty : steps ≠ []
  bounded : steps.length ≤ maxChainDepth + 1
  endsLast : ∀ step ∈ steps.dropLast, step.ends = false

def WsChain.path (chain : WsChain) : JsString := js "/ws" ++ chain.steps.flatMap WsStep.written

theorem findMatch_of_owned {endpoint : WebSocketEndpoint} {path : JsString}
    {hostnamePrefix : Option JsString} (hmem : endpoint ∈ wsEndpoints)
    (hmatch : endpoint.matchPath path hostnamePrefix = .ok true) :
    findMatch WebSocketEndpoint.toChainableEndpoint path hostnamePrefix wsEndpoints =
      .ok (some endpoint) :=
  findMatch_of_claimedOnce (unambiguous_wsEndpoints.claimedOnce path hostnamePrefix) hmem hmatch

/-- What is left of a path behind a step. -/
def leftOver (rest : JsString) : Option JsString :=
  if rest = [] then none else some (js "/ws" ++ rest)

/-- The endpoint of a step takes a path, leaves the path of the other steps, and reads the
parameters of the step. -/
structure WsStep.Heads (step : WsStep) (rest path : JsString) : Prop where
  matched : ∀ hostnamePrefix, step.endpoint.matchPath path hostnamePrefix = .ok true
  remaining : step.endpoint.getRemainingPath path = leftOver rest
  read : step.ReadFrom path

/-- Nothing follows, or another step does. -/
def StepsFollow (rest : JsString) : Prop := rest = [] ∨ ∃ tail, rest = unit '/' :: tail

/-- A step starts a path whenever other steps may follow it. -/
theorem segmentAfter_heads {segment rest : JsString} (h : unit '/' ∉ segment)
    (hrest : StepsFollow rest) (lead : JsString) :
    segmentAfter lead (lead ++ (segment ++ rest)) =
      (segment, if rest = [] then none else some rest) := by
  rcases hrest with rfl | ⟨tail, rfl⟩
  · rw [List.append_nil, segmentAfter_last h, if_pos rfl]
  · rw [segmentAfter_append h, if_neg (List.cons_ne_nil _ _)]

theorem wsRemaining_heads {segment rest : JsString} (h : unit '/' ∉ segment)
    (hrest : StepsFollow rest) (lead : JsString) :
    wsRemaining lead (lead ++ (segment ++ rest)) = leftOver rest := by
  rw [wsRemaining, segmentAfter_heads h hrest, leftOver]
  split_ifs
  · rfl
  · rfl

theorem startsWith_append (lead rest : JsString) : startsWith (lead ++ rest) lead = true :=
  startsWith_iff.mpr (List.prefix_append lead rest)

theorem heads_delay (seconds : Decimal) {rest : JsString} (hrest : StepsFollow rest) :
    (WsStep.delay seconds).Heads rest (js "/ws/delay/" ++ (seconds.text ++ rest)) := by
  have hsegment : (segmentAfter (js "/ws/delay/") (js "/ws/delay/" ++ (seconds.text ++ rest))).1 =
      seconds.text := by
    rw [segmentAfter_heads seconds.slash_notMem_text hrest]
  have hnumber : parseFloatIsNumber seconds.text = true := by
    rw [← isSome_parseFloat, seconds.parseFloat_text, Option.isSome_some]
  constructor
  · intro hostnamePrefix
    simp only [WsStep.endpoint, wsDelayEndpoint, startsWith_append, hsegment, hnumber,
      not_true_eq_false, if_false]
  · exact wsRemaining_heads seconds.slash_notMem_text hrest _
  · rw [WsStep.ReadFrom, parseDelaySeconds, hsegment, seconds.parseFloat_text]

theorem heads_message (text : Text) {rest : JsString} (hrest : StepsFollow rest) :
    (WsStep.message text).Heads rest (js "/ws/message/" ++ (text.encoded ++ rest)) := by
  constructor
  · intro hostnamePrefix
    exact congrArg Except.ok (startsWith_append _ _)
  · exact wsRemaining_heads text.slash_notMem_encoded hrest _
  · rw [WsStep.ReadFrom, parseMessage, segmentAfter_heads text.slash_notMem_encoded hrest,
      text.decodeURIComponent_encoded]

theorem heads_subprotocol (name : Text) (hname : name.units ≠ []) {rest : JsString}
    (hrest : StepsFollow rest) :
    (WsStep.subprotocol name hname).Heads rest (subprotocolPrefix ++ (name.encoded ++ rest)) := by
  have hread : subprotocolName (subprotocolPrefix ++ (name.encoded ++ rest)) = name.encoded := by
    rw [subprotocolName, segmentAfter_heads name.slash_notMem_encoded hrest]
  have hlength : (subprotocolPrefix ++ (name.encoded ++ rest)).length >
      subprotocolPrefix.length := by
    have hpos : 0 < name.encoded.length := List.length_pos_of_ne_nil (name.encoded_ne_nil hname)
    rw [List.length_append, List.length_append]
    omega
  constructor
  · intro hostnamePrefix
    simp only [WsStep.endpoint, wsSubprotocolEndpoint, startsWith_append, decide_eq_true hlength,
      Bool.and_self]
  · exact wsRemaining_heads name.slash_notMem_encoded hrest _
  · simp only [WsStep.ReadFrom, wsSubprotocolEndpoint, Option.map_some, hread,
      name.decodeURIComponent_encoded]

theorem cutSlash_heads {segment rest : JsString} (h : unit '/' ∉ segment)
    (hrest : StepsFollow rest) :
    cutSlash (segment ++ rest) = (segment, if rest = [] then none else some (rest.drop 1)) := by
  rcases hrest with rfl | ⟨tail, rfl⟩
  · rw [List.append_nil, cutSlash_last h, if_pos rfl]
  · rw [cutSlash_append h, if_neg (List.cons_ne_nil _ _)]
    rfl

theorem heads_repeated (text : Text) (freqMs : Nat) (positive : 0 < freqMs) {rest : JsString}
    (hrest : StepsFollow rest) :
    (WsStep.repeated text freqMs positive).Heads rest
      (repeatPrefix ++ (text.encoded ++ unit '/' :: (decimal freqMs ++ rest))) := by
  have hmessage : cutSlash ((repeatPrefix ++
      (text.encoded ++ unit '/' :: (decimal freqMs ++ rest))).drop repeatPrefix.length) =
        (text.encoded, some (decimal freqMs ++ rest)) := by
    rw [List.drop_left, cutSlash_append text.slash_notMem_encoded]
  have hfrequency := cutSlash_heads (slash_notMem_decimal freqMs) hrest
  constructor
  · intro hostnamePrefix
    have hpositive : ¬ (freqMs : Int) ≤ 0 := by
      omega
    simp only [WsStep.endpoint, wsRepeatEndpoint, startsWith_append, parseRepeatFrequency, hmessage,
      text.decodeURIComponent_encoded, hfrequency, parseInt_decimal, not_true_eq_false, if_false]
    exact if_neg hpositive
  · simp only [WsStep.endpoint, wsRepeatEndpoint, hmessage, hfrequency, leftOver]
    rcases hrest with rfl | ⟨tail, rfl⟩
    · rfl
    · rfl
  · simp only [WsStep.ReadFrom, parseRepeatParams, hmessage, text.decodeURIComponent_encoded,
      hfrequency, parseInt_decimal, Option.map_some, Int.cast_natCast]

theorem heads_noSubprotocol {rest : JsString} (hrest : StepsFollow rest) :
    WsStep.noSubprotocol.Heads rest (noSubprotocolPath ++ rest) := by
  constructor
  · intro hostnamePrefix
    rcases hrest with rfl | ⟨tail, rfl⟩
    · rfl
    · have hstart : startsWith (noSubprotocolPath ++ unit '/' :: tail)
          (noSubprotocolPath ++ js "/") = true := by
        rw [startsWith_iff]
        exact ⟨tail, by rw [List.append_assoc]; rfl⟩
      simp only [WsStep.endpoint, wsNoSubprotocolEndpoint, hstart, Bool.or_true]
  · simp only [WsStep.endpoint, wsNoSubprotocolEndpoint, List.drop_left, leftOver]
    rcases hrest with rfl | ⟨tail, rfl⟩
    · rfl
    · rw [if_pos (by simp), if_neg (List.cons_ne_nil _ _)]
  · rfl

theorem heads_close (code : Nat) (valid : 1000 ≤ code ∧ code ≤ 4999) :
    (WsStep.close code valid).Heads [] (js "/ws/close/" ++ decimal code) := by
  have hlonger : js "/ws/close/" ++ decimal code ≠ js "/ws/close" := by
    intro heq
    have hlong : (js "/ws/close/").length = 10 := rfl
    have hshort : (js "/ws/close").length = 9 := rfl
    have hlength := congrArg List.length heq
    rw [List.length_append] at hlength
    omega
  have hcode : parseCloseCode (js "/ws/close/" ++ decimal code) = some (code : Int) := by
    rw [parseCloseCode, if_neg hlonger, List.drop_left, parseInt_decimal]
  constructor
  · intro hostnamePrefix
    have hvalid : ¬ ((code : Int) < 1000 ∨ (code : Int) > 4999) := by
      omega
    simp only [WsStep.endpoint, wsCloseEndpoint, startsWith_append, hcode, not_true_eq_false,
      false_and, if_false]
    exact if_neg hvalid
  · rfl
  · exact hcode

/-- A step that may be followed by the others heads the path that is written for them all. -/
theorem WsStep.heads (step : WsStep) {rest : JsString} (hrest : StepsFollow rest)
    (hends : step.ends = true → rest = []) : step.Heads rest (js "/ws" ++ (step.written ++ rest)) := by
  cases step with
  | delay seconds => exact heads_delay seconds hrest
  | message text => exact heads_message text hrest
  | repeated text freqMs positive =>
      have hpath : js "/ws" ++ ((WsStep.repeated text freqMs positive).written ++ rest) =
          repeatPrefix ++ (text.encoded ++ unit '/' :: (decimal freqMs ++ rest)) := by
        simp only [WsStep.written, List.append_assoc, List.cons_append]
        rfl
      rw [hpath]
      exact heads_repeated text freqMs positive hrest
  | subprotocol name hname => exact heads_subprotocol name hname hrest
  | noSubprotocol => exact heads_noSubprotocol hrest
  | echo => 
      rw [hends rfl]
      exact ⟨fun _ => rfl, rfl, trivial⟩
  | close code valid => 
      rw [hends rfl, List.append_nil]
      exact heads_close code valid
  | reset =>
      rw [hends rfl]
      exact ⟨fun _ => rfl, rfl, trivial⟩

/-- An entry of a resolved chain is the one of a step. -/
def WsStep.Resolved (step : WsStep) (entry : ChainEntry WebSocketEndpoint) : Prop :=
  entry.endpoint = step.endpoint ∧ step.ReadFrom entry.path

theorem WsStep.endpoint_mem (step : WsStep) : step.endpoint ∈ wsEndpoints := by
  cases step <;> simp only [WsStep.endpoint, wsEndpoints, List.mem_cons, true_or, or_true]

theorem stepsFollow_written (steps : List WsStep) : StepsFollow (steps.flatMap WsStep.written) := by
  cases steps with
  | nil => exact Or.inl rfl
  | cons step steps =>
      right
      cases step <;> exact ⟨_, rfl⟩

theorem flatMap_written_eq_nil {steps : List WsStep} :
    steps.flatMap WsStep.written = [] ↔ steps = [] := by
  constructor
  · intro h
    cases steps with
    | nil => rfl
    | cons step steps => cases step <;> cases h
  · rintro rfl
    rfl

/-- The steps that are left are resolved from the path that is left. -/
theorem resolveFrom_written {steps : List WsStep} (initialPath : JsString)
    (hostnamePrefix : Option JsString) {turns : Nat} (hturns : steps.length ≤ turns)
    (hends : ∀ step ∈ steps.dropLast, step.ends = false) :
    ∃ entries, resolveFrom WebSocketEndpoint.toChainableEndpoint wsEndpoints initialPath
        hostnamePrefix turns (leftOver (steps.flatMap WsStep.written)) = .ok entries ∧
      List.Forall₂ WsStep.Resolved steps entries := by
  induction steps generalizing turns with
  | nil => exact ⟨[], by cases turns <;> rfl, .nil⟩
  | cons step steps ih =>
      obtain ⟨turns, rfl⟩ : ∃ n, turns = n + 1 :=
        Nat.exists_eq_add_of_le' (Nat.le_trans (Nat.le_add_left 1 _) hturns)
      have hdrop (hne : steps ≠ []) : (step :: steps).dropLast = step :: steps.dropLast :=
        List.dropLast_cons_of_ne_nil hne
      have hrest : step.ends = true → steps.flatMap WsStep.written = [] := by
        intro hstep
        rw [flatMap_written_eq_nil]
        by_contra hne
        rw [hends step (by rw [hdrop hne]; exact List.mem_cons_self)] at hstep
        cases hstep
      have hheads := step.heads (stepsFollow_written steps) hrest
      have htail : ∀ other ∈ steps.dropLast, other.ends = false := by
        intro other hother
        by_cases hne : steps = []
        · rw [hne] at hother
          cases hother
        · exact hends other (by rw [hdrop hne]; exact List.mem_cons_of_mem step hother)
      obtain ⟨entries, hentries, hresolved⟩ := ih (Nat.le_of_succ_le_succ hturns) htail
      refine ⟨⟨step.endpoint, _⟩ :: entries, ?_, .cons ⟨rfl, hheads.read⟩ hresolved⟩
      have hcons : js "/ws" ++ (step.written ++ steps.flatMap WsStep.written) =
          unit '/' :: (js "ws" ++ (step.written ++ steps.flatMap WsStep.written)) := rfl
      have hfind := findMatch_of_owned step.endpoint_mem (hheads.matched hostnamePrefix)
      have hremaining := hheads.remaining
      rw [hcons] at hfind hremaining
      rw [leftOver, if_neg (mt flatMap_written_eq_nil.mp (List.cons_ne_nil step steps)),
        List.flatMap_cons, hcons, resolveFrom, hfind]
      simp only [bind, Except.bind, hremaining, hentries]
      rfl

/-- The path written for a chain is resolved to the endpoints of its steps, and each of them
reads the parameters of its step. -/
theorem wsChain_resolves (chain : WsChain) (hostnamePrefix : Option JsString) :
    ∃ entries, resolveEndpointChain WebSocketEndpoint.toChainableEndpoint wsEndpoints chain.path
        hostnamePrefix = .ok entries ∧
      List.Forall₂ WsStep.Resolved chain.steps entries := by
  have hpath : some chain.path = leftOver (chain.steps.flatMap WsStep.written) := by
    rw [leftOver, if_neg (mt flatMap_written_eq_nil.mp chain.nonempty)]
    rfl
  rw [resolveEndpointChain, hpath]
  exact resolveFrom_written chain.path hostnamePrefix chain.bounded chain.endsLast

/-- A message, and an echo behind it. -/
def greeting : WsChain where
  steps := [.message ⟨js "hi", rfl⟩, .echo]
  nonempty := List.cons_ne_nil _ _
  bounded := by decide
  endsLast := List.forall_mem_singleton.mpr rfl

example : greeting.path = js "/ws/message/hi/echo" := by decide +kernel

end TestServer
