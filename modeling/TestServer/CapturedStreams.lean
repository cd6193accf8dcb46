import TestServer.Http2Connection
import TestServer.ProcessConnection.FrameCapture

/-!
# What is captured for the requests of an HTTP/2 connection

Until the handler of a request turns to the capture, all frames of its stream
are buffered. From the registration of `echo` to its end, the stream has the
callback of its own `echo` and no other stream has it.
-/

namespace TestServer.Http2Connection

open Js Library Endpoints ProcessConnection

/-- The frames of a stream among those received. -/
def framesOf (received : List (Nat × Bytes)) (streamId : Nat) : List Bytes :=
  (received.filter fun r => r.1 == streamId).map Prod.snd

theorem framesOf_append_self (received : List (Nat × Bytes)) (streamId : Nat) (frame : Bytes) :
    framesOf (received ++ [(streamId, frame)]) streamId =
      framesOf received streamId ++ [frame] := by
  simp [framesOf]

theorem framesOf_append_of_ne {received : List (Nat × Bytes)} {streamId j : Nat} {frame : Bytes}
    (h : j ≠ streamId) :
    framesOf (received ++ [(j, frame)]) streamId = framesOf received streamId := by
  simp [framesOf, h]

theorem framesOf_ne_nil_iff {received : List (Nat × Bytes)} {streamId : Nat} :
    framesOf received streamId ≠ [] ↔ ∃ r ∈ received, r.1 = streamId := by
  simp [framesOf]

/-- Whether the handler of a request has not turned to the capture. -/
def untouched : Option RequestPhase → Bool
  | none => true
  | some (.hop _) => true
  | some .acmeChallenge => true
  | some (.chain false) => true
  | _ => false

section

variable (context : HandlerContext) (requests : Nat → Http2Request)

/-- What an event can do. -/
inductive Stepped (s : Http2Connection) : Event → Http2Connection → Prop where
  | frame {frame : Bytes} {header : ParsedFrameHeader}
      (hheader : parseFrameHeader frame 0 = some header) :
      Stepped s (.frame frame) { s with capture := s.capture.routeFrame header.streamId frame }
  | hop {k rest : Nat} {access : StreamAccess} (hk : k ≠ 0)
      (harrived : framesOf s.capture.routed k ≠ []) (hfresh : s.requests.get k = none)
      (hcourse : http2CourseOf context (requests k).toHttpRequest = .echo (rest + 1)) :
      Stepped s (.request k access) (s.setPhase k (.hop rest))
  | acme {k : Nat} {access : StreamAccess} (hk : k ≠ 0)
      (harrived : framesOf s.capture.routed k ≠ []) (hfresh : s.requests.get k = none)
      (hcourse : http2CourseOf context (requests k).toHttpRequest = .acmeChallenge) :
      Stepped s (.request k access) (s.setPhase k .acmeChallenge)
  | chain {k : Nat} {access : StreamAccess} (hk : k ≠ 0)
      (harrived : framesOf s.capture.routed k ≠ []) (hfresh : s.requests.get k = none)
      (hcourse : http2CourseOf context (requests k).toHttpRequest = .chain) :
      Stepped s (.request k access)
        { s with
          capture := s.capture.stopCapturingStream k
          requests := s.requests.set k (.chain true) }
  | lostChain {k : Nat} {access : StreamAccess} (hk : k ≠ 0)
      (harrived : framesOf s.capture.routed k ≠ []) (hfresh : s.requests.get k = none)
      (hcourse : http2CourseOf context (requests k).toHttpRequest = .chain) :
      Stepped s (.request k access) (s.setPhase k (.chain false))
  | answered {k : Nat} {access : StreamAccess} (hk : k ≠ 0)
      (harrived : framesOf s.capture.routed k ≠ []) (hfresh : s.requests.get k = none)
      (hcourse : http2CourseOf context (requests k).toHttpRequest = .answered) :
      Stepped s (.request k access) (s.setPhase k .handled)
  | echo {k : Nat} {access : StreamAccess} (hk : k ≠ 0)
      (harrived : framesOf s.capture.routed k ≠ []) (hfresh : s.requests.get k = none)
      (hcourse : http2CourseOf context (requests k).toHttpRequest = .echo 0)
      (hreaches : access.reaches = true) :
      Stepped s (.request k access) (registerEcho requests s k)
  | lostEcho {k : Nat} {access : StreamAccess} (hk : k ≠ 0)
      (harrived : framesOf s.capture.routed k ≠ []) (hfresh : s.requests.get k = none)
      (hcourse : http2CourseOf context (requests k).toHttpRequest = .echo 0)
      (hreaches : access.reaches = false) :
      Stepped s (.request k access) (s.setPhase k .handled)
  | nextHop {k rest : Nat} {access : StreamAccess}
      (hphase : s.requests.get k = some (.hop (rest + 1))) :
      Stepped s (.resume k access) (s.setPhase k (.hop rest))
  | lastHop {k : Nat} {access : StreamAccess} (hphase : s.requests.get k = some (.hop 0))
      (hreaches : access.reaches = true) :
      Stepped s (.resume k access) (registerEcho requests s k)
  | lostHop {k : Nat} {access : StreamAccess} (hphase : s.requests.get k = some (.hop 0))
      (hreaches : access.reaches = false) :
      Stepped s (.resume k access) (s.setPhase k .handled)
  | acmeAnswered {k : Nat} {access : StreamAccess}
      (hphase : s.requests.get k = some .acmeChallenge) :
      Stepped s (.resume k access) (s.setPhase k .handled)
  | settled {k : Nat} {access : StreamAccess} {stopped : Bool}
      (hphase : s.requests.get k = some (.chain stopped)) :
      Stepped s (.resume k access) (s.setPhase k .handled)
  | leftHop {k rest : Nat} (hphase : s.requests.get k = some (.hop rest)) :
      Stepped s (.leave k) (s.setPhase k .handled)
  | leftChain {k : Nat} {stopped : Bool} (hphase : s.requests.get k = some (.chain stopped)) :
      Stepped s (.leave k) (s.setPhase k .handled)
  | immediate {callback : Nat} {frame : Bytes} {rest : List (Nat × Bytes)}
      (hqueue : s.capture.immediates = (callback, frame) :: rest) :
      Stepped s .immediate (runCallback requests
        { s with capture := { s.capture with immediates := rest } } callback frame)
  | finish {k : Nat} (hphase : s.requests.get k = some .echoing) :
      Stepped s (.finish k) (s.finish k)
  | finishAgain {k : Nat} (hphase : s.requests.get k = some .ended) :
      Stepped s (.finish k) (s.finish k)

end

variable {context : HandlerContext} {requests : Nat → Http2Request} {s t : Http2Connection}

theorem startEcho_eq (requests : Nat → Http2Request) (s : Http2Connection) (k : Nat)
    (access : StreamAccess) :
    startEcho requests s k access =
      if access.reaches then registerEcho requests s k else s.setPhase k .handled := by
  rw [startEcho, StreamAccess.reaches]
  cases access.capturingStream with
  | false => rfl
  | true =>
      cases access.streamId with
      | false => rfl
      | true => rfl

theorem stepped_request {k : Nat} (access : StreamAccess) (hk : k ≠ 0)
    (harrived : framesOf s.capture.routed k ≠ []) (hfresh : s.requests.get k = none) :
    Stepped context requests s (.request k access)
      (startRequest context requests s k access) := by
  rw [startRequest]
  cases hcourse : http2CourseOf context (requests k).toHttpRequest with
  | echo hops =>
      cases hops with
      | zero =>
          dsimp only
          rw [startEcho_eq]
          split_ifs with hreaches
          · exact .echo hk harrived hfresh hcourse hreaches
          · exact .lostEcho hk harrived hfresh hcourse (Bool.not_eq_true _ ▸ hreaches)
      | succ rest => exact .hop hk harrived hfresh hcourse
  | chain =>
      dsimp only
      rw [startChain]
      split_ifs with hfound
      · exact .chain hk harrived hfresh hcourse
      · exact .lostChain hk harrived hfresh hcourse
  | acmeChallenge => exact .acme hk harrived hfresh hcourse
  | answered => exact .answered hk harrived hfresh hcourse

theorem stepped_resume {k : Nat} {access : StreamAccess} {phase : RequestPhase}
    (hphase : s.requests.get k = some phase) (h : resume requests s k access phase = some t) :
    Stepped context requests s (.resume k access) t := by
  cases phase with
  | hop rest =>
      cases rest with
      | zero =>
          cases h
          rw [startEcho_eq]
          split_ifs with hreaches
          · exact .lastHop hphase hreaches
          · exact .lostHop hphase (Bool.not_eq_true _ ▸ hreaches)
      | succ rest =>
          cases h
          exact .nextHop hphase
  | chain stopped =>
      cases h
      exact .settled hphase
  | acmeChallenge =>
      cases h
      exact .acmeAnswered hphase
  | echoing => cases h
  | ended => cases h
  | handled => cases h

theorem stepped_leave {k : Nat} {phase : RequestPhase} (hphase : s.requests.get k = some phase)
    (h : leave s k phase = some t) : Stepped context requests s (.leave k) t := by
  cases phase with
  | hop rest =>
      cases h
      exact .leftHop hphase
  | chain stopped =>
      cases h
      exact .leftChain hphase
  | acmeChallenge => cases h
  | echoing => cases h
  | ended => cases h
  | handled => cases h

/-- Every step is of one of the kinds. -/
theorem stepped_of_step {e : Event} (h : step context requests s e = some t) :
    Stepped context requests s e t := by
  cases e with
  | frame frame =>
      obtain ⟨header, hheader, h⟩ := Option.bind_eq_some_iff.mp h
      split_ifs at h
      cases h
      exact .frame hheader
  | request k access =>
      simp only [step] at h
      split_ifs at h with henabled
      cases h
      obtain ⟨hk, hfresh, harrived⟩ := henabled
      apply stepped_request access hk _ hfresh
      rw [framesOf_ne_nil_iff]
      obtain ⟨r, hr, hname⟩ := List.any_eq_true.mp harrived
      exact ⟨r, hr, eq_of_beq hname⟩
  | resume k access =>
      obtain ⟨phase, hphase, h⟩ := Option.bind_eq_some_iff.mp h
      exact stepped_resume hphase h
  | leave k =>
      obtain ⟨phase, hphase, h⟩ := Option.bind_eq_some_iff.mp h
      exact stepped_leave hphase h
  | immediate =>
      simp only [step] at h
      cases hqueue : s.capture.immediates with
      | nil =>
          rw [hqueue] at h
          cases h
      | cons q rest =>
          rw [hqueue] at h
          cases h
          exact .immediate hqueue
  | finish k =>
      obtain ⟨phase, hphase, h⟩ := Option.bind_eq_some_iff.mp h
      split_ifs at h with hlive
      cases h
      rcases hlive with rfl | rfl
      · exact .finish hphase
      · exact .finishAgain hphase

/-- What the capture holds, in every state that a connection reaches. -/
structure CaptureInv (s : Http2Connection) : Prop where
  /-- A frame names the stream that it is routed to. -/
  named : ∀ r ∈ s.capture.routed, (frameToOutput r.2).streamId = r.1
  globals : s.capture.globalFrames = framesOf s.capture.routed 0
  /-- A request has a stream of its own, and came with a frame. -/
  arrived : ∀ k phase, s.requests.get k = some phase → k ≠ 0 ∧ framesOf s.capture.routed k ≠ []
  buffered : ∀ k, k ≠ 0 → untouched (s.requests.get k) = true →
    (s.capture.streams.get k).getD ⟨none, [], false⟩ = ⟨none, framesOf s.capture.routed k, false⟩
  registered : ∀ k, s.requests.get k = some .echoing →
    s.capture.streams.get k = some ⟨some k, [], false⟩
  /-- A callback is that of the echo of its own stream. -/
  owned : ∀ k state c, s.capture.streams.get k = some state → state.callback = some c →
    c = k ∧ s.requests.get k = some .echoing

theorem captureInv_initial : CaptureInv initial where
  named r hr := absurd hr List.not_mem_nil
  globals := rfl
  arrived k phase h := by cases h
  buffered k hk h := rfl
  registered k h := by cases h
  owned k state c h := by cases h

theorem streamId_frameToOutput {frame : Bytes} {header : ParsedFrameHeader}
    (h : parseFrameHeader frame 0 = some header) :
    (frameToOutput frame).streamId = header.streamId := by
  rw [parseFrameHeader] at h
  split_ifs at h
  cases h
  rfl

theorem CaptureInv.named_append {frame : Bytes} {header : ParsedFrameHeader} (h : CaptureInv s)
    (hheader : parseFrameHeader frame 0 = some header) :
    ∀ r ∈ s.capture.routed ++ [(header.streamId, frame)], (frameToOutput r.2).streamId = r.1 := by
  intro r hr
  rcases List.mem_append.mp hr with hold | hnew
  · exact h.named r hold
  · rw [List.mem_singleton.mp hnew]
    exact streamId_frameToOutput hheader

theorem CaptureInv.arrived_append (h : CaptureInv s) (r : Nat × Bytes) :
    ∀ k phase, s.requests.get k = some phase →
      k ≠ 0 ∧ framesOf (s.capture.routed ++ [r]) k ≠ [] := by
  intro k phase hphase
  obtain ⟨hk, harrived⟩ := h.arrived k phase hphase
  refine ⟨hk, ?_⟩
  rw [framesOf_ne_nil_iff] at harrived ⊢
  obtain ⟨old, hold, hname⟩ := harrived
  exact ⟨old, List.mem_append_left _ hold, hname⟩

/-- A frame of the connection. -/
theorem CaptureInv.routeGlobal {frame : Bytes} {header : ParsedFrameHeader} (h : CaptureInv s)
    (hheader : parseFrameHeader frame 0 = some header) (hglobal : header.streamId = 0) :
    CaptureInv { s with capture := s.capture.routeFrame header.streamId frame } := by
  have hnamed := h.named_append hheader
  rw [hglobal] at hnamed ⊢
  exact
    { named := hnamed
      globals := by
        simp only [DataCapturingStream.routeFrame, if_pos, framesOf_append_self, h.globals]
      arrived := h.arrived_append (0, frame)
      buffered := by
        intro k hk huntouched
        simp only [DataCapturingStream.routeFrame, if_pos, framesOf_append_of_ne hk.symm]
        exact h.buffered k hk huntouched
      registered := h.registered
      owned := h.owned }

/-- A frame of a stream whose handler has not turned to the capture is buffered. -/
theorem captureFrame_of_untouched {k : Nat} {frame : Bytes} (h : CaptureInv s) (hk : k ≠ 0)
    (huntouched : untouched (s.requests.get k) = true) :
    DataCapturingStream.captureFrame ((s.capture.streams.get k).getD ⟨none, [], false⟩) frame =
      (⟨none, framesOf s.capture.routed k ++ [frame], false⟩, []) := by
  rw [h.buffered k hk huntouched]
  rfl

/-- The state of a stream keeps its callback when a frame is captured. -/
theorem callback_captureFrame (state : StreamState) (frame : Bytes) :
    (DataCapturingStream.captureFrame state frame).1.callback = state.callback := by
  rw [DataCapturingStream.captureFrame]
  cases hcallback : state.callback with
  | none =>
      dsimp only
      split_ifs
      · exact hcallback
      · rfl
  | some c => exact hcallback

/-- A frame of a stream. -/
theorem CaptureInv.routeOwn {frame : Bytes} {header : ParsedFrameHeader} (h : CaptureInv s)
    (hheader : parseFrameHeader frame 0 = some header) (hown : header.streamId ≠ 0) :
    CaptureInv { s with capture := s.capture.routeFrame header.streamId frame } := by
  have hnamed := h.named_append hheader
  generalize header.streamId = j at hown hnamed ⊢
  exact
    { named := by
        simp only [DataCapturingStream.routeFrame, if_neg hown]
        exact hnamed
      globals := by
        simp only [DataCapturingStream.routeFrame, if_neg hown, framesOf_append_of_ne hown,
          h.globals]
      arrived := by
        simp only [DataCapturingStream.routeFrame, if_neg hown]
        exact h.arrived_append (j, frame)
      buffered := by
        intro k hk huntouched
        simp only [DataCapturingStream.routeFrame, if_neg hown, InsertionMap.get_set]
        by_cases hkj : k = j
        · subst hkj
          rw [if_pos rfl, Option.getD_some, captureFrame_of_untouched h hk huntouched,
            framesOf_append_self]
        · rw [if_neg hkj, framesOf_append_of_ne (Ne.symm hkj)]
          exact h.buffered k hk huntouched
      registered := by
        intro k hphase
        simp only [DataCapturingStream.routeFrame, if_neg hown, InsertionMap.get_set]
        split_ifs with hkj
        · subst hkj
          rw [h.registered k hphase]
          rfl
        · exact h.registered k hphase
      owned := by
        intro k state c hstate hcallback
        simp only [DataCapturingStream.routeFrame, if_neg hown, InsertionMap.get_set] at hstate
        split_ifs at hstate with hkj
        · subst hkj
          cases hstate
          rw [callback_captureFrame] at hcallback
          cases hget : s.capture.streams.get k with
          | none =>
              rw [hget] at hcallback
              cases hcallback
          | some old =>
              rw [hget] at hcallback
              exact h.owned k old c hget hcallback
        · exact h.owned k state c hstate hcallback }

/-- A handler that does not turn to the capture. -/
theorem CaptureInv.setPhase {k : Nat} {before : Option RequestPhase} {phase : RequestPhase}
    (h : CaptureInv s) (hk : k ≠ 0) (harrived : framesOf s.capture.routed k ≠ [])
    (hget : s.requests.get k = before) (hbefore : before.any RequestPhase.isEchoing = false)
    (hafter : phase.isEchoing = false)
    (hkeep : untouched before = true ∨ untouched (some phase) = false) :
    CaptureInv (s.setPhase k phase) where
  named := h.named
  globals := h.globals
  arrived j p hp := by
    simp only [Http2Connection.setPhase, InsertionMap.get_set] at hp
    split_ifs at hp with hj
    · subst hj
      exact ⟨hk, harrived⟩
    · exact h.arrived j p hp
  buffered j hj huntouched := by
    simp only [Http2Connection.setPhase, InsertionMap.get_set] at huntouched
    split_ifs at huntouched with hjk
    · subst hjk
      rcases hkeep with hkeep | hkeep
      · exact h.buffered j hj (hget ▸ hkeep)
      · rw [hkeep] at huntouched
        cases huntouched
    · exact h.buffered j hj huntouched
  registered j hj := by
    simp only [Http2Connection.setPhase, InsertionMap.get_set] at hj
    split_ifs at hj with hjk
    · cases hj
      cases hafter
    · exact h.registered j hj
  owned j state c hstate hcallback := by
    obtain ⟨hc, hecho⟩ := h.owned j state c hstate hcallback
    refine ⟨hc, ?_⟩
    have hjk : j ≠ k := by
      rintro rfl
      rw [← hget, hecho] at hbefore
      cases hbefore
    rw [Http2Connection.setPhase, InsertionMap.get_set_of_ne _ _ hjk]
    exact hecho

theorem CaptureInv.nextPhase {k : Nat} {before phase : RequestPhase} (h : CaptureInv s)
    (hget : s.requests.get k = some before) (hbefore : before.isEchoing = false)
    (hafter : phase.isEchoing = false)
    (hkeep : untouched (some before) = true ∨ untouched (some phase) = false) :
    CaptureInv (s.setPhase k phase) := by
  obtain ⟨hk, harrived⟩ := h.arrived k before hget
  exact h.setPhase hk harrived hget hbefore hafter hkeep

/-- A handler that sets the state of its stream, or takes it away. -/
theorem CaptureInv.setStream {k : Nat} {phase : RequestPhase} {capture : DataCapturingStream}
    {responses : InsertionMap Nat EchoResponse} (h : CaptureInv s) (hk : k ≠ 0)
    (harrived : framesOf s.capture.routed k ≠ []) (hafter : untouched (some phase) = false)
    (hrouted : capture.routed = s.capture.routed)
    (hglobals : capture.globalFrames = s.capture.globalFrames)
    (hothers : ∀ j, j ≠ k → capture.streams.get j = s.capture.streams.get j)
    (hregistered : phase = .echoing → capture.streams.get k = some ⟨some k, [], false⟩)
    (howned : ∀ state c, capture.streams.get k = some state → state.callback = some c →
      c = k ∧ phase = .echoing) :
    CaptureInv ⟨capture, s.requests.set k phase, responses⟩ where
  named r hr := h.named r (hrouted ▸ hr)
  globals := by rw [hglobals, hrouted, h.globals]
  arrived j p hp := by
    rw [hrouted]
    rw [InsertionMap.get_set] at hp
    split_ifs at hp with hj
    · subst hj
      exact ⟨hk, harrived⟩
    · exact h.arrived j p hp
  buffered j hj huntouched := by
    rw [InsertionMap.get_set] at huntouched
    split_ifs at huntouched with hjk
    · rw [hafter] at huntouched
      cases huntouched
    · rw [hothers j hjk, hrouted]
      exact h.buffered j hj huntouched
  registered j hj := by
    rw [InsertionMap.get_set] at hj
    split_ifs at hj with hjk
    · subst hjk
      cases hj
      exact hregistered rfl
    · rw [hothers j hjk]
      exact h.registered j hj
  owned j state c hstate hcallback := by
    by_cases hjk : j = k
    · subst hjk
      obtain ⟨hc, hphase⟩ := howned state c hstate hcallback
      rw [InsertionMap.get_set_self, hphase]
      exact ⟨hc, rfl⟩
    · rw [hothers j hjk] at hstate
      rw [InsertionMap.get_set_of_ne _ _ hjk]
      exact h.owned j state c hstate hcallback

theorem CaptureInv.registerEcho {k : Nat} (h : CaptureInv s) (hk : k ≠ 0)
    (harrived : framesOf s.capture.routed k ≠ []) :
    CaptureInv (registerEcho requests s k) := by
  apply h.setStream hk harrived
  · rfl
  · rfl
  · rfl
  · exact fun j hj => InsertionMap.get_set_of_ne _ _ hj
  · exact fun _ => InsertionMap.get_set_self _ _ _
  · intro state c hstate hcallback
    simp only [InsertionMap.get_set_self] at hstate
    cases hstate
    cases hcallback
    exact ⟨rfl, rfl⟩

theorem CaptureInv.stop {k : Nat} (h : CaptureInv s) (hk : k ≠ 0)
    (harrived : framesOf s.capture.routed k ≠ []) :
    CaptureInv
      { s with
        capture := s.capture.stopCapturingStream k
        requests := s.requests.set k (.chain true) } := by
  apply h.setStream hk harrived
  · rfl
  · rfl
  · rfl
  · exact fun j hj => InsertionMap.get_set_of_ne _ _ hj
  · exact fun hphase => by cases hphase
  · intro state c hstate hcallback
    rw [DataCapturingStream.stopCapturingStream, InsertionMap.get_set_self] at hstate
    cases hstate
    cases hcallback

theorem CaptureInv.finish {k : Nat} (h : CaptureInv s) (hk : k ≠ 0)
    (harrived : framesOf s.capture.routed k ≠ []) : CaptureInv (s.finish k) := by
  apply h.setStream hk harrived
  · rfl
  · rfl
  · rfl
  · exact fun j hj => InsertionMap.get_delete_of_ne _ hj
  · exact fun hphase => by cases hphase
  · intro state c hstate hcallback
    rw [DataCapturingStream.removeStreamCallback, InsertionMap.get_delete_self] at hstate
    cases hstate

theorem runCallback_capture (requests : Nat → Http2Request) (s : Http2Connection)
    (callback : Nat) (frame : Bytes) :
    (runCallback requests s callback frame).capture = s.capture ∧
      (runCallback requests s callback frame).requests = s.requests := by
  rw [runCallback]
  split
  · exact ⟨rfl, rfl⟩
  · exact ⟨rfl, rfl⟩

theorem CaptureInv.immediate (h : CaptureInv s) (requests : Nat → Http2Request)
    (callback : Nat) (frame : Bytes)
    (rest : List (Nat × Bytes)) :
    CaptureInv (runCallback requests
      { s with capture := { s.capture with immediates := rest } } callback frame) := by
  obtain ⟨hcapture, hrequests⟩ := runCallback_capture requests
    { s with capture := { s.capture with immediates := rest } } callback frame
  exact
    { named := by
        rw [hcapture]
        exact h.named
      globals := by
        rw [hcapture]
        exact h.globals
      arrived := by
        rw [hcapture, hrequests]
        exact h.arrived
      buffered := by
        rw [hcapture, hrequests]
        exact h.buffered
      registered := by
        rw [hcapture, hrequests]
        exact h.registered
      owned := by
        rw [hcapture, hrequests]
        exact h.owned }

/-- Every step keeps what is known of the capture. -/
theorem CaptureInv.stepped {e : Event} (h : CaptureInv s)
    (hstep : Stepped context requests s e t) : CaptureInv t := by
  cases hstep with
  | @frame frame header hheader =>
      by_cases hglobal : header.streamId = 0
      · exact h.routeGlobal hheader hglobal
      · exact h.routeOwn hheader hglobal
  | hop hk harrived hfresh hcourse => exact h.setPhase hk harrived hfresh rfl rfl (.inl rfl)
  | acme hk harrived hfresh hcourse => exact h.setPhase hk harrived hfresh rfl rfl (.inl rfl)
  | chain hk harrived hfresh hcourse => exact h.stop hk harrived
  | lostChain hk harrived hfresh hcourse =>
      exact h.setPhase hk harrived hfresh rfl rfl (.inl rfl)
  | answered hk harrived hfresh hcourse => exact h.setPhase hk harrived hfresh rfl rfl (.inl rfl)
  | echo hk harrived hfresh hcourse hreaches => exact h.registerEcho hk harrived
  | lostEcho hk harrived hfresh hcourse hreaches =>
      exact h.setPhase hk harrived hfresh rfl rfl (.inl rfl)
  | nextHop hphase => exact h.nextPhase hphase rfl rfl (.inl rfl)
  | lastHop hphase hreaches =>
      obtain ⟨hk, harrived⟩ := h.arrived _ _ hphase
      exact h.registerEcho hk harrived
  | lostHop hphase hreaches => exact h.nextPhase hphase rfl rfl (.inl rfl)
  | acmeAnswered hphase => exact h.nextPhase hphase rfl rfl (.inl rfl)
  | settled hphase => exact h.nextPhase hphase rfl rfl (.inr rfl)
  | leftHop hphase => exact h.nextPhase hphase rfl rfl (.inl rfl)
  | leftChain hphase => exact h.nextPhase hphase rfl rfl (.inr rfl)
  | immediate hqueue => exact h.immediate _ _ _ _
  | finish hphase =>
      obtain ⟨hk, harrived⟩ := h.arrived _ _ hphase
      exact h.finish hk harrived
  | finishAgain hphase =>
      obtain ⟨hk, harrived⟩ := h.arrived _ _ hphase
      exact h.finish hk harrived

/-- A frame of the connection is handed to the echoes that are running, to each of them once. -/
theorem CaptureInv.mem_callbacks {c : Nat} (h : CaptureInv s) (hc : c ∈ s.capture.callbacks) :
    s.requests.get c = some .echoing := by
  obtain ⟨k, state, hstate, hcallback⟩ := InsertionMap.mem_filterMap_values_iff.mp hc
  obtain ⟨rfl, hphase⟩ := h.owned k state c hstate hcallback
  exact hphase

theorem CaptureInv.filter_callbacks {k : Nat} (h : CaptureInv s)
    (hphase : s.requests.get k = some .echoing) :
    s.capture.callbacks.filter (fun c => c == k) = [k] := by
  have hnodup : s.capture.callbacks.Nodup :=
    InsertionMap.nodup_filterMap_values fun j state c hstate hcallback =>
      (h.owned j state c hstate hcallback).1
  have hmem : k ∈ s.capture.callbacks :=
    InsertionMap.mem_filterMap_values_iff.mpr ⟨k, _, h.registered k hphase, rfl⟩
  rw [List.filter_beq, List.count_eq_one_of_mem hnodup hmem, List.replicate_one]

/-- A frame of a stream is handed to the echo of that stream, if it is running. -/
theorem CaptureInv.queued_captureFrame (h : CaptureInv s) (j : Nat) (frame : Bytes) :
    (DataCapturingStream.captureFrame
      ((s.capture.streams.get j).getD ⟨none, [], false⟩) frame).2 =
        if s.requests.get j = some .echoing then [(j, frame)] else [] := by
  split_ifs with hphase
  · rw [h.registered j hphase]
    rfl
  · have hnone : ((s.capture.streams.get j).getD ⟨none, [], false⟩).callback = none := by
      cases hget : s.capture.streams.get j with
      | none => rfl
      | some state =>
          rw [Option.getD_some, Option.eq_none_iff_forall_ne_some]
          intro c hcallback
          exact hphase (h.owned j state c hget hcallback).2
    rw [DataCapturingStream.captureFrame, hnone]
    dsimp only
    split_ifs
    · rfl
    · rfl

end TestServer.Http2Connection
