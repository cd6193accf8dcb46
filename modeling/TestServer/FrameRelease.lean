import TestServer.CapturedStreams

/-!
# Which captured frames are released

A request that is done has no frame in the capture, as long as every request is
taken by a chain that finds its stream when it turns to the capture and is not
left before, and no frame comes for an `echo` that has ended. A request that is
answered in any other way leaves its frames behind.
-/

namespace TestServer.Http2Connection

open Js Library Library.Runs Endpoints ProcessConnection

/-- The frames that the capture holds for a stream. -/
def bufferOf (capture : DataCapturingStream) (streamId : Nat) : List Bytes :=
  ((capture.streams.get streamId).getD ⟨none, [], false⟩).buffer

/-- The capture holds no frame for a request that is done. -/
def Released (s : Http2Connection) : Prop :=
  ∀ k phase, s.requests.get k = some phase → phase.isDone = true → bufferOf s.capture k = []

section

variable (context : HandlerContext) (requests : Nat → Http2Request)

/-- No request is answered or left without turning to the capture, each finds its stream there,
and no frame comes for an `echo` that has ended. -/
def Turns (s : Http2Connection) : Event → Prop
  | .frame frame => s.requests.get (frameStreamId frame) ≠ some .ended
  | .request k access =>
      http2CourseOf context (requests k).toHttpRequest ≠ .answered ∧
        (http2CourseOf context (requests k).toHttpRequest = .echo 0 → access.reaches = true)
  | .resume k access =>
      s.requests.get k ≠ some .acmeChallenge ∧ s.requests.get k ≠ some (.chain false) ∧
        (s.requests.get k = some (.hop 0) → access.reaches = true)
  | .leave k => untouched (s.requests.get k) = false
  | .immediate => True
  | .finish _ => True

instance decidableTurns (s : Http2Connection) : ∀ e, Decidable (Turns context requests s e)
  | .frame frame => inferInstanceAs (Decidable (s.requests.get (frameStreamId frame) ≠ some .ended))
  | .request _ _ => inferInstanceAs (Decidable (_ ∧ (_ = Course.echo 0 → _ = true)))
  | .resume _ _ => inferInstanceAs (Decidable (_ ∧ _ ∧ (_ = some (RequestPhase.hop 0) → _ = true)))
  | .leave k => inferInstanceAs (Decidable (untouched (s.requests.get k) = false))
  | .immediate => isTrue trivial
  | .finish _ => isTrue trivial

end

variable {context : HandlerContext} {requests : Nat → Http2Request} {s t : Http2Connection}

/-- The capture of a chain that found its stream is stopped, and that of an `echo` that has ended
is gone. -/
structure ReleaseInv (s : Http2Connection) : Prop where
  capture : CaptureInv s
  stopped : ∀ k, s.requests.get k = some (.chain true) ∨ s.requests.get k = some .handled →
    s.capture.streams.get k = some ⟨none, [], true⟩
  removed : ∀ k, s.requests.get k = some .ended → s.capture.streams.get k = none

theorem releaseInv_initial : ReleaseInv initial where
  capture := captureInv_initial
  stopped k h := by
    rcases h with h | h
    · cases h
    · cases h
  removed k h := by cases h

theorem ReleaseInv.released (h : ReleaseInv s) : Released s := by
  intro k phase hphase hdone
  rw [bufferOf]
  cases phase with
  | ended =>
      rw [h.removed k hphase]
      rfl
  | handled =>
      rw [h.stopped k (.inr hphase)]
      rfl
  | hop rest => cases hdone
  | chain stopped => cases hdone
  | acmeChallenge => cases hdone
  | echoing => cases hdone

/-- A stream whose handler has not turned to the capture has its frames buffered. -/
theorem buffer_ne_nil {k : Nat} (h : CaptureInv s) (hk : k ≠ 0)
    (harrived : framesOf s.capture.routed k ≠ [])
    (huntouched : untouched (s.requests.get k) = true) : bufferOf s.capture k ≠ [] := by
  rw [bufferOf, h.buffered k hk huntouched]
  exact harrived

theorem frameStreamId_eq {frame : Bytes} {header : ParsedFrameHeader}
    (h : parseFrameHeader frame 0 = some header) : frameStreamId frame = header.streamId := by
  rw [frameStreamId, h]
  rfl

/-- A frame for a stream whose capture is stopped is dropped. -/
theorem get_routeFrame_of_stopped {k j : Nat} {frame : Bytes}
    (h : s.capture.streams.get k = some ⟨none, [], true⟩) :
    (s.capture.routeFrame j frame).streams.get k = some ⟨none, [], true⟩ := by
  rw [DataCapturingStream.routeFrame]
  split_ifs with hj
  · exact h
  · dsimp only
    rw [InsertionMap.get_set]
    split_ifs with hkj
    · subst hkj
      rw [h]
      rfl
    · exact h

theorem get_routeFrame_of_ne {k j : Nat} (frame : Bytes) (h : k ≠ j) :
    (s.capture.routeFrame j frame).streams.get k = s.capture.streams.get k := by
  rw [DataCapturingStream.routeFrame]
  split_ifs with hj
  · rfl
  · exact InsertionMap.get_set_of_ne _ _ h

theorem ReleaseInv.frame {frame : Bytes} {header : ParsedFrameHeader} (h : ReleaseInv s)
    (hheader : parseFrameHeader frame 0 = some header)
    (hok : Turns context requests s (.frame frame))
    (hcapture : CaptureInv { s with capture := s.capture.routeFrame header.streamId frame }) :
    ReleaseInv { s with capture := s.capture.routeFrame header.streamId frame } where
  capture := hcapture
  stopped k hphase := get_routeFrame_of_stopped (h.stopped k hphase)
  removed k hphase := by
    have hne : k ≠ header.streamId := by
      rintro rfl
      rw [Turns, frameStreamId_eq hheader] at hok
      exact hok hphase
    exact (get_routeFrame_of_ne frame hne).trans (h.removed k hphase)

/-- A handler that is not done with the capture goes on. -/
theorem ReleaseInv.setPhase {k : Nat} {phase : RequestPhase} (h : ReleaseInv s)
    (hcapture : CaptureInv (s.setPhase k phase)) (hdone : phase.isDone = false)
    (hchain : phase ≠ .chain true) : ReleaseInv (s.setPhase k phase) where
  capture := hcapture
  stopped j hj := by
    simp only [Http2Connection.setPhase, InsertionMap.get_set] at hj
    split_ifs at hj with hjk
    · rcases hj with hj | hj
      · exact absurd (Option.some.inj hj) hchain
      · cases hj
        cases hdone
    · exact h.stopped j hj
  removed j hj := by
    simp only [Http2Connection.setPhase, InsertionMap.get_set] at hj
    split_ifs at hj with hjk
    · cases hj
      cases hdone
    · exact h.removed j hj

/-- A chain without `echo` is done. -/
theorem ReleaseInv.settle {k : Nat} (h : ReleaseInv s)
    (hcapture : CaptureInv (s.setPhase k .handled)) (hphase : s.requests.get k = some (.chain true)) :
    ReleaseInv (s.setPhase k .handled) where
  capture := hcapture
  stopped j hj := by
    simp only [Http2Connection.setPhase, InsertionMap.get_set] at hj
    split_ifs at hj with hjk
    · subst hjk
      exact h.stopped j (.inl hphase)
    · exact h.stopped j hj
  removed j hj := by
    simp only [Http2Connection.setPhase, InsertionMap.get_set] at hj
    split_ifs at hj with hjk
    · cases hj
    · exact h.removed j hj

/-- A handler sets the state of its stream, or takes it away. -/
theorem ReleaseInv.setStream {k : Nat} {phase : RequestPhase} {capture : DataCapturingStream}
    {responses : InsertionMap Nat EchoResponse} (h : ReleaseInv s)
    (hcapture : CaptureInv ⟨capture, s.requests.set k phase, responses⟩)
    (hothers : ∀ j, j ≠ k → capture.streams.get j = s.capture.streams.get j)
    (hstopped : phase = .chain true ∨ phase = .handled →
      capture.streams.get k = some ⟨none, [], true⟩)
    (hremoved : phase = .ended → capture.streams.get k = none) :
    ReleaseInv ⟨capture, s.requests.set k phase, responses⟩ where
  capture := hcapture
  stopped j hj := by
    rw [InsertionMap.get_set] at hj
    split_ifs at hj with hjk
    · subst hjk
      rw [Option.some.injEq, Option.some.injEq] at hj
      exact hstopped hj
    · rw [hothers j hjk]
      exact h.stopped j hj
  removed j hj := by
    rw [InsertionMap.get_set] at hj
    split_ifs at hj with hjk
    · subst hjk
      exact hremoved (Option.some.inj hj)
    · rw [hothers j hjk]
      exact h.removed j hj

theorem ReleaseInv.registerEcho {k : Nat} (h : ReleaseInv s)
    (hcapture : CaptureInv (registerEcho requests s k)) :
    ReleaseInv (registerEcho requests s k) := by
  apply h.setStream hcapture
  · exact fun j hj => InsertionMap.get_set_of_ne _ _ hj
  · rintro (hphase | hphase)
    · cases hphase
    · cases hphase
  · exact fun hphase => by cases hphase

theorem ReleaseInv.finish {k : Nat} (h : ReleaseInv s) (hcapture : CaptureInv (s.finish k)) :
    ReleaseInv (s.finish k) := by
  apply h.setStream hcapture
  · exact fun j hj => InsertionMap.get_delete_of_ne _ hj
  · rintro (hphase | hphase)
    · cases hphase
    · cases hphase
  · exact fun _ => InsertionMap.get_delete_self _ _

/-- Every step that meets the condition keeps the invariant. -/
theorem ReleaseInv.stepped {e : Event} (h : ReleaseInv s) (hok : Turns context requests s e)
    (hstep : Stepped context requests s e t) : ReleaseInv t := by
  have hcapture : CaptureInv t := h.capture.stepped hstep
  cases hstep with
  | frame hheader => exact h.frame hheader hok hcapture
  | hop hk harrived hfresh hcourse => exact h.setPhase hcapture rfl RequestPhase.noConfusion
  | acme hk harrived hfresh hcourse => exact h.setPhase hcapture rfl (by decide)
  | chain hk harrived hfresh hcourse =>
      apply h.setStream hcapture
      · exact fun j hj => InsertionMap.get_set_of_ne _ _ hj
      · exact fun _ => InsertionMap.get_set_self _ _ _
      · exact fun hphase => by cases hphase
  | lostChain hk harrived hfresh hcourse => exact h.setPhase hcapture rfl (by decide)
  | answered hk harrived hfresh hcourse => exact absurd hcourse hok.1
  | echo hk harrived hfresh hcourse hreaches => exact h.registerEcho hcapture
  | lostEcho hk harrived hfresh hcourse hreaches =>
      exact absurd (hok.2 hcourse) (Bool.eq_false_iff.mp hreaches)
  | nextHop hphase => exact h.setPhase hcapture rfl RequestPhase.noConfusion
  | lastHop hphase hreaches => exact h.registerEcho hcapture
  | lostHop hphase hreaches =>
      exact absurd (hok.2.2 hphase) (Bool.eq_false_iff.mp hreaches)
  | acmeAnswered hphase => exact absurd hphase hok.1
  | @settled k access stopped hphase =>
      cases stopped with
      | false => exact absurd hphase hok.2.1
      | true => exact h.settle hcapture hphase
  | leftHop hphase =>
      rw [Turns, hphase] at hok
      cases hok
  | @leftChain k stopped hphase =>
      cases stopped with
      | false =>
          rw [Turns, hphase] at hok
          cases hok
      | true => exact h.settle hcapture hphase
  | @immediate callback frame rest hqueue =>
      obtain ⟨hsame, hrequests⟩ := runCallback_capture requests
        { s with capture := { s.capture with immediates := rest } } callback frame
      exact
        { capture := hcapture
          stopped := by
            rw [hsame, hrequests]
            exact h.stopped
          removed := by
            rw [hsame, hrequests]
            exact h.removed }
  | finish hphase => exact h.finish hcapture
  | finishAgain hphase => exact h.finish hcapture

/-- A handler that is done without turning to the capture leaves the frames of its stream. -/
theorem CaptureInv.not_released {k : Nat} (h : CaptureInv s) (hk : k ≠ 0)
    (harrived : framesOf s.capture.routed k ≠ [])
    (huntouched : untouched (s.requests.get k) = true) : ¬ Released (s.setPhase k .handled) := by
  intro hreleased
  apply buffer_ne_nil h hk harrived huntouched
  exact hreleased k .handled (InsertionMap.get_set_self _ _ _) rfl

theorem CaptureInv.not_released_of_get {k : Nat} {phase : RequestPhase} (h : CaptureInv s)
    (hphase : s.requests.get k = some phase) (huntouched : untouched (some phase) = true) :
    ¬ Released (s.setPhase k .handled) := by
  obtain ⟨hk, harrived⟩ := h.arrived k phase hphase
  exact h.not_released hk harrived (hphase ▸ huntouched)

/-- The condition is needed at every step. -/
theorem ReleaseInv.turns {e : Event} (h : ReleaseInv s)
    (hstep : Stepped context requests s e t) (hreleased : Released t) :
    Turns context requests s e := by
  cases hstep with
  | @frame frame header hheader =>
      intro hphase
      rw [frameStreamId_eq hheader] at hphase
      obtain ⟨hk, -⟩ := h.capture.arrived _ _ hphase
      have hbuffer := hreleased header.streamId .ended hphase rfl
      simp only [bufferOf, DataCapturingStream.routeFrame, if_neg hk,
        InsertionMap.get_set_self, h.removed _ hphase] at hbuffer
      cases hbuffer
  | answered hk harrived hfresh hcourse | lostEcho hk harrived hfresh hcourse hreaches =>
      apply absurd hreleased
      apply h.capture.not_released hk harrived
      rw [hfresh]
      rfl
  | hop hk harrived hfresh hcourse | acme hk harrived hfresh hcourse
    | chain hk harrived hfresh hcourse | lostChain hk harrived hfresh hcourse =>
      rw [Turns, hcourse]
      simp
  | echo hk harrived hfresh hcourse hreaches =>
      rw [Turns, hcourse]
      exact ⟨Course.noConfusion, fun _ => hreaches⟩
  | acmeAnswered hphase | lostHop hphase hreaches | leftHop hphase =>
      apply absurd hreleased
      exact h.capture.not_released_of_get hphase rfl
  | nextHop hphase =>
      rw [Turns, hphase]
      simp
  | lastHop hphase hreaches =>
      rw [Turns, hphase]
      simp [hreaches]
  | @settled k access stopped hphase =>
      cases stopped with
      | false => exact absurd hreleased (h.capture.not_released_of_get hphase rfl)
      | true =>
          rw [Turns, hphase]
          simp
  | @leftChain k stopped hphase =>
      cases stopped with
      | false => exact absurd hreleased (h.capture.not_released_of_get hphase rfl)
      | true =>
          rw [Turns, hphase]
          rfl
  | immediate hqueue => exact trivial
  | finish hphase => exact trivial
  | finishAgain hphase => exact trivial

/-- Throughout a run no frame is held for a request that is done, exactly when every request is
taken by a chain that turns to the capture before it is left and finds its stream then, and no
frame comes for an `echo` that has ended. -/
theorem released_iff {es : List Event}
    (hrun : run (step context requests) initial es = some t) :
    Throughout (step context requests) Released initial es ↔
      Guarded (step context requests) (Turns context requests) initial es := by
  have keep : ∀ s e t, ReleaseInv s → Turns context requests s e →
      step context requests s e = some t → ReleaseInv t :=
    fun s e t hs hok hstep => hs.stepped hok (stepped_of_step hstep)
  have needed : ∀ s e t, ReleaseInv s → step context requests s e = some t → Released t →
      Turns context requests s e :=
    fun s e t hs hstep hreleased => hs.turns (stepped_of_step hstep) hreleased
  exact throughout_iff_guarded keep (fun s hs => hs.released) needed releaseInv_initial hrun

/-- A request for the documentation. -/
def plainDocs : Http2Request := { plainEcho with url := js "/" }

/-- An echo that ends after the last frame of its stream. -/
theorem released_echo :
    Throughout (step plainContext fun _ => plainEcho) Released initial
      [.frame headersFrame, .request 1 .attached, .frame (windowUpdate 1), .immediate, .finish 1] := by
  obtain ⟨t, hrun⟩ := Option.isSome_iff_exists.mp (by decide +kernel :
    (run (step plainContext fun _ => plainEcho) initial
      [.frame headersFrame, .request 1 .attached, .frame (windowUpdate 1), .immediate,
        .finish 1]).isSome = true)
  exact (released_iff hrun).mpr (by decide +kernel)

/-- A stream that is reset before its request is handled keeps its frame. -/
example : (run (step plainContext fun _ => plainEcho) initial
    [.frame headersFrame, .request 1 .detached]).map (fun t => bufferOf t.capture 1) =
      some [headersFrame] := by
  decide +kernel

/-- The request for the documentation leaves its own frame behind. -/
theorem not_released_docs :
    ∃ es t, run (step plainContext fun _ => plainDocs) initial es = some t ∧ ¬ Released t := by
  obtain ⟨t, hrun⟩ := Option.isSome_iff_exists.mp (by decide +kernel :
    (run (step plainContext fun _ => plainDocs) initial
      [.frame headersFrame, .request 1 .attached]).isSome = true)
  have hheld : (run (step plainContext fun _ => plainDocs) initial
      [.frame headersFrame, .request 1 .attached]).any (fun t =>
        t.requests.get 1 == some .handled && !(bufferOf t.capture 1).isEmpty) = true := by
    decide +kernel
  refine ⟨_, t, hrun, fun hreleased => ?_⟩
  rw [hrun, Option.any_some] at hheld
  obtain ⟨hphase, hbuffer⟩ := Bool.and_eq_true_iff.mp hheld
  rw [hreleased 1 .handled (eq_of_beq hphase) rfl] at hbuffer
  cases hbuffer

end TestServer.Http2Connection
