import TestServer.CapturedStreams

/-!
# What `echo` answers over HTTP/2

The frames that an `echo` has to report are, in the order of their arrival, in
the lines it has written and in the callbacks that are queued for it. If none is
queued when its request ends, it has reported each of them once, and no callback
is left to write after the end.
-/

namespace TestServer.Http2Connection

open Js Library Library.Runs Endpoints ProcessConnection

variable {context : HandlerContext} {requests : Nat → Http2Request} {s t : Http2Connection}

/-- The lines are those of the connection's frames and of the stream's frames, each in order. -/
structure Complete (headers : Headers) (streamId : Nat) (received : List (Nat × Bytes))
    (lines : List FrameOutput) : Prop where
  connection : (lines.filter fun line => line.streamId == 0) =
    (framesOf received 0).map connectionLine
  own : (lines.filter fun line => line.streamId == streamId) =
    (framesOf received streamId).map (requestLine headers)
  only : ∀ line ∈ lines, line.streamId = 0 ∨ line.streamId = streamId

/-- Every `echo` that has ended has reported all frames received up to its end, and no other. -/
def EchoesExactly (requests : Nat → Http2Request) (s : Http2Connection) : Prop :=
  ∀ k response received, s.responses.get k = some response →
    response.receivedAtEnd = some received →
      Complete (requests k).headers k received response.written ∧ response.lateWrites = []

/-- No callback is queued for an `echo` whose request ends. -/
def NoneQueued (s : Http2Connection) : Event → Prop
  | .finish k => ∀ q ∈ s.capture.immediates, q.1 ≠ k
  | _ => True

instance decidableNoneQueued (s : Http2Connection) : ∀ e, Decidable (NoneQueued s e)
  | .finish k => inferInstanceAs (Decidable (∀ q ∈ s.capture.immediates, q.1 ≠ k))
  | .frame _ => isTrue trivial
  | .request _ _ => isTrue trivial
  | .resume _ _ => isTrue trivial
  | .leave _ => isTrue trivial
  | .immediate => isTrue trivial

/-- The lines that queued callbacks are going to write for a stream. -/
def outstanding (headers : Headers) (immediates : List (Nat × Bytes)) (k : Nat) :
    List FrameOutput :=
  (immediates.filter fun q => q.1 == k).filterMap fun q => echoCallback headers k q.2

section

variable {headers : Headers} {k : Nat} {received : List (Nat × Bytes)} {lines : List FrameOutput}
  {frame : Bytes}

theorem Complete.connectionFrame (h : Complete headers k received lines) (hk : k ≠ 0)
    (hname : (frameToOutput frame).streamId = 0) :
    Complete headers k (received ++ [(0, frame)]) (lines ++ [connectionLine frame]) where
  connection := by
    rw [List.filter_append, framesOf_append_self, List.map_append, h.connection]
    simp [hname]
  own := by
    rw [List.filter_append, framesOf_append_of_ne hk.symm, h.own]
    simp [hname, hk.symm]
  only line hline := by
    rcases List.mem_append.mp hline with hold | hnew
    · exact h.only line hold
    · rw [List.mem_singleton.mp hnew]
      exact .inl hname

theorem Complete.ownFrame (h : Complete headers k received lines) (hk : k ≠ 0)
    (hname : (frameToOutput frame).streamId = k) :
    Complete headers k (received ++ [(k, frame)]) (lines ++ [requestLine headers frame]) where
  connection := by
    rw [List.filter_append, framesOf_append_of_ne hk, h.connection]
    simp [hname, hk]
  own := by
    rw [List.filter_append, framesOf_append_self, List.map_append, h.own]
    simp [hname]
  only line hline := by
    rcases List.mem_append.mp hline with hold | hnew
    · exact h.only line hold
    · rw [List.mem_singleton.mp hnew]
      exact .inr hname

theorem Complete.otherFrame {j : Nat} (h : Complete headers k received lines) (hj : j ≠ 0)
    (hjk : j ≠ k) : Complete headers k (received ++ [(j, frame)]) lines where
  connection := by rw [framesOf_append_of_ne hj, h.connection]
  own := by rw [framesOf_append_of_ne hjk, h.own]
  only := h.only

/-- The frames that are captured when `echo` registers its callback. -/
theorem complete_of_captured (hk : k ≠ 0)
    (hnamed : ∀ r ∈ received, (frameToOutput r.2).streamId = r.1) :
    Complete headers k received ((framesOf received 0).map connectionLine ++
      (framesOf received k).map (requestLine headers)) := by
  have hframes : ∀ j, ∀ frame ∈ framesOf received j, (frameToOutput frame).streamId = j := by
    intro j frame hframe
    obtain ⟨r, hr, rfl⟩ := List.mem_map.mp hframe
    obtain ⟨hmem, hname⟩ := List.mem_filter.mp hr
    exact (hnamed r hmem).trans (eq_of_beq hname)
  have hconnection : ∀ line ∈ (framesOf received 0).map connectionLine, line.streamId = 0 := by
    intro line hline
    obtain ⟨frame, hframe, rfl⟩ := List.mem_map.mp hline
    exact hframes 0 frame hframe
  have hown : ∀ line ∈ (framesOf received k).map (requestLine headers), line.streamId = k := by
    intro line hline
    obtain ⟨frame, hframe, rfl⟩ := List.mem_map.mp hline
    exact hframes k frame hframe
  constructor
  · rw [List.filter_append, List.filter_eq_self.mpr, List.filter_eq_nil_iff.mpr, List.append_nil]
    · intro line hline
      simp [hown line hline, hk]
    · intro line hline
      simp [hconnection line hline]
  · rw [List.filter_append, List.filter_eq_nil_iff.mpr, List.filter_eq_self.mpr, List.nil_append]
    · intro line hline
      simp [hown line hline]
    · intro line hline
      simp [hconnection line hline, hk.symm]
  · intro line hline
    rcases List.mem_append.mp hline with h | h
    · exact .inl (hconnection line h)
    · exact .inr (hown line h)

/-- What is complete is not complete with more lines. -/
theorem Complete.eq_nil_of_append {rest : List FrameOutput}
    (h : Complete headers k received lines) (hmore : Complete headers k received (lines ++ rest)) :
    rest = [] := by
  have hconnection : (rest.filter fun line => line.streamId == 0) = [] := by
    have heq := hmore.connection
    rw [List.filter_append, h.connection] at heq
    exact List.append_right_eq_self.mp heq
  have hown : (rest.filter fun line => line.streamId == k) = [] := by
    have heq := hmore.own
    rw [List.filter_append, h.own] at heq
    exact List.append_right_eq_self.mp heq
  apply List.eq_nil_iff_forall_not_mem.mpr
  intro line hline
  rcases hmore.only line (List.mem_append_right _ hline) with hname | hname
  · exact List.filter_eq_nil_iff.mp hconnection line hline (beq_iff_eq.mpr hname)
  · exact List.filter_eq_nil_iff.mp hown line hline (beq_iff_eq.mpr hname)

end

section

variable {headers : Headers} {k : Nat} {immediates : List (Nat × Bytes)} {frame : Bytes}

theorem outstanding_append (headers : Headers) (immediates more : List (Nat × Bytes)) (k : Nat) :
    outstanding headers (immediates ++ more) k =
      outstanding headers immediates k ++ outstanding headers more k := by
  simp [outstanding]

theorem outstanding_cons_of_ne {callback : Nat} (h : callback ≠ k) :
    outstanding headers ((callback, frame) :: immediates) k = outstanding headers immediates k := by
  simp [outstanding, h]

theorem outstanding_cons_self {line : FrameOutput} (h : echoCallback headers k frame = some line) :
    outstanding headers ((k, frame) :: immediates) k =
      line :: outstanding headers immediates k := by
  simp [outstanding, h]

theorem outstanding_eq_nil (h : ∀ q ∈ immediates, q.1 ≠ k) :
    outstanding headers immediates k = [] := by
  have hnone : (immediates.filter fun q => q.1 == k) = [] := by
    rw [List.filter_eq_nil_iff]
    intro q hq hname
    exact h q hq (eq_of_beq hname)
  rw [outstanding, hnone, List.filterMap_nil]

theorem echoCallback_connection (hname : (frameToOutput frame).streamId = 0) :
    echoCallback headers k frame = some (connectionLine frame) := by
  rw [echoCallback, if_pos hname]

theorem echoCallback_own (hk : k ≠ 0) (hname : (frameToOutput frame).streamId = k) :
    echoCallback headers k frame = some (requestLine headers frame) := by
  rw [echoCallback, if_neg (fun h => hk (hname.symm.trans h)), if_pos hname]

/-- A callback writes a line for a frame that names its stream or the connection. -/
theorem exists_line (headers : Headers)
    (h : (frameToOutput frame).streamId = 0 ∨ (frameToOutput frame).streamId = k) :
    ∃ line, echoCallback headers k frame = some line := by
  rcases h with hname | hname
  · exact ⟨_, echoCallback_connection hname⟩
  · by_cases hk : k = 0
    · subst hk
      exact ⟨_, echoCallback_connection hname⟩
    · exact ⟨_, echoCallback_own hk hname⟩

end

/-- An `echo` that is running has reported, or has queued for it, all that was received. -/
structure EchoInv (requests : Nat → Http2Request) (s : Http2Connection) : Prop where
  capture : CaptureInv s
  queued : ∀ q ∈ s.capture.immediates, s.requests.get q.1 = some .echoing ∧
    ((frameToOutput q.2).streamId = 0 ∨ (frameToOutput q.2).streamId = q.1)
  running : ∀ k, s.requests.get k = some .echoing →
    ∃ response, s.responses.get k = some response ∧ response.receivedAtEnd = none ∧
      response.lateWrites = [] ∧
        Complete (requests k).headers k s.capture.routed
          (response.written ++ outstanding (requests k).headers s.capture.immediates k)
  finished : ∀ k response, s.responses.get k = some response → s.requests.get k ≠ some .echoing →
    ∃ received, response.receivedAtEnd = some received ∧
      Complete (requests k).headers k received response.written ∧ response.lateWrites = []

theorem echoInv_initial : EchoInv requests initial where
  capture := captureInv_initial
  queued q hq := absurd hq List.not_mem_nil
  running k h := by cases h
  finished k response h := by cases h

theorem EchoInv.echoesExactly (h : EchoInv requests s) : EchoesExactly requests s := by
  intro k response received hget hreceived
  by_cases hphase : s.requests.get k = some .echoing
  · obtain ⟨response', hget', hnone, -⟩ := h.running k hphase
    obtain rfl : response = response' := Option.some.inj (hget.symm.trans hget')
    rw [hnone] at hreceived
    cases hreceived
  · obtain ⟨received', hreceived', hcomplete⟩ := h.finished k response hget hphase
    obtain rfl : received = received' := Option.some.inj (hreceived.symm.trans hreceived')
    exact hcomplete

/-- A step that leaves the queue, the responses and the running echoes alone. -/
theorem EchoInv.of_eq (h : EchoInv requests s) (hcapture : CaptureInv t)
    (himmediates : t.capture.immediates = s.capture.immediates)
    (hrouted : t.capture.routed = s.capture.routed) (hresponses : t.responses = s.responses)
    (hrequests : ∀ k, t.requests.get k = some .echoing ↔ s.requests.get k = some .echoing) :
    EchoInv requests t where
  capture := hcapture
  queued q hq := by
    obtain ⟨hphase, hname⟩ := h.queued q (himmediates ▸ hq)
    exact ⟨(hrequests q.1).mpr hphase, hname⟩
  running k hphase := by
    rw [hresponses, himmediates, hrouted]
    exact h.running k ((hrequests k).mp hphase)
  finished k response hget hphase :=
    h.finished k response (hresponses ▸ hget) (mt (hrequests k).mpr hphase)

/-- A handler that goes on without `echo` leaves the running echoes alone. -/
theorem get_set_echoing_iff {k : Nat} {before : Option RequestPhase} {phase : RequestPhase}
    (hget : s.requests.get k = before) (hbefore : before.any RequestPhase.isEchoing = false)
    (hafter : phase.isEchoing = false) (j : Nat) :
    (s.requests.set k phase).get j = some .echoing ↔ s.requests.get j = some .echoing := by
  rw [InsertionMap.get_set]
  split_ifs with hj
  · subst hj
    rw [hget]
    constructor
    · intro heq
      cases heq
      cases hafter
    · intro heq
      rw [heq] at hbefore
      cases hbefore
  · exact Iff.rfl

theorem outstanding_callbacks {k : Nat} (h : CaptureInv s)
    (hphase : s.requests.get k = some .echoing) {frame : Bytes}
    (hname : (frameToOutput frame).streamId = 0) (headers : Headers) :
    outstanding headers (s.capture.callbacks.map fun cb => (cb, frame)) k =
      [connectionLine frame] := by
  rw [outstanding, List.filter_map]
  have hfilter : s.capture.callbacks.filter
      ((fun q : Nat × Bytes => q.1 == k) ∘ fun cb => (cb, frame)) = [k] :=
    h.filter_callbacks hphase
  rw [hfilter]
  simp [echoCallback_connection hname]

theorem EchoInv.routeGlobal {frame : Bytes} {header : ParsedFrameHeader}
    (h : EchoInv requests s) (hheader : parseFrameHeader frame 0 = some header)
    (hglobal : header.streamId = 0) :
    EchoInv requests { s with capture := s.capture.routeFrame header.streamId frame } := by
  have hcapture := h.capture.routeGlobal hheader hglobal
  have hname : (frameToOutput frame).streamId = 0 :=
    (streamId_frameToOutput hheader).trans hglobal
  rw [hglobal] at hcapture ⊢
  exact
    { capture := hcapture
      queued := by
        intro q hq
        rcases List.mem_append.mp hq with hold | hnew
        · exact h.queued q hold
        · obtain ⟨cb, hcb, rfl⟩ := List.mem_map.mp hnew
          exact ⟨h.capture.mem_callbacks hcb, .inl hname⟩
      running := by
        intro k hphase
        obtain ⟨response, hget, hnone, hlate, hcomplete⟩ := h.running k hphase
        obtain ⟨hk, -⟩ := h.capture.arrived k _ hphase
        refine ⟨response, hget, hnone, hlate, ?_⟩
        simp only [DataCapturingStream.routeFrame, if_pos, outstanding_append,
          outstanding_callbacks h.capture hphase hname, ← List.append_assoc]
        exact hcomplete.connectionFrame hk hname
      finished := h.finished }

theorem EchoInv.routeOwn {frame : Bytes} {header : ParsedFrameHeader}
    (h : EchoInv requests s) (hheader : parseFrameHeader frame 0 = some header)
    (hown : header.streamId ≠ 0) :
    EchoInv requests { s with capture := s.capture.routeFrame header.streamId frame } := by
  have hcapture := h.capture.routeOwn hheader hown
  have hname : (frameToOutput frame).streamId = header.streamId :=
    streamId_frameToOutput hheader
  generalize header.streamId = j at hown hname hcapture ⊢
  have himmediates : (s.capture.routeFrame j frame).immediates = s.capture.immediates ++
      if s.requests.get j = some .echoing then [(j, frame)] else [] := by
    rw [← h.capture.queued_captureFrame j frame]
    simp only [DataCapturingStream.routeFrame, if_neg hown]
  have hrouted : (s.capture.routeFrame j frame).routed = s.capture.routed ++ [(j, frame)] := by
    simp only [DataCapturingStream.routeFrame, if_neg hown]
  exact
    { capture := hcapture
      queued := by
        intro q hq
        rw [himmediates] at hq
        rcases List.mem_append.mp hq with hold | hnew
        · exact h.queued q hold
        · split_ifs at hnew with hphase
          · rw [List.mem_singleton.mp hnew]
            exact ⟨hphase, .inr hname⟩
          · cases hnew
      running := by
        intro k hphase
        obtain ⟨response, hget, hnone, hlate, hcomplete⟩ := h.running k hphase
        refine ⟨response, hget, hnone, hlate, ?_⟩
        dsimp only
        rw [himmediates, hrouted, outstanding_append]
        by_cases hjk : j = k
        · subst hjk
          rw [if_pos hphase, outstanding_cons_self (echoCallback_own hown hname),
            ← List.append_assoc]
          exact hcomplete.ownFrame hown hname
        · have hnil : outstanding (requests k).headers
              (if s.requests.get j = some .echoing then [(j, frame)] else []) k = [] := by
            apply outstanding_eq_nil
            intro q hq
            split_ifs at hq
            · rw [List.mem_singleton.mp hq]
              exact hjk
            · cases hq
          rw [hnil, List.append_nil]
          exact hcomplete.otherFrame hown hjk
      finished := h.finished }

theorem EchoInv.registerEcho {k : Nat} (h : EchoInv requests s) (hk : k ≠ 0)
    (harrived : framesOf s.capture.routed k ≠ [])
    (huntouched : untouched (s.requests.get k) = true) :
    EchoInv requests (registerEcho requests s k) := by
  have hnot : s.requests.get k ≠ some .echoing := by
    intro hphase
    rw [hphase] at huntouched
    cases huntouched
  exact
    { capture := h.capture.registerEcho hk harrived
      queued := by
        intro q hq
        obtain ⟨hphase, hname⟩ := h.queued q hq
        refine ⟨?_, hname⟩
        have hqk : q.1 ≠ k := fun heq => hnot (heq ▸ hphase)
        exact (InsertionMap.get_set_of_ne _ _ hqk).trans hphase
      running := by
        intro j hphase
        simp only [Http2Connection.registerEcho, InsertionMap.get_set] at hphase ⊢
        by_cases hj : j = k
        · subst hj
          rw [if_pos rfl]
          refine ⟨_, rfl, rfl, rfl, ?_⟩
          have hnil : outstanding (requests j).headers s.capture.immediates j = [] := by
            apply outstanding_eq_nil
            intro q hq heq
            exact hnot (heq ▸ (h.queued q hq).1)
          simp only [DataCapturingStream.addStreamCallback, hnil, List.append_nil,
            h.capture.globals, h.capture.buffered j hk huntouched]
          exact complete_of_captured hk h.capture.named
        · rw [if_neg hj] at hphase ⊢
          exact h.running j hphase
      finished := by
        intro j response hget hphase
        simp only [Http2Connection.registerEcho, InsertionMap.get_set] at hget hphase
        split_ifs at hget hphase with hj
        · exact absurd rfl hphase
        · exact h.finished j response hget hphase }

theorem EchoInv.immediate {callback : Nat} {frame : Bytes} {rest : List (Nat × Bytes)}
    (h : EchoInv requests s) (hqueue : s.capture.immediates = (callback, frame) :: rest) :
    EchoInv requests (runCallback requests
      { s with capture := { s.capture with immediates := rest } } callback frame) := by
  have hmem : (callback, frame) ∈ s.capture.immediates := hqueue ▸ List.mem_cons_self
  obtain ⟨hphase, hname⟩ := h.queued _ hmem
  obtain ⟨response, hget, hnone, hlate, hcomplete⟩ := h.running callback hphase
  obtain ⟨line, hline⟩ := exists_line (requests callback).headers hname
  have hwrite : response.write line = { response with written := response.written ++ [line] } := by
    rw [EchoResponse.write, hnone]
    rfl
  have hrun : runCallback requests
      { s with capture := { s.capture with immediates := rest } } callback frame =
        { s with
          capture := { s.capture with immediates := rest }
          responses := s.responses.set callback
            { response with written := response.written ++ [line] } } := by
    simp only [runCallback, hget, hline, hwrite]
  have hcapture := h.capture.immediate requests callback frame rest
  rw [hrun] at hcapture ⊢
  exact
    { capture := hcapture
      queued := by
        intro q hq
        exact h.queued q (hqueue ▸ List.mem_cons_of_mem _ hq)
      running := by
        intro k hk
        dsimp only
        rw [InsertionMap.get_set]
        split_ifs with hcallback
        · subst hcallback
          refine ⟨_, rfl, hnone, hlate, ?_⟩
          rw [hqueue, outstanding_cons_self hline] at hcomplete
          rw [List.append_assoc]
          exact hcomplete
        · obtain ⟨response', hget', hnone', hlate', hcomplete'⟩ := h.running k hk
          rw [hqueue, outstanding_cons_of_ne (Ne.symm hcallback)] at hcomplete'
          exact ⟨response', hget', hnone', hlate', hcomplete'⟩
      finished := by
        intro k response' hget' hk
        dsimp only at hget' hk
        have hne : k ≠ callback := by
          rintro rfl
          exact hk hphase
        rw [InsertionMap.get_set_of_ne _ _ hne] at hget'
        exact h.finished k response' hget' hk }

/-- With no callback queued for it, an `echo` that ends has reported all. -/
theorem EchoInv.complete_at_end {k : Nat} {response : EchoResponse} (h : EchoInv requests s)
    (hqueue : ∀ q ∈ s.capture.immediates, q.1 ≠ k)
    (hget : s.responses.get k = some response) :
    ∃ received, response.receivedAtEnd.or (some s.capture.routed) = some received ∧
      Complete (requests k).headers k received response.written ∧ response.lateWrites = [] := by
  by_cases hphase : s.requests.get k = some .echoing
  · obtain ⟨response', hget', hnone, hlate, hcomplete⟩ := h.running k hphase
    obtain rfl : response = response' := Option.some.inj (hget.symm.trans hget')
    rw [outstanding_eq_nil hqueue, List.append_nil] at hcomplete
    exact ⟨s.capture.routed, by rw [hnone, Option.none_or], hcomplete, hlate⟩
  · obtain ⟨received, hreceived, hcomplete⟩ := h.finished k response hget hphase
    exact ⟨received, by rw [hreceived, Option.some_or], hcomplete⟩

/-- The request of an `echo` ends, and no callback is queued for it. -/
theorem EchoInv.finish {k : Nat} (h : EchoInv requests s) (hk : k ≠ 0)
    (harrived : framesOf s.capture.routed k ≠ [])
    (hqueue : ∀ q ∈ s.capture.immediates, q.1 ≠ k) : EchoInv requests (s.finish k) where
  capture := h.capture.finish hk harrived
  queued q hq := by
    obtain ⟨hphase, hname⟩ := h.queued q hq
    refine ⟨?_, hname⟩
    exact (InsertionMap.get_set_of_ne _ _ (hqueue q hq)).trans hphase
  running j hphase := by
    have hj : j ≠ k := by
      rintro rfl
      rw [Http2Connection.finish, InsertionMap.get_set_self] at hphase
      cases hphase
    rw [Http2Connection.finish, InsertionMap.get_set_of_ne _ _ hj] at hphase
    obtain ⟨response, hget, hrest⟩ := h.running j hphase
    refine ⟨response, ?_, hrest⟩
    rw [Http2Connection.finish]
    dsimp only
    split
    · rw [InsertionMap.get_set_of_ne _ _ hj, hget]
    · exact hget
  finished j response hget hphase := by
    rw [Http2Connection.finish] at hget hphase
    dsimp only at hget hphase
    by_cases hj : j = k
    · subst hj
      cases hold : s.responses.get j with
      | none =>
          rw [hold] at hget
          dsimp only at hget
          rw [hold] at hget
          cases hget
      | some old =>
          rw [hold] at hget
          dsimp only at hget
          rw [InsertionMap.get_set_self] at hget
          cases hget
          exact h.complete_at_end hqueue hold
    · rw [InsertionMap.get_set_of_ne _ _ hj] at hphase
      have hget' : s.responses.get j = some response := by
        split at hget
        · rwa [InsertionMap.get_set_of_ne _ _ hj] at hget
        · exact hget
      exact h.finished j response hget' hphase

/-- Every step that meets the condition keeps the invariant. -/
theorem EchoInv.stepped {e : Event} (h : EchoInv requests s) (hok : NoneQueued s e)
    (hstep : Stepped context requests s e t) : EchoInv requests t := by
  have hcapture : CaptureInv t := h.capture.stepped hstep
  cases hstep with
  | @frame frame header hheader =>
      by_cases hglobal : header.streamId = 0
      · exact h.routeGlobal hheader hglobal
      · exact h.routeOwn hheader hglobal
  | hop hk harrived hfresh hcourse =>
      exact h.of_eq hcapture rfl rfl rfl (get_set_echoing_iff hfresh rfl rfl)
  | acme hk harrived hfresh hcourse =>
      exact h.of_eq hcapture rfl rfl rfl (get_set_echoing_iff hfresh rfl rfl)
  | chain hk harrived hfresh hcourse =>
      exact h.of_eq hcapture rfl rfl rfl (get_set_echoing_iff hfresh rfl rfl)
  | lostChain hk harrived hfresh hcourse =>
      exact h.of_eq hcapture rfl rfl rfl (get_set_echoing_iff hfresh rfl rfl)
  | answered hk harrived hfresh hcourse =>
      exact h.of_eq hcapture rfl rfl rfl (get_set_echoing_iff hfresh rfl rfl)
  | echo hk harrived hfresh hcourse hreaches =>
      apply h.registerEcho hk harrived
      rw [hfresh]
      rfl
  | lostEcho hk harrived hfresh hcourse hreaches =>
      exact h.of_eq hcapture rfl rfl rfl (get_set_echoing_iff hfresh rfl rfl)
  | nextHop hphase => exact h.of_eq hcapture rfl rfl rfl (get_set_echoing_iff hphase rfl rfl)
  | lastHop hphase hreaches =>
      obtain ⟨hk, harrived⟩ := h.capture.arrived _ _ hphase
      apply h.registerEcho hk harrived
      rw [hphase]
      rfl
  | lostHop hphase hreaches =>
      exact h.of_eq hcapture rfl rfl rfl (get_set_echoing_iff hphase rfl rfl)
  | acmeAnswered hphase =>
      exact h.of_eq hcapture rfl rfl rfl (get_set_echoing_iff hphase rfl rfl)
  | settled hphase => exact h.of_eq hcapture rfl rfl rfl (get_set_echoing_iff hphase rfl rfl)
  | leftHop hphase => exact h.of_eq hcapture rfl rfl rfl (get_set_echoing_iff hphase rfl rfl)
  | leftChain hphase => exact h.of_eq hcapture rfl rfl rfl (get_set_echoing_iff hphase rfl rfl)
  | immediate hqueue => exact h.immediate hqueue
  | finish hphase =>
      obtain ⟨hk, harrived⟩ := h.capture.arrived _ _ hphase
      exact h.finish hk harrived hok
  | finishAgain hphase =>
      obtain ⟨hk, harrived⟩ := h.capture.arrived _ _ hphase
      exact h.finish hk harrived hok

/-- An `echo` that ends with a callback queued has not reported all. -/
theorem EchoInv.noneQueued_of_finish {k : Nat} (h : EchoInv requests s)
    (hphase : s.requests.get k = some .echoing) (hexact : EchoesExactly requests (s.finish k)) :
    NoneQueued s (.finish k) := by
  obtain ⟨response, hget, hnone, -, hcomplete⟩ := h.running k hphase
  have hget' : (s.finish k).responses.get k =
      some { response with receivedAtEnd := some s.capture.routed } := by
    simp only [Http2Connection.finish, hget, InsertionMap.get_set_self, hnone, Option.none_or]
  obtain ⟨hended, -⟩ := hexact k _ s.capture.routed hget' rfl
  have hnil := hended.eq_nil_of_append hcomplete
  intro q hq heq
  subst heq
  obtain ⟨line, hline⟩ := exists_line (requests q.1).headers (h.queued q hq).2
  have hmem : line ∈ outstanding (requests q.1).headers s.capture.immediates q.1 :=
    List.mem_filterMap.mpr ⟨q, List.mem_filter.mpr ⟨hq, beq_self_eq_true _⟩, hline⟩
  rw [hnil] at hmem
  cases hmem

/-- The condition is needed at every step. -/
theorem EchoInv.noneQueued {e : Event} (h : EchoInv requests s)
    (hstep : Stepped context requests s e t) (hexact : EchoesExactly requests t) :
    NoneQueued s e := by
  cases hstep with
  | finish hphase => exact h.noneQueued_of_finish hphase hexact
  | finishAgain hphase =>
      intro q hq heq
      have hecho := (h.queued q hq).1
      rw [heq, hphase] at hecho
      cases hecho
  | frame | hop | acme | chain | lostChain | answered | echo | lostEcho | nextHop | lastHop
    | lostHop | acmeAnswered | settled | leftHop | leftChain | immediate => exact trivial

/-- Throughout a run every `echo` that has ended has reported all frames received up to its end,
once and in order, exactly when no request of an `echo` ends with a callback queued. -/
theorem echoesExactly_iff {es : List Event}
    (hrun : run (step context requests) initial es = some t) :
    Throughout (step context requests) (EchoesExactly requests) initial es ↔
      Guarded (step context requests) NoneQueued initial es := by
  have keep : ∀ s e t, EchoInv requests s → NoneQueued s e →
      step context requests s e = some t → EchoInv requests t :=
    fun s e t hs hok hstep => hs.stepped hok (stepped_of_step hstep)
  have needed : ∀ s e t, EchoInv requests s → step context requests s e = some t →
      EchoesExactly requests t → NoneQueued s e :=
    fun s e t hs hstep hexact => hs.noneQueued (stepped_of_step hstep) hexact
  exact throughout_iff_guarded keep (fun s hs => hs.echoesExactly) needed echoInv_initial hrun

/-- Frames of the connection and of the stream arrive before the request, and before its end. -/
theorem echoesExactly_flushed :
    Throughout (step plainContext fun _ => plainEcho) (EchoesExactly fun _ => plainEcho) initial
      [.frame (windowUpdate 0), .frame headersFrame, .request 1 .attached, .frame (windowUpdate 0),
        .frame (windowUpdate 1), .immediate, .immediate, .finish 1] := by
  obtain ⟨t, hrun⟩ := Option.isSome_iff_exists.mp (by decide +kernel :
    (run (step plainContext fun _ => plainEcho) initial
      [.frame (windowUpdate 0), .frame headersFrame, .request 1 .attached, .frame (windowUpdate 0),
        .frame (windowUpdate 1), .immediate, .immediate, .finish 1]).isSome = true)
  exact (echoesExactly_iff hrun).mpr (by decide +kernel)

/-- The request ends before the callback for its last frame runs: the frame is written late. -/
theorem not_echoesExactly_queued :
    ∃ es t, run (step plainContext fun _ => plainEcho) initial es = some t ∧
      ¬ EchoesExactly (fun _ => plainEcho) t := by
  obtain ⟨t, hrun⟩ := Option.isSome_iff_exists.mp (by decide +kernel :
    (run (step plainContext fun _ => plainEcho) initial
      [.frame headersFrame, .request 1 .attached, .frame (windowUpdate 1), .finish 1,
        .immediate]).isSome = true)
  have hlate : ((run (step plainContext fun _ => plainEcho) initial
      [.frame headersFrame, .request 1 .attached, .frame (windowUpdate 1), .finish 1,
        .immediate]).bind fun t => t.responses.get 1).any
      (fun r => r.receivedAtEnd.isSome && !r.lateWrites.isEmpty) = true := by decide +kernel
  refine ⟨_, t, hrun, fun hexact => ?_⟩
  rw [hrun, Option.bind_some] at hlate
  obtain ⟨response, hget, hwrites⟩ := (Option.any_eq_true _ _).mp hlate
  obtain ⟨hended, hwrites⟩ := Bool.and_eq_true_iff.mp hwrites
  obtain ⟨received, hreceived⟩ := Option.isSome_iff_exists.mp hended
  rw [(hexact 1 response received hget hreceived).2] at hwrites
  cases hwrites

end TestServer.Http2Connection
