import TestServer.WsChains
import TestServer.WsSession

/-!
# What a WebSocket session sends

The handlers of a chain send what they are written to send, in the order of the chain, and a
connection that is no longer open is sent nothing more. Timers and listeners add their own frames
in between.
-/

namespace TestServer.WsSession

open Js Library Library.Runs Endpoints ProcessConnection

variable {library : WsLibrary} {query : Query} {entries left rest : List WsEntry}
  {entry : WsEntry} {s t : WsSession}

/-- An effect of an endpoint that another one may follow. -/
def goesOn : WsEffect → Bool
  | .close _ _ | .listen | .destroySocket => false
  | _ => true

/-- Every entry is one of the table, and every one but the last leaves a path. -/
structure Shaped (entries : List WsEntry) : Prop where
  table : ∀ entry ∈ entries, entry.endpoint ∈ handledWsEndpoints
  leaves : entries.Pairwise fun entry _ => entry.endpoint.getRemainingPath entry.path ≠ none

theorem pairwise_of_resolveFrom {ε : Type} {chainable : ε → ChainableEndpoint}
    {endpoints : List ε} {initialPath : JsString} {hostnamePrefix : Option JsString} {turns : Nat}
    {path : Option JsString} {entries : List (ChainEntry ε)}
    (h : resolveFrom chainable endpoints initialPath hostnamePrefix turns path = .ok entries) :
    entries.Pairwise fun entry _ =>
      (chainable entry.endpoint).getRemainingPath entry.path ≠ none := by
  induction turns generalizing path entries with
  | zero =>
      match path with
      | none | some [] =>
          cases h
          exact .nil
      | some (c :: rest) => cases h
  | succ turns ih =>
      match path with
      | none | some [] =>
          cases h
          exact .nil
      | some (c :: rest) =>
          obtain ⟨found, hfound, h⟩ := bind_ok_iff.mp h
          cases found with
          | none => cases h
          | some endpoint =>
              obtain ⟨tail, htail, h⟩ := bind_ok_iff.mp h
              cases h
              refine .cons (fun later hlater hnone => ?_) (ih htail)
              rw [hnone] at htail
              cases turns <;> cases htail <;> cases hlater

theorem shaped_of_chain {path : JsString} {hostnamePrefix : Option JsString}
    (h : handledWsChain path hostnamePrefix = .ok entries) : Shaped entries :=
  ⟨endpoint_mem_of_resolve h, pairwise_of_resolveFrom h⟩

/-- An endpoint that leaves a path does not end the chain. -/
theorem goesOn_of_leaves {endpoint : HandledWsEndpoint} (hmem : endpoint ∈ handledWsEndpoints)
    {path : JsString} (hleaves : endpoint.getRemainingPath path ≠ none) {options : HandleOptions}
    {effect : WsEffect} (h : endpoint.handle options = .ok effect) : goesOn effect = true := by
  simp only [handledWsEndpoints, List.mem_cons, List.not_mem_nil, or_false] at hmem
  rcases hmem with rfl | rfl | rfl | rfl | rfl | rfl | rfl | rfl
  case inr.inr.inr.inl =>
    obtain ⟨message, -, h⟩ := bind_ok_iff.mp h
    cases h
    rfl
  case inr.inr.inr.inr.inr.inl =>
    obtain ⟨params, -, h⟩ := bind_ok_iff.mp h
    cases h
    rfl
  all_goals cases h
  case inl => exact absurd rfl hleaves
  case inr.inr.inl => exact absurd rfl hleaves
  case inr.inr.inr.inr.inr.inr.inl => exact absurd rfl hleaves
  all_goals rfl

/-- The entries behind one that ends the chain. -/
theorem Shaped.eq_nil (h : Shaped (left ++ entry :: rest)) {effect : WsEffect}
    (heffect : effectOf query entry = .ok effect) (hends : goesOn effect = false) : rest = [] := by
  cases rest with
  | nil => rfl
  | cons later rest =>
      have hpair := (List.pairwise_append.mp h.leaves).2.1
      have hleaves := (List.pairwise_cons.mp hpair).1 later List.mem_cons_self
      have hmem : entry ∈ left ++ entry :: later :: rest :=
        List.mem_append_right left List.mem_cons_self
      rw [goesOn_of_leaves (h.table entry hmem) hleaves heffect] at hends
      cases hends

@[simp] theorem send_readyState (s : WsSession) (frames : List WsFrame) :
    (s.send frames).readyState = s.readyState := by
  rw [send]
  split <;> rfl

@[simp] theorem send_script (s : WsSession) (frames : List WsFrame) :
    (s.send frames).script = s.script := by
  rw [send]
  split <;> rfl

@[simp] theorem send_listeners (s : WsSession) (frames : List WsFrame) :
    (s.send frames).listeners = s.listeners := by
  rw [send]
  split <;> rfl

@[simp] theorem tick_readyState (s : WsSession) (i : Nat) (interval : WsInterval) :
    (s.tick i interval).readyState = s.readyState := by
  rw [tick]
  split
  · exact send_readyState s _
  · rfl

@[simp] theorem tick_script (s : WsSession) (i : Nat) (interval : WsInterval) :
    (s.tick i interval).script = s.script := by
  rw [tick]
  split
  · exact send_script s _
  · rfl

@[simp] theorem tick_listeners (s : WsSession) (i : Nat) (interval : WsInterval) :
    (s.tick i interval).listeners = s.listeners := by
  rw [tick]
  split
  · exact send_listeners s _
  · rfl

/-- The frame that the handler of an entry sends by itself. -/
def scriptFrame (query : Query) (entry : WsEntry) : Option WsFrame :=
  match effectOf query entry with
  | .ok (.send message) => some (.message message)
  | .ok (.close code reason) => some (.close code reason)
  | _ => none

/-- A frame that a handler sends by itself, and no timer or listener. -/
def isScripted : WsFrame → Bool
  | .message _ | .close _ _ => true
  | _ => false

def isClose : WsFrame → Bool
  | .close _ _ => true
  | _ => false

/-- The timer that the handler of an entry starts. -/
def startedInterval (query : Query) (entry : WsEntry) : Option WsInterval :=
  match effectOf query entry with
  | .ok (.every freqMs message) => some ⟨message, freqMs, false⟩
  | _ => none

def startsListener (query : Query) (entry : WsEntry) : Bool :=
  decide (effectOf query entry = .ok .listen)

def destroysSocket (query : Query) (entry : WsEntry) : Bool :=
  decide (effectOf query entry = .ok .destroySocket)

/-- A handler that the loop does not get past: it throws, or asks for a close that is refused. -/
def Stops (library : WsLibrary) (query : Query) (entry : WsEntry) : Prop :=
  (∃ e, effectOf query entry = .error e) ∨
    ∃ code reason, effectOf query entry = .ok (.close code reason) ∧
      library.acceptsClose code reason = false

/-- What a turn with an entry does to an open connection. -/
inductive Turned (library : WsLibrary) (query : Query) (entry : WsEntry) (rest : List WsEntry)
    (s t : WsSession) : Prop where
  | passed (hscript : t.script = .running rest ∨ ∃ ms, t.script = .delaying ms rest)
      (hstate : t.readyState =
        if (scriptFrame query entry).any isClose then .closing else .opened)
      (hsent : t.sent = s.sent ++ (scriptFrame query entry).toList)
      (hintervals : t.intervals = s.intervals ++ (startedInterval query entry).toList)
      (hlisteners : t.listeners = s.listeners + if startsListener query entry then 1 else 0)
      (hsocket : t.socketDestroyed = (s.socketDestroyed || destroysSocket query entry))
  | stopped (hstops : Stops library query entry) (hleft : t.script = .returned (entry :: rest))
      (hsent : t.sent = s.sent ∨ t.readyState = .closing ∧ t.sent = s.sent ++ [internalError])
      (hopen : t.readyState ≠ .closed) (hintervals : t.intervals = s.intervals)
      (hlisteners : t.listeners = s.listeners) (hsocket : t.socketDestroyed = s.socketDestroyed)

theorem left_of_passed (h : t.script = .running rest ∨ ∃ ms, t.script = .delaying ms rest) :
    t.script.left = rest := by
  rcases h with h | ⟨ms, h⟩ <;> rw [h, WsScript.left]

theorem close_of_opened (hs : s.readyState = .opened) (code : Option Int)
    (reason : Option JsString) :
    s.close library code reason =
      if library.acceptsClose code reason then
        ({ s with readyState := .closing, sent := s.sent ++ [.close code reason] }, false)
      else
        ({ s with readyState := if library.refusalCloses then .closing else .opened }, true) := by
  rw [close, if_pos hs]

/-- The end of the callback after an exception. -/
theorem turned_fail (hstops : Stops library query entry) {u : WsSession}
    (hu : u.readyState ≠ .closed) (hsent : u.sent = s.sent) (hintervals : u.intervals = s.intervals)
    (hlisteners : u.listeners = s.listeners) (hsocket : u.socketDestroyed = s.socketDestroyed) :
    Turned library query entry rest s (u.fail library (entry :: rest)) := by
  rw [fail]
  by_cases hopened : u.readyState = .opened
  · rw [if_pos hopened, close_of_opened hopened]
    by_cases haccepts : library.acceptsClose (some 1011) (some (js "Internal error")) = true
    · rw [if_pos haccepts]
      refine .stopped hstops rfl (.inr ⟨rfl, ?_⟩) ?_ hintervals hlisteners hsocket
      · change u.sent ++ _ = _
        rw [hsent]
        rfl
      · intro h
        cases h
    · rw [if_neg haccepts]
      refine .stopped hstops rfl (.inl hsent) ?_ hintervals hlisteners hsocket
      change (if library.refusalCloses = true then ReadyState.closing else .opened) ≠ .closed
      split <;> intro h <;> cases h
  · rw [if_neg hopened]
    exact .stopped hstops rfl (.inl hsent) hu hintervals hlisteners hsocket

theorem turned_close (hs : s.readyState = .opened) {code : Option Int} {reason : Option JsString}
    (heffect : effectOf query entry = .ok (.close code reason)) :
    Turned library query entry rest s (s.apply library entry rest (.close code reason)) := by
  rw [apply, close_of_opened hs]
  by_cases haccepts : library.acceptsClose code reason = true
  · rw [if_pos haccepts]
    refine .passed (.inl rfl) ?_ ?_ ?_ ?_ ?_
    · simp [scriptFrame, heffect, isClose]
    · simp [scriptFrame, heffect]
    · simp [startedInterval, heffect]
    · simp [startsListener, heffect]
    · simp [destroysSocket, heffect]
  · rw [if_neg haccepts]
    refine turned_fail (.inr ⟨code, reason, heffect, Bool.eq_false_iff.mpr haccepts⟩) ?_ rfl rfl
      rfl rfl
    change (if library.refusalCloses = true then ReadyState.closing else .opened) ≠ .closed
    split <;> intro h <;> cases h

theorem turned_apply (hs : s.readyState = .opened) {effect : WsEffect}
    (heffect : effectOf query entry = .ok effect) :
    Turned library query entry rest s (s.apply library entry rest effect) := by
  cases effect with
  | close code reason => exact turned_close hs heffect
  | send message =>
      rw [apply, send, if_pos hs]
      refine .passed (.inl rfl) ?_ ?_ ?_ ?_ ?_ <;>
        simp [scriptFrame, startedInterval, startsListener, destroysSocket, heffect, hs, isClose]
  | delay ms =>
      refine .passed (.inr ⟨ms, rfl⟩) ?_ ?_ ?_ ?_ ?_ <;>
        simp [apply, scriptFrame, startedInterval, startsListener, destroysSocket, heffect, hs]
  | _ =>
      refine .passed (.inl rfl) ?_ ?_ ?_ ?_ ?_ <;>
        simp [apply, scriptFrame, startedInterval, startsListener, destroysSocket, heffect, hs]

/-- A turn with an entry on an open connection. -/
theorem turned_turn (hs : s.readyState = .opened) :
    Turned library query entry rest s (s.turn library query (entry :: rest)) := by
  rw [turn, if_neg (not_not_intro hs)]
  cases heffect : effectOf query entry with
  | error e =>
      refine turned_fail (.inl ⟨e, heffect⟩) ?_ rfl rfl rfl rfl
      rw [hs]
      intro h
      cases h
  | ok effect => exact turned_apply hs heffect

/-- What an event does to a session. -/
inductive Stepped (library : WsLibrary) (query : Query) (s : WsSession) :
    Event → WsSession → Prop where
  | finished (hscript : s.script = .running []) :
      Stepped library query s .turn { s with script := .returned [] }
  | left {entry : WsEntry} {rest : List WsEntry} (hscript : s.script = .running (entry :: rest))
      (hstate : s.readyState ≠ .opened) :
      Stepped library query s .turn { s with script := .returned (entry :: rest) }
  | turned {entry : WsEntry} {rest : List WsEntry} {t : WsSession}
      (hscript : s.script = .running (entry :: rest)) (hstate : s.readyState = .opened)
      (hturned : Turned library query entry rest s t) : Stepped library query s .turn t
  | elapsed {ms : Option JsNumber} {rest : List WsEntry} (hscript : s.script = .delaying ms rest) :
      Stepped library query s .elapse { s with script := .running rest }
  | heard {data : Bytes} {isBinary : Bool} (hstate : s.readyState ≠ .closed) :
      Stepped library query s (.message data isBinary)
        (s.send (List.replicate s.listeners (.echoed data isBinary)))
  | ticked {i : Nat} {interval : WsInterval} (hinterval : s.intervals[i]? = some interval)
      (hcleared : interval.cleared = false) : Stepped library query s (.tick i) (s.tick i interval)
  | closing (hstate : s.readyState = .opened) :
      Stepped library query s .closing { s with readyState := .closing }
  | closed (hstate : s.readyState ≠ .closed) :
      Stepped library query s .closed
        { s with readyState := .closed, intervals := s.intervals.map clear }

theorem stepped_of_step {e : Event} (h : step library query s e = some t) :
    Stepped library query s e t := by
  cases e with
  | turn =>
      simp only [step] at h
      split at h
      case h_1 entries hscript =>
          cases h
          cases entries with
          | nil => exact .finished hscript
          | cons entry rest =>
              by_cases hs : s.readyState = .opened
              · exact .turned hscript hs (turned_turn hs)
              · rw [turn, if_pos hs]
                exact .left hscript hs
      case h_2 => cases h
  | elapse =>
      simp only [step] at h
      split at h
      case h_1 hscript =>
          cases h
          exact .elapsed hscript
      case h_2 => cases h
  | message data isBinary =>
      simp only [step] at h
      split at h
      case isTrue => cases h
      case isFalse hstate =>
          cases h
          exact .heard hstate
  | tick i =>
      simp only [step] at h
      split at h
      case h_1 interval hinterval =>
          split at h
          case isTrue => cases h
          case isFalse hcleared =>
              cases h
              exact .ticked hinterval (Bool.eq_false_iff.mpr hcleared)
      case h_2 => cases h
  | closing =>
      simp only [step] at h
      split at h
      case isTrue hstate =>
          cases h
          exact .closing hstate
      case isFalse => cases h
  | closed =>
      simp only [step] at h
      split at h
      case isTrue => cases h
      case isFalse hstate =>
          cases h
          exact .closed hstate

/-- The frames of handlers that have run, and of one that stops the loop. -/
inductive Scripted (library : WsLibrary) (query : Query) (done : List WsEntry) :
    List WsEntry → List WsFrame → Prop where
  | told {left : List WsEntry} :
      Scripted library query done left (done.filterMap (scriptFrame query))
  | stopped {entry : WsEntry} {later : List WsEntry} (hstops : Stops library query entry) :
      Scripted library query done (entry :: later)
        (done.filterMap (scriptFrame query) ++ [internalError])

/-- No close frame was sent, or it was the last one and the connection is not open. -/
def ClosesLast (s : WsSession) : Prop :=
  ∃ front, (∀ frame ∈ front, isClose frame = false) ∧
    (s.sent = front ∨ s.readyState ≠ .opened ∧ ∃ frame, s.sent = front ++ [frame])

/-- Some entries are done, and have sent their frames. -/
structure Told (library : WsLibrary) (query : Query) (entries : List WsEntry) (s : WsSession) :
    Prop where
  scripted : ∃ done, entries = done ++ s.script.left ∧
    Scripted library query done s.script.left (s.sent.filter isScripted) ∧
    (s.readyState = .opened →
      s.sent.filter isScripted = done.filterMap (scriptFrame query) ∧
        ∀ frame ∈ s.sent, isClose frame = false)
  closesLast : ClosesLast s

theorem told_start : Told library query entries (start entries) where
  scripted := ⟨[], rfl, .told, fun _ => ⟨rfl, List.forall_mem_nil _⟩⟩
  closesLast := ⟨[], List.forall_mem_nil _, .inl rfl⟩

/-- Frames of timers and listeners are no part of the script. -/
theorem Told.append (h : Told library query entries s) (hscript : t.script.left = s.script.left)
    (hstate : t.readyState = .opened → s.readyState = .opened)
    {frames : List WsFrame} (hsent : t.sent = s.sent ++ frames)
    (hopened : frames ≠ [] → s.readyState = .opened)
    (hframes : ∀ frame ∈ frames, isScripted frame = false) : Told library query entries t := by
  have hnothing : frames.filter isScripted = [] := by simpa using hframes
  have hfilter : t.sent.filter isScripted = s.sent.filter isScripted := by
    rw [hsent, List.filter_append, hnothing, List.append_nil]
  have hclose : ∀ frame ∈ frames, isClose frame = false := by
    intro frame hframe
    have hnot := hframes frame hframe
    cases frame <;> first | rfl | cases hnot
  obtain ⟨done, hdone, hscripted, hopen⟩ := h.scripted
  refine ⟨⟨done, by rw [hscript]; exact hdone, by rw [hscript, hfilter]; exact hscripted, ?_⟩, ?_⟩
  · intro ht
    obtain ⟨htold, hnone⟩ := hopen (hstate ht)
    rw [hfilter, hsent]
    refine ⟨htold, fun frame hframe => ?_⟩
    exact (List.mem_append.mp hframe).elim (hnone frame) (hclose frame)
  · by_cases hnil : frames = []
    · obtain ⟨front, hfront, hlast⟩ := h.closesLast
      rw [hnil, List.append_nil] at hsent
      refine ⟨front, hfront, ?_⟩
      rw [hsent]
      exact hlast.imp_right fun hlast => ⟨mt hstate hlast.1, hlast.2⟩
    · obtain ⟨-, hnone⟩ := hopen (hopened hnil)
      refine ⟨s.sent ++ frames, fun frame hframe => ?_, .inl hsent⟩
      exact (List.mem_append.mp hframe).elim (hnone frame) (hclose frame)

theorem isScripted_of_scriptFrame {frame : WsFrame} (h : scriptFrame query entry = some frame) :
    isScripted frame = true := by
  simp only [scriptFrame] at h
  split at h <;> cases h <;> rfl

theorem filter_scriptFrame (query : Query) (entry : WsEntry) :
    (scriptFrame query entry).toList.filter isScripted = (scriptFrame query entry).toList := by
  cases h : scriptFrame query entry with
  | none => rfl
  | some frame =>
      simp only [Option.toList_some, List.filter_cons, isScripted_of_scriptFrame h, if_true,
        List.filter_nil]

/-- A turn with an entry adds its frame to the script. -/
theorem Told.turned (h : Told library query entries s)
    (hscript : s.script = .running (entry :: rest)) (hstate : s.readyState = .opened) (hturned : Turned library query entry rest s t) :
    Told library query entries t := by
  obtain ⟨done, hdone, -, hopen⟩ := h.scripted
  obtain ⟨htold, hnone⟩ := hopen hstate
  rw [hscript, WsScript.left] at hdone
  cases hturned with
  | passed hpassed hreadyState hsent _ _ _ =>
      have hmap : (done ++ [entry]).filterMap (scriptFrame query) =
          done.filterMap (scriptFrame query) ++ (scriptFrame query entry).toList := by
        rw [List.filterMap_append]
        cases hframe : scriptFrame query entry <;> simp [hframe]
      have hfilter : t.sent.filter isScripted =
          (done ++ [entry]).filterMap (scriptFrame query) := by
        rw [hsent, List.filter_append, filter_scriptFrame, htold, hmap]
      have hdone' : entries = (done ++ [entry]) ++ t.script.left := by
        rw [left_of_passed hpassed, List.append_assoc]
        exact hdone
      cases hframe : scriptFrame query entry with
      | none =>
          rw [hframe, Option.toList_none, List.append_nil] at hsent
          refine ⟨⟨_, hdone', hfilter ▸ .told, fun _ => ⟨hfilter, ?_⟩⟩, s.sent, hnone, .inl hsent⟩
          rw [hsent]
          exact hnone
      | some frame =>
          rw [hframe, Option.toList_some] at hsent
          rw [hframe, Option.any_some] at hreadyState
          cases hclose : isClose frame with
          | false =>
              have hnone' : ∀ frame ∈ t.sent, isClose frame = false := by
                rw [hsent]
                exact List.forall_mem_append.mpr ⟨hnone, List.forall_mem_singleton.mpr hclose⟩
              exact ⟨⟨_, hdone', hfilter ▸ .told, fun _ => ⟨hfilter, hnone'⟩⟩, t.sent, hnone',
                .inl rfl⟩
          | true =>
              rw [hclose, if_pos rfl] at hreadyState
              have hnot : t.readyState ≠ .opened := by
                rw [hreadyState]
                exact ReadyState.noConfusion
              exact ⟨⟨_, hdone', hfilter ▸ .told, fun ht => absurd ht hnot⟩, s.sent, hnone,
                .inr ⟨hnot, frame, hsent⟩⟩
  | stopped hstops hleft hsent hopened _ _ _ =>
      have hdone' : entries = done ++ t.script.left := by
        rw [hleft, WsScript.left]
        exact hdone
      rcases hsent with hsent | ⟨hclosing, hsent⟩
      · refine ⟨⟨done, hdone', ?_, fun _ => ?_⟩, s.sent, hnone, .inl hsent⟩
        · rw [hsent, htold]
          exact .told
        · rw [hsent]
          exact ⟨htold, hnone⟩
      · have hnot : t.readyState ≠ .opened := by
          rw [hclosing]
          exact ReadyState.noConfusion
        refine ⟨⟨done, hdone', ?_, fun ht => absurd ht hnot⟩, s.sent, hnone,
          .inr ⟨hnot, internalError, hsent⟩⟩
        rw [hsent, hleft, List.filter_append, htold]
        exact .stopped hstops

theorem told_step (h : Told library query entries s) {e : Event}
    (hstep : step library query s e = some t) : Told library query entries t := by
  have hnil {P : WsFrame → Prop} : ∀ frame ∈ ([] : List WsFrame), P frame := List.forall_mem_nil _
  cases stepped_of_step hstep with
  | finished hscript =>
      exact h.append (by rw [hscript]; rfl) id (List.append_nil _).symm (absurd rfl) hnil
  | left hscript hstate =>
      exact h.append (by rw [hscript]; rfl) id (List.append_nil _).symm (absurd rfl) hnil
  | turned hscript hstate hturned => exact h.turned hscript hstate hturned
  | elapsed hscript =>
      exact h.append (by rw [hscript]; rfl) id (List.append_nil _).symm (absurd rfl) hnil
  | heard hstate =>
      rw [send]
      split
      case isTrue hopened =>
          refine h.append rfl id rfl (fun _ => hopened) fun frame hframe => ?_
          rw [List.eq_of_mem_replicate hframe]
          rfl
      case isFalse => exact h
  | ticked hinterval hcleared =>
      rw [tick]
      split
      case isTrue hopened =>
          rw [send, if_pos hopened]
          exact h.append rfl id rfl (fun _ => hopened) (List.forall_mem_singleton.mpr rfl)
      case isFalse => exact h.append rfl id (List.append_nil _).symm (absurd rfl) hnil
  | closing hstate =>
      exact h.append rfl (fun ht => by cases ht) (List.append_nil _).symm (absurd rfl) hnil
  | closed hstate =>
      exact h.append rfl (fun ht => by cases ht) (List.append_nil _).symm (absurd rfl) hnil

theorem told_of_run {es : List Event}
    (hrun : run (step library query) (start entries) es = some s) :
    Told library query entries s :=
  run_invariant (fun _ _ _ h hstep => told_step h hstep) told_start hrun

/-- Some entries of the chain are done and have sent their frames in the order of the chain. Only
an entry that cannot be done adds a frame, which closes with an internal error. A close frame is
the last frame of all, and the chain ends with the entry that asks for it. -/
theorem scripted_of_run {path : JsString} {hostnamePrefix : Option JsString}
    (hchain : handledWsChain path hostnamePrefix = .ok entries) {es : List Event}
    (hrun : run (step library query) (start entries) es = some s) :
    ClosesLast s ∧ ∃ done, entries = done ++ s.script.left ∧
      Scripted library query done s.script.left (s.sent.filter isScripted) ∧
      ∀ entry ∈ done, ∀ code reason, effectOf query entry = .ok (.close code reason) →
        s.script.left = [] ∧ done.getLast? = some entry := by
  have htold := told_of_run hrun
  obtain ⟨done, hdone, hscripted, -⟩ := htold.scripted
  refine ⟨htold.closesLast, done, hdone, hscripted, fun entry hentry code reason heffect => ?_⟩
  obtain ⟨before, after, hsplit⟩ := List.append_of_mem hentry
  have hshaped := shaped_of_chain hchain
  rw [hdone, hsplit, List.append_assoc, List.cons_append] at hshaped
  have hnil := hshaped.eq_nil heffect rfl
  obtain ⟨hafter, hleft⟩ := List.append_eq_nil_iff.mp hnil
  refine ⟨hleft, ?_⟩
  rw [hsplit, hafter, List.getLast?_concat]

/-- The chain of `/ws/message/hi/close/1001`. -/
def farewell : List WsEntry :=
  [⟨⟨wsMessageEndpoint, wsMessageEndpoint.handle⟩, js "/ws/message/hi/close/1001"⟩,
    ⟨⟨wsCloseEndpoint, wsCloseEndpoint.handle⟩, js "/ws/close/1001"⟩]

theorem scripted_farewell : ∃ s,
    handledWsChain (js "/ws/message/hi/close/1001") none = .ok farewell ∧
      run (step strictLibrary []) (start farewell) [.turn, .closing, .turn, .closed] = some s ∧
      ClosesLast s := by
  have hchain : handledWsChain (js "/ws/message/hi/close/1001") none = .ok farewell := rfl
  have hrun : run (step strictLibrary []) (start farewell) [.turn, .closing, .turn, .closed] =
      some _ := rfl
  exact ⟨_, hchain, hrun, (scripted_of_run hchain hrun).1⟩

end TestServer.WsSession
