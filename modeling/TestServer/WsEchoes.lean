import TestServer.WsTranscripts

/-!
# Echoes and the end of a WebSocket session

A chain that ends with the echo endpoint sends every message back that comes once the chain is
worked off and before the connection leaves the open state. From then on the session only winds
down: no handler runs, nothing is sent, and each timer clears itself at its next tick.
-/

namespace TestServer.WsSession

open Js Library Library.Runs Endpoints ProcessConnection

variable {library : WsLibrary} {query : Query} {entries : List WsEntry} {s t : WsSession}

def echoOf : WsFrame → Option (Bytes × Bool)
  | .echoed data isBinary => some (data, isBinary)
  | _ => none

def messageOf : Event → Option (Bytes × Bool)
  | .message data isBinary => some (data, isBinary)
  | _ => none

/-- What comes before the connection leaves the open state. -/
def whileOpen (es : List Event) : List Event :=
  es.takeWhile fun e => !(decide (e = .closing) || decide (e = .closed))

/-- The events that come once the loop has no entries left. -/
def behindScript (library : WsLibrary) (query : Query) : WsSession → List Event → List Event
  | _, [] => []
  | s, e :: es =>
      if s.script.left = [] then e :: es
      else (step library query s e).elim [] fun t => behindScript library query t es

/-- The listeners are those of the entries that are done, and hear nothing before all are. -/
structure Heard (query : Query) (entries : List WsEntry) (s : WsSession) : Prop where
  listeners : ∃ done, entries = done ++ s.script.left ∧
    s.listeners = done.countP (startsListener query)
  silent : s.script.left ≠ [] → s.sent.filterMap echoOf = []

theorem heard_start : Heard query entries (start entries) :=
  ⟨⟨[], rfl, rfl⟩, fun _ => rfl⟩

theorem effectOf_of_startsListener {entry : WsEntry} (h : startsListener query entry = true) :
    effectOf query entry = .ok .listen := of_decide_eq_true h

/-- Only the last entry can start a listener. -/
theorem Shaped.countP_eq_zero {done left : List WsEntry} (h : Shaped (done ++ left))
    (hleft : left ≠ []) : done.countP (startsListener query) = 0 := by
  rw [List.countP_eq_zero]
  intro entry hentry hlistens
  obtain ⟨before, after, rfl⟩ := List.append_of_mem hentry
  rw [List.append_assoc, List.cons_append] at h
  have hnil := h.eq_nil (effectOf_of_startsListener hlistens) rfl
  exact hleft (List.append_eq_nil_iff.mp hnil).2

theorem Heard.listeners_eq_zero (h : Heard query entries s) (hshaped : Shaped entries)
    (hleft : s.script.left ≠ []) : s.listeners = 0 := by
  obtain ⟨done, hdone, hcount⟩ := h.listeners
  rw [hdone] at hshaped
  rw [hcount, hshaped.countP_eq_zero hleft]

theorem filterMap_echoOf_scriptFrame (query : Query) (entry : WsEntry) :
    (scriptFrame query entry).toList.filterMap echoOf = [] := by
  cases hframe : scriptFrame query entry with
  | none => rfl
  | some frame =>
      have hscripted := isScripted_of_scriptFrame hframe
      cases frame <;> first | rfl | cases hscripted

/-- A turn with an entry adds no echo. -/
theorem Turned.echoes {entry : WsEntry} {rest : List WsEntry}
    (h : Turned library query entry rest s t) :
    t.sent.filterMap echoOf = s.sent.filterMap echoOf := by
  cases h with
  | passed _ _ hsent _ _ _ =>
      rw [hsent, List.filterMap_append, filterMap_echoOf_scriptFrame, List.append_nil]
  | stopped _ _ hsent _ _ _ _ =>
      rcases hsent with hsent | ⟨-, hsent⟩
      · rw [hsent]
      · rw [hsent, List.filterMap_append]
        exact List.append_nil _

/-- As long as an entry is left, nothing is echoed. -/
theorem echoes_of_left (h : Heard query entries s) (hshaped : Shaped entries)
    (hleft : s.script.left ≠ []) {e : Event} (hstep : step library query s e = some t) :
    t.sent.filterMap echoOf = s.sent.filterMap echoOf := by
  cases stepped_of_step hstep with
  | turned _ _ hturned => exact hturned.echoes
  | heard _ =>
      rw [h.listeners_eq_zero hshaped hleft, send]
      split
      · exact congrArg (List.filterMap echoOf) (List.append_nil _)
      · rfl
  | ticked _ _ =>
      rw [tick]
      split
      case isTrue hopened =>
          rw [send, if_pos hopened, List.filterMap_append]
          exact List.append_nil _
      case isFalse => rfl
  | _ => rfl

theorem Heard.of_script (h : Heard query entries s) (hscript : t.script.left = s.script.left)
    (hlisteners : t.listeners = s.listeners)
    (hsilent : s.script.left ≠ [] → t.sent.filterMap echoOf = []) : Heard query entries t := by
  obtain ⟨done, hdone, hcount⟩ := h.listeners
  refine ⟨⟨done, ?_, hlisteners.trans hcount⟩, ?_⟩
  · rw [hscript]
    exact hdone
  · rw [hscript]
    exact hsilent

theorem heard_step (hshaped : Shaped entries) (h : Heard query entries s) {e : Event}
    (hstep : step library query s e = some t) : Heard query entries t := by
  have hsilent : s.script.left ≠ [] → t.sent.filterMap echoOf = [] := fun hleft =>
    (echoes_of_left h hshaped hleft hstep).trans (h.silent hleft)
  cases stepped_of_step hstep with
  | finished hscript => exact h.of_script (by rw [hscript]; rfl) rfl hsilent
  | left hscript _ => exact h.of_script (by rw [hscript]; rfl) rfl hsilent
  | elapsed hscript => exact h.of_script (by rw [hscript]; rfl) rfl hsilent
  | heard _ => exact h.of_script (by rw [send_script]) (send_listeners s _) hsilent
  | ticked _ _ => exact h.of_script (by rw [tick_script]) (tick_listeners s _ _) hsilent
  | closing _ => exact h.of_script rfl rfl hsilent
  | closed _ => exact h.of_script rfl rfl hsilent
  | @turned entry rest _ hscript _ hturned =>
      obtain ⟨done, hdone, hcount⟩ := h.listeners
      have hleft : s.script.left ≠ [] := by
        rw [hscript]
        exact List.cons_ne_nil entry rest
      rw [hscript, WsScript.left] at hdone
      refine ⟨?_, fun _ => hsilent hleft⟩
      cases hturned with
      | passed hpassed _ _ _ hlisteners _ =>
          refine ⟨done ++ [entry], ?_, ?_⟩
          · rw [left_of_passed hpassed, List.append_assoc]
            exact hdone
          · rw [hlisteners, hcount, List.countP_append, List.countP_singleton]
      | stopped _ hrest _ _ _ hlisteners _ =>
          refine ⟨done, ?_, ?_⟩
          · rw [hrest]
            exact hdone
          · rw [hlisteners, hcount]

/-- What an event can do once the connection is not open. -/
theorem quiet_step (hs : s.readyState ≠ .opened) {e : Event}
    (hstep : step library query s e = some t) :
    t.readyState ≠ .opened ∧ t.sent = s.sent ∧ t.script.left = s.script.left := by
  cases stepped_of_step hstep with
  | finished hscript => exact ⟨hs, rfl, by rw [hscript]; rfl⟩
  | left hscript _ => exact ⟨hs, rfl, by rw [hscript]; rfl⟩
  | turned _ hstate _ => exact absurd hstate hs
  | elapsed hscript => exact ⟨hs, rfl, by rw [hscript]; rfl⟩
  | heard _ =>
      rw [send, if_neg hs]
      exact ⟨hs, rfl, rfl⟩
  | ticked _ _ =>
      rw [tick, if_neg hs]
      exact ⟨hs, rfl, rfl⟩
  | closing hstate => exact absurd hstate hs
  | closed _ => exact ⟨ReadyState.noConfusion, rfl, rfl⟩

theorem quiet_of_run (hs : s.readyState ≠ .opened) {es : List Event}
    (hrun : run (step library query) s es = some t) :
    t.readyState ≠ .opened ∧ t.sent = s.sent ∧ t.script.left = s.script.left := by
  induction es generalizing s with
  | nil =>
      cases hrun
      exact ⟨hs, rfl, rfl⟩
  | cons e es ih =>
      obtain ⟨m, hm, ht⟩ := run_cons_eq_some_iff.mp hrun
      obtain ⟨hstate, hsent, hleft⟩ := quiet_step hs hm
      obtain ⟨hstate', hsent', hleft'⟩ := ih hstate ht
      exact ⟨hstate', hsent'.trans hsent, hleft'.trans hleft⟩

/-- What an event does to an open connection whose script is over. -/
theorem opened_step (hs : s.readyState = .opened) (hleft : s.script.left = []) {e : Event}
    (hstep : step library query s e = some t) :
    t.sent.filterMap echoOf = s.sent.filterMap echoOf ++
        (messageOf e).toList.flatMap (List.replicate s.listeners) ∧
      ((e = .closing ∨ e = .closed) ∧ t.readyState ≠ .opened ∨
        ¬ (e = .closing ∨ e = .closed) ∧ t.readyState = .opened ∧ t.script.left = [] ∧
          t.listeners = s.listeners) := by
  cases stepped_of_step hstep with
  | finished _ => exact ⟨(List.append_nil _).symm, .inr ⟨by simp, hs, rfl, rfl⟩⟩
  | left _ hstate => exact absurd hs hstate
  | turned hscript _ _ =>
      rw [hscript] at hleft
      cases hleft
  | elapsed hscript =>
      rw [hscript] at hleft
      exact ⟨(List.append_nil _).symm, .inr ⟨by simp, hs, hleft, rfl⟩⟩
  | heard _ =>
      rw [send, if_pos hs]
      refine ⟨?_, .inr ⟨by simp, hs, hleft, rfl⟩⟩
      rw [List.filterMap_append, List.filterMap_replicate, messageOf, Option.toList_some,
        List.flatMap_singleton]
      rfl
  | ticked _ _ =>
      rw [tick, if_pos hs, send, if_pos hs]
      refine ⟨?_, .inr ⟨by simp, hs, hleft, rfl⟩⟩
      rw [List.filterMap_append]
      rfl
  | closing _ => exact ⟨(List.append_nil _).symm, .inl ⟨.inl rfl, ReadyState.noConfusion⟩⟩
  | closed _ => exact ⟨(List.append_nil _).symm, .inl ⟨.inr rfl, ReadyState.noConfusion⟩⟩

/-- From where the script is over, every listener sends back what comes while the connection is
open. -/
theorem echoes_of_opened {es : List Event} (hs : s.readyState = .opened)
    (hleft : s.script.left = []) (hrun : run (step library query) s es = some t) :
    t.sent.filterMap echoOf = s.sent.filterMap echoOf ++
      ((whileOpen es).filterMap messageOf).flatMap (List.replicate s.listeners) := by
  induction es generalizing s with
  | nil =>
      cases hrun
      exact (List.append_nil _).symm
  | cons e es ih =>
      obtain ⟨m, hm, ht⟩ := run_cons_eq_some_iff.mp hrun
      obtain ⟨hechoes, ⟨he, hm'⟩ | ⟨he, hm', hleft', hlisteners⟩⟩ := opened_step hs hleft hm
      · have hopen : whileOpen (e :: es) = [] := by
          rcases he with rfl | rfl <;> rfl
        have hnone : messageOf e = none := by
          rcases he with rfl | rfl <;> rfl
        rw [(quiet_of_run hm' ht).2.1, hechoes, hopen, hnone]
        rfl
      · have hopen : whileOpen (e :: es) = e :: whileOpen es := by
          rw [whileOpen, List.takeWhile_cons, if_pos (by simpa using he)]
          rfl
        rw [ih hm' hleft' ht, hechoes, hlisteners, hopen, List.append_assoc, List.filterMap_cons]
        cases messageOf e with
        | none => rfl
        | some message => simp

/-- A chain has at most one listener. -/
theorem Shaped.countP_eq (h : Shaped entries) :
    entries.countP (startsListener query) =
      if entries.any (startsListener query) then 1 else 0 := by
  rcases List.eq_nil_or_concat entries with rfl | ⟨before, last, rfl⟩
  · rfl
  · rw [List.concat_eq_append] at h ⊢
    have hbefore : before.countP (startsListener query) = 0 :=
      h.countP_eq_zero (List.cons_ne_nil last [])
    have hany : before.any (startsListener query) = false := by
      rw [List.any_eq_false]
      exact List.countP_eq_zero.mp hbefore
    rw [List.countP_append, hbefore, List.any_append, hany]
    simp [List.countP_singleton]

/-- The connection is open when the script is over, or no entry is a listener. -/
theorem listeners_of_last (hshaped : Shaped entries) (h : Heard query entries s)
    (hleft : s.script.left ≠ []) {e : Event} (hstep : step library query s e = some t)
    (hover : t.script.left = []) : t.readyState = .opened ∨ t.listeners = 0 := by
  cases stepped_of_step hstep with
  | finished hscript =>
      rw [hscript] at hleft
      exact absurd rfl hleft
  | left hscript _ =>
      cases hover
  | elapsed hscript =>
      rw [hscript] at hleft
      exact absurd hover hleft
  | heard _ =>
      rw [send_script] at hover
      exact absurd hover hleft
  | ticked _ _ =>
      rw [tick_script] at hover
      exact absurd hover hleft
  | closing _ => exact absurd hover hleft
  | closed _ => exact absurd hover hleft
  | @turned entry rest _ hscript hstate hturned =>
      cases hturned with
      | stopped _ hrest _ _ _ _ _ =>
          rw [hrest] at hover
          cases hover
      | passed _ hreadyState _ _ hlisteners _ =>
          cases hclose : (scriptFrame query entry).any isClose with
          | false =>
              rw [hclose, if_neg Bool.false_ne_true] at hreadyState
              exact .inl hreadyState
          | true =>
              right
              have hnot : startsListener query entry = false := by
                rw [startsListener, decide_eq_false_iff_not]
                intro hlisten
                simp [scriptFrame, hlisten] at hclose
              rw [hlisteners, hnot, h.listeners_eq_zero hshaped hleft]
              rfl

theorem echoes_behindScript (hshaped : Shaped entries) {es : List Event}
    (h : Heard query entries s) (hleft : s.script.left ≠ [])
    (hrun : run (step library query) s es = some t) :
    t.sent.filterMap echoOf =
      if entries.any (startsListener query) then
        (whileOpen (behindScript library query s es)).filterMap messageOf
      else [] := by
  induction es generalizing s with
  | nil =>
      cases hrun
      rw [h.silent hleft, behindScript, whileOpen]
      simp
  | cons e es ih =>
      obtain ⟨m, hm, ht⟩ := run_cons_eq_some_iff.mp hrun
      have hheard := heard_step hshaped h hm
      have hbehind : behindScript library query s (e :: es) = behindScript library query m es := by
        rw [behindScript, if_neg hleft, hm, Option.elim_some]
      rw [hbehind]
      by_cases hover : m.script.left = []
      · have hall : behindScript library query m es = es := by
          cases es with
          | nil => rfl
          | cons e' es => rw [behindScript, if_pos hover]
        have hsilent := (echoes_of_left h hshaped hleft hm).trans (h.silent hleft)
        obtain ⟨done, hdone, hcount⟩ := hheard.listeners
        rw [hover, List.append_nil] at hdone
        rw [← hdone, hshaped.countP_eq] at hcount
        rw [hall]
        rcases listeners_of_last hshaped h hleft hm hover with hopened | hnone
        · rw [echoes_of_opened hopened hover ht, hsilent, hcount]
          split
          · exact List.flatMap_singleton' _
          · simp
        · rw [hnone] at hcount
          have hnot : ¬ entries.any (startsListener query) = true := by
            intro hany
            rw [if_pos hany] at hcount
            cases hcount
          rw [if_neg hnot]
          by_cases hopened : m.readyState = .opened
          · rw [echoes_of_opened hopened hover ht, hsilent, hnone]
            simp
          · rw [(quiet_of_run hopened ht).2.1, hsilent]
      · exact ih hheard hover ht

/-- A chain with an echo sends back, once each and in their order, exactly the messages that come
when no other handler is left to run and before the connection leaves the open state. Any other
chain echoes nothing. -/
theorem echoes_of_run {path : JsString} {hostnamePrefix : Option JsString}
    (hchain : handledWsChain path hostnamePrefix = .ok entries) {es : List Event}
    (hrun : run (step library query) (start entries) es = some t) :
    t.sent.filterMap echoOf =
      if entries.any (startsListener query) then
        (whileOpen (behindScript library query (start entries) es)).filterMap messageOf
      else [] := by
  have hshaped := shaped_of_chain hchain
  by_cases hnil : entries = []
  · rw [hnil] at hrun ⊢
    rw [echoes_of_opened rfl rfl hrun]
    simp [start]
  · exact echoes_behindScript hshaped heard_start hnil hrun

/-- The chain of `/ws/echo`. -/
def echoAlone : List WsEntry := [⟨⟨wsEchoEndpoint, wsEchoEndpoint.handle⟩, js "/ws/echo"⟩]

theorem echoes_late_message : ∃ t, handledWsChain (js "/ws/echo") none = .ok echoAlone ∧
    run (step strictLibrary []) (start echoAlone)
      [.message [1] true, .turn, .message [2] true, .closing, .message [3] true] = some t ∧
    t.sent.filterMap echoOf = [([2], true)] := by
  have hchain : handledWsChain (js "/ws/echo") none = .ok echoAlone := rfl
  have hrun : run (step strictLibrary []) (start echoAlone)
      [.message [1] true, .turn, .message [2] true, .closing, .message [3] true] = some _ := rfl
  exact ⟨_, hchain, hrun, (echoes_of_run hchain hrun).trans rfl⟩

/-- After the `close` event no timer is left. -/
def Cleared (s : WsSession) : Prop :=
  s.readyState = .closed → ∀ interval ∈ s.intervals, interval.cleared = true

theorem cleared_step (h : Cleared s) {e : Event} (hstep : step library query s e = some t) :
    Cleared t := by
  intro ht
  cases stepped_of_step hstep with
  | turned _ _ hturned =>
      cases hturned with
      | passed _ hreadyState _ _ _ _ =>
          rw [hreadyState] at ht
          split at ht <;> cases ht
      | stopped _ _ _ hopened _ _ _ => exact absurd ht hopened
  | heard hstate =>
      rw [send_readyState] at ht
      exact absurd ht hstate
  | ticked hinterval hcleared =>
      rw [tick_readyState] at ht
      have hall := h ht _ (List.mem_of_getElem? hinterval)
      rw [hcleared] at hall
      cases hall
  | closing _ => cases ht
  | closed _ =>
      intro interval hmem
      obtain ⟨before, -, rfl⟩ := List.mem_map.mp hmem
      rfl
  | finished _ => exact h ht
  | left _ _ => exact h ht
  | elapsed _ => exact h ht

/-- Whether a timer is running, as a number. -/
def running (i : Nat) (s : WsSession) : Nat :=
  (s.intervals[i]?).elim 0 fun interval => if interval.cleared then 0 else 1

theorem running_le_one (i : Nat) (s : WsSession) : running i s ≤ 1 := by
  rw [running]
  cases s.intervals[i]? with
  | none => exact Nat.zero_le 1
  | some interval =>
      rw [Option.elim_some]
      split <;> omega

/-- Where the connection is not open, a tick is the last one of its timer. -/
theorem running_step (hs : s.readyState ≠ .opened) (i : Nat) {e : Event}
    (hstep : step library query s e = some t) :
    (if decide (e = .tick i) then 1 else 0) + running i t ≤ running i s := by
  cases stepped_of_step hstep with
  | turned _ hstate _ => exact absurd hstate hs
  | closing hstate => exact absurd hstate hs
  | heard _ =>
      rw [send, if_neg hs]
      simp
  | @ticked j interval hinterval hcleared =>
      rw [tick, if_neg hs, running, running, List.getElem?_set]
      by_cases hj : j = i
      · subst hj
        rw [hinterval, if_pos rfl]
        have hlt := List.getElem?_eq_some_iff.mp hinterval
        simp [hlt.1, clear, hcleared]
      · simp [hj]
  | closed _ =>
      simp only [running, List.getElem?_map]
      cases s.intervals[i]? with
      | none => simp
      | some interval => simp [clear]
  | finished _ => simp [running]
  | left _ _ => simp [running]
  | elapsed _ => simp [running]

/-- What the callback has still to go through when it runs no handler any more. -/
def scriptRank : WsScript → Nat
  | .returned _ => 0
  | .running _ => 1
  | .delaying _ _ => 2

/-- After the `close` event only the callback goes on. -/
theorem rank_step (hs : s.readyState = .closed) (hcleared : Cleared s) {e : Event}
    (hstep : step library query s e = some t) :
    t.readyState = .closed ∧ 1 + scriptRank t.script ≤ scriptRank s.script := by
  cases stepped_of_step hstep with
  | finished hscript =>
      rw [hscript]
      exact ⟨hs, Nat.le_refl 1⟩
  | left hscript _ =>
      rw [hscript]
      exact ⟨hs, Nat.le_refl 1⟩
  | elapsed hscript =>
      rw [hscript]
      exact ⟨hs, Nat.le_refl 2⟩
  | turned _ hstate _ =>
      rw [hs] at hstate
      cases hstate
  | closing hstate =>
      rw [hs] at hstate
      cases hstate
  | heard hstate => exact absurd hs hstate
  | closed hstate => exact absurd hs hstate
  | ticked hinterval hnot =>
      have hall := hcleared hs _ (List.mem_of_getElem? hinterval)
      rw [hnot] at hall
      cases hall

/-- Once the connection is not open, nothing is sent and no handler runs, and each timer ticks at
most once more. Once it is closed, no timer ticks, and the callback is over after two events at
most. -/
theorem released_of_run {es fs : List Event}
    (hrun : run (step library query) (start entries) es = some s) (hs : s.readyState ≠ .opened)
    (hafter : run (step library query) s fs = some t) :
    t.sent = s.sent ∧ t.script.left = s.script.left ∧ (∀ i, fs.count (.tick i) ≤ 1) ∧
      (s.readyState = .closed → fs.length ≤ 2) := by
  obtain ⟨-, hsent, hleft⟩ := quiet_of_run hs hafter
  refine ⟨hsent, hleft, fun i => ?_, fun hclosed => ?_⟩
  · have hlower : ∀ u e v, u.readyState ≠ .opened → step library query u e = some v →
        v.readyState ≠ .opened ∧
          (if decide (e = .tick i) then 1 else 0) + running i v ≤ running i u :=
      fun u e v hu hstep => ⟨(quiet_step hu hstep).1, running_step hu i hstep⟩
    have hcount := countP_add_measure_le_of_invariant hlower hs hafter
    have hle := running_le_one i s
    have heq : fs.count (.tick i) = fs.countP fun e => decide (e = .tick i) := by
      rw [List.count_eq_countP]
      rfl
    omega
  · have hcleared : Cleared s :=
      run_invariant (fun _ _ _ h hstep => cleared_step h hstep) (fun h => by cases h) hrun
    have hlower : ∀ u e v, u.readyState = .closed ∧ Cleared u → step library query u e = some v →
        (v.readyState = .closed ∧ Cleared v) ∧
          (if true then 1 else 0) + scriptRank v.script ≤ scriptRank u.script := by
      intro u e v hu hstep
      obtain ⟨hv, hrank⟩ := rank_step hu.1 hu.2 hstep
      exact ⟨⟨hv, cleared_step hu.2 hstep⟩, hrank⟩
    have hcount : (fs.countP fun _ => true) + scriptRank t.script ≤ scriptRank s.script :=
      countP_add_measure_le_of_invariant hlower ⟨hclosed, hcleared⟩ hafter
    have hrank : scriptRank s.script ≤ 2 := by
      cases s.script <;> simp [scriptRank]
    rw [List.countP_true] at hcount
    omega

/-- The chain of `/ws/repeat/a/5`. -/
def repeatAlone : List WsEntry :=
  [⟨⟨wsRepeatEndpoint, wsRepeatEndpoint.handle⟩, js "/ws/repeat/a/5"⟩]

theorem released_repeatAlone : ∃ s t,
    run (step strictLibrary []) (start repeatAlone) [.turn, .tick 0, .closing] = some s ∧
      run (step strictLibrary []) s [.tick 0, .closed, .turn] = some t ∧ t.sent = s.sent := by
  refine ⟨_, _, rfl, rfl, ?_⟩
  exact (@released_of_run strictLibrary [] repeatAlone _ _ [.turn, .tick 0, .closing]
    [.tick 0, .closed, .turn] rfl ReadyState.noConfusion rfl).1

end TestServer.WsSession
