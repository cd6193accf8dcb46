import TestServer.WsTranscripts

/-!
# Sessions of written chains

The session of a chain that is written as a path does what the steps say: unless the connection
is lost before, the loop comes to an end, and then every text is sent and every timer started, in
the order of the steps.
-/

namespace TestServer

open Js Library Library.Runs Endpoints

theorem findMatch_map {ε ε' : Type} (f : ε' → ε) (chainable : ε → ChainableEndpoint)
    (path : JsString) (hostnamePrefix : Option JsString) (table : List ε') :
    findMatch chainable path hostnamePrefix (table.map f) =
      (findMatch (fun endpoint => chainable (f endpoint)) path hostnamePrefix table).map
        (Option.map f) := by
  induction table with
  | nil => rfl
  | cons endpoint rest ih =>
      rw [List.map_cons, findMatch, findMatch, ih]
      cases (chainable (f endpoint)).matchPath path hostnamePrefix with
      | error e => rfl
      | ok matched => cases matched <;> rfl

/-- What is added to the endpoints of a table is no part of the resolution. -/
theorem resolveFrom_map {ε ε' : Type} (f : ε' → ε) (chainable : ε → ChainableEndpoint)
    (table : List ε') (initialPath : JsString) (hostnamePrefix : Option JsString) (turns : Nat)
    (path : Option JsString) :
    resolveFrom chainable (table.map f) initialPath hostnamePrefix turns path =
      (resolveFrom (fun endpoint => chainable (f endpoint)) table initialPath hostnamePrefix turns
        path).map (List.map fun entry => ⟨f entry.endpoint, entry.path⟩) := by
  induction turns generalizing path with
  | zero =>
      match path with
      | none | some [] => rfl
      | some (c :: rest) => rfl
  | succ turns ih =>
      match path with
      | none | some [] => rfl
      | some (c :: rest) =>
          rw [resolveFrom, resolveFrom, findMatch_map]
          cases findMatch (fun endpoint => chainable (f endpoint)) (c :: rest) hostnamePrefix
              table with
          | error e => rfl
          | ok found =>
              cases found with
              | none => rfl
              | some endpoint =>
                  simp only [Except.map, Option.map_some, bind, Except.bind]
                  rw [ih]
                  cases resolveFrom (fun endpoint => chainable (f endpoint)) table initialPath
                      hostnamePrefix turns ((chainable (f endpoint)).getRemainingPath (c :: rest))
                  <;> rfl

/-- The chain of a session is the one that the upgrade is accepted with. -/
theorem map_handledWsChain (path : JsString) (hostnamePrefix : Option JsString) :
    resolveEndpointChain WebSocketEndpoint.toChainableEndpoint wsEndpoints path hostnamePrefix =
      (handledWsChain path hostnamePrefix).map (List.map WsEntry.plain) := by
  rw [← map_handledWsEndpoints]
  exact resolveFrom_map HandledWsEndpoint.toWebSocketEndpoint _ _ _ _ _ _

theorem nodup_handledWsEndpoints :
    (handledWsEndpoints.map fun endpoint => endpoint.name).Nodup := by
  decide

/-- An endpoint of the table is known by its name. -/
theorem eq_of_mem_handledWsEndpoints {endpoint other : HandledWsEndpoint}
    (hmem : endpoint ∈ handledWsEndpoints) (hother : other ∈ handledWsEndpoints)
    (hname : endpoint.name = other.name) : endpoint = other :=
  List.inj_on_of_nodup_map nodup_handledWsEndpoints hmem hother hname

namespace WsStep

/-- What the handler of the step does. -/
def effect (query : Query) : WsStep → WsEffect
  | delay seconds => .delay (some (cappedDelayMs seconds.number))
  | message text => .send text.units
  | repeated text freqMs _ => .every (some (toDouble freqMs)) text.units
  | subprotocol _ _ => .nothing
  | noSubprotocol => .nothing
  | echo => .listen
  | close code _ => .close (some code) (queryGet query (js "reason"))
  | reset => .destroySocket

def handled : WsStep → HandledWsEndpoint
  | delay _ => ⟨wsDelayEndpoint, wsDelayEndpoint.handle⟩
  | message _ => ⟨wsMessageEndpoint, wsMessageEndpoint.handle⟩
  | repeated _ _ _ => ⟨wsRepeatEndpoint, wsRepeatEndpoint.handle⟩
  | subprotocol _ _ => ⟨wsSubprotocolEndpoint, wsSubprotocolEndpoint.handle⟩
  | noSubprotocol => ⟨wsNoSubprotocolEndpoint, wsNoSubprotocolEndpoint.handle⟩
  | echo => ⟨wsEchoEndpoint, wsEchoEndpoint.handle⟩
  | close _ _ => ⟨wsCloseEndpoint, wsCloseEndpoint.handle⟩
  | reset => ⟨wsResetEndpoint, wsResetEndpoint.handle⟩

theorem handled_mem (step : WsStep) : step.handled ∈ handledWsEndpoints := by
  cases step <;> simp only [handled, handledWsEndpoints, List.mem_cons, true_or, or_true]

/-- The entry of a step has its handler, which does what the step says. -/
theorem effectOf_of_resolved {step : WsStep} {entry : WsEntry} (query : Query)
    (hmem : entry.endpoint ∈ handledWsEndpoints) (h : step.Resolved entry.plain) :
    WsSession.effectOf query entry = .ok (step.effect query) := by
  obtain ⟨hendpoint, hread⟩ := h
  have hname : entry.endpoint.name = step.handled.name := by
    change entry.plain.endpoint.name = _
    rw [hendpoint]
    cases step <;> rfl
  rw [WsSession.effectOf, eq_of_mem_handledWsEndpoints hmem step.handled_mem hname]
  cases step with
  | delay seconds =>
      simp only [handled, wsDelayEndpoint.handle]
      rw [show parseDelaySeconds entry.path = _ from hread]
      rfl
  | message text =>
      simp only [handled, wsMessageEndpoint.handle]
      rw [show parseMessage entry.path = _ from hread]
      rfl
  | repeated text freqMs positive =>
      simp only [handled, wsRepeatEndpoint.handle]
      rw [show parseRepeatParams entry.path = _ from hread]
      rfl
  | close code valid =>
      simp only [handled, wsCloseEndpoint.handle]
      rw [show parseCloseCode entry.path = _ from hread]
      rfl
  | _ => rfl

/-- The frame that the step sends by itself. -/
def frame (query : Query) : WsStep → Option WsFrame
  | message text => some (.message text.units)
  | close code _ => some (.close (some code) (queryGet query (js "reason")))
  | _ => none

/-- The timer that the step starts. -/
def timer : WsStep → Option (JsString × Option JsNumber)
  | repeated text freqMs _ => some (text.units, some (toDouble freqMs))
  | _ => none

def isEcho : WsStep → Bool
  | echo => true
  | _ => false

def isReset : WsStep → Bool
  | reset => true
  | _ => false

end WsStep

namespace WsSession

variable {library : WsLibrary} {query : Query} {entries : List WsEntry} {s t : WsSession}

theorem resolved_of_written {chain : WsChain} {hostnamePrefix : Option JsString}
    (hchain : handledWsChain chain.path hostnamePrefix = .ok entries) :
    List.Forall₂ (fun step entry => step.Resolved (WsEntry.plain entry)) chain.steps entries := by
  have hpath : some chain.path = leftOver (chain.steps.flatMap WsStep.written) := by
    rw [leftOver, if_neg (mt flatMap_written_eq_nil.mp chain.nonempty)]
    rfl
  obtain ⟨plain, hplain, hresolved⟩ :=
    resolveFrom_written chain.path hostnamePrefix chain.bounded chain.endsLast
  have hmap := map_handledWsChain chain.path hostnamePrefix
  rw [resolveEndpointChain, hpath, hplain, hchain] at hmap
  cases hmap
  exact List.forall₂_map_right_iff.mp hresolved

/-- The handlers of a written chain do what the steps say. -/
theorem effects_of_written {chain : WsChain} {hostnamePrefix : Option JsString}
    (hchain : handledWsChain chain.path hostnamePrefix = .ok entries) (query : Query) :
    List.Forall₂ (fun entry step => effectOf query entry = .ok (WsStep.effect query step))
      entries chain.steps := by
  have htable := (shaped_of_chain hchain).table
  have hresolved := resolved_of_written hchain
  generalize chain.steps = steps at hresolved ⊢
  clear hchain
  induction hresolved with
  | nil => exact .nil
  | cons hhead _ ih =>
      obtain ⟨hmem, hrest⟩ := List.forall_mem_cons.mp htable
      exact .cons (WsStep.effectOf_of_resolved query hmem hhead) (ih hrest)

/-- What a timer sends, and how often. -/
def timerOf (interval : WsInterval) : JsString × Option JsNumber :=
  (interval.message, interval.freqMs)

/-- The handlers of some entries have all left what they leave. -/
structure Worked (query : Query) (entries : List WsEntry) (s : WsSession) : Prop where
  finished : ∀ rest, s.script = .returned rest → rest = []
  worked : ∃ done, entries = done ++ s.script.left ∧
    (s.readyState = .opened ∨ s.readyState = .closing ∧ s.script.left = []) ∧
    s.intervals.map timerOf = (done.filterMap (startedInterval query)).map timerOf ∧
    s.listeners = done.countP (startsListener query) ∧
    s.socketDestroyed = done.any (destroysSocket query)

theorem worked_start : Worked query entries (start entries) :=
  ⟨fun _ h => WsScript.noConfusion h, [], rfl, .inl rfl, rfl, rfl, rfl⟩

/-- An event that leaves the script where it is. -/
theorem Worked.of_script (h : Worked query entries s) (hscript : t.script.left = s.script.left)
    (hover : ∀ rest, t.script = .returned rest → rest = [])
    (hstate : t.readyState = s.readyState)
    (hintervals : t.intervals.map timerOf = s.intervals.map timerOf)
    (hlisteners : t.listeners = s.listeners) (hsocket : t.socketDestroyed = s.socketDestroyed) :
    Worked query entries t := by
  obtain ⟨done, hdone⟩ := h.worked
  refine ⟨hover, done, ?_⟩
  rw [hscript, hstate, hintervals, hlisteners, hsocket]
  exact hdone

/-- Setting a timer to a cleared one changes nothing of what it sends. -/
theorem map_timerOf_set {intervals : List WsInterval} {i : Nat} {interval : WsInterval}
    (h : intervals[i]? = some interval) :
    (intervals.set i (clear interval)).map timerOf = intervals.map timerOf := by
  obtain ⟨hlt, rfl⟩ := List.getElem?_eq_some_iff.mp h
  have hlt' : i < (intervals.map timerOf).length := by
    rw [List.length_map]
    exact hlt
  have htimer : timerOf (clear intervals[i]) = (intervals.map timerOf)[i] := by
    rw [List.getElem_map]
    rfl
  rw [List.map_set, htimer, List.set_getElem_self]

theorem effectOf_of_isClose {entry : WsEntry} (h : (scriptFrame query entry).any isClose = true) :
    ∃ code reason, effectOf query entry = .ok (.close code reason) := by
  simp only [scriptFrame] at h
  split at h
  case h_1 => cases h
  case h_2 code reason heffect => exact ⟨code, reason, heffect⟩
  case h_3 => cases h

theorem worked_step (hshaped : Shaped entries)
    (hworks : ∀ entry ∈ entries, ¬ Stops library query entry) (h : Worked query entries s)
    {e : Event} (he : e ≠ .closing ∧ e ≠ .closed) (hstep : step library query s e = some t) :
    Worked query entries t := by
  cases stepped_of_step hstep with
  | closing _ => exact absurd rfl he.1
  | closed _ => exact absurd rfl he.2
  | finished hscript =>
      exact h.of_script (by rw [hscript]; rfl) (fun _ hrest => by cases hrest; rfl) rfl rfl rfl rfl
  | elapsed hscript =>
      exact h.of_script (by rw [hscript]; rfl) (fun _ hrest => by cases hrest) rfl rfl rfl rfl
  | heard _ =>
      rw [send]
      split
      · exact h.of_script rfl h.finished rfl rfl rfl rfl
      · exact h
  | ticked hinterval _ =>
      rw [tick, send]
      split
      case isTrue hopened => exact h.of_script rfl h.finished rfl rfl rfl rfl
      case isFalse => exact h.of_script rfl h.finished rfl (map_timerOf_set hinterval) rfl rfl
  | left hscript hstate =>
      obtain ⟨done, -, hopened | ⟨-, hleft⟩, -⟩ := h.worked
      · exact absurd hopened hstate
      · rw [hscript] at hleft
        cases hleft
  | @turned entry rest _ hscript hstate hturned =>
      obtain ⟨done, hdone, -, hintervals, hlisteners, hsocket⟩ := h.worked
      rw [hscript, WsScript.left] at hdone
      have hmem : entry ∈ entries := by
        rw [hdone]
        exact List.mem_append_right done List.mem_cons_self
      cases hturned with
      | stopped hstops _ _ _ _ _ _ => exact absurd hstops (hworks entry hmem)
      | passed hpassed hreadyState _ hintervals' hlisteners' hsocket' =>
          refine ⟨fun _ hover => ?_, done ++ [entry], ?_, ?_, ?_, ?_, ?_⟩
          · rcases hpassed with hpassed | ⟨ms, hpassed⟩ <;> rw [hpassed] at hover <;> cases hover
          · rw [left_of_passed hpassed, List.append_assoc]
            exact hdone
          · rw [hreadyState, left_of_passed hpassed]
            cases hclose : (scriptFrame query entry).any isClose with
            | false => exact .inl rfl
            | true =>
                rw [hdone] at hshaped
                obtain ⟨code, reason, heffect⟩ := effectOf_of_isClose hclose
                exact .inr ⟨rfl, hshaped.eq_nil heffect rfl⟩
          · rw [hintervals', List.map_append, hintervals, List.filterMap_append, List.map_append]
            cases hinterval : startedInterval query entry <;> simp [hinterval]
          · rw [hlisteners', hlisteners, List.countP_append, List.countP_singleton]
          · rw [hsocket', hsocket, List.any_append]
            simp

theorem worked_of_run (hshaped : Shaped entries)
    (hworks : ∀ entry ∈ entries, ¬ Stops library query entry) {es : List Event}
    (hopen : ∀ e ∈ es, e ≠ .closing ∧ e ≠ .closed)
    (hrun : run (step library query) (start entries) es = some s) : Worked query entries s :=
  guarded_invariant (fun _ _ _ h he hstep => worked_step hshaped hworks h he hstep) worked_start
    (guarded_of_forall_mem hopen _) hrun

/-- An event of the loop itself. -/
def isLoop : Event → Bool
  | .turn | .elapse => true
  | _ => false

/-- A bound on the events of the loop that can still come. -/
def pending (s : WsSession) : Nat :=
  match s.script with
  | .running rest => 2 * rest.length + 1
  | .delaying _ rest => 2 * rest.length + 2
  | .returned _ => 0

theorem pending_step {e : Event} (hstep : step library query s e = some t) :
    (if isLoop e then 1 else 0) + pending t ≤ pending s := by
  cases stepped_of_step hstep with
  | finished hscript => simp [pending, hscript, isLoop]
  | left hscript _ =>
      simp only [pending, hscript, isLoop, if_true]
      omega
  | elapsed hscript =>
      simp only [pending, hscript, isLoop, if_true]
      omega
  | heard _ => simp [pending, isLoop]
  | ticked _ _ => simp [pending, isLoop]
  | closing _ => simp [pending, isLoop]
  | closed _ => simp [pending, isLoop]
  | @turned entry rest _ hscript _ hturned =>
      have hbefore : pending s = 2 * rest.length + 3 := by
        rw [pending, hscript]
        rfl
      rw [hbefore, isLoop, if_pos rfl]
      cases hturned with
      | stopped _ hrest _ _ _ _ _ =>
          rw [pending, hrest]
          exact Nat.le_add_left 1 _
      | passed hpassed _ _ _ _ _ =>
          rcases hpassed with hpassed | ⟨ms, hpassed⟩
          · simp only [pending, hpassed]
            omega
          · simp only [pending, hpassed]
            omega

/-- A loop that cannot go on is over. -/
theorem returned_of_stuck (hturn : step library query s .turn = none)
    (helapse : step library query s .elapse = none) : ∃ rest, s.script = .returned rest := by
  cases hscript : s.script with
  | running rest => simp [step, hscript] at hturn
  | delaying ms rest => simp [step, hscript] at helapse
  | returned rest => exact ⟨rest, rfl⟩

theorem map_eq_of_forall₂ {α β γ : Type*} {f : α → γ} {g : β → γ} {xs : List α} {ys : List β}
    (h : List.Forall₂ (fun x y => f x = g y) xs ys) : xs.map f = ys.map g :=
  List.forall₂_eq_eq_eq ▸ List.forall₂_map_left_iff.mpr (List.forall₂_map_right_iff.mpr h)

theorem filterMap_eq_of_forall₂ {α β γ : Type*} {f : α → Option γ} {g : β → Option γ}
    {xs : List α} {ys : List β} (h : List.Forall₂ (fun x y => f x = g y) xs ys) :
    xs.filterMap f = ys.filterMap g := by
  calc xs.filterMap f = (xs.map f).filterMap id := by rw [List.filterMap_map, Function.id_comp]
    _ = (ys.map g).filterMap id := by rw [map_eq_of_forall₂ h]
    _ = ys.filterMap g := by rw [List.filterMap_map, Function.id_comp]

section

variable {entry : WsEntry} {step : WsStep}

theorem scriptFrame_of_effect (h : effectOf query entry = .ok (step.effect query)) :
    scriptFrame query entry = step.frame query := by
  rw [scriptFrame, h]
  cases step <;> rfl

theorem startedInterval_of_effect (h : effectOf query entry = .ok (step.effect query)) :
    (startedInterval query entry).map timerOf = step.timer := by
  rw [startedInterval, h]
  cases step <;> rfl

theorem startsListener_of_effect (h : effectOf query entry = .ok (step.effect query)) :
    startsListener query entry = step.isEcho := by
  rw [startsListener, h]
  cases step <;> rfl

theorem destroysSocket_of_effect (h : effectOf query entry = .ok (step.effect query)) :
    destroysSocket query entry = step.isReset := by
  rw [destroysSocket, h]
  cases step <;> rfl

end

/-- The session of a written chain on a connection that stays open but for the chain itself: the
loop goes on a bounded number of times, and when it cannot go on every step of the chain has done
its part and no handler has done anything else. -/
theorem session_of_written {chain : WsChain} {hostnamePrefix : Option JsString}
    (hchain : handledWsChain chain.path hostnamePrefix = .ok entries)
    (haccepts : ∀ code valid, WsStep.close code valid ∈ chain.steps →
      library.acceptsClose (some (code : Int)) (queryGet query (js "reason")) = true)
    {es : List Event} (hopen : ∀ e ∈ es, e ≠ .closing ∧ e ≠ .closed)
    (hrun : run (step library query) (start entries) es = some s) :
    es.countP isLoop ≤ 2 * chain.steps.length + 1 ∧
      (step library query s .turn = none → step library query s .elapse = none →
        s.sent.filter isScripted = chain.steps.filterMap (WsStep.frame query) ∧
        s.intervals.map timerOf = chain.steps.filterMap WsStep.timer ∧
        s.listeners = chain.steps.countP WsStep.isEcho ∧
        s.socketDestroyed = chain.steps.any WsStep.isReset) := by
  have heffects := effects_of_written hchain query
  have hlength : entries.length = chain.steps.length := heffects.length_eq
  have hworks : ∀ entry ∈ entries, ¬ Stops library query entry := by
    intro entry hentry hstops
    have hmem : effectOf query entry ∈ entries.map (effectOf query) := List.mem_map_of_mem hentry
    rw [map_eq_of_forall₂ heffects] at hmem
    obtain ⟨step, hstep, heffect⟩ := List.mem_map.mp hmem
    rcases hstops with ⟨e, herror⟩ | ⟨code, reason, hclose, hrefused⟩
    · rw [herror] at heffect
      cases heffect
    · rw [hclose] at heffect
      cases step <;> cases heffect
      rw [haccepts _ _ hstep] at hrefused
      cases hrefused
  refine ⟨?_, fun hturn helapse => ?_⟩
  · have hcount : es.countP isLoop + pending s ≤ pending (start entries) :=
      countP_add_measure_le (fun _ _ _ hstep => pending_step hstep) hrun
    have hstart : pending (start entries) = 2 * entries.length + 1 := rfl
    omega
  · obtain ⟨rest, hreturned⟩ := returned_of_stuck hturn helapse
    have hworked := worked_of_run (shaped_of_chain hchain) hworks hopen hrun
    have hleft : s.script.left = [] := by
      rw [hreturned]
      exact hworked.finished rest hreturned
    obtain ⟨done, hdone, -, hintervals, hlisteners, hsocket⟩ := hworked.worked
    rw [hleft, List.append_nil] at hdone
    subst hdone
    refine ⟨?_, ?_, ?_, ?_⟩
    · obtain ⟨done, hdone, hscripted, -⟩ := (told_of_run hrun).scripted
      rw [hleft] at hdone hscripted
      rw [List.append_nil] at hdone
      subst hdone
      generalize hframes : s.sent.filter isScripted = frames at hscripted
      cases hscripted
      exact filterMap_eq_of_forall₂ (heffects.imp fun _ _ h => scriptFrame_of_effect h)
    · rw [hintervals, List.map_filterMap]
      exact filterMap_eq_of_forall₂ (heffects.imp fun _ _ h => startedInterval_of_effect h)
    · have hmap := map_eq_of_forall₂ (heffects.imp fun _ _ h => startsListener_of_effect h)
      rw [hlisteners, ← Function.id_comp (startsListener query), ← List.countP_map, hmap,
        List.countP_map]
      rfl
    · have hmap := map_eq_of_forall₂ (heffects.imp fun _ _ h => destroysSocket_of_effect h)
      rw [hsocket, ← Function.id_comp (destroysSocket query), ← List.any_map, hmap, List.any_map]
      rfl

def greetingEntries : List WsEntry :=
  [⟨⟨wsMessageEndpoint, wsMessageEndpoint.handle⟩, js "/ws/message/hi/echo"⟩,
    ⟨⟨wsEchoEndpoint, wsEchoEndpoint.handle⟩, js "/ws/echo"⟩]

theorem session_of_greeting : ∃ s, handledWsChain greeting.path none = .ok greetingEntries ∧
    run (step strictLibrary []) (start greetingEntries)
      [.turn, .turn, .message [1] true, .turn] = some s ∧
    s.sent.filter isScripted = [.message (js "hi")] := by
  have hchain : handledWsChain greeting.path none = .ok greetingEntries := rfl
  have hrun : run (step strictLibrary []) (start greetingEntries)
      [.turn, .turn, .message [1] true, .turn] = some _ := rfl
  have haccepts : ∀ code valid, WsStep.close code valid ∈ greeting.steps →
      strictLibrary.acceptsClose (some (code : Int)) (queryGet [] (js "reason")) = true := by
    intro code valid h
    simp [greeting] at h
  exact ⟨_, hchain, hrun, ((session_of_written hchain haccepts (by decide) hrun).2 rfl rfl).1⟩

end WsSession

end TestServer
