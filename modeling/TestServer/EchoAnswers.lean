import TestServer.Http1Connection
import TestServer.Library.Runs

/-!
# Echoes over HTTP/1

A request arrives alone when its first byte begins a chunk while no handler runs
and nothing is captured. Until a request that arrived alone is answered, and
while no byte after it is received, the captured bytes are its own. Its echo is
then exact.
-/

namespace TestServer

open Js Library Library.Runs

namespace Http1Connection

variable (requests : Nat → WireRequest)

/-- Every echo is the bytes of its request. -/
def EchoesExactly (s : Http1Connection) : Prop :=
  ∀ answer ∈ s.echoed, answer.2 = bytesOf requests answer.1

/-- The requests that an observer has seen arrive alone. -/
def observe (s : Http1Connection) (alone : List Nat) : Event → List Nat
  | .chunk _ =>
      if start requests s.started = s.received ∧ s.handlers.entries = [] ∧
          s.receivedData = some [] then
        s.started :: alone
      else alone
  | _ => alone

/-- A step of the connection under observation. -/
def observedStep (so : Http1Connection × List Nat) (e : Event) :
    Option (Http1Connection × List Nat) :=
  (so.1.step requests e).map fun t => (t, so.1.observe requests so.2 e)

/-- The condition on a step: a request that is echoed has arrived alone, and no byte after it
is received. -/
def EchoesAlone (so : Http1Connection × List Nat) : Event → Prop
  | .resume i =>
      so.1.handlers.get i = some .body → bodyEnd requests i ≤ so.1.received →
        i ∈ so.2 ∧ so.1.received = bodyEnd requests i
  | _ => True

instance (so : Http1Connection × List Nat) (e : Event) :
    Decidable (EchoesAlone requests so e) := by
  cases e <;> dsimp only [EchoesAlone] <;> infer_instance

/-- A request whose head is incomplete, or whose handler may still echo it. -/
def Pending (s : Http1Connection) (i : Nat) : Prop :=
  i = s.started ∨ ∃ phase, s.handlers.get i = some phase ∧ phase.mayEcho = true

/-- The captured bytes are those received of a request, and no other handler runs. -/
def Captures (s : Http1Connection) (i : Nat) : Prop :=
  (∀ j phase, s.handlers.get j = some phase → j = i) ∧
    ∃ data, s.receivedData = some data ∧
      data.flatten = List.range' (start requests i) (s.received - start requests i)

/-- The handlers of all complete heads are started, and a pending request that arrived alone is
captured while no byte after it is received. -/
structure Inv (so : Http1Connection × List Nat) : Prop where
  next : so.1.received < headEnd requests so.1.started
  handled : ∀ i phase, so.1.handlers.get i = some phase → i < so.1.started
  begun : ∀ i ∈ so.2, start requests i < so.1.received
  captures : ∀ i ∈ so.2, so.1.Pending i → so.1.received ≤ bodyEnd requests i →
    so.1.Captures requests i
  exact : so.1.EchoesExactly requests

variable {requests} {s t : Http1Connection} {alone : List Nat}

theorem start_lt_headEnd (i : Nat) : start requests i < headEnd requests i :=
  Nat.lt_add_of_pos_right (requests i).headLength_pos

theorem headEnd_le_bodyEnd (i : Nat) : headEnd requests i ≤ bodyEnd requests i :=
  Nat.le_add_right _ _

theorem bodyEnd_lt_headEnd (i : Nat) : bodyEnd requests i < headEnd requests (i + 1) :=
  start_lt_headEnd (i + 1)

/-- A later request starts where the one before it ends, or after. -/
theorem bodyEnd_le_start {i j : Nat} (h : i < j) : bodyEnd requests i ≤ start requests j := by
  induction j with
  | zero => cases h
  | succ j ih =>
      rcases Nat.lt_succ_iff_lt_or_eq.mp h with hlt | rfl
      · calc bodyEnd requests i
            ≤ start requests j := ih hlt
          _ ≤ headEnd requests j := Nat.le_of_lt (start_lt_headEnd j)
          _ ≤ bodyEnd requests j := headEnd_le_bodyEnd j
      · exact Nat.le_refl _

theorem headEnd_lt_headEnd {i j : Nat} (h : i < j) :
    headEnd requests i < headEnd requests j :=
  calc headEnd requests i
      ≤ bodyEnd requests i := headEnd_le_bodyEnd i
    _ ≤ start requests j := bodyEnd_le_start h
    _ < headEnd requests j := start_lt_headEnd j

theorem startHandlers_of_lt {upTo n : Nat} (h : upTo < headEnd requests s.started) :
    startHandlers requests upTo n s = s := by
  cases n with
  | zero => rfl
  | succ n => exact if_neg (Nat.not_le_of_lt h)

/-- Of the heads that end up to a place, the first one is the only one. -/
theorem startHandlers_one {upTo n : Nat} (hn : 0 < n) (hle : headEnd requests s.started ≤ upTo)
    (hlt : upTo < headEnd requests (s.started + 1)) :
    startHandlers requests upTo n s = startHandler requests s := by
  obtain ⟨n, rfl⟩ := Nat.exists_eq_succ_of_ne_zero (Nat.ne_of_gt hn)
  rw [startHandlers, if_pos hle]
  exact startHandlers_of_lt hlt

theorem next_startHandlers {upTo n : Nat} (h : upTo < headEnd requests s.started + n) :
    upTo < headEnd requests (startHandlers requests upTo n s).started := by
  induction n generalizing s with
  | zero => exact h
  | succ n ih =>
      rw [startHandlers]
      split_ifs with hle
      · apply ih
        have hnext : headEnd requests s.started < headEnd requests (s.started + 1) :=
          headEnd_lt_headEnd (Nat.lt_succ_self _)
        calc upTo
            < headEnd requests s.started + (n + 1) := h
          _ ≤ headEnd requests (s.started + 1) + n := by omega
      · exact Nat.lt_of_not_le hle

theorem handled_startHandler (h : ∀ i phase, s.handlers.get i = some phase → i < s.started) :
    ∀ i phase, (startHandler requests s).handlers.get i = some phase →
      i < (startHandler requests s).started := by
  intro i phase hget
  simp only [startHandler] at hget ⊢
  rw [InsertionMap.get_set] at hget
  split_ifs at hget with hi
  · exact hi ▸ Nat.lt_succ_self _
  · exact Nat.lt_succ_of_lt (h i phase hget)

theorem handled_startHandlers {upTo n : Nat}
    (h : ∀ i phase, s.handlers.get i = some phase → i < s.started) :
    ∀ i phase, (startHandlers requests upTo n s).handlers.get i = some phase →
      i < (startHandlers requests upTo n s).started := by
  induction n generalizing s with
  | zero => exact h
  | succ n ih =>
      rw [startHandlers]
      split_ifs
      · exact ih (handled_startHandler h)
      · exact h

/-- Starting handlers answers no request. -/
theorem echoed_startHandlers {upTo n : Nat} :
    (startHandlers requests upTo n s).echoed = s.echoed := by
  induction n generalizing s with
  | zero => rfl
  | succ n ih =>
      rw [startHandlers]
      split_ifs
      · exact ih
      · rfl

/-- A handler that may echo as soon as it is started goes on with the capture. -/
theorem receivedData_startHandler
    (h : (firstPhase (requests s.started).course).mayEcho = true) :
    (startHandler requests s).receivedData = s.receivedData := by
  simp only [startHandler]
  cases hcourse : (requests s.started).course with
  | chain => simp [hcourse, firstPhase, HandlerPhase.mayEcho] at h
  | echo hops => rfl
  | acmeChallenge => rfl
  | answered => rfl

/-- The capture of a request goes on when its handler is started and may echo. -/
theorem captures_startHandler (h : s.Captures requests s.started)
    (hphase : (firstPhase (requests s.started).course).mayEcho = true) :
    (startHandler requests s).Captures requests s.started := by
  obtain ⟨halone, data, hdata, hflatten⟩ := h
  constructor
  · intro j phase hget
    simp only [startHandler, InsertionMap.get_set] at hget
    split_ifs at hget with hj
    · exact hj
    · exact halone j phase hget
  · exact ⟨data, (receivedData_startHandler hphase).trans hdata, hflatten⟩

theorem flatten_append_range' {data : List (List Nat)} {first received length : Nat}
    (hle : first ≤ received) (h : data.flatten = List.range' first (received - first)) :
    (data ++ [List.range' received length]).flatten =
      List.range' first (received + length - first) :=
  calc (data ++ [List.range' received length]).flatten
      = data.flatten ++ List.range' received length := by simp
    _ = List.range' first (received - first) ++
          List.range' (first + (received - first)) length := by
        rw [h, Nat.add_sub_cancel' hle]
    _ = List.range' first (received - first + length) := List.range'_append_1
    _ = List.range' first (received + length - first) := by rw [Nat.sub_add_comm hle]

/-- A captured chunk follows what is captured of the request. -/
theorem captures_append {i received length : Nat} (h : t.Captures requests i)
    (hreceived : t.received = received) (hle : start requests i ≤ received) :
    Captures requests { t with
      received := received + length
      receivedData := t.receivedData.map (· ++ [List.range' received length]) } i := by
  subst hreceived
  obtain ⟨halone, data, hdata, hflatten⟩ := h
  refine ⟨halone, data ++ [List.range' t.received length], ?_, ?_⟩
  · exact congrArg (Option.map _) hdata
  · exact flatten_append_range' hle hflatten

theorem mem_observe_chunk {i length : Nat} (h : i ∈ s.observe requests alone (.chunk length)) :
    i ∈ alone ∨ i = s.started ∧ start requests s.started = s.received ∧
      s.handlers.entries = [] ∧ s.receivedData = some [] := by
  simp only [observe] at h
  split_ifs at h with harrival
  · rcases List.mem_cons.mp h with hi | hi
    · exact .inr ⟨hi, harrival⟩
    · exact .inl hi
  · exact .inl h

/-- A request is captured from the moment that it arrives alone. -/
theorem captures_of_arrival (hstart : start requests s.started = s.received)
    (hhandlers : s.handlers.entries = []) (hdata : s.receivedData = some []) :
    s.Captures requests s.started := by
  constructor
  · intro j phase hget
    have hmem := InsertionMap.get_eq_some_iff.mp hget
    rw [hhandlers] at hmem
    cases hmem
  · refine ⟨[], hdata, ?_⟩
    rw [hstart, Nat.sub_self]
    rfl

/-- No head is complete after a request until a byte after it is received. -/
theorem startHandlers_of_le_bodyEnd {i upTo n : Nat} (hi : i < s.started)
    (hupTo : upTo ≤ bodyEnd requests i) : startHandlers requests upTo n s = s := by
  apply startHandlers_of_lt
  calc upTo
      ≤ bodyEnd requests i := hupTo
    _ ≤ start requests s.started := bodyEnd_le_start hi
    _ < headEnd requests s.started := start_lt_headEnd _

theorem pending_of_startHandlers {i upTo n : Nat} (hi : i ≤ s.started)
    (hupTo : upTo ≤ bodyEnd requests i) (h : (startHandlers requests upTo n s).Pending i) :
    s.Pending i := by
  rcases Nat.lt_or_eq_of_le hi with hlt | heq
  · rwa [startHandlers_of_le_bodyEnd hlt hupTo] at h
  · exact .inl heq

/-- The capture of a pending request goes on when handlers are started. -/
theorem captures_startHandlers {i upTo n : Nat} (hn : 0 < n) (hi : i ≤ s.started)
    (hupTo : upTo ≤ bodyEnd requests i) (h : s.Captures requests i)
    (hpending : (startHandlers requests upTo n s).Pending i) :
    (startHandlers requests upTo n s).Captures requests i := by
  rcases Nat.lt_or_eq_of_le hi with hlt | rfl
  · rwa [startHandlers_of_le_bodyEnd hlt hupTo]
  · rcases Nat.lt_or_ge upTo (headEnd requests s.started) with hlt | hle
    · rwa [startHandlers_of_lt hlt]
    -- The head is complete: its handler is the only one that is started.
    · have hone : startHandlers requests upTo n s = startHandler requests s :=
        startHandlers_one hn hle (Nat.lt_of_le_of_lt hupTo (bodyEnd_lt_headEnd _))
      rw [hone] at hpending ⊢
      apply captures_startHandler h
      rcases hpending with hself | ⟨phase, hget, hphase⟩
      · exact absurd hself (Nat.ne_of_lt (Nat.lt_succ_self _))
      · simp only [startHandler, InsertionMap.get_set_self, Option.some.injEq] at hget
        rwa [hget]

theorem received_startHandlers {upTo n : Nat} :
    (startHandlers requests upTo n s).received = s.received := by
  induction n generalizing s with
  | zero => rfl
  | succ n ih =>
      rw [startHandlers]
      split_ifs
      · exact ih
      · rfl

/-- A request that has arrived alone has begun, and none after the incomplete head has. -/
theorem Inv.start_le_received (h : Inv requests (s, alone)) {i length : Nat}
    (hi : i ∈ s.observe requests alone (.chunk length)) : start requests i ≤ s.received := by
  rcases mem_observe_chunk hi with hold | ⟨rfl, hstart, -⟩
  · exact Nat.le_of_lt (h.begun i hold)
  · exact Nat.le_of_eq hstart

theorem Inv.le_started (h : Inv requests (s, alone)) {i : Nat}
    (hi : start requests i ≤ s.received) : i ≤ s.started := by
  apply Nat.le_of_not_lt
  intro hlt
  apply Nat.not_le_of_lt h.next
  calc headEnd requests s.started
      ≤ bodyEnd requests s.started := headEnd_le_bodyEnd _
    _ ≤ start requests i := bodyEnd_le_start hlt
    _ ≤ s.received := hi

/-- A chunk keeps the invariant. -/
theorem Inv.receive (h : Inv requests (s, alone)) {length : Nat} (hpos : 0 < length) :
    Inv requests (s.receive requests length, s.observe requests alone (.chunk length)) where
  next := next_startHandlers (Nat.add_lt_add_right h.next length)
  handled := handled_startHandlers h.handled
  begun i (hi : i ∈ s.observe requests alone (.chunk length)) :=
    Nat.lt_of_le_of_lt (h.start_le_received hi) (Nat.lt_add_of_pos_right hpos)
  captures i hi hpending hend := by
    have harrived : i ∈ s.observe requests alone (.chunk length) := hi
    have hle : start requests i ≤ s.received := h.start_le_received harrived
    have hpending' : s.Pending i := pending_of_startHandlers (h.le_started hle) hend hpending
    apply captures_append _ received_startHandlers hle
    apply captures_startHandlers hpos (h.le_started hle) hend _ hpending
    rcases mem_observe_chunk harrived with hold | ⟨rfl, hstart, hhandlers, hdata⟩
    · exact h.captures i hold hpending' (Nat.le_trans (Nat.le_add_right _ _) hend)
    · exact captures_of_arrival hstart hhandlers hdata
  exact := by
    intro answer hanswer
    apply h.exact
    rwa [← echoed_startHandlers]

/-- While a request that arrived alone is pending and is the last one received, its handler is
the only one. -/
theorem Inv.eq_of_pending (h : Inv requests (s, alone)) {i j : Nat} {phase : HandlerPhase}
    (hget : s.handlers.get i = some phase) (hj : j ∈ alone) (hpending : s.Pending j)
    (hend : s.received ≤ bodyEnd requests j) : j = i ∧ phase.mayEcho = true := by
  obtain rfl : i = j := (h.captures j hj hpending hend).1 i phase hget
  refine ⟨rfl, ?_⟩
  rcases hpending with hself | ⟨phase', hget', hphase⟩
  · exact absurd hself (Nat.ne_of_lt (h.handled _ _ hget))
  · obtain rfl : phase = phase' := Option.some.inj (hget.symm.trans hget')
    exact hphase

theorem pending_of_setPhase {i j : Nat} {phase phase' : HandlerPhase}
    (hget : s.handlers.get i = some phase)
    (hphase : phase'.mayEcho = true → phase.mayEcho = true)
    (h : (s.setPhase i phase').Pending j) : s.Pending j := by
  rcases h with hself | ⟨later, hlater, hmay⟩
  · exact .inl hself
  · simp only [setPhase, InsertionMap.get_set] at hlater
    split_ifs at hlater with hj
    · obtain rfl : phase' = later := Option.some.inj hlater
      exact .inr ⟨phase, hj ▸ hget, hphase hmay⟩
    · exact .inr ⟨later, hlater, hmay⟩

theorem handled_setPhase (h : Inv requests (s, alone)) {i : Nat} {phase phase' : HandlerPhase}
    (hget : s.handlers.get i = some phase) :
    ∀ j later, (s.setPhase i phase').handlers.get j = some later → j < s.started := by
  intro j later hlater
  simp only [setPhase, InsertionMap.get_set] at hlater
  split_ifs at hlater with hj
  · exact hj ▸ h.handled i phase hget
  · exact h.handled j later hlater

/-- A handler that may echo keeps the invariant when it goes on. -/
theorem Inv.setPhase (h : Inv requests (s, alone)) {i : Nat} {phase : HandlerPhase}
    (hget : s.handlers.get i = some phase) (hphase : phase.mayEcho = true)
    (phase' : HandlerPhase) : Inv requests (s.setPhase i phase', alone) where
  next := h.next
  handled := handled_setPhase h hget
  begun := h.begun
  captures j hj hpending hend := by
    have hpending' : s.Pending j := pending_of_setPhase hget (fun _ => hphase) hpending
    obtain ⟨halone, hdata⟩ := h.captures j hj hpending' hend
    refine ⟨?_, hdata⟩
    intro k later hlater
    simp only [Http1Connection.setPhase, InsertionMap.get_set] at hlater
    split_ifs at hlater with hk
    · exact hk ▸ halone i phase hget
    · exact halone k later hlater
  exact := h.exact

/-- An `echo` that meets the condition is exact. -/
theorem Inv.echo (h : Inv requests (s, alone)) {i : Nat}
    (hget : s.handlers.get i = some .body) (halone : i ∈ alone)
    (hreceived : s.received = bodyEnd requests i) :
    (s.receivedData.getD []).flatten = bytesOf requests i := by
  have hpending : s.Pending i := .inr ⟨.body, hget, rfl⟩
  obtain ⟨-, data, hdata, hflatten⟩ := h.captures i halone hpending (Nat.le_of_eq hreceived)
  rw [hdata, Option.getD_some, hflatten, hreceived]
  apply congrArg (List.range' (start requests i))
  calc bodyEnd requests i - start requests i
      = start requests i + ((requests i).headLength + (requests i).bodyLength) -
          start requests i := by rw [← Nat.add_assoc]; rfl
    _ = (requests i).headLength + (requests i).bodyLength := Nat.add_sub_cancel_left _ _

/-- The handler of an ACME challenge resets the capture only while no request that arrived alone
is pending. -/
theorem Inv.acmeChallenge (h : Inv requests (s, alone)) {i : Nat}
    (hget : s.handlers.get i = some .acmeChallenge) :
    Inv requests ({ s.setPhase i .settling with receivedData := some [] }, alone) where
  next := h.next
  handled := handled_setPhase h hget
  begun := h.begun
  captures j hj hpending hend := by
    have hsettling : (s.setPhase i .settling).Pending j := hpending
    have hpending' : s.Pending j := pending_of_setPhase hget (fun hmay => by cases hmay) hsettling
    obtain ⟨-, hmay⟩ := h.eq_of_pending hget hj hpending' hend
    cases hmay
  exact := h.exact

/-- The same holds of the reset when a handler settles. -/
theorem Inv.settle (h : Inv requests (s, alone)) {i : Nat}
    (hget : s.handlers.get i = some .settling) : Inv requests (s.settle i, alone) := by
  have hold : ∀ j later, (s.settle i).handlers.get j = some later →
      s.handlers.get j = some later := by
    intro j later hlater
    simp only [Http1Connection.settle, InsertionMap.get_delete] at hlater
    split_ifs at hlater
    exact hlater
  refine ⟨h.next, fun j later hlater => h.handled j later (hold j later hlater), h.begun, ?_,
    h.exact⟩
  intro j hj hpending hend
  have hpending' : s.Pending j := by
    rcases hpending with hself | ⟨later, hlater, hmay⟩
    · exact .inl hself
    · exact .inr ⟨later, hold j later hlater, hmay⟩
  obtain ⟨-, hmay⟩ := h.eq_of_pending hget hj hpending' hend
  cases hmay

/-- The resumption of a handler keeps the invariant when it meets the condition. -/
theorem Inv.resume (h : Inv requests (s, alone)) {i : Nat} {phase : HandlerPhase}
    (hget : s.handlers.get i = some phase)
    (hok : EchoesAlone requests (s, alone) (.resume i))
    (hstep : s.resume requests i phase = some t) : Inv requests (t, alone) := by
  cases phase with
  | hop rest =>
      cases rest with
      | zero =>
          cases hstep
          exact h.setPhase hget rfl _
      | succ rest =>
          cases hstep
          exact h.setPhase hget rfl _
  | tick =>
      cases hstep
      exact h.setPhase hget rfl _
  | body =>
      simp only [Http1Connection.resume] at hstep
      split_ifs at hstep with hend
      cases hstep
      obtain ⟨halone, hreceived⟩ := hok hget hend
      obtain ⟨hnext, hhandled, hbegun, hcaptures, hexact⟩ := h.setPhase hget rfl .settling
      refine ⟨hnext, hhandled, hbegun, hcaptures, ?_⟩
      intro answer hanswer
      rcases List.mem_append.mp hanswer with hold | hnew
      · exact hexact answer hold
      · rw [List.mem_singleton.mp hnew]
        exact h.echo hget halone hreceived
  | acmeChallenge =>
      cases hstep
      exact h.acmeChallenge hget
  | settling =>
      cases hstep
      exact h.settle hget

theorem Inv.initial : Inv requests (initial, []) where
  next := start_lt_headEnd 0
  handled _ _ hget := by cases hget
  begun _ hi := by cases hi
  captures _ hi := by cases hi
  exact _ hanswer := by cases hanswer

/-- Every event that meets the condition keeps the invariant. -/
theorem Inv.step {so so' : Http1Connection × List Nat} {e : Event} (h : Inv requests so)
    (hok : EchoesAlone requests so e) (hstep : observedStep requests so e = some so') :
    Inv requests so' := by
  obtain ⟨s, alone⟩ := so
  obtain ⟨t, ht, rfl⟩ := Option.map_eq_some_iff.mp hstep
  cases e with
  | chunk length =>
      simp only [Http1Connection.step] at ht
      split_ifs at ht with hpos
      cases ht
      exact h.receive hpos
  | resume i =>
      obtain ⟨phase, hget, hresume⟩ := Option.bind_eq_some_iff.mp ht
      exact h.resume hget hok hresume
  | leave i =>
      obtain ⟨phase, hget, hleave⟩ := Option.bind_eq_some_iff.mp ht
      split_ifs at hleave with hphase
      cases hleave
      exact h.setPhase hget hphase .settling

/-- In a run whose echoed requests arrive alone, every echo is the bytes of its request. -/
theorem echoesExactly_of_run {so : Http1Connection × List Nat} {events : List Event}
    (hguarded : Guarded (observedStep requests) (EchoesAlone requests) (initial, []) events)
    (hrun : run (observedStep requests) (initial, []) events = some so) :
    so.1.EchoesExactly requests :=
  (guarded_invariant (fun _ _ _ h hok hstep => h.step hok hstep) Inv.initial hguarded
    hrun).exact

def echoRequest : HttpRequest := ⟨js "/echo", js "POST", some (js "t"), false, none⟩

def statusRequest : HttpRequest := ⟨js "/status/200", js "POST", some (js "t"), false, none⟩

/-- An answered request, and echoes with bodies after it. -/
def statusThenEchoes : Nat → WireRequest
  | 0 => ⟨10, by decide, 5, courseOf plainContext statusRequest⟩
  | _ + 1 => ⟨8, by decide, 3, courseOf plainContext echoRequest⟩

/-- The first request is answered when all of it is received, and an echo arrives in two chunks. -/
def sequential : List Event :=
  [.chunk 12, .chunk 3, .resume 0, .chunk 6, .chunk 5, .resume 1, .resume 1, .resume 1]

theorem echoesExactly_sequential :
    Guarded (observedStep statusThenEchoes) (EchoesAlone statusThenEchoes) (initial, [])
        sequential ∧
      ∃ so, run (observedStep statusThenEchoes) (initial, []) sequential = some so ∧
        so.1.echoed = [(1, List.range' 15 11)] ∧ so.1.EchoesExactly statusThenEchoes := by
  have hguarded : Guarded (observedStep statusThenEchoes) (EchoesAlone statusThenEchoes)
      (initial, []) sequential := by decide +kernel
  refine ⟨hguarded, _, rfl, ?_, echoesExactly_of_run hguarded rfl⟩
  decide

/-- The first request is answered before its body is received. -/
def lateBody : List Event :=
  [.chunk 10, .resume 0, .chunk 5, .chunk 11, .resume 1, .resume 1]

/-- The late body of an answered request is captured, and echoed with the next request. -/
theorem not_echoesExactly_lateBody :
    ∃ s, run (step statusThenEchoes) initial lateBody = some s ∧
      s.echoed = [(1, List.range' 10 16)] ∧ ¬ s.EchoesExactly statusThenEchoes := by
  refine ⟨_, rfl, ?_, ?_⟩
  · decide
  · intro h
    have hechoed := h (1, List.range' 10 16) (by decide)
    revert hechoed
    decide

end Http1Connection

end TestServer
