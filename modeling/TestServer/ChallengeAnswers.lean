import TestServer.DnsServer
import TestServer.Library.Runs

/-!
# Answers to challenge queries

An observer of a fleet keeps the records that were set and not removed, and the
values that each query for a challenge name has to be answered with: those whose
record lives from the query to its answer. They are answered on every machine
that holds no local value for the name, or holds them too. A machine that holds
another value for the name answers that one alone.
-/

namespace TestServer

open Js Library Library.Runs

namespace Fleet

/-- What an observer of the fleet knows. -/
structure Observer where
  /-- The keys and values whose `setTxtRecord` has resolved, not removed since. -/
  live : List (JsString × JsString)
  /-- The values that a query has to be answered with. -/
  owed : Nat → List JsString

namespace Observer

def initial : Observer := ⟨[], fun _ => []⟩

/-- The values that live for a name. -/
def valuesFor (o : Observer) (name : JsString) : List JsString :=
  (o.live.filter fun record => decide (record.1 = name)).map Prod.snd

/-- The values owed to a question that is asked now. -/
def due (o : Observer) (question : Question) (name : JsString) : List JsString :=
  if question.type = js "TXT" ∧ startsWith name acmeChallengePrefix then o.valuesFor name else []

theorem mem_valuesFor {o : Observer} {name value : JsString} :
    value ∈ o.valuesFor name ↔ (name, value) ∈ o.live := by
  simp [valuesFor]

end Observer

variable {σ : Type} (toLowerCase : JsString → JsString) (challengeStore : ChallengeStore σ)

/-- The values still owed to a query once a record is called to be removed. -/
def stillOwed (s : Fleet σ) (o : Observer) (key value : JsString) (id : Nat) : List JsString :=
  match s.queries.get id with
  | some query =>
      if toLowerCase query.question.name = key then
        (o.owed id).filter fun v => decide (v ≠ value)
      else o.owed id
  | none => o.owed id

/-- What the observer learns from an event, given the state before it. -/
def observe (s : Fleet σ) (o : Observer) : Event → Observer
  | .callResolves id =>
      match s.calls.get id with
      | some ⟨.set, key, value, _⟩ => { o with live := (key, value) :: o.live }
      | _ => o
  | .removeTxtRecord _ fqdn value =>
      let key := toLowerCase fqdn
      { live := o.live.filter fun record => decide (record ≠ (key, value))
        owed := s.stillOwed toLowerCase o key value }
  | .handleQuery _ (some question) =>
      { o with
        owed := fun id =>
          if id = s.nextId then o.due question (toLowerCase question.name) else o.owed id }
  | _ => o

/-- A step of the fleet under observation. -/
def observedStep (so : Fleet σ × Observer) (e : Event) : Option (Fleet σ × Observer) :=
  (so.1.step toLowerCase challengeStore e).map fun t => (t, so.1.observe toLowerCase so.2 e)

/-- The condition on a step. A machine that is queried holds no value for the name or all that
live for it; the store performs no removal of a record that lives, or whose setting it has
performed; and it answers a read for which values are owed. -/
def Answerable (so : Fleet σ × Observer) : Event → Prop
  | .handleQuery machine (some question) =>
      ∀ values ∈ (so.1.machines machine).txtRecords.get (toLowerCase question.name),
        ∀ value ∈ so.2.due question (toLowerCase question.name), value ∈ values
  | .storePerforms id =>
      ∀ call ∈ so.1.calls.get id, call.operation = .remove →
        (∀ record ∈ so.2.live, record ≠ (call.key, call.value)) ∧
          ∀ e ∈ so.1.calls.entries, e.2.operation = .set → e.2.performed = true →
            (e.2.key, e.2.value) ≠ (call.key, call.value)
  | .storeReadFails id => so.2.owed id = []
  | _ => True

instance (so : Fleet σ × Observer) (e : Event) : Decidable (Answerable toLowerCase so e) := by
  rcases e with _ | _ | _ | _ | _ | ⟨_, _ | _⟩ | _ | _ | _ <;> dsimp only [Answerable] <;>
    infer_instance

/-- Live records, and those whose setting was performed, are in the store; open queries will
be answered with what is owed to them, and answered ones were. -/
structure Inv (so : Fleet σ × Observer) : Prop where
  live : ∀ record ∈ so.2.live, record.2 ∈ challengeStore.get so.1.store record.1
  performed : ∀ id call, so.1.calls.get id = some call → call.operation = .set →
    call.performed = true → call.value ∈ challengeStore.get so.1.store call.key
  reading : ∀ id query, so.1.queries.get id = some query → query.phase = .reading →
    ∀ value ∈ so.2.owed id, (toLowerCase query.question.name, value) ∈ so.2.live
  settled : ∀ id query shared, so.1.queries.get id = some query →
    query.phase = .settled shared → ∀ value ∈ so.2.owed id, value ∈ shared.getD []
  isTxt : ∀ id query, so.1.queries.get id = some query → query.question.type = js "TXT"
  fresh : ∀ id query, so.1.queries.get id = some query → id < so.1.nextId
  answered : ∀ r ∈ so.1.responses,
    r.query < so.1.nextId ∧ ∀ value ∈ so.2.owed r.query, value ∈ r.answers

variable {toLowerCase challengeStore} {s t : Fleet σ} {o : Observer}

theorem inv_initial (store : σ) : Inv toLowerCase challengeStore (initial store, .initial) where
  live := by simp [Observer.initial]
  performed := by simp [initial]
  reading := by simp [initial]
  settled := by simp [initial]
  isTxt := by simp [initial]
  fresh := by simp [initial]
  answered := by simp [initial]

theorem mem_of_mem_stillOwed {key value v : JsString} {id : Nat}
    (hv : v ∈ s.stillOwed toLowerCase o key value id) : v ∈ o.owed id := by
  unfold stillOwed at hv
  split at hv
  · split_ifs at hv
    · exact List.mem_of_mem_filter hv
    · exact hv
  · exact hv

theorem ne_of_mem_stillOwed {key value v : JsString} {id : Nat} {query : PendingQuery}
    (hquery : s.queries.get id = some query)
    (hv : v ∈ s.stillOwed toLowerCase o key value id) :
    (toLowerCase query.question.name, v) ≠ (key, value) := by
  rintro heq
  obtain ⟨hname, rfl⟩ := Prod.mk.inj heq
  simp [stillOwed, hquery, hname] at hv

/-- What the machine answers by itself has what is due, when it holds no value or all due. -/
theorem mem_txtAnswers_of_due {machine : Nat} {question : Question} {v : JsString}
    (hok : Answerable toLowerCase (s, o) (.handleQuery machine (some question)))
    (hasks : ¬ asksStore question (toLowerCase question.name)
      ((s.machines machine).txtRecords.get (toLowerCase question.name)) = true)
    (hv : v ∈ o.due question (toLowerCase question.name)) :
    v ∈ txtAnswers question
      ((s.machines machine).txtRecords.get (toLowerCase question.name)) := by
  have hdue : question.type = js "TXT" ∧
      startsWith (toLowerCase question.name) acmeChallengePrefix = true := by
    by_contra hnot
    rw [Observer.due, if_neg hnot] at hv
    cases hv
  simp only [txtAnswers, if_pos hdue.1]
  cases hvalues : (s.machines machine).txtRecords.get (toLowerCase question.name) with
  | none =>
      simp [asksStore, hvalues, hdue, InsertionSet.size, InsertionSet.empty] at hasks
  | some values => exact hok values hvalues v hv

theorem mem_txtAnswers_sharedValues {question : Question} (htype : question.type = js "TXT")
    {shared : Option (List JsString)} {v : JsString} :
    v ∈ txtAnswers question (sharedValues shared) ↔ v ∈ shared.getD [] := by
  rw [txtAnswers, if_pos htype]
  match shared with
  | none => exact Iff.rfl
  | some [] => exact Iff.rfl
  | some (value :: values) => exact InsertionSet.mem_ofList

namespace Inv

/-- A call that starts has not reached the store. -/
theorem startCall (hs : Inv toLowerCase challengeStore (s, o)) (machine : Nat) (d : DnsServer)
    (operation : StoreOperation) (key value : JsString) :
    Inv toLowerCase challengeStore ((s.setMachine machine d).startCall operation key value, o) where
  live := hs.live
  performed := by
    intro id call hget hset hperformed
    simp only [Fleet.startCall, InsertionMap.get_set] at hget
    split_ifs at hget
    · cases hget
      cases hperformed
    · exact hs.performed id call hget hset hperformed
  reading := hs.reading
  settled := hs.settled
  isTxt := hs.isTxt
  fresh := fun id query hget => Nat.lt_succ_of_lt (hs.fresh id query hget)
  answered := fun r hr => ⟨Nat.lt_succ_of_lt (hs.answered r hr).1, (hs.answered r hr).2⟩

/-- A record called to be removed lives no longer, and is owed to no open query. -/
theorem forget (hs : Inv toLowerCase challengeStore (s, o)) (key value : JsString) :
    Inv toLowerCase challengeStore
      (s, { live := o.live.filter fun record => decide (record ≠ (key, value))
            owed := s.stillOwed toLowerCase o key value }) where
  live := fun record hrecord => hs.live record (List.mem_of_mem_filter hrecord)
  performed := hs.performed
  reading := by
    intro id query hget hreading v hv
    apply List.mem_filter.mpr
    constructor
    · exact hs.reading id query hget hreading v (mem_of_mem_stillOwed hv)
    · exact decide_eq_true (ne_of_mem_stillOwed hget hv)
  settled := fun id query shared hget hsettled v hv =>
    hs.settled id query shared hget hsettled v (mem_of_mem_stillOwed hv)
  isTxt := hs.isTxt
  fresh := hs.fresh
  answered := fun r hr =>
    ⟨(hs.answered r hr).1, fun v hv => (hs.answered r hr).2 v (mem_of_mem_stillOwed hv)⟩

/-- A call that is over. -/
theorem deleteCall (hs : Inv toLowerCase challengeStore (s, o)) (id : Nat) :
    Inv toLowerCase challengeStore ({ s with calls := s.calls.delete id }, o) where
  live := hs.live
  performed := by
    intro j call hget
    rw [InsertionMap.get_delete] at hget
    split_ifs at hget
    exact hs.performed j call hget
  reading := hs.reading
  settled := hs.settled
  isTxt := hs.isTxt
  fresh := hs.fresh
  answered := hs.answered

/-- A record whose setting has been performed comes to live. -/
theorem publish (hs : Inv toLowerCase challengeStore (s, o)) {key value : JsString}
    (hstored : value ∈ challengeStore.get s.store key) :
    Inv toLowerCase challengeStore (s, { o with live := (key, value) :: o.live }) where
  live := by
    intro record hrecord
    cases hrecord with
    | head => exact hstored
    | tail _ hrecord => exact hs.live record hrecord
  performed := hs.performed
  reading := fun id query hget hreading v hv =>
    List.mem_cons_of_mem _ (hs.reading id query hget hreading v hv)
  settled := hs.settled
  isTxt := hs.isTxt
  fresh := hs.fresh
  answered := hs.answered

/-- The store sets a record. -/
theorem performSet (hs : Inv toLowerCase challengeStore (s, o)) (id : Nat) (call : RecordCall) :
    Inv toLowerCase challengeStore
      ({ s with
          store := challengeStore.set s.store call.key call.value
          calls := s.calls.set id { call with performed := true } }, o) where
  live := fun record hrecord => challengeStore.mem_get_set.mpr (Or.inl (hs.live record hrecord))
  performed := by
    intro j c hget hset hperformed
    rw [InsertionMap.get_set] at hget
    split_ifs at hget
    · cases hget
      exact challengeStore.mem_get_set.mpr (Or.inr rfl)
    · exact challengeStore.mem_get_set.mpr (Or.inl (hs.performed j c hget hset hperformed))
  reading := hs.reading
  settled := hs.settled
  isTxt := hs.isTxt
  fresh := hs.fresh
  answered := hs.answered

/-- The store removes a record that does not live and whose setting it has not performed. -/
theorem performRemove (hs : Inv toLowerCase challengeStore (s, o)) (id : Nat) (call : RecordCall)
    (hoperation : call.operation = .remove)
    (hlive : ∀ record ∈ o.live, record ≠ (call.key, call.value))
    (hset : ∀ e ∈ s.calls.entries, e.2.operation = .set → e.2.performed = true →
      (e.2.key, e.2.value) ≠ (call.key, call.value)) :
    Inv toLowerCase challengeStore
      ({ s with
          store := challengeStore.remove s.store call.key call.value
          calls := s.calls.set id { call with performed := true } }, o) where
  live := by
    intro record hrecord
    apply challengeStore.mem_get_remove.mpr
    exact ⟨hs.live record hrecord, hlive record hrecord⟩
  performed := by
    intro j c hget hcset hperformed
    rw [InsertionMap.get_set] at hget
    split_ifs at hget
    · cases hget
      exact absurd (hoperation.symm.trans hcset) (by decide)
    · have hne := hset (j, c) (InsertionMap.get_eq_some_iff.mp hget) hcset hperformed
      exact challengeStore.mem_get_remove.mpr ⟨hs.performed j c hget hcset hperformed, hne⟩
  reading := hs.reading
  settled := hs.settled
  isTxt := hs.isTxt
  fresh := hs.fresh
  answered := hs.answered

/-- A query that is answered from the records of its machine, or starts to wait. -/
theorem handleQuery (hs : Inv toLowerCase challengeStore (s, o)) {machine : Nat}
    {question : Question}
    (hok : Answerable toLowerCase (s, o) (.handleQuery machine (some question))) :
    Inv toLowerCase challengeStore
      (s.handleQuery toLowerCase machine question,
        s.observe toLowerCase o (.handleQuery machine (some question))) := by
  have howed {id : Nat} {v : JsString} (hid : id ≠ s.nextId)
      (hv : v ∈ (s.observe toLowerCase o (.handleQuery machine (some question))).owed id) :
      v ∈ o.owed id := by
    simpa only [observe, if_neg hid] using hv
  have hold : ∀ r ∈ s.responses, r.query < s.nextId + 1 ∧
      ∀ v ∈ (s.observe toLowerCase o (.handleQuery machine (some question))).owed r.query,
        v ∈ r.answers := by
    intro r hr
    obtain ⟨hlt, hanswered⟩ := hs.answered r hr
    exact ⟨Nat.lt_succ_of_lt hlt, fun v hv => hanswered v (howed (Nat.ne_of_lt hlt) hv)⟩
  have hdue {v : JsString}
      (hv : v ∈ (s.observe toLowerCase o (.handleQuery machine (some question))).owed s.nextId) :
      v ∈ o.due question (toLowerCase question.name) := by
    simpa only [observe, if_true] using hv
  simp only [Fleet.handleQuery]
  split_ifs with hasks
  · -- The query waits for the store.
    have htype : question.type = js "TXT" := by
      simp only [asksStore, Bool.and_eq_true, decide_eq_true_eq] at hasks
      exact hasks.1.1
    refine ⟨hs.live, hs.performed, ?_, ?_, ?_, ?_, hold⟩
    · intro id query hget hreading v hv
      rw [InsertionMap.get_set] at hget
      split_ifs at hget with hid
      · cases hget
        subst hid
        have hmem := hdue hv
        unfold Observer.due at hmem
        split_ifs at hmem
        · exact Observer.mem_valuesFor.mp hmem
        · cases hmem
      · exact hs.reading id query hget hreading v (howed hid hv)
    · intro id query shared hget hsettled v hv
      rw [InsertionMap.get_set] at hget
      split_ifs at hget with hid
      · cases hget
        cases hsettled
      · exact hs.settled id query shared hget hsettled v (howed hid hv)
    · intro id query hget
      rw [InsertionMap.get_set] at hget
      split_ifs at hget
      · cases hget
        exact htype
      · exact hs.isTxt id query hget
    · intro id query hget
      rw [InsertionMap.get_set] at hget
      split_ifs at hget with hid
      · exact hid ▸ Nat.lt_succ_self _
      · exact Nat.lt_succ_of_lt (hs.fresh id query hget)
  · -- The machine answers by itself.
    have hlt {id : Nat} {query : PendingQuery} (hget : s.queries.get id = some query) :
        id ≠ s.nextId := Nat.ne_of_lt (hs.fresh id query hget)
    refine ⟨hs.live, hs.performed, ?_, ?_, hs.isTxt, ?_, ?_⟩
    · exact fun id query hget hreading v hv =>
        hs.reading id query hget hreading v (howed (hlt hget) hv)
    · exact fun id query shared hget hsettled v hv =>
        hs.settled id query shared hget hsettled v (howed (hlt hget) hv)
    · exact fun id query hget => Nat.lt_succ_of_lt (hs.fresh id query hget)
    · intro r hr
      rcases List.mem_append.mp hr with hr | hr
      · exact hold r hr
      · cases List.mem_singleton.mp hr
        refine ⟨Nat.lt_succ_self _, fun v hv => ?_⟩
        exact mem_txtAnswers_of_due hok hasks (hdue hv)

/-- The store answers a read with what it holds, which is what lives. -/
theorem storeReads (hs : Inv toLowerCase challengeStore (s, o)) {id : Nat} {query : PendingQuery}
    (hget : s.queries.get id = some query) {shared : Option (List JsString)}
    (hshared : ∀ v ∈ o.owed id, v ∈ shared.getD []) :
    Inv toLowerCase challengeStore
      ({ s with queries := s.queries.set id { query with phase := .settled shared } }, o) where
  live := hs.live
  performed := hs.performed
  reading := by
    intro j q hj hreading
    rw [InsertionMap.get_set] at hj
    split_ifs at hj
    · cases hj
      cases hreading
    · exact hs.reading j q hj hreading
  settled := by
    intro j q values hj hsettled
    rw [InsertionMap.get_set] at hj
    split_ifs at hj with hid
    · cases hj
      cases hsettled
      exact hid ▸ hshared
    · exact hs.settled j q values hj hsettled
  isTxt := by
    intro j q hj
    rw [InsertionMap.get_set] at hj
    split_ifs at hj
    · cases hj
      exact hs.isTxt id query hget
    · exact hs.isTxt j q hj
  fresh := by
    intro j q hj
    rw [InsertionMap.get_set] at hj
    split_ifs at hj with hid
    · exact hid ▸ hs.fresh id query hget
    · exact hs.fresh j q hj
  answered := hs.answered

/-- A query whose read has settled is answered. -/
theorem queryResumes (hs : Inv toLowerCase challengeStore (s, o)) {id : Nat}
    {query : PendingQuery} (hget : s.queries.get id = some query)
    {shared : Option (List JsString)} (hphase : query.phase = .settled shared) :
    Inv toLowerCase challengeStore
      ({ s with
          queries := s.queries.delete id
          responses := s.responses ++
            [⟨id, query.question, txtAnswers query.question (sharedValues shared)⟩] }, o) := by
  have hkept {j : Nat} {q : PendingQuery} (hj : (s.queries.delete id).get j = some q) :
      s.queries.get j = some q := by
    rw [InsertionMap.get_delete] at hj
    split_ifs at hj
    exact hj
  refine ⟨hs.live, hs.performed, ?_, ?_, ?_, ?_, ?_⟩
  · exact fun j q hj => hs.reading j q (hkept hj)
  · exact fun j q values hj => hs.settled j q values (hkept hj)
  · exact fun j q hj => hs.isTxt j q (hkept hj)
  · exact fun j q hj => hs.fresh j q (hkept hj)
  · intro r hr
    rcases List.mem_append.mp hr with hr | hr
    · exact hs.answered r hr
    · cases List.mem_singleton.mp hr
      refine ⟨hs.fresh id query hget, fun v hv => ?_⟩
      rw [mem_txtAnswers_sharedValues (hs.isTxt id query hget)]
      exact hs.settled id query shared hget hphase v hv

end Inv

/-- Every step that meets the condition keeps the invariant. -/
theorem Inv.step {so so' : Fleet σ × Observer} {e : Event}
    (hs : Inv toLowerCase challengeStore so) (hok : Answerable toLowerCase so e)
    (hobserved : observedStep toLowerCase challengeStore so e = some so') :
    Inv toLowerCase challengeStore so' := by
  obtain ⟨s, o⟩ := so
  obtain ⟨t, h, rfl⟩ := Option.map_eq_some_iff.mp hobserved
  cases e with
  | setTxtRecord machine fqdn value =>
      cases h
      exact hs.startCall ..
  | removeTxtRecord machine fqdn value =>
      cases h
      have hstarted :
          Inv toLowerCase challengeStore (s.removeTxtRecord toLowerCase machine fqdn value, o) :=
        hs.startCall ..
      exact hstarted.forget (toLowerCase fqdn) value
  | storePerforms id =>
      obtain ⟨call, hget, h⟩ := Option.bind_eq_some_iff.mp h
      split_ifs at h
      cases h
      obtain ⟨operation, key, value, performed⟩ := call
      cases operation with
      | set => exact hs.performSet id ⟨.set, key, value, performed⟩
      | remove =>
          obtain ⟨hlive, hset⟩ := hok _ hget rfl
          exact hs.performRemove id ⟨.remove, key, value, performed⟩ rfl hlive hset
  | callResolves id =>
      obtain ⟨call, hget, h⟩ := Option.bind_eq_some_iff.mp h
      split_ifs at h with hperformed
      cases h
      have hdeleted := hs.deleteCall id
      obtain ⟨operation, key, value, performed⟩ := call
      cases operation with
      | set =>
          have hstored := hs.performed id _ hget rfl hperformed
          simpa only [observe, hget] using hdeleted.publish hstored
      | remove => simpa only [observe, hget] using hdeleted
  | callRejects id =>
      obtain ⟨call, _, h⟩ := Option.bind_eq_some_iff.mp h
      cases h
      exact hs.deleteCall id
  | handleQuery machine question =>
      cases question with
      | none =>
          cases h
          exact hs
      | some question =>
          cases h
          exact hs.handleQuery hok
  | storeReads id =>
      obtain ⟨query, hget, h⟩ := Option.bind_eq_some_iff.mp h
      split at h
      · next hphase =>
          cases h
          exact hs.storeReads hget fun v hv => hs.live _ (hs.reading id query hget hphase v hv)
      · cases h
  | storeReadFails id =>
      obtain ⟨query, hget, h⟩ := Option.bind_eq_some_iff.mp h
      split at h
      · cases h
        apply hs.storeReads hget
        intro v hv
        rw [show o.owed id = [] from hok] at hv
        cases hv
      · cases h
  | queryResumes id =>
      obtain ⟨query, hget, h⟩ := Option.bind_eq_some_iff.mp h
      split at h
      · next shared hphase =>
          cases h
          exact hs.queryResumes hget hphase
      · cases h

variable (toLowerCase challengeStore)

/-- In a run whose steps all meet the condition, every response has all the values that were
owed to its query. -/
theorem owed_answered {store : σ} {es : List Event} {so : Fleet σ × Observer}
    (hok : Guarded (observedStep toLowerCase challengeStore) (Answerable toLowerCase)
      (initial store, .initial) es)
    (hrun : run (observedStep toLowerCase challengeStore) (initial store, .initial) es = some so) :
    ∀ r ∈ so.1.responses, ∀ value ∈ so.2.owed r.query, value ∈ r.answers := by
  have hinv : Inv toLowerCase challengeStore so :=
    guarded_invariant (fun _ _ _ hs hok h => hs.step hok h) (inv_initial store) hok hrun
  exact fun r hr => (hinv.answered r hr).2

/-- One machine sets a record, and another is asked for it in other letters. -/
def sharedRun : List Event :=
  [.setTxtRecord 0 (js "_acme-challenge.t") (js "a"), .storePerforms 0, .callResolves 0,
    .handleQuery 1 (some ⟨js "TXT", js "_ACME-challenge.T"⟩), .storeReads 1, .queryResumes 1]

theorem owed_answered_shared :
    ∃ so, run (observedStep asciiLowerCase pairStore) (initial .empty, .initial) sharedRun =
        some so ∧
      ∀ r ∈ so.1.responses, ∀ value ∈ so.2.owed r.query, value ∈ r.answers := by
  have hok : Guarded (observedStep asciiLowerCase pairStore) (Answerable asciiLowerCase)
      (initial .empty, .initial) sharedRun := by decide
  have henabled : (run (observedStep asciiLowerCase pairStore) (initial .empty, .initial)
      sharedRun).isSome := by decide
  obtain ⟨so, hrun⟩ := Option.isSome_iff_exists.mp henabled
  exact ⟨so, hrun, owed_answered asciiLowerCase pairStore hok hrun⟩

/-- Two machines set records for one name, and one of the two is asked for it. -/
def localRun : List Event :=
  [.setTxtRecord 0 (js "_acme-challenge.t") (js "a"), .storePerforms 0, .callResolves 0,
    .setTxtRecord 1 (js "_acme-challenge.t") (js "b"), .storePerforms 1, .callResolves 1,
    .handleQuery 0 (some ⟨js "TXT", js "_acme-challenge.t"⟩)]

/-- The machine answers with its own record alone. -/
theorem not_owed_answered_local :
    ∃ so, run (observedStep asciiLowerCase pairStore) (initial .empty, .initial) localRun =
        some so ∧
      ¬ ∀ r ∈ so.1.responses, ∀ value ∈ so.2.owed r.query, value ∈ r.answers := by
  have hmissed : (run (observedStep asciiLowerCase pairStore) (initial .empty, .initial)
      localRun).map (fun so =>
        decide (∀ r ∈ so.1.responses, ∀ value ∈ so.2.owed r.query, value ∈ r.answers)) =
      some false := by decide
  obtain ⟨so, hrun, hfalse⟩ := Option.map_eq_some_iff.mp hmissed
  exact ⟨so, hrun, of_decide_eq_false hfalse⟩

end Fleet

end TestServer
