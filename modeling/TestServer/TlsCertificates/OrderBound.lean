import TestServer.TlsCertificates.Coalescing

/-!
# The orders of one call

One call of `AcmeCA.getCertificate` is followed through all that callers, the
certificate authority and other servers do, and the certificate orders that it
places before its promise settles are counted. A call that starts an attempt
has no bound on them: each failure, also of the revocation of a certificate
that was already issued, is answered with a new order.

## Implementation notes

A call places an order where it calls `requestCertificate`, itself or through
the attempts that its failure handlers start. The attempts of other calls are
not counted, also where the call waits for one of them.
-/

namespace TestServer.TlsCertificates

open Js Library Library.Runs

/-- What the promise of a call waits for. -/
inductive Progress where
  | fetching
  /-- An attempt that the call has started. -/
  | ordering (attempt : Nat)
  /-- The pending attempt of another call. -/
  | delegated
  | settled
deriving DecidableEq

/-- The state of the process, and what a call in it has done so far. -/
structure CallRun where
  ca : AcmeCA
  call : Nat
  progress : Progress
  orders : Nat
deriving DecidableEq

namespace CallRun

open AcmeCA (Event)

/-- The call is made, in any state. -/
def start (ca : AcmeCA) (domain : JsString) (certOptions : CertOptions) : CallRun where
  ca := ca.getCertificate domain certOptions
  call := ca.nextId
  progress := .fetching
  orders := 0

/-- What a call waits for after it has resumed with the fetched record. -/
def resumed (s : AcmeCA) (call : Call) (cachedCert : Option CachedCertificate) (now : Time) :
    Progress :=
  match cachedCert with
  | some cert =>
      if cert.expiry ≤ now ∧ call.certOptions.expired = false then .ordering s.nextId
      else .settled
  | none =>
      if s.pendingCertRenewals.get call.cacheKey = none then .ordering s.nextId else .delegated

/-- What a call waits for after the handler of its issued certificate. -/
def issued (s : AcmeCA) (id : Nat) (attempt : Attempt) : Progress :=
  if s.superseded id attempt then .delegated
  else if attempt.certOptions.revoked then .ordering id
  else .settled

/-- The events in which code of the call itself runs. -/
def concerns (r : CallRun) : Event → Bool
  | .backendReadFailed id | .callResumes id _ _ =>
      decide (r.progress = .fetching ∧ id = r.call)
  | .issuedHandler id | .revokedHandler id | .failedHandler id =>
      decide (r.progress = .ordering id)
  | _ => false

/-- What the call waits for after an event that concerns it. -/
def progressAfter (r : CallRun) : Event → Progress
  | .callResumes id now _ =>
      match r.ca.calls.get id with
      | some call => resumed r.ca call call.fetchedCert now
      | none => r.progress
  | .issuedHandler id =>
      match r.ca.attempts.get id with
      | some attempt => issued r.ca id attempt
      | none => r.progress
  | .failedHandler _ => .ordering r.ca.nextId
  | _ => .settled

/-- Every new number after a call that resumes or a failure handler is that of an attempt. -/
def step (r : CallRun) (e : Event) : Option CallRun := do
  let ca ← r.ca.step e
  if r.concerns e then
    some ⟨ca, r.call, r.progressAfter e, r.orders + (ca.nextId - r.ca.nextId)⟩
  else some { r with ca := ca }

/-- The call may resume with the record at the given clock, and then places at most so many
orders, whatever happens next. -/
def BoundedOrders (r : CallRun) (now later : Time) : Prop :=
  ∃ bound, ∀ es t, run step r (.callResumes r.call now later :: es) = some t → t.orders ≤ bound

/-- The call resumes with a record that it returns, or waits for a pending attempt. -/
def NeedsNoOrder (s : AcmeCA) (call : Call) (cachedCert : Option CachedCertificate)
    (now : Time) : Prop :=
  match cachedCert with
  | some cert => now < cert.expiry ∨ call.certOptions.expired = true
  | none => s.pendingCertRenewals.get call.cacheKey ≠ none

variable {r t : CallRun}

theorem step_eq_some_iff {e : Event} :
    step r e = some t ↔ ∃ ca, r.ca.step e = some ca ∧
      t = if r.concerns e then
          ⟨ca, r.call, r.progressAfter e, r.orders + (ca.nextId - r.ca.nextId)⟩
        else { r with ca := ca } := by
  simp only [step, Option.bind_eq_bind, Option.bind_eq_some_iff]
  apply exists_congr
  intro ca
  apply and_congr_right
  intro _
  split_ifs <;> simp only [Option.some.injEq, eq_comm]

/-- The promise is settled, or hangs on an attempt of another call. -/
def Finished (r : CallRun) : Prop := r.progress = .settled ∨ r.progress = .delegated

theorem Finished.concerns_eq_false (h : Finished r) (e : Event) : r.concerns e = false := by
  obtain h | h := h <;> cases e <;> simp [concerns, h]

/-- No order is placed for a finished call. -/
theorem Finished.run_orders (h : Finished r) {es : List Event} (hrun : run step r es = some t) :
    t.orders = r.orders := by
  induction es generalizing r with
  | nil =>
      cases hrun
      rfl
  | cons e es ih =>
      obtain ⟨m, hm, ht⟩ := run_cons_eq_some_iff.mp hrun
      obtain ⟨ca, -, hm⟩ := step_eq_some_iff.mp hm
      rw [h.concerns_eq_false e, if_neg Bool.false_ne_true] at hm
      subst hm
      have hfinished : Finished { r with ca := ca } := h
      have horders := ih hfinished ht
      exact horders

/-- An event that concerns the call ends its fetching. -/
theorem progressAfter_ne_fetching {e : Event} {ca : AcmeCA} (hca : r.ca.step e = some ca)
    (hconcerns : r.concerns e = true) : r.progressAfter e ≠ .fetching := by
  cases e with
  | callResumes id now later =>
      obtain ⟨call, hcall, -⟩ := Option.bind_eq_some_iff.mp hca
      simp only [progressAfter, hcall, resumed]
      split
      · split_ifs <;> simp
      · split_ifs <;> simp
  | issuedHandler id =>
      obtain ⟨attempt, hattempt, -⟩ := Option.bind_eq_some_iff.mp hca
      simp only [progressAfter, hattempt, issued]
      split_ifs <;> simp
  | failedHandler id => simp [progressAfter]
  | backendReadFailed id => simp [progressAfter]
  | revokedHandler id => simp [progressAfter]
  | _ => simp [concerns] at hconcerns

/-- Nothing is ordered yet, if the call is still fetching. -/
def Unspent (r : CallRun) : Prop := r.progress = .fetching → r.orders = 0

theorem orders_eq_zero_of_run {ca : AcmeCA} {domain : JsString} {certOptions : CertOptions}
    {es : List Event} (hrun : run step (start ca domain certOptions) es = some r)
    (hfetching : r.progress = .fetching) : r.orders = 0 := by
  have hkeep : ∀ s e t, Unspent s → step s e = some t → Unspent t := by
    intro s e t hs hstep ht
    obtain ⟨ca, hca, rfl⟩ := step_eq_some_iff.mp hstep
    by_cases hconcerns : s.concerns e = true
    · rw [if_pos hconcerns] at ht
      exact absurd ht (progressAfter_ne_fetching hca hconcerns)
    · rw [if_neg hconcerns] at ht ⊢
      exact hs ht
  have hunspent : Unspent r := run_invariant hkeep (fun _ => rfl) hrun
  exact hunspent hfetching

/-- The state in which the call has resumed with the record that it fetched. -/
def resume (r : CallRun) (call : Call) (cachedCert : Option CachedCertificate)
    (now later : Time) : CallRun :=
  let ca := { r.ca with calls := r.ca.calls.delete r.call }.resume call cachedCert now later
  ⟨ca, r.call, resumed r.ca call cachedCert now, r.orders + (ca.nextId - r.ca.nextId)⟩

theorem step_callResumes {call : Call} {cachedCert : Option CachedCertificate}
    (hcall : r.ca.calls.get r.call = some call) (hphase : call.phase = .fetched cachedCert)
    (hfetching : r.progress = .fetching) (now later : Time) :
    step r (.callResumes r.call now later) = some (r.resume call cachedCert now later) := by
  apply step_eq_some_iff.mpr
  refine ⟨({ r.ca with calls := r.ca.calls.delete r.call }.resume call cachedCert now later),
    ?_, ?_⟩
  · simp only [AcmeCA.step, hcall, Option.bind_eq_bind, Option.bind_some, hphase]
  · have hconcerns : r.concerns (.callResumes r.call now later) = true := by
      simp [concerns, hfetching]
    have hrecord : call.fetchedCert = cachedCert := by rw [Call.fetchedCert, hphase]
    rw [if_pos hconcerns, resume, progressAfter, hcall]
    simp only [hrecord]

/-- A call that resumes starts at most one attempt. -/
theorem nextId_resume_le (s : AcmeCA) (call : Call) (cachedCert : Option CachedCertificate)
    (now later : Time) : (s.resume call cachedCert now later).nextId ≤ s.nextId + 1 := by
  cases cachedCert <;> simp only [AcmeCA.resume] <;> split_ifs <;>
    simp [AcmeCA.startRequest, AcmeCA.clearCache]

theorem finished_resume {call : Call} {cachedCert : Option CachedCertificate} {now : Time}
    (h : NeedsNoOrder r.ca call cachedCert now) (later : Time) :
    Finished (r.resume call cachedCert now later) := by
  cases cachedCert with
  | none =>
      right
      simp only [resume, resumed]
      exact if_neg h
  | some cert =>
      left
      simp only [resume, resumed]
      apply if_neg
      rintro ⟨hexpiry, hexpired⟩
      obtain h | h := h
      · exact absurd hexpiry (not_le.mpr h)
      · rw [hexpired] at h
        cases h

/-- The call waits for a request of its own, which is the pending one. -/
structure Ordering (r : CallRun) (attempt : Nat) (domain : JsString) (certOptions : CertOptions) :
    Prop where
  progress : r.progress = .ordering attempt
  requesting : r.ca.attempts.get attempt = some ⟨domain, certOptions, .requesting⟩
  pending : r.ca.pendingCertRenewals.get (calculateCertCacheKey domain certOptions) =
    some attempt

theorem ordering_startRequest (s : AcmeCA) (call : Nat) (domain : JsString)
    (certOptions : CertOptions) (orders : Nat) :
    Ordering ⟨s.startRequest domain certOptions, call, .ordering s.nextId, orders⟩ s.nextId
      domain certOptions :=
  ⟨rfl, InsertionMap.get_set_self .., InsertionMap.get_set_self ..⟩

theorem ordering_resume {call : Call} {cachedCert : Option CachedCertificate} {now : Time}
    (h : ¬ NeedsNoOrder r.ca call cachedCert now) (later : Time) :
    Ordering (r.resume call cachedCert now later) r.ca.nextId call.domain call.certOptions := by
  cases cachedCert with
  | none =>
      have hnone : r.ca.pendingCertRenewals.get call.cacheKey = none := not_not.mp h
      simp only [resume, resumed, AcmeCA.resume, if_pos hnone]
      exact ordering_startRequest ..
  | some cert =>
      obtain ⟨hexpiry, hexpired⟩ := not_or.mp h
      have hexpiry : cert.expiry ≤ now := not_lt.mp hexpiry
      have hnot : call.certOptions.expired = false := Bool.eq_false_iff.mpr hexpired
      simp only [resume, resumed, AcmeCA.resume, if_pos hexpiry, if_neg hexpired,
        if_pos (And.intro hexpiry hnot)]
      exact ordering_startRequest ..

variable {attempt : Nat} {domain : JsString} {certOptions : CertOptions}

/-- A step of the process that runs no code of the call. -/
theorem step_of_not_concerns {e : Event} {ca : AcmeCA} (hca : r.ca.step e = some ca)
    (hconcerns : r.concerns e = false) : step r e = some { r with ca := ca } := by
  apply step_eq_some_iff.mpr
  refine ⟨ca, hca, ?_⟩
  rw [hconcerns, if_neg Bool.false_ne_true]

/-- A failed attempt of the call is answered with a new request. -/
theorem step_failedHandler (hprogress : r.progress = .ordering attempt)
    (hfailed : r.ca.attempts.get attempt = some ⟨domain, certOptions, .failed⟩) :
    ∃ t, step r (.failedHandler attempt) = some t ∧
      Ordering t r.ca.nextId domain certOptions ∧ t.orders = r.orders + 1 := by
  have hca : r.ca.step (.failedHandler attempt) =
      some ({ r.ca with attempts := r.ca.attempts.delete attempt }.startRequest domain
        certOptions) := by
    simp only [AcmeCA.step, hfailed, Option.bind_eq_bind, Option.bind_some]
  have hconcerns : r.concerns (.failedHandler attempt) = true := by
    simp only [concerns, hprogress, decide_true]
  refine ⟨_, step_eq_some_iff.mpr ⟨_, hca, (if_pos hconcerns).symm⟩,
    ordering_startRequest .., ?_⟩
  simp only [AcmeCA.startRequest, Nat.add_sub_cancel_left]

/-- The request fails: a new one follows. -/
theorem Ordering.requestFails (h : Ordering r attempt domain certOptions) :
    ∃ t, run step r [.requestSettled attempt none, .failedHandler attempt] = some t ∧
      Ordering t r.ca.nextId domain certOptions ∧ t.orders = r.orders + 1 := by
  have hsettled : r.ca.step (.requestSettled attempt none) =
      some (r.ca.setPhase attempt ⟨domain, certOptions, .requesting⟩ .failed) := by
    simp only [AcmeCA.step, h.requesting, Option.bind_eq_bind, Option.bind_some]
  obtain ⟨t, ht, hordering, horders⟩ := step_failedHandler (r := { r with
    ca := r.ca.setPhase attempt ⟨domain, certOptions, .requesting⟩ .failed })
    h.progress (InsertionMap.get_set_self ..)
  refine ⟨t, ?_, hordering, horders⟩
  apply run_cons_eq_some_iff.mpr
  refine ⟨_, step_of_not_concerns hsettled rfl, ?_⟩
  exact run_cons_eq_some_iff.mpr ⟨t, ht, rfl⟩

/-- The request succeeds and the revocation fails: a new request follows. -/
theorem Ordering.revocationFails (h : Ordering r attempt domain certOptions)
    (hrevoked : certOptions.revoked = true) (certData : AcmeGeneratedCertificate) :
    ∃ t, run step r [.requestSettled attempt (some certData), .issuedHandler attempt,
        .revokeSettled attempt false, .failedHandler attempt] = some t ∧
      Ordering t r.ca.nextId domain certOptions ∧ t.orders = r.orders + 1 := by
  let issued := r.ca.setPhase attempt ⟨domain, certOptions, .requesting⟩ (.issued certData)
  let revoking := issued.setPhase attempt ⟨domain, certOptions, .issued certData⟩
    (.revoking certData)
  let failed := revoking.setPhase attempt ⟨domain, certOptions, .revoking certData⟩ .failed
  have hissued : issued.attempts.get attempt = some ⟨domain, certOptions, .issued certData⟩ :=
    InsertionMap.get_set_self ..
  have hrevoking : revoking.attempts.get attempt =
      some ⟨domain, certOptions, .revoking certData⟩ := InsertionMap.get_set_self ..
  have hsuperseded : issued.superseded attempt ⟨domain, certOptions, .issued certData⟩ =
      false := by
    have hpending : issued.pendingCertRenewals.get
        (calculateCertCacheKey domain certOptions) = some attempt := h.pending
    simp only [AcmeCA.superseded, Attempt.cacheKey, hpending, ne_eq, not_true, decide_false]
  have hstep₁ : step r (.requestSettled attempt (some certData)) =
      some { r with ca := issued } := by
    refine step_of_not_concerns ?_ rfl
    simp only [AcmeCA.step, h.requesting, Option.bind_eq_bind, Option.bind_some]
    rfl
  have hstep₂ : step { r with ca := issued } (.issuedHandler attempt) =
      some { r with ca := revoking } := by
    apply step_eq_some_iff.mpr
    refine ⟨revoking, ?_, ?_⟩
    · simp only [AcmeCA.step, hissued, Option.bind_eq_bind, Option.bind_some,
        AcmeCA.handleIssued, hsuperseded, hrevoked, if_true, if_neg Bool.false_ne_true]
      rfl
    · have hconcerns : ({ r with ca := issued } : CallRun).concerns (.issuedHandler attempt) =
          true := by
        simp only [concerns, h.progress, decide_true]
      rw [if_pos hconcerns]
      simp only [progressAfter, hissued, CallRun.issued, hsuperseded, hrevoked, if_true,
        if_neg Bool.false_ne_true]
      have hids : revoking.nextId - issued.nextId = 0 := Nat.sub_self issued.nextId
      rw [h.progress, hids, Nat.add_zero]
  have hstep₃ : step { r with ca := revoking } (.revokeSettled attempt false) =
      some { r with ca := failed } := by
    refine step_of_not_concerns ?_ rfl
    simp only [AcmeCA.step, hrevoking, Option.bind_eq_bind, Option.bind_some]
    rfl
  obtain ⟨t, ht, hordering, horders⟩ := step_failedHandler (r := { r with ca := failed })
    h.progress (InsertionMap.get_set_self ..)
  refine ⟨t, ?_, hordering, horders⟩
  simp only [run_cons, hstep₁, hstep₂, hstep₃, ht, Option.bind_some]
  rfl

/-- Any number of requests may fail, one after the other. -/
theorem Ordering.exceeds (h : Ordering r attempt domain certOptions) (n : Nat) :
    ∃ es t, run step r es = some t ∧ t.orders = r.orders + n := by
  obtain ⟨es, t, -, hrun, -, horders⟩ := exists_run_raising (fun _ => True) orders
    (P := fun r => ∃ attempt, Ordering r attempt domain certOptions)
    (fun r ⟨attempt, h⟩ => by
      obtain ⟨t, ht, hordering, horders⟩ := h.requestFails
      exact ⟨_, t, fun _ _ => trivial, ht, ⟨_, hordering⟩, horders⟩) n ⟨attempt, h⟩
  exact ⟨es, t, hrun, horders⟩

/-- The event is not the failure of a request. -/
def RequestSucceeds : Event → Prop
  | .requestSettled _ none => False
  | _ => True

/-- Any number of certificates may be issued whose revocation fails. -/
theorem Ordering.exceeds_issued (h : Ordering r attempt domain certOptions)
    (hrevoked : certOptions.revoked = true) (n : Nat) :
    ∃ es t, (∀ e ∈ es, RequestSucceeds e) ∧ run step r es = some t ∧
      t.orders = r.orders + n := by
  obtain ⟨es, t, hes, hrun, -, horders⟩ := exists_run_raising RequestSucceeds orders
    (P := fun r => ∃ attempt, Ordering r attempt domain certOptions)
    (fun r ⟨attempt, h⟩ => by
      obtain ⟨t, ht, hordering, horders⟩ := h.revocationFails hrevoked ⟨[], [], 0⟩
      refine ⟨_, t, ?_, ht, ⟨_, hordering⟩, horders⟩
      simp [RequestSucceeds]) n ⟨attempt, h⟩
  exact ⟨es, t, hes, hrun, horders⟩

def isFailedHandler : Event → Bool
  | .failedHandler _ => true
  | _ => false

/-- The orders of the call, and one more while it may still start its first attempt. -/
def allowance (r : CallRun) : Nat := r.orders + if r.progress = .fetching then 1 else 0

theorem fetching_of_concerns_callResumes {id : Nat} {now later : Time}
    (h : r.concerns (.callResumes id now later) = true) : r.progress = .fetching :=
  (of_decide_eq_true h).1

/-- Where the call itself runs, it starts at most one attempt: when it resumes, or after a
failure. -/
theorem nextId_le_of_concerns {e : Event} {ca : AcmeCA} (hca : r.ca.step e = some ca)
    (hconcerns : r.concerns e = true) :
    ca.nextId - r.ca.nextId ≤
      (if r.progress = .fetching then 1 else 0) + if isFailedHandler e then 1 else 0 := by
  cases e with
  | backendReadFailed id =>
      obtain ⟨call, -, hca⟩ := Option.bind_eq_some_iff.mp hca
      split at hca <;> cases hca
      simp
  | callResumes id now later =>
      obtain ⟨call, -, hca⟩ := Option.bind_eq_some_iff.mp hca
      split at hca
      · next cachedCert hphase =>
          cases hca
          have hids := nextId_resume_le { r.ca with calls := r.ca.calls.delete id } call
            cachedCert now later
          rw [if_pos (fetching_of_concerns_callResumes hconcerns)]
          simp only at hids
          omega
      · cases hca
  | issuedHandler id =>
      obtain ⟨attempt, -, hca⟩ := Option.bind_eq_some_iff.mp hca
      split at hca <;> cases hca
      simp only [AcmeCA.handleIssued]
      split_ifs <;> simp [AcmeCA.setPhase, AcmeCA.finish]
  | revokedHandler id =>
      obtain ⟨attempt, -, hca⟩ := Option.bind_eq_some_iff.mp hca
      split at hca <;> cases hca
      simp [AcmeCA.finish]
  | failedHandler id =>
      obtain ⟨attempt, -, hca⟩ := Option.bind_eq_some_iff.mp hca
      split at hca <;> cases hca
      simp [AcmeCA.startRequest, isFailedHandler]
  | _ => simp [concerns] at hconcerns

theorem allowance_step_le {e : Event} (h : step r e = some t) :
    t.allowance ≤ r.allowance + if isFailedHandler e then 1 else 0 := by
  obtain ⟨ca, hca, rfl⟩ := step_eq_some_iff.mp h
  by_cases hconcerns : r.concerns e = true
  · have hids := nextId_le_of_concerns hca hconcerns
    rw [if_pos hconcerns]
    simp only [allowance, if_neg (progressAfter_ne_fetching hca hconcerns)]
    omega
  · rw [if_neg hconcerns]
    exact Nat.le_add_right ..

/-- Each order of a call but the first answers a failure. -/
theorem orders_le_countP_failedHandler {ca : AcmeCA} {es : List Event}
    (hrun : run step (start ca domain certOptions) es = some r) :
    r.orders ≤ 1 + es.countP isFailedHandler := by
  have hallowance := measure_le_add_countP (fun _ _ _ h => allowance_step_le h) hrun
  have hle : r.orders ≤ r.allowance := Nat.le_add_right ..
  exact hle.trans hallowance

/-- However a call has come to its record, its orders are bounded if and only if it needs none
to answer. -/
theorem boundedOrders_iff {ca : AcmeCA} {es : List Event} {call : Call}
    {cachedCert : Option CachedCertificate}
    (hrun : run step (start ca domain certOptions) es = some r)
    (hcall : r.ca.calls.get r.call = some call) (hphase : call.phase = .fetched cachedCert)
    (hfetching : r.progress = .fetching) (now later : Time) :
    BoundedOrders r now later ↔ NeedsNoOrder r.ca call cachedCert now := by
  have hstep := step_callResumes hcall hphase hfetching now later
  constructor
  · rintro ⟨bound, hbound⟩
    by_contra hneeds
    obtain ⟨fs, t, ht, horders⟩ := (ordering_resume hneeds later).exceeds (bound + 1)
    have hle := hbound fs t (run_cons_eq_some_iff.mpr ⟨_, hstep, ht⟩)
    omega
  · intro hneeds
    refine ⟨1, fun fs t ht => ?_⟩
    obtain ⟨m, hm, ht⟩ := run_cons_eq_some_iff.mp ht
    obtain rfl := Option.some.inj (hstep.symm.trans hm)
    have hzero : r.orders = 0 := orders_eq_zero_of_run hrun hfetching
    have hids := nextId_resume_le { r.ca with calls := r.ca.calls.delete r.call } call cachedCert
      now later
    rw [(finished_resume hneeds later).run_orders ht]
    simp only [resume, hzero]
    simp only at hids
    omega

/-- A call that finds a record which runs out soon returns it, and orders once. -/
theorem boundedOrders_iff_near :
    BoundedOrders (start (AcmeCA.initial AcmeCA.staleCache .empty) (js "t") {}) 400 400 := by
  have hrun : run step (start (AcmeCA.initial AcmeCA.staleCache .empty) (js "t") {}) [] =
      some (start (AcmeCA.initial AcmeCA.staleCache .empty) (js "t") {}) := rfl
  have hneeds : NeedsNoOrder (start (AcmeCA.initial AcmeCA.staleCache .empty) (js "t") {}).ca
      ⟨js "t", {}, .fetched (some ⟨calculateCertCacheKey (js "t") {}, js "t", js "key", js "pem",
        500⟩)⟩
      (some ⟨calculateCertCacheKey (js "t") {}, js "t", js "key", js "pem", 500⟩) 400 := by
    left
    decide
  exact (boundedOrders_iff hrun rfl rfl rfl 400 400).mpr hneeds

/-- No bound holds for a revoked certificate, although every request succeeds. -/
theorem not_boundedOrders_revoked :
    ¬ ∃ bound, ∀ es r, (∀ e ∈ es, RequestSucceeds e) →
      run step (start (AcmeCA.initial ⟨.empty⟩ .empty) (js "t") { revoked := true }) es =
        some r → r.orders ≤ bound := by
  rintro ⟨bound, hbound⟩
  have hfirst : ∃ r, run step
      (start (AcmeCA.initial ⟨.empty⟩ .empty) (js "t") { revoked := true })
      [.backendRead 0, .fetchCertResumes 0, .callResumes 0 1000 1000] = some r ∧
      Ordering r 1 (js "t") { revoked := true } := ⟨_, rfl, rfl, rfl, rfl⟩
  obtain ⟨m, hm, hordering⟩ := hfirst
  obtain ⟨es, t, hes, ht, horders⟩ := hordering.exceeds_issued rfl (bound + 1)
  have hle := hbound _ t ?_ (run_append_of_eq_some hm ht)
  · omega
  · have hfirst : ∀ e ∈ ([.backendRead 0, .fetchCertResumes 0, .callResumes 0 1000 1000] :
        List Event), RequestSucceeds e := by
      simp [RequestSucceeds]
    intro e he
    exact (List.mem_append.mp he).elim (hfirst e) (hes e)

end CallRun

end TestServer.TlsCertificates
