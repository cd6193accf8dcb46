import TestServer.TlsCertificates.Acme

/-!
# At most one request for a certificate

While a live attempt is always the pending one for its key, at most one
`requestCertificate` call per key is in flight. Every step keeps this except a
call that resumes with a record that ran out while an attempt is pending: it
forces a new attempt and does not look at the pending one.
-/

namespace TestServer.TlsCertificates

open Js Library Library.Runs

/-- The record with which the call is to resume. -/
def Call.fetchedCert (call : Call) : Option CachedCertificate :=
  match call.phase with
  | .fetched cert => cert
  | _ => none

namespace AcmeCA

/-- Every live attempt is the pending one for its key. -/
def Owned (s : AcmeCA) : Prop :=
  ∀ id attempt, s.attempts.get id = some attempt →
    s.pendingCertRenewals.get attempt.cacheKey = some id

/-- No attempt for the key is live. -/
def Idle (s : AcmeCA) (cacheKey : JsString) : Prop :=
  ∀ id attempt, s.attempts.get id = some attempt → attempt.cacheKey ≠ cacheKey

/-- No call without `expired` resumes with a record that ran out while an attempt for its key
is pending. -/
def RenewsAlone (s : AcmeCA) : Event → Prop
  | .callResumes id now _ =>
      ∀ call ∈ s.calls.get id, ∀ cert ∈ call.fetchedCert,
        call.certOptions.expired = false → cert.expiry ≤ now →
          s.pendingCertRenewals.get call.cacheKey = none
  | _ => True

instance (s : AcmeCA) (e : Event) : Decidable (RenewsAlone s e) := by
  cases e <;> dsimp only [RenewsAlone] <;> infer_instance

theorem owned_initial (certCache : PersistentCertCache)
    (backend : InsertionMap JsString CachedCertificate) : Owned (initial certCache backend) := by
  intro id attempt h
  simp [initial] at h

variable {s t : AcmeCA}

theorem Owned.idle (hs : Owned s) {cacheKey : JsString}
    (hnone : s.pendingCertRenewals.get cacheKey = none) : Idle s cacheKey := by
  intro id attempt hget hkey
  have howned := hs id attempt hget
  rw [hkey, hnone] at howned
  cases howned

/-- Two live attempts for one key are the same. -/
theorem Owned.unique (hs : Owned s) {i j : Nat} {a b : Attempt}
    (ha : s.attempts.get i = some a) (hb : s.attempts.get j = some b)
    (hkey : a.cacheKey = b.cacheKey) : i = j := by
  have hi := hs i a ha
  rw [hkey, hs j b hb] at hi
  exact (Option.some.inj hi).symm

/-- The invariant is about the attempts and the pending renewals only. -/
theorem Owned.congr (hs : Owned s) (hattempts : t.attempts = s.attempts)
    (hpending : t.pendingCertRenewals = s.pendingCertRenewals) : Owned t := by
  intro id attempt hget
  rw [hattempts] at hget
  rw [hpending]
  exact hs id attempt hget

theorem Owned.startRequest (hs : Owned s) {domain : JsString} {certOptions : CertOptions}
    (hidle : Idle s (calculateCertCacheKey domain certOptions)) :
    Owned (s.startRequest domain certOptions) := by
  intro id attempt hget
  simp only [AcmeCA.startRequest] at hget ⊢
  rw [InsertionMap.get_set] at hget
  split_ifs at hget with hid
  · rw [← Option.some.inj hget, hid]
    exact InsertionMap.get_set_self ..
  · rw [InsertionMap.get_set_of_ne _ _ (hidle id attempt hget)]
    exact hs id attempt hget

theorem Owned.setPhase (hs : Owned s) {id : Nat} {attempt : Attempt}
    (hget : s.attempts.get id = some attempt) (phase : AttemptPhase) :
    Owned (s.setPhase id attempt phase) := by
  intro j b hb
  simp only [AcmeCA.setPhase] at hb ⊢
  rw [InsertionMap.get_set] at hb
  split_ifs at hb with hj
  · rw [← Option.some.inj hb, hj]
    exact hs id attempt hget
  · exact hs j b hb

theorem Owned.deleteAttempt (hs : Owned s) (id : Nat) :
    Owned { s with attempts := s.attempts.delete id } := by
  intro j b hb
  simp only at hb
  rw [InsertionMap.get_delete] at hb
  split_ifs at hb
  exact hs j b hb

/-- Without its attempt the key is idle. -/
theorem Owned.idle_deleteAttempt (hs : Owned s) {id : Nat} {attempt : Attempt}
    (hget : s.attempts.get id = some attempt) :
    Idle { s with attempts := s.attempts.delete id } attempt.cacheKey := by
  intro j b hb hkey
  simp only at hb
  rw [InsertionMap.get_delete] at hb
  split_ifs at hb with hj
  exact hj (hs.unique hb hget hkey)

theorem Owned.finish (hs : Owned s) {id : Nat} {attempt : Attempt}
    (hget : s.attempts.get id = some attempt) (certData : AcmeGeneratedCertificate) :
    Owned (s.finish id attempt certData) := by
  intro j b hb
  have hdeleted := hs.deleteAttempt id j b hb
  have hkey := hs.idle_deleteAttempt hget j b hb
  simp only [AcmeCA.finish]
  rw [InsertionMap.get_delete_of_ne _ hkey]
  exact hdeleted

theorem Owned.handleIssued (hs : Owned s) {id : Nat} {attempt : Attempt}
    (hget : s.attempts.get id = some attempt) (certData : AcmeGeneratedCertificate) :
    Owned (s.handleIssued id attempt certData) := by
  simp only [AcmeCA.handleIssued]
  split_ifs
  · exact hs.deleteAttempt id
  · exact hs.setPhase hget _
  · exact hs.finish hget certData

/-- A resumed call starts an attempt only for an idle key. -/
theorem Owned.resume (hs : Owned s) {call : Call} {cachedCert : Option CachedCertificate}
    {now later : Time}
    (hok : ∀ cert, cachedCert = some cert → call.certOptions.expired = false →
      cert.expiry ≤ now → s.pendingCertRenewals.get call.cacheKey = none) :
    Owned (s.resume call cachedCert now later) := by
  cases cachedCert with
  | none =>
      simp only [AcmeCA.resume]
      split_ifs with hnone
      · exact hs.startRequest (hs.idle hnone)
      · exact hs
  | some cert =>
      simp only [AcmeCA.resume]
      split_ifs with hexpiry hexpired hnear
      · exact hs
      · have hnone := hok cert rfl (Bool.eq_false_iff.mpr hexpired) hexpiry
        have hcleared : Owned (s.clearCache call.cacheKey) := hs.congr rfl rfl
        exact hcleared.startRequest (hcleared.idle hnone)
      · exact hs.startRequest (hs.idle hnear.2.2)
      · exact hs

theorem setBackend_attempts (s : AcmeCA) (cacheKey : JsString)
    (record : Option CachedCertificate) :
    (s.setBackend cacheKey record).attempts = s.attempts ∧
      (s.setBackend cacheKey record).pendingCertRenewals = s.pendingCertRenewals := by
  cases record <;> exact ⟨rfl, rfl⟩

/-- Every step that renews alone keeps live attempts the pending ones. -/
theorem Owned.step {e : Event} (hs : Owned s) (hok : RenewsAlone s e)
    (h : AcmeCA.step s e = some t) : Owned t := by
  cases e with
  | tryGetCertificateSync domain certOptions now =>
      simp only [AcmeCA.step] at h
      split_ifs at h <;> cases h
      · exact hs.congr rfl rfl
      · exact hs
  | waitForCertificate domain certOptions =>
      cases h
      exact hs.congr rfl rfl
  | backendRead id =>
      obtain ⟨call, _, h⟩ := Option.bind_eq_some_iff.mp h
      split at h <;> cases h
      exact hs.congr rfl rfl
  | backendReadFailed id =>
      obtain ⟨call, _, h⟩ := Option.bind_eq_some_iff.mp h
      split at h <;> cases h
      exact hs.congr rfl rfl
  | fetchCertResumes id =>
      obtain ⟨call, _, h⟩ := Option.bind_eq_some_iff.mp h
      split at h <;> cases h
      exact hs.congr rfl rfl
  | callResumes id now later =>
      obtain ⟨call, hcall, h⟩ := Option.bind_eq_some_iff.mp h
      split at h
      · next cachedCert hphase =>
          cases h
          have hcalls : Owned { s with calls := s.calls.delete id } := hs.congr rfl rfl
          apply hcalls.resume
          rintro cert rfl hexpired hexpiry
          have hfetched : call.fetchedCert = some cert := by rw [Call.fetchedCert, hphase]
          exact hok call hcall cert hfetched hexpired hexpiry
      · cases h
  | requestSettled id result =>
      obtain ⟨attempt, hget, h⟩ := Option.bind_eq_some_iff.mp h
      split at h <;> cases h
      · exact hs.setPhase hget _
      · exact hs.setPhase hget _
  | issuedHandler id =>
      obtain ⟨attempt, hget, h⟩ := Option.bind_eq_some_iff.mp h
      split at h <;> cases h
      exact hs.handleIssued hget _
  | revokeSettled id ok =>
      obtain ⟨attempt, hget, h⟩ := Option.bind_eq_some_iff.mp h
      split at h <;> cases h
      exact hs.setPhase hget _
  | revokedHandler id =>
      obtain ⟨attempt, hget, h⟩ := Option.bind_eq_some_iff.mp h
      split at h <;> cases h
      exact hs.finish hget _
  | failedHandler id =>
      obtain ⟨attempt, hget, h⟩ := Option.bind_eq_some_iff.mp h
      split at h <;> cases h
      exact (hs.deleteAttempt id).startRequest (hs.idle_deleteAttempt hget)
  | backendWritten n ok =>
      simp only [AcmeCA.step] at h
      split at h <;> cases h
      split_ifs
      · exact hs.congr (setBackend_attempts ..).1 (setBackend_attempts ..).2
      · exact hs.congr rfl rfl
  | backendDeleted n ok =>
      simp only [AcmeCA.step] at h
      split at h <;> cases h
      split_ifs
      · exact hs.congr (setBackend_attempts ..).1 (setBackend_attempts ..).2
      · exact hs.congr rfl rfl
  | otherServer cacheKey record =>
      cases h
      exact hs.congr (setBackend_attempts ..).1 (setBackend_attempts ..).2

/-- With owned attempts, at most one request for a key is in flight. -/
theorem Owned.length_inFlight_le (hs : Owned s) (cacheKey : JsString) :
    (s.inFlight cacheKey).length ≤ 1 := by
  have hmem {id : Nat} (hid : id ∈ s.inFlight cacheKey) :
      ∃ attempt, s.attempts.get id = some attempt ∧ attempt.cacheKey = cacheKey := by
    obtain ⟨⟨j, attempt⟩, hentry, rfl⟩ := List.mem_map.mp hid
    obtain ⟨hentry, hfilter⟩ := List.mem_filter.mp hentry
    exact ⟨attempt, InsertionMap.get_eq_some_iff.mpr hentry, (of_decide_eq_true hfilter).2⟩
  have hnodup : (s.inFlight cacheKey).Nodup :=
    s.attempts.nodup.sublist (List.filter_sublist.map Prod.fst)
  match hlist : s.inFlight cacheKey with
  | [] => exact Nat.zero_le 1
  | [_] => exact Nat.le_refl 1
  | i :: j :: rest =>
      rw [hlist] at hnodup hmem
      obtain ⟨a, ha, hakey⟩ := hmem (List.mem_cons_self)
      obtain ⟨b, hb, hbkey⟩ := hmem (List.mem_cons_of_mem i List.mem_cons_self)
      have hij := hs.unique ha hb (hakey.trans hbkey.symm)
      rw [hij] at hnodup
      simp at hnodup

/-- In a run whose calls renew alone, at most one `requestCertificate` call per key is in
flight in every state, whatever the cache and the backend held at first. -/
theorem inFlight_le_one {certCache : PersistentCertCache}
    {backend : InsertionMap JsString CachedCertificate} {es : List Event} {s : AcmeCA}
    (hok : Guarded step RenewsAlone (initial certCache backend) es)
    (hrun : run step (initial certCache backend) es = some s) (cacheKey : JsString) :
    (s.inFlight cacheKey).length ≤ 1 := by
  have howned : Owned s := guarded_invariant (fun _ _ _ hs hok h => hs.step hok h)
    (owned_initial certCache backend) hok hrun
  exact howned.length_inFlight_le cacheKey

/-- A server that starts empty: two callers wait for one name, and the second coalesces. -/
def freshRun : List Event :=
  [.waitForCertificate (js "t") {}, .waitForCertificate (js "t") {},
    .backendRead 0, .backendRead 1, .fetchCertResumes 0, .fetchCertResumes 1,
    .callResumes 0 1000 1000, .callResumes 1 1000 1000]

theorem inFlight_le_one_fresh :
    ∃ s, run step (initial ⟨.empty⟩ .empty) freshRun = some s ∧
      (s.inFlight (calculateCertCacheKey (js "t") {})).length ≤ 1 := by
  have hok : Guarded step RenewsAlone (initial ⟨.empty⟩ .empty) freshRun := by decide
  have henabled : (run step (initial ⟨.empty⟩ .empty) freshRun).isSome := by decide
  obtain ⟨s, hrun⟩ := Option.isSome_iff_exists.mp henabled
  exact ⟨s, hrun, inFlight_le_one hok hrun _⟩

/-- The cache of a server that was down until the record for the domain `t` ran out. -/
def staleCache : PersistentCertCache :=
  PersistentCertCache.cacheCert ⟨.empty⟩
    ⟨calculateCertCacheKey (js "t") {}, js "t", js "key", js "pem", 500⟩

/-- Two handshakes for the name arrive before the first of their calls resumes. -/
def staleRun : List Event :=
  [.tryGetCertificateSync (js "t") {} 1000, .tryGetCertificateSync (js "t") {} 1000,
    .callResumes 0 1001 1001, .callResumes 1 1001 1001]

/-- Both calls force a request, and the two are in flight together. -/
theorem inFlight_two_stale :
    ∃ s, run step (initial staleCache .empty) staleRun = some s ∧
      ¬ (s.inFlight (calculateCertCacheKey (js "t") {})).length ≤ 1 := by
  have htwo : (run step (initial staleCache .empty) staleRun).map
      (fun s => (s.inFlight (calculateCertCacheKey (js "t") {})).length) = some 2 := by decide
  obtain ⟨s, hrun, hlength⟩ := Option.map_eq_some_iff.mp htwo
  refine ⟨s, hrun, ?_⟩
  rw [hlength]
  exact Nat.not_succ_le_self 1

end AcmeCA

end TestServer.TlsCertificates
