import TestServer.Endpoints.TlsCerts

/-!
# Loads that fail

How a load of an authority ends is kept for good. A request that is made while
the store works is answered exactly as long as no load before it has failed.
-/

namespace TestServer.Endpoints.Downloads

open Js TlsCertificates Library.Runs LocalCAState

variable {x : X509}

/-- The end of a certificate that is stored can be compared. -/
def Comparable (stored : Option StoredCertificate) (now : Time) : Prop :=
  ∀ record ∈ stored, (isCaUsable record now).isSome = true

/-- Every operation of the store gives an answer, in which ends can be compared. -/
structure StoreWorks (context : CallContext) : Prop where
  read : ∃ stored, context.replies.read = .ok stored ∧ Comparable stored context.now
  write : context.replies.write = .ok ()
  writeIfAbsent : ∃ written, context.replies.writeIfAbsent = .ok written
  reread : ∃ stored, context.replies.reread = .ok stored ∧ Comparable stored context.now

/-- The call is for a domain that a certificate can cover. -/
def ValidCall : LocalCACall → Prop
  | .generateCertificate domain _ => ∃ covered, coveredDomain domain = .ok covered
  | _ => True

def ValidRequest (setup : DownloadSetup x) : CertRequest → Prop
  | .call c => ValidCall c
  | .handle name => ∀ c ∈ providerCall setup.rootDomain name, ValidCall c

def step (setup : DownloadSetup x) (s : Downloads x) (e : CallContext × CertRequest) :
    Option (Downloads x) :=
  some (serve setup s e.1 e.2).2

/-- Every request that is made while the store works is answered. -/
def LeavesNoTrace (setup : DownloadSetup x) (s : Downloads x) : Prop :=
  ∀ context request, ValidRequest setup request → StoreWorks context →
    ∃ answer, (serve setup s context request).1 = .ok answer

/-- The call of the local CA that a request makes, if any. -/
def madeCall (setup : DownloadSetup x) (s : Downloads x) : CertRequest → Option LocalCACall
  | .call c => some c
  | .handle name =>
      match s.resolved name with
      | some _ => none
      | none => providerCall setup.rootDomain name

/-- No operation of the store fails where the request makes an authority load. -/
def LoadsResolve (setup : DownloadSetup x) (s : Downloads x) (e : CallContext × CertRequest) :
    Prop :=
  ∀ c ∈ madeCall setup s e.2, ∀ managed, usedCA s.localCA c = some managed →
    s.localCA.settled managed = none → loads setup.localCA e.1 = true

variable {setup : DownloadSetup x} {s : Downloads x} {context : CallContext}

theorem adoptStored_isOk {stored : Option StoredCertificate} {now : Time}
    (h : Comparable stored now) : ∃ adopted, adoptStored x stored now = .ok adopted := by
  cases stored with
  | none => exact ⟨none, rfl⟩
  | some record =>
      obtain ⟨usable, husable⟩ := Option.isSome_iff_exists.mp (h record rfl)
      cases usable with
      | true => exact ⟨tryParseStoredCA x record, adoptStored_of_usable husable⟩
      | false => exact ⟨none, by simp only [adoptStored, husable]⟩

/-- No load fails while the store works. -/
theorem StoreWorks.loads (h : StoreWorks context) (localCA : LocalCASetup x) :
    loads localCA context = true := by
  obtain ⟨stored, hread, hcomparable⟩ := h.read
  obtain ⟨written, hwritten⟩ := h.writeIfAbsent
  obtain ⟨winner, hreread, hwinner⟩ := h.reread
  obtain ⟨adopted, hadopted⟩ := adoptStored_isOk (x := x) hcomparable
  obtain ⟨readopted, hreadopted⟩ := adoptStored_isOk (x := x) hwinner
  rw [LocalCAState.loads]
  split_ifs
  · rw [StoreReplies.resolve, hread, hwritten, hreread, h.write]
    simp only [hadopted, hreadopted]
    cases adopted with
    | some ca => rfl
    | none =>
        cases stored with
        | some record => rfl
        | none =>
            cases written with
            | true => rfl
            | false => rfl
  · rfl

/-- A call for a valid domain is answered if the authority that it uses is. -/
theorem exists_handed {localCA : LocalCASetup x} {t : LocalCAState x} (h : Issued t)
    {c : LocalCACall} (hvalid : ValidCall c)
    (hprovided : ∀ managed, usedCA t c = some managed →
      ∃ ca, provided localCA t context managed = .ok ca) :
    ∃ handed, (call localCA t context c).1 = .ok handed := by
  cases hused : usedCA t c with
  | some managed =>
      obtain ⟨ca, hca⟩ := hprovided managed hused
      obtain ⟨handed, hhanded, -⟩ := handed_of_provided h hused hca
      exact ⟨handed, hhanded⟩
  | none =>
      cases c with
      | getIntermediateCertificatePem => cases hused
      | generateCertificate domain options =>
          obtain ⟨covered, hcovered⟩ := hvalid
          obtain ⟨message, hmessage, -⟩ | ⟨leaf, hleaf, -⟩ :=
            generateCertificate_of_none localCA context hused
          · rw [hcovered] at hmessage
            cases hmessage
          · refine ⟨.certificate leaf, ?_⟩
            exact congrArg (Except.map Handed.certificate) hleaf
      | getClientAuthCaCertPem => cases hused
      | getClientCertificate => cases hused
      | evict cacheKey => exact ⟨.nothing, rfl⟩

/-- No load has failed so far. -/
def NoFailure (t : LocalCAState x) : Prop :=
  ∀ managed message, t.settled managed ≠ some (.error message)

theorem NoFailure.provided {localCA : LocalCASetup x} {t : LocalCAState x} (h : NoFailure t)
    {managed : ManagedCA}
    (hloads : t.settled managed = none → LocalCAState.loads localCA context = true) :
    ∃ ca, LocalCAState.provided localCA t context managed = .ok ca := by
  rw [LocalCAState.provided]
  cases hsettled : t.settled managed with
  | none => exact ⟨_, loadManagedCA_eq_ok_iff.mpr ⟨hloads hsettled, rfl⟩⟩
  | some outcome =>
      cases outcome with
      | error message => exact absurd hsettled (h managed message)
      | ok ca => exact ⟨ca, rfl⟩

theorem NoFailure.call {localCA : LocalCASetup x} {t : LocalCAState x} (h : NoFailure t)
    (hissued : Issued t) {c : LocalCACall}
    (hloads : ∀ managed, usedCA t c = some managed → t.settled managed = none →
      LocalCAState.loads localCA context = true) :
    NoFailure (LocalCAState.call localCA t context c).2 := by
  intro managed message hsettled
  rw [settled_call hissued] at hsettled
  split_ifs at hsettled with hused
  · obtain ⟨ca, hca⟩ := h.provided (hloads managed hused)
    rw [hca] at hsettled
    cases hsettled
  · exact h managed message hsettled

/-- What a request keeps of the local CA is what its call keeps. -/
theorem serve_localCA (request : CertRequest) :
    (serve setup s context request).2.localCA =
      match madeCall setup s request with
      | some c => (call setup.localCA s.localCA context c).2
      | none => s.localCA := by
  cases request with
  | call c => rfl
  | handle name =>
      simp only [serve, handle, resolve, madeCall]
      cases s.resolved name with
      | some outcome => rfl
      | none =>
          simp only [provide]
          cases providerCall setup.rootDomain name with
          | none => rfl
          | some c => rfl

/-- A provider gives a text, if its call is answered. -/
theorem provide_fst_isOk {name : CertName}
    (h : ∀ c ∈ providerCall setup.rootDomain name,
      ∃ handed, (call setup.localCA s.localCA context c).1 = .ok handed) :
    ∃ text, (provide setup s context name).1 = .ok text := by
  rw [provide]
  cases hcall : providerCall setup.rootDomain name with
  | none => exact ⟨_, rfl⟩
  | some c =>
      obtain ⟨handed, hhanded⟩ := h c hcall
      exact ⟨providedText name handed, congrArg (Except.map (providedText name)) hhanded⟩

/-- Nothing that is kept has failed, unless its domain cannot be covered. -/
structure Untouched (setup : DownloadSetup x) (s : Downloads x) : Prop where
  issued : Issued s.localCA
  noFailure : NoFailure s.localCA
  resolved : ∀ name message, s.resolved name = some (.error message) →
    ¬ ValidRequest setup (.handle name)

theorem untouched_initial : Untouched setup (initial : Downloads x) where
  issued := issued_initial
  noFailure managed message h := by cases h
  resolved name message h := by cases h

/-- A call is answered if nothing has failed and no load that it makes does. -/
theorem Untouched.call (h : Untouched setup s) {c : LocalCACall} (hvalid : ValidCall c)
    (hloads : ∀ managed, usedCA s.localCA c = some managed → s.localCA.settled managed = none →
      loads setup.localCA context = true) :
    ∃ handed, (LocalCAState.call setup.localCA s.localCA context c).1 = .ok handed :=
  exists_handed h.issued hvalid fun managed hused => h.noFailure.provided (hloads managed hused)

theorem Untouched.answered (h : Untouched setup s) {request : CertRequest}
    (hvalid : ValidRequest setup request)
    (hloads : LoadsResolve setup s (context, request)) :
    ∃ answer, (serve setup s context request).1 = .ok answer := by
  cases request with
  | call c =>
      obtain ⟨handed, hhanded⟩ := h.call hvalid (hloads c rfl)
      exact ⟨.inl handed, congrArg (Except.map Sum.inl) hhanded⟩
  | handle name =>
      have hresolve : ∃ text, (resolve setup s context name).1 = .ok text := by
        rw [resolve]
        cases hresolved : s.resolved name with
        | some outcome =>
            cases outcome with
            | error message => exact absurd hvalid (h.resolved name message hresolved)
            | ok text => exact ⟨text, rfl⟩
        | none =>
            apply provide_fst_isOk
            intro c hc
            apply h.call (hvalid c hc) (hloads c _)
            simp only [madeCall, hresolved]
            exact hc
      obtain ⟨text, htext⟩ := hresolve
      simp only [serve, handle, htext]
      exact ⟨_, rfl⟩

theorem resolved_serve (setup : DownloadSetup x) (s : Downloads x) (context : CallContext)
    (request : CertRequest) (k : CertName) :
    (serve setup s context request).2.resolved k = s.resolved k ∨
      request = .handle k ∧ s.resolved k = none ∧
        (serve setup s context request).2.resolved k =
          some (provide setup s context k).1 := by
  cases request with
  | call c => exact .inl rfl
  | handle name =>
      simp only [serve, handle, resolve]
      cases hresolved : s.resolved name with
      | some outcome => exact .inl rfl
      | none =>
          by_cases hk : k = name
          · subst hk
            exact .inr ⟨rfl, hresolved, Function.update_self ..⟩
          · exact .inl (Function.update_of_ne hk ..)

/-- A request whose loads do not fail leaves nothing that has failed. -/
theorem Untouched.serve (h : Untouched setup s) {request : CertRequest}
    (hloads : LoadsResolve setup s (context, request)) :
    Untouched setup (serve setup s context request).2 := by
  have hlocalCA : Issued (Downloads.serve setup s context request).2.localCA ∧
      NoFailure (Downloads.serve setup s context request).2.localCA := by
    rw [serve_localCA]
    cases hmade : madeCall setup s request with
    | none => exact ⟨h.issued, h.noFailure⟩
    | some c => exact ⟨h.issued.call c, h.noFailure.call h.issued (hloads c hmade)⟩
  refine ⟨hlocalCA.1, hlocalCA.2, fun name message hresolved hvalid => ?_⟩
  obtain hsame | ⟨rfl, hnone, hprovided⟩ := resolved_serve setup s context request name
  · rw [hsame] at hresolved
    exact h.resolved name message hresolved hvalid
  · rw [hprovided] at hresolved
    have hanswered : ∃ text, (provide setup s context name).1 = .ok text := by
      apply provide_fst_isOk
      intro c hc
      apply h.call (hvalid c hc) (hloads c _)
      simp only [madeCall, hnone]
      exact hc
    obtain ⟨text, htext⟩ := hanswered
    rw [htext] at hresolved
    cases hresolved

theorem Untouched.leavesNoTrace (h : Untouched setup s) : LeavesNoTrace setup s := by
  intro context request hvalid hworks
  apply h.answered hvalid
  intro c _ managed _ _
  exact hworks.loads setup.localCA

/-- A load has failed. -/
structure Broken (s : Downloads x) : Prop where
  issued : Issued s.localCA
  failed : ∃ managed message, s.localCA.settled managed = some (.error message)

theorem Broken.serve (h : Broken s) (request : CertRequest) :
    Broken (serve setup s context request).2 := by
  obtain ⟨managed, message, hfailed⟩ := h.failed
  have hboth : Issued (Downloads.serve setup s context request).2.localCA ∧
      (Downloads.serve setup s context request).2.localCA.settled managed =
        some (.error message) := by
    rw [serve_localCA]
    cases madeCall setup s request with
    | none => exact ⟨h.issued, hfailed⟩
    | some c =>
        refine ⟨h.issued.call c, ?_⟩
        change (LocalCAState.call setup.localCA s.localCA context c).2.settled managed = _
        rw [settled_call h.issued]
        split_ifs
        · rw [LocalCAState.provided, hfailed]
        · exact hfailed
  exact ⟨hboth.1, managed, message, hboth.2⟩

/-- A request with a load that fails leaves the failure behind. -/
theorem Untouched.broken (h : Untouched setup s) {request : CertRequest}
    (hloads : ¬ LoadsResolve setup s (context, request)) :
    Broken (Downloads.serve setup s context request).2 := by
  have hexists : ∃ c, madeCall setup s request = some c ∧ ∃ managed,
      usedCA s.localCA c = some managed ∧ s.localCA.settled managed = none ∧
        loads setup.localCA context ≠ true := by
    by_contra hnone
    apply hloads
    intro c hc managed hused hsettled
    by_contra hfails
    exact hnone ⟨c, hc, managed, hused, hsettled, hfails⟩
  obtain ⟨c, hc, managed, hused, hsettled, hfails⟩ := hexists
  have herror : ∃ message, loadManagedCA setup.localCA context managed = .error message := by
    cases hload : loadManagedCA setup.localCA context managed with
    | error message => exact ⟨message, rfl⟩
    | ok ca => exact absurd (loadManagedCA_eq_ok_iff.mp hload).1 hfails
  obtain ⟨message, hmessage⟩ := herror
  have hlocalCA : (Downloads.serve setup s context request).2.localCA =
      (LocalCAState.call setup.localCA s.localCA context c).2 := by
    rw [serve_localCA, hc]
  refine ⟨?_, managed, message, ?_⟩
  · rw [hlocalCA]
    exact h.issued.call c
  · rw [hlocalCA, settled_call h.issued, if_pos hused, LocalCAState.provided, hsettled]
    exact congrArg some hmessage

/-- The call that only asks for an authority. -/
def askFor : ManagedCA → LocalCACall
  | .intermediate => .getIntermediateCertificatePem
  | .clientAuth => .getClientAuthCaCertPem

theorem storeWorks_empty (now : Time) (seed : Nat) : StoreWorks ⟨now, seed, .empty⟩ where
  read := ⟨none, rfl, fun record h => by cases h⟩
  write := rfl
  writeIfAbsent := ⟨true, rfl⟩
  reread := ⟨none, rfl, fun record h => by cases h⟩

theorem Broken.not_leavesNoTrace (h : Broken s) : ¬ LeavesNoTrace setup s := by
  intro hleaves
  obtain ⟨managed, message, hfailed⟩ := h.failed
  have hused : usedCA s.localCA (askFor managed) = some managed := by
    cases managed with
    | intermediate => rfl
    | clientAuth => rfl
  have hvalid : ValidRequest setup (.call (askFor managed)) := by
    cases managed with
    | intermediate => exact trivial
    | clientAuth => exact trivial
  obtain ⟨answer, hanswer⟩ := hleaves _ _ hvalid (storeWorks_empty 0 0)
  have hserve : (Downloads.serve setup s ⟨0, 0, .empty⟩ (.call (askFor managed))).1 =
      (call setup.localCA s.localCA ⟨0, 0, .empty⟩ (askFor managed)).1.map Sum.inl := rfl
  rw [hserve] at hanswer
  cases houtcome : (call setup.localCA s.localCA ⟨0, 0, .empty⟩ (askFor managed)).1 with
  | error other =>
      rw [houtcome] at hanswer
      cases hanswer
  | ok handed =>
      obtain ⟨ca, hca, -⟩ := provided_of_handed h.issued hused houtcome
      rw [LocalCAState.provided, hfailed] at hca
      cases hca

/-- After any requests all later ones are answered while the store works, exactly when no load
among them has failed. -/
theorem leavesNoTrace_iff {requests : List (CallContext × CertRequest)}
    (hrun : run (step setup) initial requests = some s) :
    LeavesNoTrace setup s ↔ Guarded (step setup) (LoadsResolve setup) initial requests := by
  have houtcome : Guarded (step setup) (LoadsResolve setup) initial requests ∧
        Untouched setup s ∨
      ¬ Guarded (step setup) (LoadsResolve setup) initial requests ∧ Broken s := by
    refine guarded_or_stuck ?_ ?_ ?_ untouched_initial hrun
    · rintro s e t h hok ⟨⟩
      exact h.serve hok
    · rintro s e t h hok ⟨⟩
      exact h.broken hok
    · rintro s e t h ⟨⟩
      exact h.serve e.2
  obtain ⟨hguarded, huntouched⟩ | ⟨hguarded, hbroken⟩ := houtcome
  · exact iff_of_true huntouched.leavesNoTrace hguarded
  · exact iff_of_false hbroken.not_leavesNoTrace hguarded

/-- The store rejects a read. -/
def outage : StoreReplies := { StoreReplies.empty with read := .error (js "timeout") }

def plainDownloads : DownloadSetup X509.plain := ⟨X509.plainSetup, js "t"⟩

theorem leavesNoTrace_iff_outage :
    LeavesNoTrace plainDownloads (serve plainDownloads initial ⟨0, 0, outage⟩
        (.call .getClientCertificate)).2 ↔
      Guarded (step plainDownloads) (LoadsResolve plainDownloads) initial
        [(⟨0, 0, outage⟩, .call .getClientCertificate)] :=
  leavesNoTrace_iff rfl

/-- A client certificate that could not be made once is never made. -/
theorem not_leavesNoTrace_outage :
    ¬ LeavesNoTrace plainDownloads (serve plainDownloads initial ⟨0, 0, outage⟩
        (.call .getClientCertificate)).2 := by
  intro h
  obtain ⟨answer, hanswer⟩ := h ⟨0, 0, .empty⟩ (.call .getClientCertificate) trivial
    (storeWorks_empty 0 0)
  cases hanswer

end TestServer.Endpoints.Downloads
