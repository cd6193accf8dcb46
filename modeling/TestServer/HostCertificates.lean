import TestServer.CertKeys
import TestServer.TlsCertificates.RecordedLibrary

/-!
# Certificates for the host

The certificate that `generateCertificate` of `src/server.ts` returns covers the
host for which it is asked, and so do the orders that AcmeCA places for it. The
caches of both authorities and the shared backend keep, with each key, what was
issued for the domain of the key.

## Implementation notes

AcmeCA and the local CA take steps in any order. A call that waits for AcmeCA is
answered with a record that it has fetched or with the certificate of an attempt
for its key, in some later state.
-/

namespace TestServer

open Js Library Library.Runs Endpoints TlsCertificates

/-- How a server issues certificates, with the libraries that it uses. -/
structure CertServer (x : X509) where
  reader : x.Reader
  acme : AcmeLibrary
  localCA : LocalCASetup x
  acmeProvider : AcmeProvider
  mode : CertMode
  rootDomain : JsString

structure CertState (x : X509) where
  acmeCA : AcmeCA
  localCA : LocalCAState x

inductive CertEvent where
  | acme (e : AcmeCA.Event)
  | «local» (context : CallContext) (c : LocalCACall)

/-- What `generateCertificate` gives when it does not throw. -/
inductive Given (x : X509) where
  | acme (cert : JsString)
  /-- What `waitForCertificate` resolves to is given later. -/
  | waits
  | leaf (leaf : LocallyGeneratedCertificate x)

def CertMode.hasDnsServer : CertMode → Bool
  | .localOnly => false
  | .acme dnsServer => dnsServer

namespace CertServer

variable {x : X509} (server : CertServer x)

def step (s : CertState x) : CertEvent → Option (CertState x)
  | .acme e => (s.acmeCA.step e).map fun acmeCA => { s with acmeCA := acmeCA }
  | .local context c =>
      some { s with localCA := (s.localCA.call server.localCA context c).2 }

/-- `generateCertificate`, in a state of the two authorities. -/
def generateCertificate (s : CertState x) (now : Time) (context : CallContext)
    (domain : JsString) (certOptions : CertOptions) : Except JsString (Given x) :=
  let lookup := fun domain certOptions =>
    (tryGetCertificateSync s.acmeCA.certCache domain certOptions now).cert
  match TestServer.generateCertificate server.mode server.rootDomain lookup domain certOptions with
  | .error message => .error message
  | .ok g =>
      match g.source with
      | .acmeCached cert => .ok (.acme cert.cert)
      | .acmeWaited => .ok .waits
      | .localLeaf domain _ =>
          (s.localCA.generateCertificate server.localCA context domain certOptions).1.map .leaf

/-- The key under which AcmeCA is asked for a certificate. -/
def acmeKey (domain : JsString) (certOptions : CertOptions) : JsString :=
  calculateCertCacheKey
    (effectiveDomain server.mode.hasDnsServer server.rootDomain domain certOptions) certOptions

end CertServer

/-- The record that a call holds. -/
def TlsCertificates.Call.record (call : Call) : Option CachedCertificate :=
  match call.phase with
  | .reading => none
  | .answered stored => stored
  | .fetched cert => cert

/-- The certificate that an attempt was issued. -/
def TlsCertificates.Attempt.certData (attempt : Attempt) : Option AcmeGeneratedCertificate :=
  match attempt.phase with
  | .requesting => none
  | .issued certData => some certData
  | .revoking certData => some certData
  | .revoked certData => some certData
  | .failed => none

/-- The certificates with which a call that waits for a key may be answered. -/
inductive Answers (s : AcmeCA) (cacheKey : JsString) : JsString → Prop
  | fetched {id : Nat} {call : Call} {record : CachedCertificate}
      (hcall : s.calls.get id = some call) (hkey : call.cacheKey = cacheKey)
      (hrecord : call.record = some record) : Answers s cacheKey record.cert
  | issued {id : Nat} {attempt : Attempt} {certData : AcmeGeneratedCertificate}
      (hattempt : s.attempts.get id = some attempt) (hkey : attempt.cacheKey = cacheKey)
      (hcertData : attempt.certData = some certData) : Answers s cacheKey certData.cert

namespace CertServer

variable {x : X509} (server : CertServer x)

/-- What is given for a host covers it; a call that waits is answered in a later state. -/
def Covers (t : CertState x) (host : JsString) (certOptions : CertOptions) : Given x → Prop
  | .acme cert => CoversHost (server.acme.dnsNames cert) host
  | .waits => ∀ cert, Answers t.acmeCA (server.acmeKey host certOptions) cert →
      CoversHost (server.acme.dnsNames cert) host
  | .leaf leaf => ∃ name, server.reader.dnsNames leaf.certificate = some [name] ∧
      NameCovers name host ∧ unit '_' ∉ name

/-- A certificate has the domain for which its key was made. -/
def Named (cacheKey cert : JsString) : Prop :=
  ∃ domain certOptions, AcmeAsked server.rootDomain domain certOptions ∧
    cacheKey = calculateCertCacheKey domain certOptions ∧ domain ∈ server.acme.dnsNames cert

/-- What the events come from: the authorities are called for domains that are asked for, an
order is answered with the names of its CSR, and other servers store what has the domain of its
key. -/
def Genuine (s : CertState x) : CertEvent → Prop
  | .acme (.tryGetCertificateSync domain certOptions _) =>
      AcmeAsked server.rootDomain domain certOptions
  | .acme (.waitForCertificate domain certOptions) =>
      AcmeAsked server.rootDomain domain certOptions
  | .acme (.requestSettled id (some certData)) => ∀ attempt ∈ s.acmeCA.attempts.get id,
      (attemptOrder server.acmeProvider server.mode.hasDnsServer attempt).Answered server.acme
        certData.cert
  | .acme (.otherServer cacheKey (some record)) => server.Named cacheKey record.cert
  | .local _ (.generateCertificate domain certOptions) =>
      Asked server.rootDomain domain certOptions
  | _ => True

/-- A server has what it keeps for the domains of the keys. -/
structure Keeps (s : AcmeCA) : Prop where
  cached : ∀ cacheKey record, s.certCache.getCert cacheKey = some record →
    server.Named cacheKey record.cert
  stored : ∀ cacheKey record, s.backend.get cacheKey = some record →
    server.Named cacheKey record.cert
  writes : ∀ record ∈ s.writes, server.Named record.cacheKey record.cert
  called : ∀ id call, s.calls.get id = some call →
    AcmeAsked server.rootDomain call.domain call.certOptions
  fetched : ∀ id call, s.calls.get id = some call → ∀ record ∈ call.record,
    server.Named call.cacheKey record.cert
  attempted : ∀ id attempt, s.attempts.get id = some attempt →
    AcmeAsked server.rootDomain attempt.domain attempt.certOptions
  issued : ∀ id attempt, s.attempts.get id = some attempt → ∀ certData ∈ attempt.certData,
    attempt.domain ∈ server.acme.dnsNames certData.cert

/-- The leaves that are kept name what covers the domains of their keys. -/
def KeepsLeaves (s : LocalCAState x) : Prop :=
  ∀ cacheKey leaf, s.certInMemoryCache.get cacheKey = some leaf →
    ∃ domain certOptions name, Asked server.rootDomain domain certOptions ∧
      coveredDomain domain = .ok name ∧ cacheKey = calculateCacheKey name certOptions ∧
      server.reader.dnsNames leaf.certificate = some [name]

variable {server : CertServer x} {s t : AcmeCA}

theorem Keeps.startRequest (h : server.Keeps s) {domain : JsString} {certOptions : CertOptions}
    (hasked : AcmeAsked server.rootDomain domain certOptions) :
    server.Keeps (s.startRequest domain certOptions) := by
  refine { h with attempted := fun id attempt hget => ?_, issued := fun id attempt hget => ?_ }
  · simp only [AcmeCA.startRequest, InsertionMap.get_set] at hget
    split_ifs at hget
    · cases hget
      exact hasked
    · exact h.attempted id attempt hget
  · simp only [AcmeCA.startRequest, InsertionMap.get_set] at hget
    split_ifs at hget
    · cases hget
      intro certData hcertData
      cases hcertData
    · exact h.issued id attempt hget

theorem Keeps.getCertificate (h : server.Keeps s) {domain : JsString} {certOptions : CertOptions}
    (hasked : AcmeAsked server.rootDomain domain certOptions) :
    server.Keeps (s.getCertificate domain certOptions) := by
  refine { h with called := fun id call hget => ?_, fetched := fun id call hget => ?_ }
  · simp only [AcmeCA.getCertificate, InsertionMap.get_set] at hget
    split_ifs at hget
    · cases hget
      exact hasked
    · exact h.called id call hget
  · simp only [AcmeCA.getCertificate, InsertionMap.get_set] at hget
    split_ifs at hget
    · cases hget
      intro record hrecord
      cases hcert : s.certCache.getCert (calculateCertCacheKey domain certOptions) with
      | none =>
          rw [hcert] at hrecord
          cases hrecord
      | some cert =>
          rw [hcert] at hrecord
          cases hrecord
          exact h.cached _ _ hcert
    · exact h.fetched id call hget

theorem Keeps.setCall (h : server.Keeps s) {id : Nat} {call : Call}
    (hcall : s.calls.get id = some call) {phase : CallPhase}
    (hrecord : ∀ record ∈ { call with phase := phase }.record,
      server.Named call.cacheKey record.cert) :
    server.Keeps { s with calls := s.calls.set id { call with phase := phase } } := by
  refine { h with called := fun j b hget => ?_, fetched := fun j b hget => ?_ }
  · simp only [InsertionMap.get_set] at hget
    split_ifs at hget
    · cases hget
      exact h.called id call hcall
    · exact h.called j b hget
  · simp only [InsertionMap.get_set] at hget
    split_ifs at hget
    · cases hget
      exact hrecord
    · exact h.fetched j b hget

theorem Keeps.deleteCall (h : server.Keeps s) (id : Nat) :
    server.Keeps { s with calls := s.calls.delete id } := by
  have hkept {j : Nat} {call : Call} (hget : (s.calls.delete id).get j = some call) :
      s.calls.get j = some call := by
    rw [InsertionMap.get_delete] at hget
    split_ifs at hget
    exact hget
  exact { h with
    called := fun j call hget => h.called j call (hkept hget)
    fetched := fun j call hget => h.fetched j call (hkept hget) }

theorem Keeps.setCache (h : server.Keeps s) {cacheKey : JsString} {record : CachedCertificate}
    (hnamed : server.Named cacheKey record.cert) :
    server.Keeps { s with certCache := ⟨s.certCache.cache.set cacheKey record⟩ } := by
  refine { h with cached := fun k r hget => ?_ }
  simp only [PersistentCertCache.getCert, InsertionMap.get_set] at hget
  split_ifs at hget with hk
  · cases hget
    exact hk ▸ hnamed
  · exact h.cached k r hget

theorem Keeps.setPhase (h : server.Keeps s) {id : Nat} {attempt : Attempt}
    (hattempt : s.attempts.get id = some attempt) {phase : AttemptPhase}
    (hissued : ∀ certData ∈ { attempt with phase := phase }.certData,
      attempt.domain ∈ server.acme.dnsNames certData.cert) :
    server.Keeps (s.setPhase id attempt phase) := by
  refine { h with attempted := fun j b hget => ?_, issued := fun j b hget => ?_ }
  · simp only [AcmeCA.setPhase, InsertionMap.get_set] at hget
    split_ifs at hget
    · cases hget
      exact h.attempted id attempt hattempt
    · exact h.attempted j b hget
  · simp only [AcmeCA.setPhase, InsertionMap.get_set] at hget
    split_ifs at hget
    · cases hget
      exact hissued
    · exact h.issued j b hget

theorem Keeps.deleteAttempt (h : server.Keeps s) (id : Nat) :
    server.Keeps { s with attempts := s.attempts.delete id } := by
  have hkept {j : Nat} {attempt : Attempt}
      (hget : (s.attempts.delete id).get j = some attempt) : s.attempts.get j = some attempt := by
    rw [InsertionMap.get_delete] at hget
    split_ifs at hget
    exact hget
  exact { h with
    attempted := fun j attempt hget => h.attempted j attempt (hkept hget)
    issued := fun j attempt hget => h.issued j attempt (hkept hget) }

theorem Keeps.clearCache (h : server.Keeps s) (cacheKey : JsString) :
    server.Keeps (s.clearCache cacheKey) := by
  refine { h with cached := fun k record hget => ?_ }
  simp only [AcmeCA.clearCache, PersistentCertCache.clearCache, PersistentCertCache.getCert,
    InsertionMap.get_delete] at hget
  split_ifs at hget
  exact h.cached k record hget

theorem Keeps.setBackend (h : server.Keeps s) {cacheKey : JsString}
    {record : Option CachedCertificate}
    (hnamed : ∀ cert ∈ record, server.Named cacheKey cert.cert) :
    server.Keeps (s.setBackend cacheKey record) := by
  cases record with
  | none =>
      refine { h with stored := fun k r hget => ?_ }
      simp only [AcmeCA.setBackend, InsertionMap.get_delete] at hget
      split_ifs at hget
      exact h.stored k r hget
  | some cert =>
      refine { h with stored := fun k r hget => ?_ }
      simp only [AcmeCA.setBackend, InsertionMap.get_set] at hget
      split_ifs at hget with hk
      · cases hget
        exact hk ▸ hnamed cert rfl
      · exact h.stored k r hget

/-- The record of an attempt has the domain of the attempt. -/
theorem Keeps.finish (h : server.Keeps s) {id : Nat} {attempt : Attempt}
    (hattempt : s.attempts.get id = some attempt) {certData : AcmeGeneratedCertificate}
    (hissued : attempt.domain ∈ server.acme.dnsNames certData.cert) :
    server.Keeps (s.finish id attempt certData) := by
  let record : CachedCertificate :=
    ⟨attempt.cacheKey, attempt.domain, certData.key, certData.cert, certData.expiry⟩
  have hnamed : server.Named attempt.cacheKey record.cert :=
    ⟨attempt.domain, attempt.certOptions, h.attempted id attempt hattempt, rfl, hissued⟩
  have hcached := (h.deleteAttempt id).setCache hnamed
  refine { hcached with writes := fun record hrecord => ?_ }
  rcases List.mem_append.mp hrecord with hrecord | hrecord
  · exact h.writes record hrecord
  · obtain rfl := List.mem_singleton.mp hrecord
    exact hnamed

theorem Keeps.handleIssued (h : server.Keeps s) {id : Nat} {attempt : Attempt}
    (hattempt : s.attempts.get id = some attempt) {certData : AcmeGeneratedCertificate}
    (hissued : attempt.domain ∈ server.acme.dnsNames certData.cert) :
    server.Keeps (s.handleIssued id attempt certData) := by
  simp only [AcmeCA.handleIssued]
  split_ifs
  · exact h.deleteAttempt id
  · apply h.setPhase hattempt
    rintro _ ⟨⟩
    exact hissued
  · exact h.finish hattempt hissued

theorem Keeps.resume (h : server.Keeps s) {call : Call} (cachedCert : Option CachedCertificate)
    (now later : Time) (hasked : AcmeAsked server.rootDomain call.domain call.certOptions) :
    server.Keeps (s.resume call cachedCert now later) := by
  cases cachedCert with
  | none =>
      simp only [AcmeCA.resume]
      split_ifs
      · exact h.startRequest hasked
      · exact h
  | some cert =>
      simp only [AcmeCA.resume]
      split_ifs
      · exact h
      · exact (h.clearCache _).startRequest hasked
      · exact h.startRequest hasked
      · exact h

theorem Keeps.writes_eraseIdx (h : server.Keeps s) (n : Nat) :
    server.Keeps { s with writes := s.writes.eraseIdx n } :=
  { h with writes := fun record hrecord => h.writes record (List.mem_of_mem_eraseIdx hrecord) }

/-- A genuine event of AcmeCA keeps what it has for the domains of the keys. -/
theorem Keeps.step (hacme : server.acme.Lawful) {u : CertState x} {e : AcmeCA.Event}
    (h : server.Keeps u.acmeCA) (hok : server.Genuine u (.acme e))
    (hstep : u.acmeCA.step e = some t) : server.Keeps t := by
  cases e with
  | tryGetCertificateSync domain certOptions now =>
      simp only [AcmeCA.step] at hstep
      split_ifs at hstep <;> cases hstep
      · exact h.getCertificate hok
      · exact h
  | waitForCertificate domain certOptions =>
      cases hstep
      exact h.getCertificate hok
  | backendRead id =>
      obtain ⟨call, hcall, hstep⟩ := Option.bind_eq_some_iff.mp hstep
      split at hstep <;> cases hstep
      exact h.setCall hcall fun record hrecord => h.stored _ record hrecord
  | backendReadFailed id =>
      obtain ⟨call, hcall, hstep⟩ := Option.bind_eq_some_iff.mp hstep
      split at hstep <;> cases hstep
      exact h.deleteCall id
  | fetchCertResumes id =>
      obtain ⟨call, hcall, hstep⟩ := Option.bind_eq_some_iff.mp hstep
      split at hstep
      · next stored hphase =>
          have hfetched : ∀ record ∈ stored, server.Named call.cacheKey record.cert := by
            have hrecord : call.record = stored := by rw [Call.record, hphase]
            rw [← hrecord]
            exact h.fetched id call hcall
          cases hstep
          cases stored with
          | none => exact h.setCall hcall hfetched
          | some cert => exact (h.setCache (hfetched cert rfl)).setCall hcall hfetched
      · cases hstep
  | callResumes id now later =>
      obtain ⟨call, hcall, hstep⟩ := Option.bind_eq_some_iff.mp hstep
      split at hstep <;> cases hstep
      exact (h.deleteCall id).resume _ now later (h.called id call hcall)
  | requestSettled id result =>
      obtain ⟨attempt, hattempt, hstep⟩ := Option.bind_eq_some_iff.mp hstep
      split at hstep <;> cases hstep
      · next certData hphase =>
          apply h.setPhase hattempt
          rintro _ ⟨⟩
          exact hok attempt hattempt (domain_mem_csrNames hacme ..)
      · apply h.setPhase hattempt
        rintro _ ⟨⟩
  | issuedHandler id =>
      obtain ⟨attempt, hattempt, hstep⟩ := Option.bind_eq_some_iff.mp hstep
      split at hstep <;> cases hstep
      next certData hphase =>
        apply h.handleIssued hattempt
        apply h.issued id attempt hattempt
        rw [Attempt.certData, hphase]
        rfl
  | revokeSettled id ok =>
      obtain ⟨attempt, hattempt, hstep⟩ := Option.bind_eq_some_iff.mp hstep
      split at hstep <;> cases hstep
      next certData hphase =>
        have hissued : attempt.domain ∈ server.acme.dnsNames certData.cert := by
          apply h.issued id attempt hattempt
          rw [Attempt.certData, hphase]
          rfl
        apply h.setPhase hattempt
        cases ok with
        | true =>
            rintro _ ⟨⟩
            exact hissued
        | false => rintro _ ⟨⟩
  | revokedHandler id =>
      obtain ⟨attempt, hattempt, hstep⟩ := Option.bind_eq_some_iff.mp hstep
      split at hstep <;> cases hstep
      next certData hphase =>
        apply h.finish hattempt
        apply h.issued id attempt hattempt
        rw [Attempt.certData, hphase]
        rfl
  | failedHandler id =>
      obtain ⟨attempt, hattempt, hstep⟩ := Option.bind_eq_some_iff.mp hstep
      split at hstep <;> cases hstep
      exact (h.deleteAttempt id).startRequest (h.attempted id attempt hattempt)
  | backendWritten n ok =>
      simp only [AcmeCA.step] at hstep
      split at hstep
      · next record hrecord =>
          cases hstep
          have hrest := h.writes_eraseIdx n
          split_ifs
          · apply hrest.setBackend
            rintro _ ⟨⟩
            exact h.writes record (List.mem_of_getElem? hrecord)
          · exact hrest
      · cases hstep
  | backendDeleted n ok =>
      simp only [AcmeCA.step] at hstep
      split at hstep <;> cases hstep
      have hrest : server.Keeps { u.acmeCA with deletes := u.acmeCA.deletes.eraseIdx n } :=
        { h with }
      split_ifs
      · apply hrest.setBackend
        rintro _ ⟨⟩
      · exact hrest
  | otherServer cacheKey record =>
      cases hstep
      apply h.setBackend
      cases record with
      | none => rintro _ ⟨⟩
      | some cert =>
          rintro _ ⟨⟩
          exact hok

variable {l : LocalCAState x} {context : CallContext}

theorem dnsNames_makeLeaf (hreader : server.reader.Lawful) (name : JsString)
    (certOptions : CertOptions) (intermediate : Option (CaMaterial x)) :
    server.reader.dnsNames (LocalCAState.makeLeaf server.localCA context name certOptions
      intermediate).certificate = some [name] :=
  hreader.dnsNames_create _ _

theorem KeepsLeaves.of_cache (h : server.KeepsLeaves l) {l' : LocalCAState x}
    (hcache : l'.certInMemoryCache = l.certInMemoryCache) : server.KeepsLeaves l' := by
  intro cacheKey leaf hleaf
  rw [hcache] at hleaf
  exact h cacheKey leaf hleaf

theorem KeepsLeaves.getManagedCA (h : server.KeepsLeaves l) (managed : ManagedCA) :
    server.KeepsLeaves (LocalCAState.getManagedCA server.localCA l context managed).2 :=
  h.of_cache (LocalCAState.getManagedCA_cache server.localCA l context managed)

theorem KeepsLeaves.cacheLeaf (h : server.KeepsLeaves l) {domain name : JsString}
    {certOptions : CertOptions} {leaf : LocallyGeneratedCertificate x}
    (hasked : Asked server.rootDomain domain certOptions) (hname : coveredDomain domain = .ok name)
    (hleaf : server.reader.dnsNames leaf.certificate = some [name]) :
    server.KeepsLeaves (l.cacheLeaf (calculateCacheKey name certOptions) leaf) := by
  intro k kept hget
  simp only [LocalCAState.cacheLeaf, InsertionMap.get_set] at hget
  split_ifs at hget with hk
  · cases hget
    exact ⟨domain, certOptions, name, hasked, hname, hk, hleaf⟩
  · exact h k kept hget

theorem KeepsLeaves.generateCertificate (hreader : server.reader.Lawful)
    (h : server.KeepsLeaves l) {domain : JsString} {certOptions : CertOptions}
    (hasked : Asked server.rootDomain domain certOptions) :
    server.KeepsLeaves
      (l.generateCertificate server.localCA context domain certOptions).2 := by
  have hgenerated :=
    LocalCAState.generateCertificate_generated server.localCA l context domain certOptions
  generalize l.generateCertificate server.localCA context domain certOptions = result
    at hgenerated ⊢
  cases hgenerated with
  | invalid hdomain => exact h
  | cached hdomain hcache => exact h
  | selfSigned hdomain hcache hself =>
      exact h.cacheLeaf hasked hdomain (dnsNames_makeLeaf hreader ..)
  | failed hdomain hcache hself hprovided => exact h.getManagedCA _
  | issued hdomain hcache hself hprovided =>
      exact (h.getManagedCA .intermediate).cacheLeaf hasked hdomain (dnsNames_makeLeaf hreader ..)

theorem KeepsLeaves.getClientCertificate (h : server.KeepsLeaves l) :
    server.KeepsLeaves (l.getClientCertificate server.localCA context).2 := by
  cases hkept : l.keptClientCertificate context with
  | some client =>
      simp only [LocalCAState.getClientCertificate, hkept]
      exact h
  | none =>
      rw [LocalCAState.getClientCertificate_of_none hkept]
      exact (h.getManagedCA .clientAuth).of_cache rfl

/-- A genuine call of the local CA keeps leaves for the domains of the keys. -/
theorem KeepsLeaves.call (hreader : server.reader.Lawful) {u : CertState x} {c : LocalCACall}
    (h : server.KeepsLeaves u.localCA) (hok : server.Genuine u (.local context c)) :
    server.KeepsLeaves (u.localCA.call server.localCA context c).2 := by
  cases c with
  | getIntermediateCertificatePem => exact h.getManagedCA _
  | generateCertificate domain certOptions => exact h.generateCertificate hreader hok
  | getClientAuthCaCertPem => exact h.getManagedCA _
  | getClientCertificate => exact h.getClientCertificate
  | evict cacheKey =>
      intro k leaf hget
      simp only [LocalCAState.call, InsertionMap.get_delete] at hget
      split_ifs at hget
      exact h k leaf hget

variable {host : JsString} {config : EndpointConfig}

/-- What AcmeCA has for the key of a host names the domain that covers it. -/
theorem Named.coversHost (hown : Own server.rootDomain host)
    (hconfig : getEndpointConfig (getSNIPrefixParts host server.rootDomain) = .ok config)
    (hoverride : (CertOptions.ofRecord config.certOptions).override = none)
    {cert : JsString}
    (h : server.Named (server.acmeKey host (CertOptions.ofRecord config.certOptions)) cert) :
    CoversHost (server.acme.dnsNames cert) host := by
  obtain ⟨domain, certOptions, hasked, hkey, hmem⟩ := h
  obtain rfl := acmeDomain_eq_of_key hown hconfig hoverride _ hasked hkey
  exact (effectiveDomain_covers ..).coversHost hmem

/-- A leaf that the local CA gives for a host has one name, which covers it. -/
theorem KeepsLeaves.covers (hreader : server.reader.Lawful) (h : server.KeepsLeaves l)
    (hown : Own server.rootDomain host)
    (hconfig : getEndpointConfig (getSNIPrefixParts host server.rootDomain) = .ok config)
    (hoverride : (CertOptions.ofRecord config.certOptions).override = none)
    {leaf : LocallyGeneratedCertificate x}
    (hleaf : (l.generateCertificate server.localCA context host
      (CertOptions.ofRecord config.certOptions)).1 = .ok leaf) :
    ∃ name, server.reader.dnsNames leaf.certificate = some [name] ∧ NameCovers name host ∧
      unit '_' ∉ name := by
  have hgenerated := LocalCAState.generateCertificate_generated server.localCA l context host
    (CertOptions.ofRecord config.certOptions)
  generalize l.generateCertificate server.localCA context host
    (CertOptions.ofRecord config.certOptions) = result at hgenerated hleaf
  cases hgenerated with
  | invalid hdomain => cases hleaf
  | @cached name kept hdomain hcache =>
      cases hleaf
      obtain ⟨domain, certOptions, name', hasked, hname', hkey, hnames⟩ := h _ _ hcache
      obtain rfl : name = name' :=
        coveredDomain_eq_of_key hown hconfig hoverride hdomain hasked hname' hkey
      exact ⟨name, hnames, coveredDomain_covers hdomain⟩
  | selfSigned hdomain hcache hself =>
      cases hleaf
      exact ⟨_, dnsNames_makeLeaf hreader .., coveredDomain_covers hdomain⟩
  | failed hdomain hcache hself hprovided => cases hleaf
  | issued hdomain hcache hself hprovided =>
      cases hleaf
      exact ⟨_, dnsNames_makeLeaf hreader .., coveredDomain_covers hdomain⟩

/-- Every certificate that may answer a call for a key has the domain of the key. -/
theorem Keeps.named_of_answers (h : server.Keeps s) {cacheKey cert : JsString}
    (hanswers : Answers s cacheKey cert) : server.Named cacheKey cert := by
  cases hanswers with
  | @fetched id call record hcall hkey hrecord =>
      rw [← hkey]
      exact h.fetched id call hcall record hrecord
  | @issued id attempt certData hattempt hkey hcertData =>
      exact ⟨attempt.domain, attempt.certOptions, h.attempted id attempt hattempt, hkey.symm,
        h.issued id attempt hattempt certData hcertData⟩

/-- The orders for the key of a host are for a name that covers it. -/
theorem Keeps.order_covers (hacme : server.acme.Lawful) (h : server.Keeps s)
    (hown : Own server.rootDomain host)
    (hconfig : getEndpointConfig (getSNIPrefixParts host server.rootDomain) = .ok config)
    (hoverride : (CertOptions.ofRecord config.certOptions).override = none) {id : Nat}
    {attempt : Attempt} (hattempt : s.attempts.get id = some attempt)
    (hkey : attempt.cacheKey = server.acmeKey host (CertOptions.ofRecord config.certOptions)) :
    CoversHost ((attemptOrder server.acmeProvider server.mode.hasDnsServer attempt).names
      server.acme) host := by
  have hdomain := acmeDomain_eq_of_key hown hconfig hoverride _ (h.attempted id attempt hattempt)
    hkey.symm
  apply (effectiveDomain_covers ..).coversHost
  rw [hdomain]
  exact domain_mem_names hacme ..

/-- What holds of the certificates in every state. -/
structure Inv (server : CertServer x) (s : CertState x) : Prop where
  acmeCA : server.Keeps s.acmeCA
  localCA : server.KeepsLeaves s.localCA

/-- A server starts with what the backend holds, and without leaves. -/
def start (certCache : PersistentCertCache)
    (backend : InsertionMap JsString CachedCertificate) : CertState x where
  acmeCA := AcmeCA.initial certCache backend
  localCA := LocalCAState.initial

theorem inv_start {certCache : PersistentCertCache}
    {backend : InsertionMap JsString CachedCertificate}
    (hcached : ∀ cacheKey record, certCache.getCert cacheKey = some record →
      server.Named cacheKey record.cert)
    (hstored : ∀ cacheKey record, backend.get cacheKey = some record →
      server.Named cacheKey record.cert) : Inv server (start certCache backend) where
  acmeCA :=
    { cached := hcached
      stored := hstored
      writes := fun record hrecord => by cases hrecord
      called := fun id call hget => by cases hget
      fetched := fun id call hget => by cases hget
      attempted := fun id attempt hget => by cases hget
      issued := fun id attempt hget => by cases hget }
  localCA := fun cacheKey leaf hget => by cases hget

theorem Inv.step (hreader : server.reader.Lawful) (hacme : server.acme.Lawful)
    {u v : CertState x} {e : CertEvent} (h : Inv server u) (hok : server.Genuine u e)
    (hstep : server.step u e = some v) : Inv server v := by
  cases e with
  | acme e =>
      obtain ⟨acmeCA, hacmeCA, rfl⟩ := Option.map_eq_some_iff.mp hstep
      exact ⟨h.acmeCA.step hacme hok hacmeCA, h.localCA⟩
  | «local» context c =>
      cases hstep
      exact ⟨h.acmeCA, h.localCA.call hreader hok⟩

variable {u v : CertState x}

/-- What is given covers the host, where the authorities keep what they should. -/
theorem Inv.covers (hreader : server.reader.Lawful) (hu : Inv server u) (hv : Inv server v)
    (hown : Own server.rootDomain host)
    (hconfig : getEndpointConfig (getSNIPrefixParts host server.rootDomain) = .ok config)
    (hoverride : (CertOptions.ofRecord config.certOptions).override = none) {now : Time}
    {given : Given x}
    (hgiven : server.generateCertificate u now context host
      (CertOptions.ofRecord config.certOptions) = .ok given) :
    server.Covers v host (CertOptions.ofRecord config.certOptions) given := by
  have hleaf {outcome : Except JsString (LocallyGeneratedCertificate x)}
      (houtcome : (u.localCA.generateCertificate server.localCA context host
        (CertOptions.ofRecord config.certOptions)).1 = outcome)
      (hmap : outcome.map Given.leaf = .ok given) :
      server.Covers v host (CertOptions.ofRecord config.certOptions) given := by
    cases outcome with
    | error message => cases hmap
    | ok leaf =>
        cases hmap
        exact hu.localCA.covers hreader hown hconfig hoverride houtcome
  simp only [CertServer.generateCertificate, TestServer.generateCertificate] at hgiven
  cases hmode : server.mode with
  | localOnly =>
      rw [hmode] at hgiven
      simp only at hgiven
      split_ifs at hgiven
      exact hleaf rfl hgiven
  | acme dnsServer =>
      have hkey : server.acmeKey host (CertOptions.ofRecord config.certOptions) =
          calculateCertCacheKey (effectiveDomain dnsServer server.rootDomain host
            (CertOptions.ofRecord config.certOptions))
            (CertOptions.ofRecord config.certOptions) := by
        rw [acmeKey, hmode]
        rfl
      rw [hmode] at hgiven
      simp only at hgiven
      by_cases hlocal : (CertOptions.ofRecord config.certOptions).requiredType = some .local
      · rw [if_pos hlocal] at hgiven
        exact hleaf rfl hgiven
      · rw [if_neg hlocal] at hgiven
        cases hlookup : (tryGetCertificateSync u.acmeCA.certCache
            (effectiveDomain dnsServer server.rootDomain host
              (CertOptions.ofRecord config.certOptions))
            (CertOptions.ofRecord config.certOptions) now).cert with
        | some cert =>
            rw [hlookup] at hgiven
            cases hgiven
            obtain ⟨hcached, -⟩ := syncLookup_cert_eq_some_iff.mp hlookup
            rw [← hkey] at hcached
            exact (hu.acmeCA.cached _ cert hcached).coversHost hown hconfig hoverride
        | none =>
            rw [hlookup] at hgiven
            simp only at hgiven
            split_ifs at hgiven
            · cases hgiven
              intro cert hanswers
              exact (hv.acmeCA.named_of_answers hanswers).coversHost hown hconfig hoverride
            · exact hleaf rfl hgiven

/-- Every host of the server gets certificates that cover it, from the cache, from an order and
from the local CA, unless `generateCertificate` throws; and so is every order for the host. -/
theorem certificate_covers_host (hreader : server.reader.Lawful) (hacme : server.acme.Lawful)
    {certCache : PersistentCertCache} {backend : InsertionMap JsString CachedCertificate}
    (hcached : ∀ cacheKey record, certCache.getCert cacheKey = some record →
      server.Named cacheKey record.cert)
    (hstored : ∀ cacheKey record, backend.get cacheKey = some record →
      server.Named cacheKey record.cert)
    {es fs : List CertEvent} (hes : Guarded server.step server.Genuine (start certCache backend) es)
    (hrun : run server.step (start certCache backend) es = some u)
    (hfs : Guarded server.step server.Genuine u fs) (hlater : run server.step u fs = some v)
    (hown : Own server.rootDomain host)
    (hconfig : getEndpointConfig (getSNIPrefixParts host server.rootDomain) = .ok config)
    (hoverride : (CertOptions.ofRecord config.certOptions).overridePrefix = none) (now : Time)
    (context : CallContext) :
    let certOptions := CertOptions.ofRecord config.certOptions
    (∀ given, server.generateCertificate u now context host certOptions = .ok given →
      server.Covers v host certOptions given) ∧
    ∀ id attempt, v.acmeCA.attempts.get id = some attempt →
      attempt.cacheKey = server.acmeKey host certOptions →
      CoversHost ((attemptOrder server.acmeProvider server.mode.hasDnsServer attempt).names
        server.acme) host := by
  have hnone : (CertOptions.ofRecord config.certOptions).override = none := by
    rw [CertOptions.override, hoverride]
    rfl
  have hkeep (s : CertState x) (e : CertEvent) (t : CertState x) (hs : Inv server s)
      (hok : server.Genuine s e) (hstep : server.step s e = some t) : Inv server t :=
    hs.step hreader hacme hok hstep
  have hu : Inv server u := guarded_invariant hkeep (inv_start hcached hstored) hes hrun
  have hv : Inv server v := guarded_invariant hkeep hu hfs hlater
  refine ⟨fun given hgiven => hu.covers hreader hv hown hconfig hnone hgiven, ?_⟩
  intro id attempt hattempt hkey
  exact hv.acmeCA.order_covers hacme hown hconfig hnone hattempt hkey

/-- An AcmeCA whose certificates list their names. -/
def listedNames : AcmeLibrary where
  csrNames data :=
    if data.commonName ∈ data.altNames then data.altNames else data.commonName :: data.altNames
  dnsNames cert := split cert (js " ")

theorem listedNames_lawful : listedNames.Lawful where
  commonName_mem data := by
    simp only [listedNames]
    split_ifs with h
    · exact h
    · exact List.mem_cons_self
  altNames_subset data := by
    intro name hname
    simp only [listedNames]
    split_ifs
    · exact hname
    · exact List.mem_cons_of_mem _ hname

/-- A server with a DNS server. -/
def wildcardServer : CertServer X509.recorded where
  reader := X509.recordedReader
  acme := listedNames
  localCA := X509.recordedSetup
  acmeProvider := .letsencrypt
  mode := .acme true
  rootDomain := js "testserver.host"

/-- A wildcard certificate is ordered for a host, and then cached. -/
def wildcardRun : List CertEvent :=
  [.acme (.waitForCertificate (js "*.testserver.host") {}), .acme (.backendRead 0),
    .acme (.fetchCertResumes 0), .acme (.callResumes 0 0 0),
    .acme (.requestSettled 1
      (some ⟨js "key", js "*.testserver.host testserver.host", 7776000000⟩)),
    .acme (.issuedHandler 1)]

theorem certificate_covers_host_wildcard :
    ∃ u cert, run wildcardServer.step (start ⟨.empty⟩ .empty) wildcardRun = some u ∧
      wildcardServer.generateCertificate u 0 ⟨0, 0, .empty⟩ (js "http2.testserver.host") {} =
        .ok (.acme cert) ∧
      CoversHost (wildcardServer.acme.dnsNames cert) (js "http2.testserver.host") := by
  obtain ⟨config, hconfig, hoptions⟩ : ∃ config, getEndpointConfig
      (getSNIPrefixParts (js "http2.testserver.host") (js "testserver.host")) = .ok config ∧
      CertOptions.ofRecord config.certOptions = {} := ⟨_, rfl, rfl⟩
  have hown : Own (js "testserver.host") (js "http2.testserver.host") := by decide
  have hasked : Asked (js "testserver.host") (js "http2.testserver.host") {} := by
    have hlisted := Asked.listed hconfig (.inl hown)
    rw [hoptions] at hlisted
    exact hlisted
  have hguarded : Guarded wildcardServer.step wildcardServer.Genuine
      (start ⟨.empty⟩ .empty) wildcardRun := by
    refine ⟨⟨true, _, hasked, by decide⟩, fun m hm => ?_⟩
    obtain rfl := Option.some.inj hm
    refine ⟨trivial, fun m hm => ?_⟩
    obtain rfl := Option.some.inj hm
    refine ⟨trivial, fun m hm => ?_⟩
    obtain rfl := Option.some.inj hm
    refine ⟨trivial, fun m hm => ?_⟩
    obtain rfl := Option.some.inj hm
    refine ⟨?_, fun m hm => ?_⟩
    · intro attempt hattempt
      obtain rfl := Option.some.inj hattempt
      have hnames : listedNames.csrNames (certOrder true (js "*.testserver.host") false).csr =
          listedNames.dnsNames (js "*.testserver.host testserver.host") := by
        decide
      exact fun name hname => hnames ▸ hname
    obtain rfl := Option.some.inj hm
    exact ⟨trivial, fun m hm => trivial⟩
  obtain ⟨u, hrun⟩ : ∃ u, run wildcardServer.step (start ⟨.empty⟩ .empty) wildcardRun = some u :=
    ⟨_, rfl⟩
  have hgiven : wildcardServer.generateCertificate u 0 ⟨0, 0, .empty⟩
      (js "http2.testserver.host") {} =
        .ok (.acme (js "*.testserver.host testserver.host")) := by
    obtain rfl := Option.some.inj hrun
    rfl
  have hrest : Guarded wildcardServer.step wildcardServer.Genuine u [] := trivial
  have hlater : run wildcardServer.step u [] = some u := rfl
  have hcovers := (certificate_covers_host X509.recordedReader_lawful listedNames_lawful
    (fun _ _ h => by cases h) (fun _ _ h => by cases h) hguarded hrun hrest hlater hown hconfig
    (by rw [hoptions]) 0 ⟨0, 0, .empty⟩).1
  rw [hoptions] at hcovers
  exact ⟨u, _, hrun, hgiven, hcovers _ hgiven⟩

end CertServer

end TestServer
