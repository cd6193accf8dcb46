import TestServer.Library.Runs
import TestServer.TlsCertificates.AcmeLookup

/-!
# Certificate issuance

`AcmeCA.getCertificate` of `src/tls-certificates/acme.ts` with the certificate
cache and its backend, as a transition system. An event is what runs between
two awaits: a caller, the completion of an operation in flight, or a handler
that resumes after one.

## Implementation notes

A promise of `pendingCertRenewals` is named by the number of its attempt. An
attempt is listed until its handlers are done, a call until it has resumed. The
two clock readings of a resumed call are given separately. What a promise
resolves to is not followed here.
-/

namespace TestServer.TlsCertificates

open Js Library

structure AcmeGeneratedCertificate where
  key : JsString
  cert : JsString
  expiry : Time
deriving DecidableEq

/-- Where a call of `getCertificate` stands. -/
inductive CallPhase where
  /-- `fetchCert` waits for the backend. -/
  | reading
  /-- The backend has answered, and `fetchCert` has not resumed yet. -/
  | answered (stored : Option CachedCertificate)
  /-- `fetchCert` has resolved, and the call has not resumed yet. -/
  | fetched (cert : Option CachedCertificate)
deriving DecidableEq

structure Call where
  domain : JsString
  certOptions : CertOptions
  phase : CallPhase
deriving DecidableEq

/-- Where an attempt to issue a certificate stands. -/
inductive AttemptPhase where
  | requesting
  | issued (certData : AcmeGeneratedCertificate)
  | revoking (certData : AcmeGeneratedCertificate)
  | revoked (certData : AcmeGeneratedCertificate)
  | failed
deriving DecidableEq

structure Attempt where
  domain : JsString
  certOptions : CertOptions
  phase : AttemptPhase
deriving DecidableEq

def Call.cacheKey (call : Call) : JsString :=
  calculateCertCacheKey call.domain call.certOptions

def Attempt.cacheKey (attempt : Attempt) : JsString :=
  calculateCertCacheKey attempt.domain attempt.certOptions

structure AcmeCA where
  certCache : PersistentCertCache
  backend : InsertionMap JsString CachedCertificate
  writes : List CachedCertificate
  deletes : List JsString
  calls : InsertionMap Nat Call
  attempts : InsertionMap Nat Attempt
  pendingCertRenewals : InsertionMap JsString Nat
  nextId : Nat
deriving DecidableEq

namespace AcmeCA

/-- Any content of the cache and of its backend, and nothing under way. -/
def initial (certCache : PersistentCertCache) (backend : InsertionMap JsString CachedCertificate) :
    AcmeCA where
  certCache := certCache
  backend := backend
  writes := []
  deletes := []
  calls := .empty
  attempts := .empty
  pendingCertRenewals := .empty
  nextId := 0

/-- Call `requestCertificate` and make its promise the pending one. -/
def startRequest (s : AcmeCA) (domain : JsString) (certOptions : CertOptions) : AcmeCA :=
  { s with
    attempts := s.attempts.set s.nextId ⟨domain, certOptions, .requesting⟩
    pendingCertRenewals :=
      s.pendingCertRenewals.set (calculateCertCacheKey domain certOptions) s.nextId
    nextId := s.nextId + 1 }

/-- Call `getCertificate` without `forceRegenerate`, up to its first await. -/
def getCertificate (s : AcmeCA) (domain : JsString) (certOptions : CertOptions) : AcmeCA :=
  let phase := match s.certCache.getCert (calculateCertCacheKey domain certOptions) with
    | some cert => CallPhase.fetched (some cert)
    | none => .reading
  { s with
    calls := s.calls.set s.nextId ⟨domain, certOptions, phase⟩
    nextId := s.nextId + 1 }

def clearCache (s : AcmeCA) (cacheKey : JsString) : AcmeCA :=
  { s with
    certCache := s.certCache.clearCache cacheKey
    deletes := s.deletes ++ [cacheKey] }

/-- The rest of `getCertificate` once the cached certificate is fetched. -/
def resume (s : AcmeCA) (call : Call) (cachedCert : Option CachedCertificate)
    (now later : Time) : AcmeCA :=
  match cachedCert with
  | some cert =>
      if cert.expiry ≤ now then
        if call.certOptions.expired then s
        else (s.clearCache call.cacheKey).startRequest call.domain call.certOptions
      else if ¬ call.certOptions.expired ∧ cert.expiry - later < proactiveRefreshTime ∧
          s.pendingCertRenewals.get call.cacheKey = none then
        s.startRequest call.domain call.certOptions
      else s
  | none =>
      if s.pendingCertRenewals.get call.cacheKey = none then
        s.startRequest call.domain call.certOptions
      else s

/-- The end of the handler of an issued certificate: it is no longer pending, and cached. -/
def finish (s : AcmeCA) (id : Nat) (attempt : Attempt) (certData : AcmeGeneratedCertificate) :
    AcmeCA :=
  let record : CachedCertificate :=
    ⟨attempt.cacheKey, attempt.domain, certData.key, certData.cert, certData.expiry⟩
  { s with
    attempts := s.attempts.delete id
    pendingCertRenewals := s.pendingCertRenewals.delete attempt.cacheKey
    certCache := s.certCache.cacheCert record
    writes := s.writes ++ [record] }

/-- Whether the pending attempt for the key is another one. -/
def superseded (s : AcmeCA) (id : Nat) (attempt : Attempt) : Bool :=
  match s.pendingCertRenewals.get attempt.cacheKey with
  | some pending => decide (pending ≠ id)
  | none => false

def setPhase (s : AcmeCA) (id : Nat) (attempt : Attempt) (phase : AttemptPhase) : AcmeCA :=
  { s with attempts := s.attempts.set id { attempt with phase := phase } }

/-- The handler of an issued certificate, up to the revocation if there is one. -/
def handleIssued (s : AcmeCA) (id : Nat) (attempt : Attempt)
    (certData : AcmeGeneratedCertificate) : AcmeCA :=
  if s.superseded id attempt then { s with attempts := s.attempts.delete id }
  else if attempt.certOptions.revoked then s.setPhase id attempt (.revoking certData)
  else s.finish id attempt certData

inductive Event where
  | tryGetCertificateSync (domain : JsString) (certOptions : CertOptions) (now : Time)
  | waitForCertificate (domain : JsString) (certOptions : CertOptions)
  | backendRead (call : Nat)
  | backendReadFailed (call : Nat)
  | fetchCertResumes (call : Nat)
  | callResumes (call : Nat) (now later : Time)
  | requestSettled (attempt : Nat) (result : Option AcmeGeneratedCertificate)
  | issuedHandler (attempt : Nat)
  | revokeSettled (attempt : Nat) (ok : Bool)
  | revokedHandler (attempt : Nat)
  | failedHandler (attempt : Nat)
  | backendWritten (n : Nat) (ok : Bool)
  | backendDeleted (n : Nat) (ok : Bool)
  | otherServer (cacheKey : JsString) (record : Option CachedCertificate)
deriving DecidableEq

/-- The record that another server leaves in the shared backend. -/
def setBackend (s : AcmeCA) (cacheKey : JsString) (record : Option CachedCertificate) : AcmeCA :=
  match record with
  | some cert => { s with backend := s.backend.set cacheKey cert }
  | none => { s with backend := s.backend.delete cacheKey }

def step (s : AcmeCA) : Event → Option AcmeCA
  | .tryGetCertificateSync domain certOptions now =>
      if (TlsCertificates.tryGetCertificateSync s.certCache domain certOptions now).startsUpdate
      then some (s.getCertificate domain certOptions)
      else some s
  | .waitForCertificate domain certOptions => some (s.getCertificate domain certOptions)
  | .backendRead id => do
      let call ← s.calls.get id
      match call.phase with
      | .reading =>
          let stored := s.backend.get call.cacheKey
          some { s with calls := s.calls.set id { call with phase := .answered stored } }
      | _ => none
  | .backendReadFailed id => do
      let call ← s.calls.get id
      match call.phase with
      | .reading => some { s with calls := s.calls.delete id }
      | _ => none
  | .fetchCertResumes id => do
      let call ← s.calls.get id
      match call.phase with
      | .answered stored =>
          some { s with
            certCache := s.certCache.storeFetched call.cacheKey stored
            calls := s.calls.set id { call with phase := .fetched stored } }
      | _ => none
  | .callResumes id now later => do
      let call ← s.calls.get id
      match call.phase with
      | .fetched cert =>
          some ({ s with calls := s.calls.delete id }.resume call cert now later)
      | _ => none
  | .requestSettled id result => do
      let attempt ← s.attempts.get id
      match attempt.phase, result with
      | .requesting, some certData => some (s.setPhase id attempt (.issued certData))
      | .requesting, none => some (s.setPhase id attempt .failed)
      | _, _ => none
  | .issuedHandler id => do
      let attempt ← s.attempts.get id
      match attempt.phase with
      | .issued certData => some (s.handleIssued id attempt certData)
      | _ => none
  | .revokeSettled id ok => do
      let attempt ← s.attempts.get id
      match attempt.phase with
      | .revoking certData =>
          some (s.setPhase id attempt (if ok then .revoked certData else .failed))
      | _ => none
  | .revokedHandler id => do
      let attempt ← s.attempts.get id
      match attempt.phase with
      | .revoked certData => some (s.finish id attempt certData)
      | _ => none
  | .failedHandler id => do
      let attempt ← s.attempts.get id
      match attempt.phase with
      | .failed =>
          some ({ s with attempts := s.attempts.delete id }.startRequest attempt.domain
            attempt.certOptions)
      | _ => none
  | .backendWritten n ok =>
      match s.writes[n]? with
      | some cert =>
          let rest := { s with writes := s.writes.eraseIdx n }
          some (if ok then rest.setBackend cert.cacheKey (some cert) else rest)
      | none => none
  | .backendDeleted n ok =>
      match s.deletes[n]? with
      | some cacheKey =>
          let rest := { s with deletes := s.deletes.eraseIdx n }
          some (if ok then rest.setBackend cacheKey none else rest)
      | none => none
  | .otherServer cacheKey record => some (s.setBackend cacheKey record)

/-- The attempts for a key whose `requestCertificate` call has not settled. -/
def inFlight (s : AcmeCA) (cacheKey : JsString) : List Nat :=
  (s.attempts.entries.filter fun e =>
    decide (e.2.phase = .requesting ∧ e.2.cacheKey = cacheKey)).map Prod.fst

end AcmeCA

end TestServer.TlsCertificates
