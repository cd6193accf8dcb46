import TestServer.DnsServer

/-!
# Requesting a certificate

`AcmeCA.requestCertificate` of `src/tls-certificates/acme.ts`, as far as it
touches challenge records: both flows, with what each awaited step comes to.

## Implementation notes

The ACME client is given by the outcomes of its operations, and its `auto` by
the calls it makes of the two challenge functions. A call that rejects carries
the records it leaves. Removing a record succeeds. Emails, dates and the text
of the certificate are left out.
-/

namespace TestServer.TlsCertificates

open Js Library

/-- The records of a server that requests a certificate, and those of the store it may share. -/
structure ChallengeRecords (σ : Type) where
  dnsServer : DnsServer
  shared : Option σ

/-- How the store settles a record that is set: one that is rejected may have been written. -/
inductive StoreWrite where
  | resolved
  | rejected (written : Bool)
deriving DecidableEq

def StoreWrite.written : StoreWrite → Bool
  | .resolved => true
  | .rejected written => written

/-- A call of `requestCertificate`, with the keys and values that it has set. -/
structure Request (σ : Type) where
  records : ChallengeRecords σ
  published : List (JsString × JsString)

/-- Steps of a request; one that throws leaves the request as it is by then. -/
abbrev Flow (σ : Type) := Except (Request σ)

structure Authorization where
  status : JsString
  identifier : JsString
  challengeTypes : List JsString
deriving DecidableEq

/-- Whether a challenge of a type is found among those of the authorization. -/
def Authorization.offers (authz : Authorization) (type : JsString) : Bool :=
  authz.challengeTypes.any fun t => decide (t = type)

/-- What the steps for an authorization come to. -/
structure ChallengeOutcome where
  getChallengeKeyAuthorization : Option JsString
  setTxtRecord : StoreWrite
  completeChallenge : Bool
  waitForValidStatus : Bool
deriving DecidableEq

/-- The calls that `auto` makes. -/
inductive AutoCall where
  | challengeCreateFn (keyAuthorization : JsString) (stored : StoreWrite)
  | challengeRemoveFn (keyAuthorization : JsString)
deriving DecidableEq

/-- What the operations of the ACME client come to. -/
structure AcmeClient where
  createCsr : Bool
  createAccount : Bool
  createOrder : Bool
  getAuthorizations : Option (List (Authorization × ChallengeOutcome))
  finalizeOrder : Bool
  getCertificate : Bool
  autoCalls : List AutoCall
  auto : Bool
  readCertificateInfo : Bool
deriving DecidableEq

namespace Request

variable {σ : Type} (toLowerCase : JsString → JsString) (challengeStore : ChallengeStore σ)

/-- An awaited step that resolves or rejects and touches no record. -/
def awaiting (r : Request σ) (resolves : Bool) : Flow σ (Request σ) :=
  if resolves then .ok r else .error r

/-- `setTxtRecord`, up to what the store makes of it. -/
def publish (r : Request σ) (fqdn value : JsString) (stored : StoreWrite) : Request σ :=
  let key := toLowerCase fqdn
  { records := {
      dnsServer := r.records.dnsServer.addTxtRecord key value
      shared := if stored.written then r.records.shared.map (challengeStore.set · key value)
        else r.records.shared }
    published := (key, value) :: r.published }

def setTxtRecord (r : Request σ) (fqdn value : JsString) (stored : StoreWrite) :
    Flow σ (Request σ) :=
  let r := r.publish toLowerCase challengeStore fqdn value stored
  if r.records.shared.isSome && decide (stored ≠ .resolved) then .error r else .ok r

def removeTxtRecord (r : Request σ) (fqdn value : JsString) : Request σ :=
  let key := toLowerCase fqdn
  { r with records := {
      dnsServer := r.records.dnsServer.deleteTxtRecord key value
      shared := r.records.shared.map (challengeStore.remove · key value) } }

def challengeName (name : JsString) : JsString := acmeChallengePrefix ++ name

/-- The `dns-01` branch of the loop over the authorizations. -/
def completeDns (r : Request σ) (authz : Authorization) (outcome : ChallengeOutcome) :
    Flow σ (Request σ) :=
  if authz.offers (js "dns-01") then
    match outcome.getChallengeKeyAuthorization with
    | none => .error r
    | some keyAuthorization => do
        let fqdn := challengeName authz.identifier
        let r ← r.setTxtRecord toLowerCase challengeStore fqdn keyAuthorization
          outcome.setTxtRecord
        let r ← r.awaiting outcome.completeChallenge
        let r ← r.awaiting outcome.waitForValidStatus
        .ok (r.removeTxtRecord toLowerCase challengeStore fqdn keyAuthorization)
  else .error r

/-- The `http-01` branch of the loop over the authorizations. -/
def completeHttp (r : Request σ) (authz : Authorization) (outcome : ChallengeOutcome) :
    Flow σ (Request σ) :=
  if authz.offers (js "http-01") then do
    let r ← r.awaiting outcome.completeChallenge
    r.awaiting outcome.waitForValidStatus
  else .error r

/-- One round of the loop over the authorizations. -/
def completeAuthorization (isWildcard : Bool) (r : Request σ) (authz : Authorization)
    (outcome : ChallengeOutcome) : Flow σ (Request σ) :=
  if authz.status = js "valid" then .ok r
  else if isWildcard then r.completeDns toLowerCase challengeStore authz outcome
  else r.completeHttp authz outcome

/-- The loop over the authorizations. -/
def authorize (isWildcard : Bool) (r : Request σ) :
    List (Authorization × ChallengeOutcome) → Flow σ (Request σ)
  | [] => .ok r
  | (authz, outcome) :: rest => do
      let r ← r.completeAuthorization toLowerCase challengeStore isWildcard authz outcome
      authorize isWildcard r rest

/-- The flow for short-lived certificates. -/
def orderShortLived (isWildcard : Bool) (client : AcmeClient) (r : Request σ) :
    Flow σ (Request σ) := do
  let r ← r.awaiting client.createAccount
  let r ← r.awaiting client.createOrder
  match client.getAuthorizations with
  | none => .error r
  | some authorizations =>
      let r ← r.authorize toLowerCase challengeStore isWildcard authorizations
      let r ← r.awaiting client.finalizeOrder
      r.awaiting client.getCertificate

/-- The records after a call that `auto` makes, which handles what the call throws. -/
def autoCall (isWildcard : Bool) (rootDomain : JsString) (r : Request σ) : AutoCall → Request σ
  | .challengeCreateFn keyAuthorization stored =>
      if isWildcard then
        r.publish toLowerCase challengeStore (challengeName rootDomain) keyAuthorization stored
      else r
  | .challengeRemoveFn keyAuthorization =>
      if isWildcard then
        r.removeTxtRecord toLowerCase challengeStore (challengeName rootDomain) keyAuthorization
      else r

/-- The flow that leaves everything to `auto`. -/
def orderNormal (isWildcard : Bool) (rootDomain : JsString) (client : AcmeClient)
    (r : Request σ) : Flow σ (Request σ) :=
  let r := client.autoCalls.foldl (autoCall toLowerCase challengeStore isWildcard rootDomain) r
  r.awaiting client.auto

def order (isWildcard shortLived : Bool) (rootDomain : JsString) (client : AcmeClient)
    (r : Request σ) : Flow σ (Request σ) :=
  if shortLived then r.orderShortLived toLowerCase challengeStore isWildcard client
  else r.orderNormal toLowerCase challengeStore isWildcard rootDomain client

end Request

section

variable {σ : Type} (toLowerCase : JsString → JsString) (challengeStore : ChallengeStore σ)

/-- Whether a domain is requested as a wildcard. -/
def isWildcard (domain : JsString) (hasDnsServer : Bool) : Bool :=
  startsWith domain (js "*.") && hasDnsServer

def requestCertificate (domain : JsString) (shortLived hasDnsServer : Bool) (client : AcmeClient)
    (records : ChallengeRecords σ) : Flow σ (Request σ) := do
  let isWildcard := isWildcard domain hasDnsServer
  let rootDomain := if isWildcard then domain.drop 2 else domain
  let r ← Request.awaiting ⟨records, []⟩ client.createCsr
  let r ← r.order toLowerCase challengeStore isWildcard shortLived rootDomain client
  r.awaiting client.readCertificateInfo

end

/-- The state in which a call has settled. -/
def settled {σ : Type} : Flow σ (Request σ) → Request σ
  | .ok r => r
  | .error r => r

end TestServer.TlsCertificates
