import TestServer.TlsCertificates.CertCache
import TestServer.TlsCertificates.CertDefinitions

/-!
# Looking a certificate up

`AcmeCA.tryGetCertificateSync` of `src/tls-certificates/acme.ts`: the cached
certificate, if it may be used at once, and whether a background update starts.
-/

namespace TestServer.TlsCertificates

open Js

def proactiveRefreshTime : Time := oneDay * 14

structure SyncLookup where
  cert : Option CachedCertificate
  startsUpdate : Bool
deriving DecidableEq

/-- The lookup for the record that the cache holds; each branch reads the clock once. -/
def syncLookup (cachedCert : Option CachedCertificate) (certOptions : CertOptions) (now : Time) :
    SyncLookup :=
  match cachedCert with
  | some cert =>
      if certOptions.expired then
        if cert.expiry ≤ now then ⟨some cert, false⟩ else ⟨none, false⟩
      else ⟨some cert, decide (cert.expiry - now < proactiveRefreshTime)⟩
  | none => ⟨none, true⟩

def tryGetCertificateSync (certCache : PersistentCertCache) (domain : JsString)
    (certOptions : CertOptions) (now : Time) : SyncLookup :=
  syncLookup (certCache.getCert (calculateCertCacheKey domain certOptions)) certOptions now

/-- The certificate handed back is the cached one; only for `expired` is its age looked at. -/
theorem syncLookup_cert_eq_some_iff {cachedCert : Option CachedCertificate}
    {certOptions : CertOptions} {now : Time} {cert : CachedCertificate} :
    (syncLookup cachedCert certOptions now).cert = some cert ↔
      cachedCert = some cert ∧ (certOptions.expired = true → cert.expiry ≤ now) := by
  cases cachedCert with
  | none => simp [syncLookup]
  | some c =>
      simp only [syncLookup]
      split_ifs with hexpired hage
      · simp only [Option.some.injEq, hexpired, true_implies]
        constructor
        · rintro rfl
          exact ⟨rfl, hage⟩
        · intro h
          exact h.1
      · simp only [Option.some.injEq, hexpired, true_implies, false_iff]
        rintro ⟨rfl, h⟩
        exact hage h
      · simp [hexpired]

end TestServer.TlsCertificates
