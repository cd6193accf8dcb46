import TestServer.Server
import TestServer.TlsCertificates.AcmeLookup
import TestServer.TlsCertificates.LocalCA
import TestServer.TlsCertificates.SecureContextCache

/-!
# The expiry of served certificates

A certificate handed to a handshake should be expired when that was asked for
and valid otherwise. The synchronous lookup looks at the age of a cached record
only for `expired`, so a record that ran out is handed back, and the context
built from it is kept for a day.
-/

namespace TestServer

open Js TlsCertificates

/-- A record has run out exactly when an expired certificate was asked for. -/
def AsAsked (certOptions : CertOptions) (now : Time) (cert : CachedCertificate) : Prop :=
  cert.expiry ≤ now ↔ certOptions.expired = true

instance (certOptions : CertOptions) (now : Time) (cert : CachedCertificate) :
    Decidable (AsAsked certOptions now cert) :=
  inferInstanceAs (Decidable (cert.expiry ≤ now ↔ certOptions.expired = true))

/-- What one handshake in ACME mode finds: the caches, whether `LocalCA` throws, the clock at each
step, the end of validity of a certificate as `X509Certificate` reads it, and how a later date is
encoded as no earlier end. -/
structure HandshakeEnv where
  rootDomain : JsString
  dnsServer : Bool
  certCache : PersistentCertCache
  localCA : LocalCA
  localThrows : Bool
  contextCache : SecureContextCache Time
  certNotAfter : JsString → Time
  encodeTime : Time → Time
  encodeTime_mono : ∀ s t, s ≤ t → encodeTime s ≤ encodeTime t
  calledAt : Time
  lookedUpAt : Time
  issuedAt : Time
  storedAt : Time

namespace HandshakeEnv

variable (env : HandshakeEnv)

/-- `generateCertificate` for this handshake. -/
def generate (domain : JsString) (certOptions : CertOptions) :
    Except JsString (Generation CachedCertificate) :=
  generateCertificate (.acme env.dnsServer) env.rootDomain
    (fun d o => (tryGetCertificateSync env.certCache d o env.lookedUpAt).cert) domain certOptions

/-- The end of validity of the certificate in the new context. An incomplete chain has the same
leaf, so it ends at the same time. -/
def contextNotAfter (certOptions : CertOptions) :
    CertSource CachedCertificate → Option Time
  | .acmeCached cert => some (env.certNotAfter cert.cert)
  | .acmeWaited => none
  | .localLeaf _ _ =>
      if env.localThrows then none
      else some (env.localCA.leafNotAfter env.encodeTime certOptions env.issuedAt)

/-- The `expiry` that the factory returns with the context. -/
def contextExpiry (notAfter : Time) : CertSource CachedCertificate → Time
  | .localLeaf _ true => env.storedAt + 5000
  | _ => notAfter

/-- Whether the handshake finds no context and makes a new one. -/
def makesContext (key : ContextKey) : Bool :=
  (env.contextCache.lookup key env.calledAt).1.isNone

/-- The context cache after a new context; a context is named by the end of validity of its
certificate. Nothing is stored when a context is found or the setup throws, and the handshake of a
certificate that is still awaited is not followed further. -/
def stored (key : ContextKey) (domain : JsString) (certOptions : CertOptions) :
    Option (SecureContextCache Time) :=
  if env.makesContext key then
    match env.generate domain certOptions with
    | .error _ => none
    | .ok g =>
        (env.contextNotAfter certOptions g.source).map fun notAfter =>
          (env.contextCache.lookup key env.calledAt).2.store key env.calledAt notAfter
            (env.contextExpiry notAfter g.source)
  else none

end HandshakeEnv

/-- Certificates are served in the state of expiry that was asked for: those that the lookup
hands back, those that `generateCertificate` returns as not temporary, and those in contexts
that are stored for hosts without `expired`, whose options never require ACME. -/
structure ExpiryAsAsked (env : HandshakeEnv) (key : ContextKey) (domain : JsString)
    (certOptions : CertOptions) : Prop where
  handedBack : ∀ cert,
    (tryGetCertificateSync env.certCache
      (effectiveDomain env.dnsServer env.rootDomain domain certOptions) certOptions
      env.lookedUpAt).cert = some cert → AsAsked certOptions env.lookedUpAt cert
  generated : ∀ g cert, env.generate domain certOptions = .ok g →
    g.source = .acmeCached cert → AsAsked certOptions env.lookedUpAt cert
  stored : certOptions.expired = false → certOptions.requiredType = none →
    ∀ cache, env.stored key domain certOptions = some cache →
      ∀ entry, cache.cache.get key = some entry → env.storedAt < entry.context

/-- The record that the lookup finds. -/
def HandshakeEnv.record (env : HandshakeEnv) (domain : JsString) (certOptions : CertOptions) :
    Option CachedCertificate :=
  env.certCache.getCert (calculateCertCacheKey
    (effectiveDomain env.dnsServer env.rootDomain domain certOptions) certOptions)

/-- The leaf that stands in while there is no record outlives the storing of its context, if
there is one. -/
def LeafLasts (env : HandshakeEnv) (certOptions : CertOptions) : Prop :=
  env.localThrows = false →
    match env.localCA.cachedLeaf with
    | some leaf => env.storedAt < leaf.notAfter
    | none => env.storedAt < env.encodeTime (addYears env.issuedAt 1) ∧
        (certOptions.selfSigned = true ∨
          env.storedAt < env.encodeTime env.localCA.intermediateNotAfter)

/-- An expired certificate was asked for, or the record found has not run out at the lookup; and
where a context is made for a host without `expired`, the certificate of that record, or the leaf
that stands in for it, lasts until its context is stored. -/
structure InDate (env : HandshakeEnv) (key : ContextKey) (domain : JsString)
    (certOptions : CertOptions) : Prop where
  atLookup : certOptions.expired = true ∨
    ∀ cert, env.record domain certOptions = some cert → env.lookedUpAt < cert.expiry
  atStore : certOptions.expired = false → certOptions.requiredType = none →
    env.makesContext key = true →
      match env.record domain certOptions with
      | some cert => env.storedAt < env.certNotAfter cert.cert
      | none => LeafLasts env certOptions

theorem leafLasts_iff {env : HandshakeEnv} {certOptions : CertOptions}
    (hexpired : certOptions.expired = false) :
    LeafLasts env certOptions ↔ (env.localThrows = false →
      env.storedAt < env.localCA.leafNotAfter env.encodeTime certOptions env.issuedAt) := by
  simp only [LeafLasts, LocalCA.leafNotAfter]
  cases env.localCA.cachedLeaf with
  | some leaf => exact Iff.rfl
  | none => rw [lt_encodeTime_leafValidity_iff env.encodeTime_mono hexpired]

/-- The lookup is in the state asked for, unless a record that ran out is found. -/
theorem asAsked_lookup_iff {record : Option CachedCertificate} {certOptions : CertOptions}
    {now : Time} :
    (∀ cert, (syncLookup record certOptions now).cert = some cert →
        AsAsked certOptions now cert) ↔
      (certOptions.expired = true ∨ ∀ cert, record = some cert → now < cert.expiry) := by
  simp only [syncLookup_cert_eq_some_iff, AsAsked]
  cases hexpired : certOptions.expired with
  | true => simp
  | false => simp

/-- Where the certificate comes from when no local one is required. -/
theorem generate_eq {env : HandshakeEnv} {domain : JsString} {certOptions : CertOptions}
    (hlocal : certOptions.requiredType ≠ some .local) :
    env.generate domain certOptions = .ok
      ⟨some (effectiveDomain env.dnsServer env.rootDomain domain certOptions),
        match (syncLookup (env.record domain certOptions) certOptions env.lookedUpAt).cert with
        | some cert => .acmeCached cert
        | none =>
            if certOptions.requiredType = some .acme then .acmeWaited
            else .localLeaf domain true⟩ := by
  simp only [HandshakeEnv.generate, generateCertificate, if_neg hlocal, tryGetCertificateSync]
  rw [← HandshakeEnv.record]
  cases (syncLookup (env.record domain certOptions) certOptions env.lookedUpAt).cert with
  | some cert => rfl
  | none =>
      simp only
      split_ifs <;> rfl

/-- A certificate that is not temporary is the one that the lookup hands back. -/
theorem lookup_of_generate {env : HandshakeEnv} {domain : JsString} {certOptions : CertOptions}
    (hlocal : certOptions.requiredType ≠ some .local) {g : Generation CachedCertificate}
    {cert : CachedCertificate} (hg : env.generate domain certOptions = .ok g)
    (hsource : g.source = .acmeCached cert) :
    (syncLookup (env.record domain certOptions) certOptions env.lookedUpAt).cert = some cert := by
  rw [generate_eq hlocal, Except.ok.injEq] at hg
  subst hg
  cases hlookup : (syncLookup (env.record domain certOptions) certOptions env.lookedUpAt).cert with
  | some found =>
      rw [hlookup] at hsource
      rw [CertSource.acmeCached.inj hsource]
  | none =>
      rw [hlookup] at hsource
      simp only at hsource
      split_ifs at hsource

/-- The end of validity of the certificate that a host without `expired` is served, if the local
CA does not throw. -/
def servedNotAfter (env : HandshakeEnv) (domain : JsString) (certOptions : CertOptions) :
    Option Time :=
  match env.record domain certOptions with
  | some cert => some (env.certNotAfter cert.cert)
  | none =>
      if env.localThrows then none
      else some (env.localCA.leafNotAfter env.encodeTime certOptions env.issuedAt)

theorem stored_eq {env : HandshakeEnv} {key : ContextKey} (hmakes : env.makesContext key = true)
    (domain : JsString) {certOptions : CertOptions} (hexpired : certOptions.expired = false)
    (hnone : certOptions.requiredType = none) :
    ∃ expiry : Time → Time, env.stored key domain certOptions =
      (servedNotAfter env domain certOptions).map fun notAfter =>
        (env.contextCache.lookup key env.calledAt).2.store key env.calledAt notAfter
          (expiry notAfter) := by
  have hlocal : certOptions.requiredType ≠ some .local := by
    simp [hnone]
  have hacme : certOptions.requiredType ≠ some .acme := by
    simp [hnone]
  rw [HandshakeEnv.stored, if_pos hmakes]
  simp only [generate_eq hlocal, servedNotAfter]
  cases env.record domain certOptions with
  | some cert =>
      simp only [syncLookup, hexpired, Bool.false_eq_true, if_false]
      exact ⟨_, rfl⟩
  | none =>
      simp only [syncLookup, if_neg hacme]
      exact ⟨_, rfl⟩

/-- What is stored for a host without `expired` is the certificate it is served. -/
theorem stored_iff {env : HandshakeEnv} {key : ContextKey} (hmakes : env.makesContext key = true)
    {domain : JsString} {certOptions : CertOptions} (hexpired : certOptions.expired = false)
    (hnone : certOptions.requiredType = none) :
    (∀ cache, env.stored key domain certOptions = some cache →
        ∀ entry, cache.cache.get key = some entry → env.storedAt < entry.context) ↔
      ∀ notAfter, servedNotAfter env domain certOptions = some notAfter →
        env.storedAt < notAfter := by
  obtain ⟨expiry, hstored⟩ := stored_eq hmakes domain hexpired hnone
  rw [hstored]
  cases servedNotAfter env domain certOptions with
  | none => exact iff_of_true nofun nofun
  | some notAfter =>
      constructor
      · rintro h served hserved
        cases hserved
        exact h _ rfl _ (SecureContextCache.get_store ..)
      · rintro h cache hcache entry hentry
        rw [← Option.some.inj hcache, SecureContextCache.get_store, Option.some.injEq] at hentry
        rw [← hentry]
        exact h notAfter rfl

theorem servedNotAfter_iff {env : HandshakeEnv} {domain : JsString} {certOptions : CertOptions}
    (hexpired : certOptions.expired = false) :
    (∀ notAfter, servedNotAfter env domain certOptions = some notAfter →
        env.storedAt < notAfter) ↔
      match env.record domain certOptions with
      | some cert => env.storedAt < env.certNotAfter cert.cert
      | none => LeafLasts env certOptions := by
  simp only [servedNotAfter]
  cases env.record domain certOptions with
  | some cert => simp only [Option.some.injEq, forall_eq']
  | none =>
      simp only [leafLasts_iff hexpired]
      split_ifs with hthrows
      · simp [hthrows]
      · simp [hthrows]

/-- Certificates are served in the state of expiry asked for exactly when the record found has
not run out, and what is served has not either when its context is stored. -/
theorem expiryAsAsked_iff {env : HandshakeEnv} {key : ContextKey} {domain : JsString}
    {certOptions : CertOptions} (hlocal : certOptions.requiredType ≠ some .local) :
    ExpiryAsAsked env key domain certOptions ↔ InDate env key domain certOptions := by
  constructor
  · intro h
    constructor
    · exact asAsked_lookup_iff.mp h.handedBack
    · intro hexpired hnone hmakes
      have hlasts := (stored_iff hmakes hexpired hnone).mp (h.stored hexpired hnone)
      exact (servedNotAfter_iff hexpired).mp hlasts
  · intro h
    have hlookup := asAsked_lookup_iff.mpr h.atLookup
    constructor
    · exact hlookup
    · intro g cert hg hsource
      exact hlookup cert (lookup_of_generate hlocal hg hsource)
    · intro hexpired hnone
      by_cases hmakes : env.makesContext key = true
      · have hlasts := (servedNotAfter_iff hexpired).mpr (h.atStore hexpired hnone hmakes)
        exact (stored_iff hmakes hexpired hnone).mpr hlasts
      · rw [HandshakeEnv.stored, if_neg hmakes]
        exact nofun

theorem sub_emod_le {s t : Int} (h : s ≤ t) : s - s % 1000 ≤ t - t % 1000 := by omega

/-- A handshake for the root domain `t` at time 1000, with a record loaded at startup. -/
def rootEnv (expiry : Time) : HandshakeEnv where
  rootDomain := js "t"
  dnsServer := false
  certCache := PersistentCertCache.loadCache ⟨.empty⟩
    [⟨calculateCertCacheKey (js "t") {}, js "t", js "key", js "pem", expiry⟩]
  localCA := ⟨none, 1000000⟩
  localThrows := false
  contextCache := .new
  certNotAfter := fun _ => expiry
  encodeTime t := t - t % 1000
  encodeTime_mono _ _ := sub_emod_le
  calledAt := 1000
  lookedUpAt := 1000
  issuedAt := 1001
  storedAt := 1002

theorem expiryAsAsked_rootEnv :
    ExpiryAsAsked (rootEnv 2000) ⟨js "t+", by decide⟩ (js "t") {} := by
  apply (expiryAsAsked_iff (by decide)).mpr
  constructor
  · right
    intro cert hcert
    rw [← Option.some.inj hcert]
    decide
  · intro _ _ _
    show (1002 : Int) < 2000
    decide

/-- A record for the root domain that ran out at time 500 is handed back at time 1000. -/
theorem not_expiryAsAsked_rootEnv :
    ¬ ExpiryAsAsked (rootEnv 500) ⟨js "t+", by decide⟩ (js "t") {} := by
  intro h
  have hasked := h.handedBack _ rfl
  exact absurd hasked (by decide)

end TestServer
