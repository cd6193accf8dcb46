import TestServer.Library.Runs
import TestServer.TlsCertificates.PersistedCA
import Mathlib.Logic.Function.Basic

/-!
# Calls of the local CA

What `LocalCA` of `src/tls-certificates/local-ca.ts` hands out, and what it keeps
for later calls: how the load of each authority has ended, the client
certificate, and the leaves of the last day.

## Implementation notes

A call runs to its end before the next one. Its clock, what is random and the
answers of the store are given with the call. The PEM of a generated certificate
comes with the certificates that it stands for.
-/

namespace TestServer.TlsCertificates

open Js Library

/-- The local CA of a process. -/
structure LocalCASetup (x : X509) where
  root : RootCA x
  hasStore : Bool
  /-- `KEY_PAIR` -/
  keyPair : x.CryptoKey

/-- A generated certificate and the one that has issued it, unless it has issued itself. -/
structure LocallyGeneratedCertificate (x : X509) where
  key : JsString
  cert : JsString
  ca : JsString
  certificate : x.Certificate
  issuer : Option x.Certificate

structure ClientCertificate (x : X509) where
  cert : LocallyGeneratedCertificate x
  expiry : Time

/-- What one process keeps. -/
structure LocalCAState (x : X509) where
  /-- `intermediateCA` and `clientAuthCA`, by how the promise has settled. -/
  settled : ManagedCA → Option (Except JsString (CaMaterial x))
  clientCertificate : Option (Except JsString (ClientCertificate x))
  certInMemoryCache : InsertionMap JsString (LocallyGeneratedCertificate x)

/-- What a call finds: the clock, what is random, and the answers of the store. -/
structure CallContext where
  now : Time
  seed : Nat
  replies : StoreReplies

/-- The answers of a store that works and is empty. -/
def StoreReplies.empty : StoreReplies where
  read := .ok none
  write := .ok ()
  writeIfAbsent := .ok true
  reread := .ok none

/-- A process with the plain library and a store. -/
def X509.plainSetup : LocalCASetup X509.plain where
  root := X509.plainRoot
  hasStore := true
  keyPair := (0 : Nat)

/-- `CLIENT_CERT_LIFESPAN_YEARS` -/
def clientCertLifespanYears : Nat := 2

def calculateCacheKey (domain : JsString) (options : CertOptions) : JsString :=
  domain ++ js "+" ++ join (js "+") (flagParts options ++
    match options.leafKeyBits with
    | some n => [js "keyBits=" ++ decimal n]
    | none => [])

/-- The domain of a certificate for a domain, which has no underscore. -/
def coveredDomain (domain : JsString) : Except JsString JsString :=
  if unit '_' ∈ domain then
    let otherParts := (split domain (js ".")).tail
    if otherParts.length ≤ 1 ∨ ∃ p ∈ otherParts, unit '_' ∈ p then
      .error (js "Cannot generate certificate for domain due to underscores: " ++ domain)
    else .ok (js "*." ++ join (js ".") otherParts)
  else .ok domain

namespace LocalCAState

variable {x : X509}

def initial : LocalCAState x where
  settled _ := none
  clientCertificate := none
  certInMemoryCache := InsertionMap.empty

variable (setup : LocalCASetup x) (s : LocalCAState x) (context : CallContext)

/-- What `loadOrCreatePersistedCA` gives a call. -/
def loadManagedCA (managed : ManagedCA) : Except JsString (CaMaterial x) :=
  loadOrCreatePersistedCA (if setup.hasStore then some context.replies else none)
    (buildManagedCA setup.root managed context.seed context.now) context.now context.now

/-- The authority that was loaded first, or a load whose outcome is kept. -/
def getManagedCA (managed : ManagedCA) : Except JsString (CaMaterial x) × LocalCAState x :=
  match s.settled managed with
  | some outcome => (outcome, s)
  | none =>
      let outcome := loadManagedCA setup context managed
      (outcome, { s with settled := Function.update s.settled managed (some outcome) })

def getIntermediateCA : Except JsString (CaMaterial x) × LocalCAState x :=
  getManagedCA setup s context .intermediate

def getClientAuthCA : Except JsString (CaMaterial x) × LocalCAState x :=
  getManagedCA setup s context .clientAuth

/-- The subject of a certificate of this CA. -/
def subjectOf (names : List (JsString × JsString)) : List (JsString × JsString) :=
  (js "C", setup.root.countryName.getD (js "XX")) :: names

/-- The leaf that `generateCertificate` makes, with the intermediate unless it is self-signed. -/
def makeLeaf (domain : JsString) (options : CertOptions) (intermediate : Option (CaMaterial x)) :
    LocallyGeneratedCertificate x :=
  let leafKey :=
    match options.leafKeyBits with
    | some bits => x.generateKey (context.seed + 1) bits
    | none => setup.keyPair
  let validity := requestedValidity options context.now
  let certificate := x.create (context.seed + 1)
    { subject := subjectOf setup
        (if domain.head? ≠ some (unit '*') ∧ options.noCommonName = false then [(js "CN", domain)]
        else [])
      issuer := intermediate.map CaMaterial.cert
      notBefore := validity.notBefore
      notAfter :=
        match intermediate with
        | some ca => clampNotAfter validity.notAfter (x.notAfter ca.cert)
        | none => validity.notAfter
      publicKey := leafKey
      signingKey := (intermediate.map CaMaterial.key).getD leafKey
      dnsName := some domain
      sha1Signature := options.sha1Signature }
  let certPem := x.certificatePem certificate
  { key := x.keyPem leafKey
    cert :=
      match intermediate with
      | some ca => trimEnd certPem ++ js "\n" ++ trimEnd ca.pem ++ js "\n" ++
          trimEnd setup.root.caCertPem ++ js "\n"
      | none => certPem
    ca := if options.selfSigned then certPem else setup.root.caCertPem
    certificate := certificate
    issuer := intermediate.map CaMaterial.cert }

def cacheLeaf (cacheKey : JsString) (leaf : LocallyGeneratedCertificate x) : LocalCAState x :=
  { s with certInMemoryCache := s.certInMemoryCache.set cacheKey leaf }

def generateCertificate (domain : JsString) (options : CertOptions) :
    Except JsString (LocallyGeneratedCertificate x) × LocalCAState x :=
  match coveredDomain domain with
  | .error message => (.error message, s)
  | .ok domain =>
      let cacheKey := calculateCacheKey domain options
      match s.certInMemoryCache.get cacheKey with
      | some cachedCert => (.ok cachedCert, s)
      | none =>
          if options.selfSigned then
            let leaf := makeLeaf setup context domain options none
            (.ok leaf, s.cacheLeaf cacheKey leaf)
          else
            match getIntermediateCA setup s context with
            | (.error message, s) => (.error message, s)
            | (.ok intermediate, s) =>
                let leaf := makeLeaf setup context domain options (some intermediate)
                (.ok leaf, s.cacheLeaf cacheKey leaf)

/-- The client certificate that `createClientCertificate` makes under its authority. -/
def makeClientCertificate (clientAuthCA : CaMaterial x) : ClientCertificate x :=
  let key := x.generateKey (context.seed + 1) setup.root.bits
  let effectiveNotAfter :=
    clampNotAfter (addYears context.now clientCertLifespanYears) (x.notAfter clientAuthCA.cert)
  let certificate := x.create (context.seed + 1)
    { subject := subjectOf setup
        [(js "O", js "Testserver"), (js "CN", js "Testserver Client Certificate")]
      issuer := some clientAuthCA.cert
      notBefore := addDays context.now (-1)
      notAfter := effectiveNotAfter
      publicKey := key
      signingKey := clientAuthCA.key
      dnsName := none
      sha1Signature := false }
  { cert :=
      { key := x.keyPem key
        cert := x.certificatePem certificate
        ca := clientAuthCA.pem
        certificate := certificate
        issuer := some clientAuthCA.cert }
    expiry := effectiveNotAfter }

def createClientCertificate : Except JsString (ClientCertificate x) × LocalCAState x :=
  let (clientAuthCA, s) := getClientAuthCA setup s context
  (clientAuthCA.map (makeClientCertificate setup context), s)

/-- The client certificate that is kept, while it lasts for the margin. -/
def keptClientCertificate : Option (ClientCertificate x) :=
  match s.clientCertificate with
  | some (.ok client) => if renewalMargin ≤ client.expiry - context.now then some client else none
  | _ => none

def getClientCertificate : Except JsString (LocallyGeneratedCertificate x) × LocalCAState x :=
  match s.keptClientCertificate context with
  | some client => (.ok client.cert, s)
  | none =>
      let (created, s) := createClientCertificate setup s context
      (created.map ClientCertificate.cert, { s with clientCertificate := some created })

end LocalCAState

/-- A call, or the end of the day for which a leaf is kept. -/
inductive LocalCACall where
  | getIntermediateCertificatePem
  | generateCertificate (domain : JsString) (options : CertOptions)
  | getClientAuthCaCertPem
  | getClientCertificate
  | evict (cacheKey : JsString)

/-- What a call hands out. -/
inductive Handed (x : X509) where
  /-- The PEM of an authority. -/
  | authority (ca : CaMaterial x)
  | certificate (cert : LocallyGeneratedCertificate x)
  | nothing

/-- The certificate of the authority that is used. -/
def Handed.issuer {x : X509} : Handed x → Option x.Certificate
  | .authority ca => some ca.cert
  | .certificate cert => cert.issuer
  | .nothing => none

namespace LocalCAState

variable {x : X509} (setup : LocalCASetup x) (s : LocalCAState x)

def call (context : CallContext) : LocalCACall → Except JsString (Handed x) × LocalCAState x
  | .getIntermediateCertificatePem =>
      let (ca, s) := getIntermediateCA setup s context
      (ca.map .authority, s)
  | .generateCertificate domain options =>
      let (cert, s) := generateCertificate setup s context domain options
      (cert.map .certificate, s)
  | .getClientAuthCaCertPem =>
      let (ca, s) := getClientAuthCA setup s context
      (ca.map .authority, s)
  | .getClientCertificate =>
      let (cert, s) := getClientCertificate setup s context
      (cert.map .certificate, s)
  | .evict cacheKey =>
      (.ok .nothing, { s with certInMemoryCache := s.certInMemoryCache.delete cacheKey })

/-- The authority that a call turns to or has turned to before, if any. -/
def usedCA : LocalCACall → Option ManagedCA
  | .getIntermediateCertificatePem => some .intermediate
  | .generateCertificate domain options =>
      match coveredDomain domain with
      | .error _ => none
      | .ok domain =>
          match s.certInMemoryCache.get (calculateCacheKey domain options) with
          | some cachedCert => if cachedCert.issuer.isSome then some .intermediate else none
          | none => if options.selfSigned then none else some .intermediate
  | .getClientAuthCaCertPem => some .clientAuth
  | .getClientCertificate => some .clientAuth
  | .evict _ => none

/-- The authority that a call gets if it turns to it. -/
def provided (context : CallContext) (managed : ManagedCA) : Except JsString (CaMaterial x) :=
  match s.settled managed with
  | some outcome => outcome
  | none => loadManagedCA setup context managed

/-- Nothing fails in a load. -/
def loads (context : CallContext) : Bool :=
  if setup.hasStore then context.replies.resolve x context.now else true

/-- The authority that a load adopts, or else creates. -/
def loadedCA (context : CallContext) (managed : ManagedCA) : CaMaterial x :=
  (if setup.hasStore then context.replies.adopted x context.now else none).getD
    (buildManagedCA setup.root managed context.seed context.now)

end LocalCAState

namespace LocalCAState

variable {x : X509} {setup : LocalCASetup x} {s : LocalCAState x} {context : CallContext}

section

variable (setup s context)

theorem getManagedCA_fst (managed : ManagedCA) :
    (getManagedCA setup s context managed).1 = provided setup s context managed := by
  rw [getManagedCA, provided]
  cases s.settled managed with
  | none => rfl
  | some outcome => rfl

theorem getManagedCA_settled (managed k : ManagedCA) :
    (getManagedCA setup s context managed).2.settled k =
      if managed = k then some (provided setup s context k) else s.settled k := by
  rw [getManagedCA]
  by_cases hk : managed = k
  · subst hk
    rw [if_pos rfl, provided]
    cases hsettled : s.settled managed with
    | none => exact Function.update_self ..
    | some outcome => exact hsettled
  · rw [if_neg hk]
    cases hsettled : s.settled managed with
    | none => exact Function.update_of_ne (Ne.symm hk) ..
    | some outcome => rfl

theorem getManagedCA_cache (managed : ManagedCA) :
    (getManagedCA setup s context managed).2.certInMemoryCache = s.certInMemoryCache := by
  rw [getManagedCA]
  cases s.settled managed with
  | none => rfl
  | some outcome => rfl

theorem getManagedCA_client (managed : ManagedCA) :
    (getManagedCA setup s context managed).2.clientCertificate = s.clientCertificate := by
  rw [getManagedCA]
  cases s.settled managed with
  | none => rfl
  | some outcome => rfl

end

/-- A load fails if an operation does, and otherwise gives the authority that it adopts or has
created. -/
theorem loadManagedCA_eq_ok_iff {managed : ManagedCA} {ca : CaMaterial x} :
    loadManagedCA setup context managed = .ok ca ↔
      loads setup context = true ∧ loadedCA setup context managed = ca := by
  rw [loadManagedCA, loads, loadedCA]
  cases setup.hasStore with
  | true => exact loadOrCreatePersistedCA_eq_ok_iff
  | false =>
      constructor
      · intro h
        exact ⟨rfl, Except.ok.inj h⟩
      · rintro ⟨-, h⟩
        exact congrArg Except.ok h

/-- What is kept was issued by the authorities that are kept. -/
structure Issued (s : LocalCAState x) : Prop where
  leaf : ∀ cacheKey leaf, s.certInMemoryCache.get cacheKey = some leaf →
    ∀ issuer ∈ leaf.issuer, ∃ ca, s.settled .intermediate = some (.ok ca) ∧ ca.cert = issuer
  client : ∀ client, s.clientCertificate = some (.ok client) →
    ∃ ca, s.settled .clientAuth = some (.ok ca) ∧ client.cert.issuer = some ca.cert

theorem issued_initial : Issued (initial : LocalCAState x) where
  leaf cacheKey leaf h := by cases h
  client client h := by cases h

/-- An authority that is kept stays. -/
theorem getManagedCA_settled_of_some {managed k : ManagedCA}
    {outcome : Except JsString (CaMaterial x)} (h : s.settled k = some outcome) :
    (getManagedCA setup s context managed).2.settled k = some outcome := by
  rw [getManagedCA_settled]
  split_ifs
  · rw [provided, h]
  · exact h

theorem Issued.getManagedCA (h : Issued s) (managed : ManagedCA) :
    Issued (getManagedCA setup s context managed).2 where
  leaf cacheKey leaf hleaf issuer hissuer := by
    rw [getManagedCA_cache] at hleaf
    obtain ⟨ca, hca, hcert⟩ := h.leaf cacheKey leaf hleaf issuer hissuer
    exact ⟨ca, getManagedCA_settled_of_some hca, hcert⟩
  client client hclient := by
    rw [getManagedCA_client] at hclient
    obtain ⟨ca, hca, hcert⟩ := h.client client hclient
    exact ⟨ca, getManagedCA_settled_of_some hca, hcert⟩

theorem Issued.cacheLeaf {cacheKey : JsString} {leaf : LocallyGeneratedCertificate x}
    (h : Issued s)
    (hleaf : ∀ issuer ∈ leaf.issuer,
      ∃ ca, s.settled .intermediate = some (.ok ca) ∧ ca.cert = issuer) :
    Issued (s.cacheLeaf cacheKey leaf) where
  leaf k other hother issuer hissuer := by
    simp only [LocalCAState.cacheLeaf, InsertionMap.get_set] at hother
    split_ifs at hother with hk
    · cases hother
      exact hleaf issuer hissuer
    · exact h.leaf k other hother issuer hissuer
  client := h.client

section

variable (setup s context) (domain : JsString) (options : CertOptions)

/-- What `generateCertificate` gives and keeps, by where the leaf comes from. -/
inductive Generated :
    Except JsString (LocallyGeneratedCertificate x) × LocalCAState x → Prop
  | invalid {message : JsString} (hdomain : coveredDomain domain = .error message) :
      Generated (.error message, s)
  | cached {covered : JsString} {leaf : LocallyGeneratedCertificate x}
      (hdomain : coveredDomain domain = .ok covered)
      (hcache : s.certInMemoryCache.get (calculateCacheKey covered options) = some leaf) :
      Generated (.ok leaf, s)
  | selfSigned {covered : JsString} (hdomain : coveredDomain domain = .ok covered)
      (hcache : s.certInMemoryCache.get (calculateCacheKey covered options) = none)
      (hself : options.selfSigned = true) :
      Generated (.ok (makeLeaf setup context covered options none),
        s.cacheLeaf (calculateCacheKey covered options)
          (makeLeaf setup context covered options none))
  | failed {covered message : JsString} (hdomain : coveredDomain domain = .ok covered)
      (hcache : s.certInMemoryCache.get (calculateCacheKey covered options) = none)
      (hself : options.selfSigned = false)
      (hprovided : provided setup s context .intermediate = .error message) :
      Generated (.error message, (getManagedCA setup s context .intermediate).2)
  | issued {covered : JsString} {ca : CaMaterial x}
      (hdomain : coveredDomain domain = .ok covered)
      (hcache : s.certInMemoryCache.get (calculateCacheKey covered options) = none)
      (hself : options.selfSigned = false)
      (hprovided : provided setup s context .intermediate = .ok ca) :
      Generated (.ok (makeLeaf setup context covered options (some ca)),
        (getManagedCA setup s context .intermediate).2.cacheLeaf
          (calculateCacheKey covered options) (makeLeaf setup context covered options (some ca)))

theorem generateCertificate_generated :
    Generated setup s context domain options
      (generateCertificate setup s context domain options) := by
  cases hdomain : coveredDomain domain with
  | error message =>
      simp only [generateCertificate, hdomain]
      exact .invalid hdomain
  | ok covered =>
      cases hcache : s.certInMemoryCache.get (calculateCacheKey covered options) with
      | some leaf =>
          simp only [generateCertificate, hdomain, hcache]
          exact .cached hdomain hcache
      | none =>
          cases hself : options.selfSigned with
          | true =>
              simp only [generateCertificate, hdomain, hcache, hself, if_true]
              exact .selfSigned hdomain hcache hself
          | false =>
              have hget : getIntermediateCA setup s context =
                  (provided setup s context .intermediate,
                    (getManagedCA setup s context .intermediate).2) :=
                Prod.ext (getManagedCA_fst setup s context .intermediate) rfl
              cases hprovided : provided setup s context .intermediate with
              | error message =>
                  simp only [generateCertificate, hdomain, hcache, hself, hget, hprovided,
                    Bool.false_eq_true, if_false]
                  exact .failed hdomain hcache hself hprovided
              | ok ca =>
                  simp only [generateCertificate, hdomain, hcache, hself, hget, hprovided,
                    Bool.false_eq_true, if_false]
                  exact .issued hdomain hcache hself hprovided

end

/-- A client certificate that is not kept is made under its authority, and kept. -/
theorem getClientCertificate_of_none (h : s.keptClientCertificate context = none) :
    getClientCertificate setup s context =
      (((provided setup s context .clientAuth).map (makeClientCertificate setup context)).map
          ClientCertificate.cert,
        { (getManagedCA setup s context .clientAuth).2 with
          clientCertificate := some
            ((provided setup s context .clientAuth).map
              (makeClientCertificate setup context)) }) := by
  have hget : getClientAuthCA setup s context =
      (provided setup s context .clientAuth, (getManagedCA setup s context .clientAuth).2) :=
    Prod.ext (getManagedCA_fst setup s context .clientAuth) rfl
  simp only [getClientCertificate, h, createClientCertificate, hget]

theorem keptClientCertificate_eq_some {client : ClientCertificate x}
    (h : s.keptClientCertificate context = some client) :
    s.clientCertificate = some (.ok client) ∧ renewalMargin ≤ client.expiry - context.now := by
  rw [keptClientCertificate] at h
  split at h
  · rename_i kept hkept
    split_ifs at h with hmargin
    cases h
    exact ⟨hkept, hmargin⟩
  · cases h

variable {managed : ManagedCA}

theorem issuer_authority (outcome : Except JsString (CaMaterial x)) :
    (outcome.map Handed.authority).map Handed.issuer = outcome.map fun ca => some ca.cert := by
  cases outcome with
  | error message => rfl
  | ok ca => rfl

theorem issuer_generateCertificate (setup : LocalCASetup x) (context : CallContext)
    (h : Issued s) {domain : JsString} {options : CertOptions}
    (hused : usedCA s (.generateCertificate domain options) = some managed) :
    managed = .intermediate ∧
      (generateCertificate setup s context domain options).1.map
        (fun leaf => leaf.issuer) =
      (provided setup s context .intermediate).map fun ca => some ca.cert := by
  have hgenerated := generateCertificate_generated setup s context domain options
  generalize generateCertificate setup s context domain options = result at hgenerated ⊢
  cases hgenerated with
  | invalid hdomain =>
      simp only [usedCA, hdomain] at hused
      cases hused
  | @cached covered leaf hdomain hcache =>
      simp only [usedCA, hdomain, hcache] at hused
      cases hissuer : leaf.issuer with
      | none =>
          rw [hissuer] at hused
          cases hused
      | some issuer =>
          rw [hissuer] at hused
          obtain ⟨ca, hca, hcert⟩ := h.leaf _ leaf hcache issuer hissuer
          refine ⟨(Option.some.inj hused).symm, ?_⟩
          rw [provided, hca]
          change Except.ok leaf.issuer = Except.ok (some ca.cert)
          rw [hissuer, hcert]
  | selfSigned hdomain hcache hself =>
      simp only [usedCA, hdomain, hcache, hself] at hused
      cases hused
  | failed hdomain hcache hself hprovided =>
      simp only [usedCA, hdomain, hcache, hself] at hused
      refine ⟨(Option.some.inj hused).symm, ?_⟩
      rw [hprovided]
      rfl
  | issued hdomain hcache hself hprovided =>
      simp only [usedCA, hdomain, hcache, hself] at hused
      refine ⟨(Option.some.inj hused).symm, ?_⟩
      rw [hprovided]
      rfl

theorem issuer_getClientCertificate (h : Issued s) :
    (getClientCertificate setup s context).1.map (fun cert => cert.issuer) =
      (provided setup s context .clientAuth).map fun ca => some ca.cert := by
  cases hkept : s.keptClientCertificate context with
  | some client =>
      obtain ⟨hclient, -⟩ := keptClientCertificate_eq_some hkept
      obtain ⟨ca, hca, hissuer⟩ := h.client client hclient
      simp only [getClientCertificate, hkept]
      rw [provided, hca]
      exact congrArg Except.ok hissuer
  | none =>
      rw [getClientCertificate_of_none hkept]
      cases provided setup s context .clientAuth with
      | error message => rfl
      | ok ca => rfl

theorem issuer_certificate (outcome : Except JsString (LocallyGeneratedCertificate x)) :
    (outcome.map Handed.certificate).map Handed.issuer = outcome.map fun cert => cert.issuer := by
  cases outcome with
  | error message => rfl
  | ok cert => rfl

/-- A call that uses an authority hands out what that has issued, or fails with it. -/
theorem issuer_call (h : Issued s) {c : LocalCACall} (hused : usedCA s c = some managed) :
    (call setup s context c).1.map Handed.issuer =
      (provided setup s context managed).map fun ca => some ca.cert := by
  cases c with
  | getIntermediateCertificatePem =>
      cases hused
      rw [← getManagedCA_fst]
      exact issuer_authority _
  | generateCertificate domain options =>
      obtain ⟨rfl, hissuer⟩ := issuer_generateCertificate setup context h hused
      exact (issuer_certificate _).trans hissuer
  | getClientAuthCaCertPem =>
      cases hused
      rw [← getManagedCA_fst]
      exact issuer_authority _
  | getClientCertificate =>
      cases hused
      exact (issuer_certificate _).trans (issuer_getClientCertificate h)
  | evict cacheKey => cases hused

theorem handed_of_provided (h : Issued s) {c : LocalCACall} (hused : usedCA s c = some managed)
    {ca : CaMaterial x} (hca : provided setup s context managed = .ok ca) :
    ∃ handed, (call setup s context c).1 = .ok handed ∧ handed.issuer = some ca.cert := by
  have hissuer : (call setup s context c).1.map Handed.issuer =
      (provided setup s context managed).map fun ca => some ca.cert := issuer_call h hused
  rw [hca] at hissuer
  cases houtcome : (call setup s context c).1 with
  | error message =>
      rw [houtcome] at hissuer
      cases hissuer
  | ok handed =>
      rw [houtcome] at hissuer
      exact ⟨handed, rfl, Except.ok.inj hissuer⟩

theorem provided_of_handed (h : Issued s) {c : LocalCACall} (hused : usedCA s c = some managed)
    {handed : Handed x} (hhanded : (call setup s context c).1 = .ok handed) :
    ∃ ca, provided setup s context managed = .ok ca ∧ handed.issuer = some ca.cert := by
  have hissuer : (call setup s context c).1.map Handed.issuer =
      (provided setup s context managed).map fun ca => some ca.cert := issuer_call h hused
  rw [hhanded] at hissuer
  cases hprovided : provided setup s context managed with
  | error message =>
      rw [hprovided] at hissuer
      cases hissuer
  | ok ca =>
      rw [hprovided] at hissuer
      exact ⟨ca, rfl, Except.ok.inj hissuer⟩

/-- Without an authority a leaf is one that has issued itself, if the domain can be covered. -/
theorem generateCertificate_of_none (setup : LocalCASetup x) (context : CallContext)
    {domain : JsString} {options : CertOptions}
    (hused : usedCA s (.generateCertificate domain options) = none) :
    (∃ message, coveredDomain domain = .error message ∧
      (generateCertificate setup s context domain options).1 = .error message) ∨
    ∃ leaf, (generateCertificate setup s context domain options).1 = .ok leaf ∧
      leaf.issuer = none := by
  have hgenerated := generateCertificate_generated setup s context domain options
  generalize generateCertificate setup s context domain options = result at hgenerated ⊢
  cases hgenerated with
  | invalid hdomain => exact .inl ⟨_, hdomain, rfl⟩
  | @cached covered leaf hdomain hcache =>
      simp only [usedCA, hdomain, hcache] at hused
      split_ifs at hused with hissuer
      exact .inr ⟨leaf, rfl, Option.not_isSome_iff_eq_none.mp hissuer⟩
  | selfSigned hdomain hcache hself => exact .inr ⟨_, rfl, rfl⟩
  | failed hdomain hcache hself hprovided =>
      simp only [usedCA, hdomain, hcache, hself] at hused
      cases hused
  | issued hdomain hcache hself hprovided =>
      simp only [usedCA, hdomain, hcache, hself] at hused
      cases hused

/-- A call that uses no authority hands out nothing that one has issued. -/
theorem issuer_call_of_none {c : LocalCACall} (hused : usedCA s c = none) {handed : Handed x}
    (hhanded : (call setup s context c).1 = .ok handed) : handed.issuer = none := by
  cases c with
  | getIntermediateCertificatePem => cases hused
  | generateCertificate domain options =>
      have hcall : (call setup s context (.generateCertificate domain options)).1 =
          (generateCertificate setup s context domain options).1.map .certificate := rfl
      rw [hcall] at hhanded
      obtain ⟨message, -, herror⟩ | ⟨leaf, hleaf, hissuer⟩ :=
        generateCertificate_of_none setup context hused
      · rw [herror] at hhanded
        cases hhanded
      · rw [hleaf] at hhanded
        cases hhanded
        exact hissuer
  | getClientAuthCaCertPem => cases hused
  | getClientCertificate => cases hused
  | evict cacheKey =>
      cases hhanded
      rfl

/-- A call that gets an authority that is kept changes none. -/
theorem settled_of_some {outcome : Except JsString (CaMaterial x)} {k : ManagedCA}
    (h : s.settled managed = some outcome) :
    (if managed = k then some (provided setup s context k) else s.settled k) = s.settled k := by
  split_ifs with hk
  · subst hk
    rw [provided, h]
  · rfl

theorem settled_generateCertificate (h : Issued s) (domain : JsString) (options : CertOptions)
    (k : ManagedCA) :
    (generateCertificate setup s context domain options).2.settled k =
      if usedCA s (.generateCertificate domain options) = some k then
        some (provided setup s context k) else s.settled k := by
  have hgenerated := generateCertificate_generated setup s context domain options
  generalize generateCertificate setup s context domain options = result at hgenerated ⊢
  cases hgenerated with
  | invalid hdomain => simp only [usedCA, hdomain, reduceCtorEq, if_false]
  | @cached covered leaf hdomain hcache =>
      simp only [usedCA, hdomain, hcache]
      cases hissuer : leaf.issuer with
      | none =>
          rw [if_neg (by simp only [Option.isSome_none, Bool.false_eq_true, if_false, reduceCtorEq,
            not_false_eq_true])]
      | some issuer =>
          obtain ⟨ca, hca, -⟩ := h.leaf _ leaf hcache issuer hissuer
          simp only [Option.isSome_some, if_true, Option.some.injEq]
          exact (settled_of_some hca).symm
  | selfSigned hdomain hcache hself =>
      simp only [usedCA, hdomain, hcache, hself, if_true, reduceCtorEq, if_false]
      rfl
  | failed hdomain hcache hself hprovided =>
      simp only [usedCA, hdomain, hcache, hself, Bool.false_eq_true, if_false, Option.some.injEq]
      exact getManagedCA_settled setup s context _ _
  | issued hdomain hcache hself hprovided =>
      simp only [usedCA, hdomain, hcache, hself, Bool.false_eq_true, if_false, Option.some.injEq]
      exact getManagedCA_settled setup s context _ _

theorem settled_getClientCertificate (h : Issued s) (k : ManagedCA) :
    (getClientCertificate setup s context).2.settled k =
      if .clientAuth = k then some (provided setup s context k) else s.settled k := by
  cases hkept : s.keptClientCertificate context with
  | some client =>
      obtain ⟨hclient, -⟩ := keptClientCertificate_eq_some hkept
      obtain ⟨ca, hca, -⟩ := h.client client hclient
      simp only [getClientCertificate, hkept]
      exact (settled_of_some hca).symm
  | none =>
      rw [getClientCertificate_of_none hkept]
      exact getManagedCA_settled setup s context _ _

/-- After a call the authority that it uses is kept. -/
theorem settled_call (h : Issued s) (c : LocalCACall) (k : ManagedCA) :
    (call setup s context c).2.settled k =
      if usedCA s c = some k then some (provided setup s context k) else s.settled k := by
  cases c with
  | getIntermediateCertificatePem =>
      simp only [usedCA, Option.some.injEq]
      exact getManagedCA_settled setup s context _ _
  | generateCertificate domain options => exact settled_generateCertificate h domain options k
  | getClientAuthCaCertPem =>
      simp only [usedCA, Option.some.injEq]
      exact getManagedCA_settled setup s context _ _
  | getClientCertificate =>
      simp only [usedCA, Option.some.injEq]
      exact settled_getClientCertificate h k
  | evict cacheKey =>
      simp only [usedCA, reduceCtorEq, if_false]
      rfl

theorem issued_generateCertificate (h : Issued s) (domain : JsString) (options : CertOptions) :
    Issued (generateCertificate setup s context domain options).2 := by
  have hgenerated := generateCertificate_generated setup s context domain options
  generalize generateCertificate setup s context domain options = result at hgenerated ⊢
  cases hgenerated with
  | invalid hdomain => exact h
  | cached hdomain hcache => exact h
  | selfSigned hdomain hcache hself =>
      apply h.cacheLeaf
      intro issuer hissuer
      cases hissuer
  | failed hdomain hcache hself hprovided => exact h.getManagedCA _
  | issued hdomain hcache hself hprovided =>
      apply (h.getManagedCA .intermediate).cacheLeaf
      intro issuer hissuer
      cases hissuer
      refine ⟨_, ?_, rfl⟩
      rw [getManagedCA_settled, if_pos rfl, hprovided]

theorem issued_getClientCertificate (h : Issued s) :
    Issued (getClientCertificate setup s context).2 := by
  cases hkept : s.keptClientCertificate context with
  | some client =>
      simp only [getClientCertificate, hkept]
      exact h
  | none =>
      rw [getClientCertificate_of_none hkept]
      refine ⟨(h.getManagedCA .clientAuth).leaf, fun client hclient => ?_⟩
      cases hprovided : provided setup s context .clientAuth with
      | error message =>
          simp only [hprovided] at hclient
          cases hclient
      | ok ca =>
          simp only [hprovided] at hclient
          cases hclient
          refine ⟨ca, ?_, rfl⟩
          rw [getManagedCA_settled, if_pos rfl, hprovided]

theorem Issued.call (h : Issued s) (c : LocalCACall) :
    Issued (LocalCAState.call setup s context c).2 := by
  cases c with
  | getIntermediateCertificatePem => exact h.getManagedCA _
  | generateCertificate domain options => exact issued_generateCertificate h domain options
  | getClientAuthCaCertPem => exact h.getManagedCA _
  | getClientCertificate => exact issued_getClientCertificate h
  | evict cacheKey =>
      refine ⟨fun k leaf hleaf => ?_, h.client⟩
      have hget : (s.certInMemoryCache.delete cacheKey).get k = some leaf := hleaf
      rw [InsertionMap.get_delete] at hget
      split_ifs at hget
      exact h.leaf k leaf hget

/-- A run is a list of calls, each with what it finds. -/
def step (setup : LocalCASetup x) (s : LocalCAState x) (e : CallContext × LocalCACall) :
    Option (LocalCAState x) :=
  some (call setup s e.1 e.2).2

variable {e : CallContext × LocalCACall}

theorem Issued.step {t : LocalCAState x} (h : Issued s)
    (hstep : LocalCAState.step setup s e = some t) : Issued t := by
  cases hstep
  exact h.call e.2

/-- What a call hands out has a property exactly when the authority that it gets has it. -/
theorem forall_handed_iff (h : Issued s) {P : x.Certificate → Prop} :
    (∀ handed, (call setup s e.1 e.2).1 = .ok handed → ∀ issuer ∈ handed.issuer, P issuer) ↔
      ∀ managed, usedCA s e.2 = some managed →
        ∀ ca, provided setup s e.1 managed = .ok ca → P ca.cert := by
  cases hused : usedCA s e.2 with
  | none =>
      refine iff_of_true (fun handed hhanded issuer hissuer => ?_) (fun managed hm => ?_)
      · rw [issuer_call_of_none hused hhanded] at hissuer
        cases hissuer
      · cases hm
  | some managed =>
      constructor
      · rintro hall _ ⟨⟩ ca hca
        obtain ⟨handed, hhanded, hissuer⟩ := handed_of_provided h hused hca
        exact hall handed hhanded ca.cert hissuer
      · intro hall handed hhanded issuer hi
        obtain ⟨ca, hca, hissuer⟩ := provided_of_handed h hused hhanded
        rw [hissuer] at hi
        obtain rfl : ca.cert = issuer := Option.mem_some.mp hi
        exact hall managed rfl ca hca

end LocalCAState

end TestServer.TlsCertificates
