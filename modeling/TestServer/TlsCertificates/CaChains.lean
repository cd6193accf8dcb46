import TestServer.TlsCertificates.CaLoads

/-!
# Ends of the certificates in a chain

Leaves and client certificates are cut to the end of the authority that issues
them. The intermediate is not cut to the end of the root, so a chain is in order
up to the root exactly as long as the intermediate that was loaded happens to be.
-/

namespace TestServer.TlsCertificates.LocalCAState

open Js Library Library.Runs

variable {x : X509}

/-- The certificates that come with a certificate, each issued by the next one. -/
def chainOf (setup : LocalCASetup x) (c : LocalCACall) (cert : LocallyGeneratedCertificate x) :
    List x.Certificate :=
  match cert.issuer, c with
  | some issuer, .generateCertificate .. => [cert.certificate, issuer, setup.root.caCert]
  | some issuer, _ => [cert.certificate, issuer]
  | none, _ => [cert.certificate]

/-- No certificate that the call hands out lasts longer than those after it in its chain. -/
def HandsOrdered (setup : LocalCASetup x) (s : LocalCAState x) (e : CallContext × LocalCACall) :
    Prop :=
  ∀ cert, (call setup s e.1 e.2).1 = .ok (.certificate cert) →
    (chainOf setup e.2 cert).Pairwise fun a b => x.notAfter a ≤ x.notAfter b

/-- Where a leaf under the intermediate is handed out, the load of the intermediate has given one
that lasts no longer than the root. -/
def FitsRoot (setup : LocalCASetup x) (so : LocalCAState x × SeenLoads) :
    CallContext × LocalCACall → Prop
  | (context, .generateCertificate domain options) =>
      usedCA so.1 (.generateCertificate domain options) = some .intermediate →
        loads setup (loadOf so.2 context .intermediate) = true →
          loadEnd x setup.hasStore (loadOf so.2 context .intermediate) .intermediate ≤
            x.notAfter setup.root.caCert
  | _ => True

variable {setup : LocalCASetup x} {s : LocalCAState x} {so : LocalCAState x × SeenLoads}
  {context : CallContext} {e : CallContext × LocalCACall}

/-- The certificate does not outlast the one that has issued it. -/
def Clamped (cert : LocallyGeneratedCertificate x) : Prop :=
  ∀ issuer ∈ cert.issuer, x.notAfter cert.certificate ≤ x.notAfter issuer

structure KeptClamped (s : LocalCAState x) : Prop where
  leaf : ∀ cacheKey leaf, s.certInMemoryCache.get cacheKey = some leaf → Clamped leaf
  client : ∀ client, s.clientCertificate = some (.ok client) → Clamped client.cert

theorem keptClamped_initial : KeptClamped (initial : LocalCAState x) where
  leaf cacheKey leaf h := by cases h
  client client h := by cases h

theorem clampNotAfter_le (notAfter issuerNotAfter : Time) :
    clampNotAfter notAfter issuerNotAfter ≤ issuerNotAfter := by
  rw [clampNotAfter]
  split_ifs with h
  · exact le_refl _
  · exact not_lt.mp h

/-- The end of a new leaf is the one that `leafValidity` gives. -/
theorem notAfter_makeLeaf (hx : x.Lawful) (domain : JsString) (options : CertOptions)
    (ca : CaMaterial x) :
    x.notAfter (makeLeaf setup context domain options
        (if options.selfSigned then none else some ca)).certificate =
      x.encodeTime (leafValidity options (x.notAfter ca.cert) context.now).notAfter := by
  have hcreate : x.notAfter (makeLeaf setup context domain options
      (if options.selfSigned then none else some ca)).certificate = x.encodeTime _ :=
    hx.notAfter_create _ _
  rw [hcreate, leafValidity]
  cases options.selfSigned with
  | true => rfl
  | false => rfl

theorem clamped_makeLeaf (hx : x.Lawful) (domain : JsString) (options : CertOptions)
    (intermediate : Option (CaMaterial x)) :
    Clamped (makeLeaf setup context domain options intermediate) := by
  intro issuer hissuer
  cases intermediate with
  | none => cases hissuer
  | some ca =>
      obtain rfl : ca.cert = issuer := Option.mem_some.mp hissuer
      calc x.notAfter (makeLeaf setup context domain options (some ca)).certificate
          = x.encodeTime (clampNotAfter (requestedValidity options context.now).notAfter
              (x.notAfter ca.cert)) := hx.notAfter_create _ _
        _ ≤ clampNotAfter (requestedValidity options context.now).notAfter
              (x.notAfter ca.cert) := hx.encodeTime_le _
        _ ≤ x.notAfter ca.cert := clampNotAfter_le _ _

theorem clamped_makeClientCertificate (hx : x.Lawful) (ca : CaMaterial x) :
    Clamped (makeClientCertificate setup context ca).cert := by
  intro issuer hissuer
  obtain rfl : ca.cert = issuer := Option.mem_some.mp hissuer
  calc x.notAfter (makeClientCertificate setup context ca).cert.certificate
      = x.encodeTime (clampNotAfter (addYears context.now clientCertLifespanYears)
          (x.notAfter ca.cert)) := hx.notAfter_create _ _
    _ ≤ clampNotAfter (addYears context.now clientCertLifespanYears) (x.notAfter ca.cert) :=
      hx.encodeTime_le _
    _ ≤ x.notAfter ca.cert := clampNotAfter_le _ _

theorem KeptClamped.getManagedCA (h : KeptClamped s) (managed : ManagedCA) :
    KeptClamped (getManagedCA setup s context managed).2 where
  leaf cacheKey leaf hleaf := by
    rw [getManagedCA_cache] at hleaf
    exact h.leaf cacheKey leaf hleaf
  client client hclient := by
    rw [getManagedCA_client] at hclient
    exact h.client client hclient

theorem KeptClamped.cacheLeaf {leaf : LocallyGeneratedCertificate x} (h : KeptClamped s)
    (hleaf : Clamped leaf) (cacheKey : JsString) : KeptClamped (s.cacheLeaf cacheKey leaf) where
  leaf k other hother := by
    simp only [LocalCAState.cacheLeaf, InsertionMap.get_set] at hother
    split_ifs at hother with hk
    · cases hother
      exact hleaf
    · exact h.leaf k other hother
  client := h.client

/-- What `generateCertificate` gives and keeps does not outlast its issuer. -/
theorem KeptClamped.generateCertificate (setup : LocalCASetup x) (context : CallContext)
    (hx : x.Lawful) (h : KeptClamped s) (domain : JsString) (options : CertOptions) :
    KeptClamped (generateCertificate setup s context domain options).2 ∧
      ∀ leaf, (LocalCAState.generateCertificate setup s context domain options).1 = .ok leaf →
        Clamped leaf := by
  have hgenerated := generateCertificate_generated setup s context domain options
  generalize LocalCAState.generateCertificate setup s context domain options = result
    at hgenerated ⊢
  cases hgenerated with
  | invalid hdomain => exact ⟨h, fun leaf hleaf => by cases hleaf⟩
  | @cached covered cached hdomain hcache =>
      refine ⟨h, fun leaf hleaf => ?_⟩
      obtain rfl : cached = leaf := Except.ok.inj hleaf
      exact h.leaf _ _ hcache
  | @selfSigned covered hdomain hcache hself =>
      have hclamped : Clamped (makeLeaf setup context covered options none) :=
        clamped_makeLeaf hx _ _ _
      refine ⟨h.cacheLeaf hclamped _, fun leaf hleaf => ?_⟩
      cases hleaf
      exact hclamped
  | failed hdomain hcache hself hprovided =>
      exact ⟨h.getManagedCA _, fun leaf hleaf => by cases hleaf⟩
  | @issued covered ca hdomain hcache hself hprovided =>
      have hclamped : Clamped (makeLeaf setup context covered options (some ca)) :=
        clamped_makeLeaf hx _ _ _
      refine ⟨(h.getManagedCA _).cacheLeaf hclamped _, fun leaf hleaf => ?_⟩
      cases hleaf
      exact hclamped

theorem KeptClamped.getClientCertificate (setup : LocalCASetup x) (context : CallContext)
    (hx : x.Lawful) (h : KeptClamped s) :
    KeptClamped (getClientCertificate setup s context).2 ∧
      ∀ cert, (LocalCAState.getClientCertificate setup s context).1 = .ok cert →
        Clamped cert := by
  cases hkept : s.keptClientCertificate context with
  | some client =>
      obtain ⟨hclient, -⟩ := keptClientCertificate_eq_some hkept
      simp only [LocalCAState.getClientCertificate, hkept]
      refine ⟨h, fun cert hcert => ?_⟩
      cases hcert
      exact h.client client hclient
  | none =>
      rw [getClientCertificate_of_none hkept]
      cases hprovided : provided setup s context .clientAuth with
      | error message =>
          refine ⟨⟨(h.getManagedCA .clientAuth).leaf, fun client hclient => ?_⟩,
            fun cert hcert => ?_⟩
          · cases hclient
          · cases hcert
      | ok ca =>
          have hclamped : Clamped (makeClientCertificate setup context ca).cert :=
            clamped_makeClientCertificate hx ca
          refine ⟨⟨(h.getManagedCA .clientAuth).leaf, fun client hclient => ?_⟩,
            fun cert hcert => ?_⟩
          · cases hclient
            exact hclamped
          · cases hcert
            exact hclamped

theorem map_certificate_eq_ok {outcome : Except JsString (LocallyGeneratedCertificate x)}
    {handed : Handed x} (h : outcome.map Handed.certificate = .ok handed) :
    ∃ cert, handed = .certificate cert ∧ outcome = .ok cert := by
  cases outcome with
  | error message => cases h
  | ok cert =>
      cases h
      exact ⟨cert, rfl, rfl⟩

theorem map_authority_ne {outcome : Except JsString (CaMaterial x)}
    {cert : LocallyGeneratedCertificate x} :
    outcome.map Handed.authority ≠ .ok (.certificate cert) := by
  intro h
  cases outcome with
  | error message => cases h
  | ok ca => cases h

/-- No certificate that is handed out or kept outlasts its issuer. -/
theorem KeptClamped.call (hx : x.Lawful) (h : KeptClamped s) (c : LocalCACall) :
    KeptClamped (call setup s context c).2 ∧
      ∀ cert, (LocalCAState.call setup s context c).1 = .ok (.certificate cert) →
        Clamped cert := by
  cases c with
  | getIntermediateCertificatePem =>
      exact ⟨h.getManagedCA _, fun cert hcert => absurd hcert map_authority_ne⟩
  | generateCertificate domain options =>
      obtain ⟨hkept, hclamped⟩ := h.generateCertificate setup context hx domain options
      refine ⟨hkept, fun cert hcert => ?_⟩
      obtain ⟨cert', ⟨⟩, hcert'⟩ := map_certificate_eq_ok hcert
      exact hclamped cert hcert'
  | getClientAuthCaCertPem =>
      exact ⟨h.getManagedCA _, fun cert hcert => absurd hcert map_authority_ne⟩
  | getClientCertificate =>
      obtain ⟨hkept, hclamped⟩ := h.getClientCertificate setup context hx
      refine ⟨hkept, fun cert hcert => ?_⟩
      obtain ⟨cert', ⟨⟩, hcert'⟩ := map_certificate_eq_ok hcert
      exact hclamped cert hcert'
  | evict cacheKey =>
      refine ⟨⟨fun k leaf hleaf => ?_, h.client⟩, fun cert hcert => by cases hcert⟩
      have hget : (s.certInMemoryCache.delete cacheKey).get k = some leaf := hleaf
      rw [InsertionMap.get_delete] at hget
      split_ifs at hget
      exact h.leaf k leaf hget

/-- A chain of a leaf is in order exactly when its intermediate does not outlast the root. -/
theorem chain_leaf_iff {cert : LocallyGeneratedCertificate x} (hclamped : Clamped cert)
    (domain : JsString) (options : CertOptions) :
    ((chainOf setup (.generateCertificate domain options) cert).Pairwise
        fun a b => x.notAfter a ≤ x.notAfter b) ↔
      ∀ issuer ∈ cert.issuer, x.notAfter issuer ≤ x.notAfter setup.root.caCert := by
  cases hissuer : cert.issuer with
  | none =>
      simp only [chainOf, hissuer]
      exact iff_of_true (List.pairwise_singleton _ _) (fun issuer h => by cases h)
  | some issuer =>
      have hleaf : x.notAfter cert.certificate ≤ x.notAfter issuer := hclamped issuer hissuer
      simp only [chainOf, hissuer, List.pairwise_cons, List.mem_cons, List.not_mem_nil, or_false,
        forall_eq_or_imp, forall_eq, Option.mem_def, Option.some.injEq, forall_eq',
        List.Pairwise.nil, IsEmpty.forall_iff, implies_true, and_true]
      constructor
      · rintro ⟨-, h⟩
        exact h
      · intro h
        exact ⟨⟨hleaf, hleaf.trans h⟩, h⟩

/-- A chain of a client certificate is in order. -/
theorem chain_client {cert : LocallyGeneratedCertificate x} (hclamped : Clamped cert) :
    (chainOf setup .getClientCertificate cert).Pairwise
      fun a b => x.notAfter a ≤ x.notAfter b := by
  cases hissuer : cert.issuer with
  | none =>
      simp only [chainOf, hissuer]
      exact List.pairwise_singleton _ _
  | some issuer =>
      simp only [chainOf, hissuer]
      exact List.pairwise_pair.mpr (hclamped issuer hissuer)

/-- What is handed out for a domain is ordered exactly when no intermediate that is used for it
outlasts the root. -/
theorem handsOrdered_leaf_iff (hx : x.Lawful) (h : KeptClamped s) (domain : JsString)
    (options : CertOptions) :
    HandsOrdered setup s (context, .generateCertificate domain options) ↔
      ∀ handed, (call setup s context (.generateCertificate domain options)).1 = .ok handed →
        ∀ issuer ∈ handed.issuer, x.notAfter issuer ≤ x.notAfter setup.root.caCert := by
  have hclamped : ∀ cert, (call setup s context (.generateCertificate domain options)).1 =
      .ok (.certificate cert) → Clamped cert := (h.call hx _).2
  constructor
  · intro hordered handed hhanded
    obtain ⟨cert, rfl, -⟩ := map_certificate_eq_ok hhanded
    exact (chain_leaf_iff (hclamped cert hhanded) domain options).mp (hordered cert hhanded)
  · intro hall cert hcert
    exact (chain_leaf_iff (hclamped cert hcert) domain options).mpr (hall _ hcert)

theorem eq_intermediate_of_used {domain : JsString} {options : CertOptions}
    {managed : ManagedCA} (hused : usedCA s (.generateCertificate domain options) = some managed) :
    managed = .intermediate := by
  rw [usedCA] at hused
  split at hused
  · cases hused
  · split at hused
    · split_ifs at hused
      exact (Option.some.inj hused).symm
    · split_ifs at hused
      exact (Option.some.inj hused).symm

theorem handsOrdered_iff (hx : x.Lawful) (h : KeptAsLoaded setup so)
    (hclamped : KeptClamped so.1) : HandsOrdered setup so.1 e ↔ FitsRoot setup so e := by
  obtain ⟨context, c⟩ := e
  cases c with
  | generateCertificate domain options =>
      rw [handsOrdered_leaf_iff hx hclamped]
      apply (h.forall_end_iff hx (e := (context, .generateCertificate domain options))
        (P := fun t => t ≤ x.notAfter setup.root.caCert)).trans
      constructor
      · intro hends hused
        exact hends .intermediate hused
      · intro hfits managed hused
        obtain rfl := eq_intermediate_of_used hused
        exact hfits hused
  | getClientCertificate =>
      refine iff_of_true (fun cert hcert => ?_) trivial
      exact chain_client ((hclamped.call hx .getClientCertificate).2 cert hcert)
  | getIntermediateCertificatePem =>
      exact iff_of_true (fun cert hcert => absurd hcert map_authority_ne) trivial
  | getClientAuthCaCertPem =>
      exact iff_of_true (fun cert hcert => absurd hcert map_authority_ne) trivial
  | evict cacheKey => exact iff_of_true (fun cert hcert => by cases hcert) trivial

/-- In a run every chain that is handed out is in order exactly when the load of the intermediate
of each leaf has given one within the root. -/
theorem handsOrdered_throughout_iff (hx : x.Lawful) (calls : List (CallContext × LocalCACall)) :
    Guarded (step setup) (HandsOrdered setup) initial calls ↔
      Guarded (observedStep setup) (FitsRoot setup) unobserved calls := by
  have keep : ∀ so e so', KeptAsLoaded setup so ∧ KeptClamped so.1 →
      observedStep setup so e = some so' → KeptAsLoaded setup so' ∧ KeptClamped so'.1 := by
    rintro so e so' ⟨hkept, hclamped⟩ hstep
    refine ⟨hkept.step hstep, ?_⟩
    cases hstep
    exact (hclamped.call hx e.2).1
  exact guarded_iff_observed keep (fun so e h => handsOrdered_iff hx h.1 h.2)
    ⟨keptAsLoaded_unobserved, keptClamped_initial⟩ calls

theorem handsOrdered_throughout_iff_leaf :
    Guarded (step X509.plainSetup) (HandsOrdered X509.plainSetup) initial
      [(⟨0, 0, .empty⟩, .generateCertificate (js "t") {}),
        (⟨1000, 1, .empty⟩, .generateCertificate (js "u") {})] := by
  apply (handsOrdered_throughout_iff X509.plain_lawful _).mpr
  refine ⟨fun _ _ => ?_, fun so hso => ⟨fun _ _ => ?_, fun _ _ => trivial⟩⟩
  · decide
  · cases hso
    decide

/-- Under a generated root, the first leaf comes with an intermediate that outlasts the root. -/
theorem not_handsOrdered_generatedRoot : ∃ root,
    RootCA.create X509.plain
        (generateCACertificate X509.plain (js "Test Certificate Authority") (js "Testserver")
          (js "XX") 2048 0 0) = some root ∧
      0 < X509.plain.notAfter root.caCert ∧
      ¬ Guarded (step ⟨root, false, (0 : Nat)⟩) (HandsOrdered ⟨root, false, (0 : Nat)⟩) initial
        [(⟨0, 1, .empty⟩, .generateCertificate (js "t") {})] := by
  obtain ⟨root, hroot, hend⟩ := create_generateCACertificate X509.plain_lawful
    (js "Test Certificate Authority") (js "Testserver") (js "XX") 2048 0 0
  have hyear : X509.plain.notAfter root.caCert = (31536000000 : Int) := hend
  refine ⟨root, hroot, ?_, fun h => ?_⟩
  · rw [hyear]
    decide
  · have hkept : KeptAsLoaded ⟨root, false, (0 : Nat)⟩
        (unobserved : LocalCAState X509.plain × SeenLoads) := keptAsLoaded_unobserved
    have hfits := (handsOrdered_iff X509.plain_lawful hkept keptClamped_initial).mp h.1
    have hle : X509.plain.encodeTime (addYears 0 6) ≤ X509.plain.notAfter root.caCert :=
      hfits rfl rfl
    rw [hyear] at hle
    exact absurd hle (by decide)

end TestServer.TlsCertificates.LocalCAState
