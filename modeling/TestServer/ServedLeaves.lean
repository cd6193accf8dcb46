import TestServer.CertKeys
import TestServer.Stapling

/-!
# Leaves that handshakes are served

Two caches stand between a handshake and the leaf that it is served: the secure contexts of the
process, and the leaves in the memory of the local CA. Both find what they hold by a text, and
any client may ask for any name. Whatever the clients ask for, and however their handshakes
overlap, an own host is served a leaf that was made for its own name and options.
-/

namespace TestServer

open Js Library Library.Runs Endpoints TlsCertificates

/-- The root domain has none of the marks that the keys are made with; no domain name has. -/
structure Unmarked (rootDomain : JsString) : Prop where
  plus : unit '+' ∉ rootDomain
  bar : unit '|' ∉ rootDomain

section

variable {rootDomain host domain : JsString} {config config' : EndpointConfig}

/-- The domain of the certificate of an own host is the root domain or a name below it. -/
theorem below_certDomain (hown : Own rootDomain host)
    (hconfig : getEndpointConfig (getSNIPrefixParts host rootDomain) = .ok config) :
    Below rootDomain
      (certDomainOf rootDomain host (CertOptions.ofRecord config.certOptions)) := by
  obtain ⟨es, hmerged⟩ := mergedFrom_of_accepted hconfig
  rw [certDomainOf, hmerged.override_eq]
  rcases hmerged.overridePrefix_cases with hnone | hsome
  · rw [hnone]
    exact below_of_own hown hconfig
  · rw [hsome]
    exact .inr ⟨js "example", by decide, by decide, rfl⟩

/-- A certificate domain with a plus sign before the root domain is no override. -/
theorem override_eq_none_of_plus {options : CertOptions} {stem : JsString}
    (heq : certDomainOf rootDomain domain options = stem ++ unit '+' :: rootDomain) :
    options.override = none := by
  cases hoverride : options.override with
  | none => rfl
  | some p =>
      rw [certDomainOf, hoverride] at heq
      have hlast : (p ++ [unit '.']) ++ rootDomain = (stem ++ [unit '+']) ++ rootDomain := by
        simpa [js, codeUnits, unit] using heq
      have hmark := List.append_inj_right' (List.append_cancel_right hlast) rfl
      exact absurd hmark (by decide)

theorem bar_notMem_join {words : List JsString} {record : Record} {es : List TlsEndpoint}
    (h : MergedFrom words record es) :
    unit '|' ∉ join [unit '+'] (certKeyParts (CertOptions.ofRecord record)) := by
  intro hmem
  rcases mem_join hmem with ⟨part, hpart, hc⟩ | hc
  · exact (h.certKeyParts_plain part hpart).2.2 hc
  · exact absurd hc (by decide)

theorem split_join_certKeyParts {words : List JsString} {record : Record}
    {es : List TlsEndpoint} (h : MergedFrom words record es)
    (hne : certKeyParts (CertOptions.ofRecord record) ≠ []) :
    split (join [unit '+'] (certKeyParts (CertOptions.ofRecord record))) [unit '+'] =
      certKeyParts (CertOptions.ofRecord record) :=
  split_join (List.cons_ne_nil _ _) hne fun part hpart =>
    uncut_of_notMem (h.certKeyParts_plain part hpart).2.1

/-- The key of a host with an override does not go on as that of a name with a plus sign before
the root domain does: the second key has no override. -/
theorem join_ne_of_override {words : List JsString} {record record' : Record}
    {es es' : List TlsEndpoint} (hroot : unit '+' ∉ rootDomain)
    (hmerged : MergedFrom words record es)
    (hoverride : (CertOptions.ofRecord record).override = some (js "example"))
    (hmerged' : MergedFrom (stemParts (js "example" ++ js "." ++ rootDomain)) record' es')
    (hnone : (CertOptions.ofRecord record').override = none) :
    join [unit '+'] (certKeyParts (CertOptions.ofRecord record)) ≠
      rootDomain ++ unit '+' :: join [unit '+'] (certKeyParts (CertOptions.ofRecord record')) := by
  intro hjoin
  have hpart : js "override=" ++ js "example" ∈ certKeyParts (CertOptions.ofRecord record) :=
    mem_certKeyParts.mpr (.inr (.inr (.inr (.inr (.inr (.inl ⟨_, hoverride, rfl⟩))))))
  have hsplit := split_join_certKeyParts hmerged (List.ne_nil_of_mem hpart)
  rw [hjoin, split_append_cons hroot] at hsplit
  rw [← hsplit] at hpart
  rcases List.mem_cons.mp hpart with hword | hrest
  · -- The root domain would be an endpoint word, and none has an equals sign.
    have hmem : rootDomain ∈ stemParts (js "example" ++ js "." ++ rootDomain) := by
      apply mem_stemParts_of_ends _ _ _ (.inr ⟨_, rfl⟩) hmerged'.named
      · rw [← hword]
        exact List.append_ne_nil_of_left_ne_nil (js_ne_nil (by decide)) _
      · rw [← hword]
        decide
      · rw [← hword]
        decide
    obtain ⟨htable, hnames⟩ := namedEndpoints_eq_some hmerged'.named
    rw [← hnames, ← hword] at hmem
    obtain ⟨e, he, hname⟩ := List.mem_map.mp hmem
    have hequals : ∀ e ∈ tlsEndpoints, unit '=' ∉ e.sniPart := by decide
    apply hequals e (htable e he)
    rw [hname]
    decide
  · by_cases hparts' : certKeyParts (CertOptions.ofRecord record') = []
    · rw [hparts'] at hrest
      exact absurd (List.mem_singleton.mp hrest) (by decide)
    · rw [split_join_certKeyParts hmerged' hparts'] at hrest
      rw [override_of_mem hrest] at hnone
      cases hnone

/-- The certificate domain of an own host is read off the key of its secure context, whatever
name the key was made for. -/
theorem certDomain_eq_of_cacheKey (hroot : Unmarked rootDomain) (hown : Own rootDomain host)
    (hconfig : getEndpointConfig (getSNIPrefixParts host rootDomain) = .ok config)
    (hconfig' : getEndpointConfig (getSNIPrefixParts domain rootDomain) = .ok config')
    (hkey : (handshakeOf rootDomain host (getSNIPrefixParts host rootDomain) config).cacheKey =
      (handshakeOf rootDomain domain (getSNIPrefixParts domain rootDomain) config').cacheKey) :
    certDomainOf rootDomain host (CertOptions.ofRecord config.certOptions) =
      certDomainOf rootDomain domain (CertOptions.ofRecord config'.certOptions) := by
  obtain ⟨es, hmerged⟩ := mergedFrom_of_accepted hconfig
  obtain ⟨es', hmerged'⟩ := mergedFrom_of_accepted hconfig'
  have hbelow := below_certDomain hown hconfig
  rw [cacheKey_handshakeOf, cacheKey_handshakeOf] at hkey
  simp only [handshakeOf] at hkey
  have hasked : Asked rootDomain
      (certDomainOf rootDomain domain (CertOptions.ofRecord config'.certOptions))
      (CertOptions.ofRecord config'.certOptions) := .served hconfig' (.inr hroot.plus)
  rcases hasked.shaped with hbelow' | ⟨-, hplus | ⟨stem, record, es'', hstem, hmerged'', hopts⟩⟩
  · exact hbelow.eq_of_append hbelow' hkey
  · exact (append_cons_inj (hbelow.plus_notMem hroot.plus) hplus hkey).1
  · exfalso
    have hnone := override_eq_none_of_plus hstem
    rw [hstem, List.append_assoc, List.cons_append] at hkey
    obtain ⟨hhost, hrest⟩ := append_cons_inj (hbelow.plus_notMem hroot.plus)
      (plus_notMem_stem hmerged''.named) hkey
    have hbar : unit '|' ∉ rootDomain ++
        unit '+' :: join [unit '+'] (certKeyParts (CertOptions.ofRecord config'.certOptions)) := by
      rw [List.mem_append, List.mem_cons, not_or, not_or]
      exact ⟨hroot.bar, by decide, bar_notMem_join hmerged'⟩
    rw [← List.cons_append, ← List.append_assoc rootDomain] at hrest
    have hjoin := (append_barred_inj (bar_notMem_join hmerged) hbar (barred_afterCertKey _ _ _)
      (barred_afterCertKey _ _ _) hrest).1
    rw [hopts] at hjoin hnone
    cases hoverride : (CertOptions.ofRecord config.certOptions).override with
    | none =>
        rw [hhost] at hbelow
        exact join_ne_of_plusNamed hroot.plus (keyParts_cert _) hoverride hmerged''
          (keyParts_cert _) hbelow.ends hjoin
    | some p =>
        obtain rfl : p = js "example" := by
          rw [hmerged.override_eq] at hoverride
          rcases hmerged.overridePrefix_cases with h | h
          · rw [h] at hoverride
            cases hoverride
          · exact Option.some.inj (hoverride.symm.trans h)
        rw [certDomainOf, hoverride] at hhost
        subst hhost
        exact join_ne_of_override hroot.plus hmerged hoverride hmerged'' hnone hjoin

/-- The key of the secure context of an own host tells everything that it was made from. -/
theorem sameKey_of_own (hroot : Unmarked rootDomain) (hown : Own rootDomain host)
    (hconfig : getEndpointConfig (getSNIPrefixParts host rootDomain) = .ok config)
    (hconfig' : getEndpointConfig (getSNIPrefixParts domain rootDomain) = .ok config')
    (hkey : (handshakeOf rootDomain host (getSNIPrefixParts host rootDomain) config).cacheKey =
      (handshakeOf rootDomain domain (getSNIPrefixParts domain rootDomain) config').cacheKey) :
    SameKey (handshakeOf rootDomain host (getSNIPrefixParts host rootDomain) config)
      (handshakeOf rootDomain domain (getSNIPrefixParts domain rootDomain) config') := by
  obtain ⟨es, hmerged⟩ := mergedFrom_of_accepted hconfig
  obtain ⟨es', hmerged'⟩ := mergedFrom_of_accepted hconfig'
  have hdomain := certDomain_eq_of_cacheKey hroot hown hconfig hconfig' hkey
  rw [cacheKey_handshakeOf, cacheKey_handshakeOf] at hkey
  simp only [handshakeOf] at hkey ⊢
  rw [hdomain] at hkey
  have hrest := (List.cons.inj (List.append_cancel_left hkey)).2
  obtain ⟨hjoin, htail⟩ := append_barred_inj (bar_notMem_join hmerged) (bar_notMem_join hmerged')
    (barred_afterCertKey _ _ _) (barred_afterCertKey _ _ _) hrest
  obtain ⟨hchain, htail⟩ := chainText_append_inj htail
  obtain ⟨htls, hclient⟩ := tlsText_append_inj htail
  have hplain := hmerged.certKeyParts_plain
  have hplain' := hmerged'.certKeyParts_plain
  have hparts := join_injective (fun x hx => ⟨(hplain x hx).1, (hplain x hx).2.1⟩)
    (fun x hx => ⟨(hplain' x hx).1, (hplain' x hx).2.1⟩) hjoin
  exact ⟨hdomain, sameKeyed_of_certKeyParts_eq hparts, hchain, htls, hclient⟩

/-- The options that the local CA looks at. -/
def withoutOverride (options : CertOptions) : CertOptions := { options with overridePrefix := none }

theorem certKeyParts_withoutOverride (options : CertOptions) :
    certKeyParts (withoutOverride options) = localKeyParts options := by
  rw [certKeyParts, localKeyParts]
  exact congrArg (· ++ _) (List.append_nil _)

/-- The local CA finds a leaf for the certificate domain of an own host only under a key that was
made for the same name. -/
theorem covered_eq_of_localKey (hroot : Unmarked rootDomain) (hown : Own rootDomain host)
    (hconfig : getEndpointConfig (getSNIPrefixParts host rootDomain) = .ok config)
    (hconfig' : getEndpointConfig (getSNIPrefixParts domain rootDomain) = .ok config')
    {name name' : JsString}
    (hname : coveredDomain
      (certDomainOf rootDomain host (CertOptions.ofRecord config.certOptions)) = .ok name)
    (hname' : coveredDomain
      (certDomainOf rootDomain domain (CertOptions.ofRecord config'.certOptions)) = .ok name')
    (hkey : calculateCacheKey name (CertOptions.ofRecord config.certOptions) =
      calculateCacheKey name' (CertOptions.ofRecord config'.certOptions)) : name = name' := by
  have hasked : Asked rootDomain
      (certDomainOf rootDomain domain (CertOptions.ofRecord config'.certOptions))
      (CertOptions.ofRecord config'.certOptions) := .served hconfig' (.inr hroot.plus)
  have hbelow := below_certDomain hown hconfig
  cases hoverride : (CertOptions.ofRecord config.certOptions).override with
  | none =>
      rw [certDomainOf, hoverride] at hname
      exact coveredDomain_eq_of_key hown hconfig hoverride hname hasked hname' hkey
  | some p =>
      -- Below a root domain with underscores, nothing would cover the override.
      have hclean : unit '_' ∉ rootDomain := by
        intro hmem
        rw [certDomainOf, hoverride] at hname
        exact coveredDomain_below hmem hname
      rw [coveredDomain_of_notMem (hbelow.underscore_notMem hclean)] at hname
      cases hname
      rw [calculateCacheKey_eq, calculateCacheKey_eq] at hkey
      by_cases hunderscore : unit '_' ∈
          certDomainOf rootDomain domain (CertOptions.ofRecord config'.certOptions)
      · rcases hasked.shaped with h' | ⟨-, hplus | ⟨stem, record, es, hstem, hmerged, -⟩⟩
        · exact absurd hunderscore (h'.underscore_notMem hclean)
        · exact (append_cons_inj (hbelow.plus_notMem hroot.plus)
            (plus_notMem_coveredDomain hplus hname') hkey).1
        · exfalso
          rw [hstem] at hunderscore
          rcases List.mem_append.mp hunderscore with hmem | hmem
          · exact underscore_notMem_stem hmerged.named hmem
          · rcases List.mem_cons.mp hmem with hc | hmem
            · exact absurd hc (by decide)
            · exact hclean hmem
      · rw [coveredDomain_of_notMem hunderscore] at hname'
        cases hname'
        have hparts : KeyParts (localKeyParts (CertOptions.ofRecord config.certOptions))
            (withoutOverride (CertOptions.ofRecord config.certOptions)) :=
          certKeyParts_withoutOverride (CertOptions.ofRecord config.certOptions) ▸ keyParts_cert _
        exact hbelow.eq_of_key rfl hparts hasked.shaped (keyParts_local _) hkey

/-- Options that have the same key parts have the same local ones. -/
theorem calculateCacheKey_congr {a b : CertOptions} (h : SameKeyed a b) (name : JsString) :
    calculateCacheKey name a = calculateCacheKey name b := by
  simp only [calculateCacheKey, flagParts, h.expired, h.revoked, h.selfSigned, h.noCommonName,
    h.sha1Signature, h.leafKeyBits]

/-- Under equal local keys for one name, the options that the local CA looks at agree. -/
theorem sameKeyed_of_localKey {words words' : List JsString} {record record' : Record}
    {es es' : List TlsEndpoint} (hmerged : MergedFrom words record es)
    (hmerged' : MergedFrom words' record' es') {name : JsString}
    (hkey : calculateCacheKey name (CertOptions.ofRecord record) =
      calculateCacheKey name (CertOptions.ofRecord record')) :
    SameKeyed (withoutOverride (CertOptions.ofRecord record))
      (withoutOverride (CertOptions.ofRecord record')) := by
  have hplain {words : List JsString} {record : Record} {es : List TlsEndpoint}
      (h : MergedFrom words record es) :
      ∀ part ∈ localKeyParts (CertOptions.ofRecord record), part ≠ [] ∧ unit '+' ∉ part := by
    intro part hpart
    have hplain := h.certKeyParts_plain part ((keyParts_local _).sublist.subset hpart)
    exact ⟨hplain.1, hplain.2.1⟩
  rw [calculateCacheKey_eq, calculateCacheKey_eq] at hkey
  have hjoin := (List.cons.inj (List.append_cancel_left hkey)).2
  apply sameKeyed_of_certKeyParts_eq
  rw [certKeyParts_withoutOverride, certKeyParts_withoutOverride]
  exact join_injective (hplain hmerged) (hplain hmerged') hjoin

end

/-- The local CA makes the same leaf for the same name and the same options that it looks at. -/
theorem makeLeaf_congr {x : X509} {setup : LocalCASetup x} {a b : CertOptions}
    (h : SameKeyed (withoutOverride a) (withoutOverride b)) (context : CallContext)
    (name : JsString) (intermediate : Option (CaMaterial x)) :
    LocalCAState.makeLeaf setup context name a intermediate =
      LocalCAState.makeLeaf setup context name b intermediate := by
  have hexpired : a.expired = b.expired := h.expired
  have hself : a.selfSigned = b.selfSigned := h.selfSigned
  have hname : a.noCommonName = b.noCommonName := h.noCommonName
  have hsignature : a.sha1Signature = b.sha1Signature := h.sha1Signature
  have hbits : a.leafKeyBits = b.leafKeyBits := h.leafKeyBits
  simp only [LocalCAState.makeLeaf, requestedValidity, hexpired, hself, hname, hsignature, hbits]

namespace TlsServer

variable {x : X509} (setup : LocalCASetup x) (r : x.Reader) (mode : CertMode)
  (rootDomain : JsString)

/-- The leaf was made by now for the name and the options, under the authority that was loaded, or
self-signed if the options ask for that. -/
def MadeFor (s : TlsServer x) (covered : JsString) (options : CertOptions)
    (leaf : LocallyGeneratedCertificate x) : Prop :=
  ∃ context intermediate, context.now ≤ s.now ∧
    leaf = LocalCAState.makeLeaf setup context covered options intermediate ∧
    (∀ ca ∈ intermediate, s.ocsp.ca.settled .intermediate = some (.ok ca)) ∧
    (intermediate = none ↔ options.selfSigned = true)

/-- The leaf was made in a handshake for which it has this key. -/
def KeptUnder (s : TlsServer x) (cacheKey : JsString)
    (leaf : LocallyGeneratedCertificate x) : Prop :=
  ∃ serverName h covered, handleConnection rootDomain serverName = .accepted h ∧
    coveredDomain h.certDomain = .ok covered ∧
    calculateCacheKey covered h.certOptions = cacheKey ∧
    MadeFor setup s covered h.certOptions leaf

/-- A context for the handshake may have this leaf of the local CA, or none. -/
structure Holds (s : TlsServer x) (h : Handshake)
    (leaf : Option (LocallyGeneratedCertificate x)) : Prop where
  kept : ∀ l ∈ leaf, ∃ covered, coveredDomain h.certDomain = .ok covered ∧
    KeptUnder setup rootDomain s (calculateCacheKey covered h.certOptions) l
  absent : leaf = none → mode ≠ .localOnly ∧ h.certOptions.requiredType ≠ some .local

/-- What a factory for the handshake waits with. -/
def Waits (s : TlsServer x) (h : Handshake) : FactoryPhase x → Prop
  | .generating covered => coveredDomain h.certDomain = .ok covered
  | .generated leaf => Holds setup mode rootDomain s h leaf

/-- Leaves, calls and contexts are under the keys of the handshakes that they were made for. -/
structure Kept (s : TlsServer x) : Prop where
  cached : ∀ cacheKey leaf, s.ocsp.ca.certInMemoryCache.get cacheKey = some leaf →
    KeptUnder setup rootDomain s cacheKey leaf
  calls : ∀ call ∈ s.calls, ∃ serverName h,
    handleConnection rootDomain serverName = .accepted h ∧ h.cacheKey = call.key ∧
      h.certOptions = call.certOptions ∧ Waits setup mode rootDomain s h call.phase
  contexts : ∀ key entry, s.secureContextCache.cache.get key = some entry → ∃ serverName h,
    handleConnection rootDomain serverName = .accepted h ∧ h.cacheKey = key ∧
      Holds setup mode rootDomain s h entry.context.leaf

/-- The authority that leaves are made under stays, and time does not go back. -/
structure Later (s t : TlsServer x) : Prop where
  now : s.now ≤ t.now
  settled : ∀ ca, s.ocsp.ca.settled .intermediate = some (.ok ca) →
    t.ocsp.ca.settled .intermediate = some (.ok ca)

variable {setup r mode rootDomain} {s t : TlsServer x}

theorem Later.of_eq (hnow : t.now = s.now) (hca : t.ocsp.ca.settled = s.ocsp.ca.settled) :
    Later s t where
  now := hnow.ge
  settled _ h := hca ▸ h

theorem MadeFor.later {covered : JsString} {options : CertOptions}
    {leaf : LocallyGeneratedCertificate x} (h : MadeFor setup s covered options leaf)
    (hlater : Later s t) : MadeFor setup t covered options leaf := by
  obtain ⟨context, intermediate, hnow, rfl, hissuer, hself⟩ := h
  exact ⟨context, intermediate, hnow.trans hlater.now, rfl,
    fun ca hca => hlater.settled ca (hissuer ca hca), hself⟩

theorem MadeFor.congr {covered : JsString} {a b : CertOptions}
    {leaf : LocallyGeneratedCertificate x} (h : MadeFor setup s covered a leaf)
    (hsame : SameKeyed (withoutOverride a) (withoutOverride b)) :
    MadeFor setup s covered b leaf := by
  obtain ⟨context, intermediate, hnow, rfl, hissuer, hself⟩ := h
  refine ⟨context, intermediate, hnow, makeLeaf_congr hsame context covered intermediate,
    hissuer, ?_⟩
  have hoption : a.selfSigned = b.selfSigned := hsame.selfSigned
  rw [hself, hoption]

theorem KeptUnder.later {cacheKey : JsString} {leaf : LocallyGeneratedCertificate x}
    (h : KeptUnder setup rootDomain s cacheKey leaf) (hlater : Later s t) :
    KeptUnder setup rootDomain t cacheKey leaf := by
  obtain ⟨serverName, h, covered, haccepted, hcovered, hkey, hmade⟩ := h
  exact ⟨serverName, h, covered, haccepted, hcovered, hkey, hmade.later hlater⟩

theorem Holds.later {h : Handshake} {leaf : Option (LocallyGeneratedCertificate x)}
    (hholds : Holds setup mode rootDomain s h leaf) (hlater : Later s t) :
    Holds setup mode rootDomain t h leaf where
  kept l hl := by
    obtain ⟨covered, hcovered, hkept⟩ := hholds.kept l hl
    exact ⟨covered, hcovered, hkept.later hlater⟩
  absent := hholds.absent

theorem Waits.later {h : Handshake} {phase : FactoryPhase x}
    (hwaits : Waits setup mode rootDomain s h phase) (hlater : Later s t) :
    Waits setup mode rootDomain t h phase := by
  cases phase with
  | generating covered => exact hwaits
  | generated leaf => exact Holds.later hwaits hlater

theorem kept_initial (now : Time) : Kept setup mode rootDomain (initial now : TlsServer x) where
  cached cacheKey leaf hget := by cases hget
  calls call hmem := by cases hmem
  contexts key entry hget := by cases hget

/-- A step that adds nothing keeps what is left. -/
theorem Kept.mono (h : Kept setup mode rootDomain s) (hlater : Later s t)
    (hcached : ∀ cacheKey leaf, t.ocsp.ca.certInMemoryCache.get cacheKey = some leaf →
      s.ocsp.ca.certInMemoryCache.get cacheKey = some leaf)
    (hcalls : t.calls ⊆ s.calls)
    (hcontexts : ∀ key entry, t.secureContextCache.cache.get key = some entry →
      s.secureContextCache.cache.get key = some entry) : Kept setup mode rootDomain t where
  cached cacheKey leaf hget := (h.cached cacheKey leaf (hcached cacheKey leaf hget)).later hlater
  calls call hmem := by
    obtain ⟨serverName, h, haccepted, hkey, hoptions, hwaits⟩ := h.calls call (hcalls hmem)
    exact ⟨serverName, h, haccepted, hkey, hoptions, hwaits.later hlater⟩
  contexts key entry hget := by
    obtain ⟨serverName, h, haccepted, hkey, hholds⟩ :=
      h.contexts key entry (hcontexts key entry hget)
    exact ⟨serverName, h, haccepted, hkey, hholds.later hlater⟩

/-- A call is added that works for the handshake of its key. -/
theorem Kept.addCall (h : Kept setup mode rootDomain s) {serverName : Option JsString}
    {handshake : Handshake}
    (haccepted : handleConnection rootDomain serverName = .accepted handshake)
    {key : ContextKey} (hkey : handshake.cacheKey = key) (isTemporary : Bool)
    {phase : FactoryPhase x} (hwaits : Waits setup mode rootDomain s handshake phase) :
    Kept setup mode rootDomain (s.addCall key handshake.certOptions isTemporary phase) where
  cached cacheKey leaf hget := (h.cached cacheKey leaf hget).later (.of_eq rfl rfl)
  calls call hmem := by
    rcases List.mem_append.mp hmem with hmem | hmem
    · obtain ⟨name, other, hother, hcall, hoptions, hwaits⟩ := h.calls call hmem
      exact ⟨name, other, hother, hcall, hoptions, hwaits.later (.of_eq rfl rfl)⟩
    · rw [List.mem_singleton.mp hmem]
      exact ⟨serverName, handshake, haccepted, hkey, rfl, hwaits.later (.of_eq rfl rfl)⟩
  contexts key entry hget := by
    obtain ⟨name, other, hother, hcall, hholds⟩ := h.contexts key entry hget
    exact ⟨name, other, hother, hcall, hholds.later (.of_eq rfl rfl)⟩

/-- Without ACME, or where the options require it, the certificate is that of the local CA. -/
theorem localLeaf_of_required {γ : Type} {domain : JsString} {options : CertOptions}
    {lookup : JsString → CertOptions → Option γ} {g : Generation γ}
    (hlocal : mode = .localOnly ∨ options.requiredType = some .local)
    (hg : generateCertificate mode rootDomain lookup domain options = .ok g) :
    ∃ isTemporary, g.source = .localLeaf domain isTemporary := by
  cases mode with
  | localOnly =>
      simp only [generateCertificate] at hg
      split_ifs at hg
      cases hg
      exact ⟨false, rfl⟩
  | acme dnsServer =>
      rcases hlocal with hmode | hrequired
      · cases hmode
      · simp only [generateCertificate, hrequired, if_true] at hg
        cases hg
        exact ⟨false, rfl⟩

theorem Kept.startFactory (h : Kept setup mode rootDomain s) {serverName : Option JsString}
    {handshake : Handshake}
    (haccepted : handleConnection rootDomain serverName = .accepted handshake)
    {key : ContextKey} (hkey : handshake.cacheKey = key)
    (acmeCert : Option CachedCertificate) :
    Kept setup mode rootDomain (s.startFactory mode rootDomain key handshake acmeCert) := by
  rw [TlsServer.startFactory]
  split
  · exact h
  · next g hg =>
      split
      · next domain isTemporary hsource =>
          obtain rfl := domain_of_localLeaf hg hsource
          split
          · exact h
          · next covered hcovered =>
              apply h.addCall haccepted hkey
              split
              · next leaf hget =>
                  constructor
                  · rintro l ⟨⟩
                    exact ⟨covered, hcovered, h.cached _ leaf hget⟩
                  · rintro ⟨⟩
              · exact hcovered
      · next hsource =>
          apply h.addCall haccepted hkey
          constructor
          · rintro l ⟨⟩
          · intro _
            rw [← not_or]
            intro hlocal
            obtain ⟨isTemporary, hleaf⟩ := localLeaf_of_required hlocal hg
            exact hsource _ _ hleaf

theorem Kept.getOrCreate (h : Kept setup mode rootDomain s) {serverName : Option JsString}
    {handshake : Handshake}
    (haccepted : handleConnection rootDomain serverName = .accepted handshake)
    {key : ContextKey} (hkey : handshake.cacheKey = key)
    (acmeCert : Option CachedCertificate) :
    Kept setup mode rootDomain (s.getOrCreate mode rootDomain key handshake acmeCert) := by
  have hcached : ∀ returned, Kept setup mode rootDomain { s with
      secureContextCache := (s.secureContextCache.lookup key s.now).2, returned := returned } :=
    fun returned => h.mono (.of_eq rfl rfl) (fun _ _ hget => hget) (List.Subset.refl _)
      fun _ _ hget => SecureContextCache.get_of_get_lookup hget
  rw [TlsServer.getOrCreate]
  split
  · next context cache heq =>
      have hstored := hcached (some context)
      rw [heq] at hstored
      exact hstored
  · next cache heq =>
      have hstored := hcached none
      rw [heq] at hstored
      exact hstored.startFactory haccepted hkey acmeCert

/-- The leaf that a generation ends with is made for what it was asked for. -/
theorem madeFor_leafFor {replies : StoreReplies} {covered : JsString} {options : CertOptions}
    {leaf : LocallyGeneratedCertificate x}
    (hleaf : s.ocsp.leafFor setup (s.context replies) covered options = some leaf) :
    MadeFor setup s covered options leaf := by
  simp only [OcspState.leafFor] at hleaf
  split_ifs at hleaf with hself
  · cases hleaf
    exact ⟨s.context replies, none, le_refl _, rfl, by simp, by simp [hself]⟩
  · split at hleaf
    · next intermediate hsettled =>
        cases hleaf
        refine ⟨s.context replies, some intermediate, le_refl _, rfl, ?_, by simp [hself]⟩
        rintro ca ⟨⟩
        exact hsettled
    · cases hleaf

/-- The new leaf is under the key that it was generated for, and its call waits with it. -/
theorem Kept.finishLeaf (h : Kept setup mode rootDomain s) {n : Nat} {call : ContextCall x}
    {covered : JsString} {replies : StoreReplies} {leaf : LocallyGeneratedCertificate x}
    (hcall : s.calls[n]? = some call) (hphase : call.phase = .generating covered)
    (hleaf : s.ocsp.leafFor setup (s.context replies) covered call.certOptions = some leaf) :
    Kept setup mode rootDomain (s.finishLeaf setup r n call covered replies leaf) := by
  have hlater : Later s (s.finishLeaf setup r n call covered replies leaf) := .of_eq rfl rfl
  obtain ⟨serverName, handshake, haccepted, hkey, hoptions, hwaits⟩ :=
    h.calls call (List.mem_of_getElem? hcall)
  rw [hphase] at hwaits
  have hcovered : coveredDomain handshake.certDomain = .ok covered := hwaits
  have hkept : KeptUnder setup rootDomain (s.finishLeaf setup r n call covered replies leaf)
      (calculateCacheKey covered handshake.certOptions) leaf := by
    refine ⟨serverName, handshake, covered, haccepted, hcovered, rfl, ?_⟩
    rw [hoptions]
    exact (madeFor_leafFor hleaf).later hlater
  constructor
  · intro cacheKey other hget
    simp only [TlsServer.finishLeaf, OcspState.keepLeaf, LocalCAState.cacheLeaf,
      InsertionMap.get_set] at hget
    split_ifs at hget with heq
    · rw [heq, ← Option.some.inj hget, ← hoptions]
      exact hkept
    · exact (h.cached cacheKey other hget).later hlater
  · intro other hmem
    rcases List.mem_or_eq_of_mem_set hmem with hmem | rfl
    · obtain ⟨name, handshake', haccepted', hkey', hoptions', hwaits'⟩ := h.calls other hmem
      exact ⟨name, handshake', haccepted', hkey', hoptions', hwaits'.later hlater⟩
    · refine ⟨serverName, handshake, haccepted, hkey, hoptions, ?_⟩
      constructor
      · rintro l ⟨⟩
        exact ⟨covered, hcovered, hkept⟩
      · rintro ⟨⟩
  · intro key entry hget
    obtain ⟨name, handshake', haccepted', hkey', hholds⟩ := h.contexts key entry hget
    exact ⟨name, handshake', haccepted', hkey', hholds.later hlater⟩

/-- The new context is under the key of its call. -/
theorem Kept.finishCall (h : Kept setup mode rootDomain s) {n : Nat} {call : ContextCall x}
    {leaf : Option (LocallyGeneratedCertificate x)} (hcall : s.calls[n]? = some call)
    (hphase : call.phase = .generated leaf) (acmeExpiry : Time) :
    Kept setup mode rootDomain (s.finishCall n call leaf acmeExpiry) := by
  have hlater : Later s (s.finishCall n call leaf acmeExpiry) := .of_eq rfl rfl
  constructor
  · exact fun cacheKey other hget => (h.cached cacheKey other hget).later hlater
  · intro other hmem
    obtain ⟨name, handshake, haccepted, hkey, hoptions, hwaits⟩ :=
      h.calls other (List.mem_of_mem_eraseIdx hmem)
    exact ⟨name, handshake, haccepted, hkey, hoptions, hwaits.later hlater⟩
  · intro key entry hget
    have hstored : (s.secureContextCache.makeRoom.set call.key
        ⟨⟨leaf, call.calledAt⟩, SecureContextCache.maxExpiry call.calledAt
          (s.contextExpiry call leaf acmeExpiry)⟩).get key = some entry := hget
    rw [InsertionMap.get_set] at hstored
    split_ifs at hstored with heq
    · obtain ⟨name, handshake, haccepted, hkey, -, hwaits⟩ :=
        h.calls call (List.mem_of_getElem? hcall)
      rw [hphase] at hwaits
      have hholds : Holds setup mode rootDomain s handshake leaf := hwaits
      refine ⟨name, handshake, haccepted, by rw [hkey, heq], ?_⟩
      rw [← Option.some.inj hstored]
      exact hholds.later hlater
    · obtain ⟨name, handshake, haccepted, hkey, hholds⟩ :=
        h.contexts key entry (SecureContextCache.get_of_get_makeRoom hstored)
      exact ⟨name, handshake, haccepted, hkey, hholds.later hlater⟩

theorem Kept.step (h : Kept setup mode rootDomain s) {e : Event}
    (hstep : s.step setup r mode rootDomain e = some t) : Kept setup mode rootDomain t := by
  cases e with
  | handshake serverName acmeCert =>
      simp only [TlsServer.step] at hstep
      split at hstep
      · next handshake haccepted =>
          split_ifs at hstep
          cases hstep
          exact h.getOrCreate haccepted rfl acmeCert
      · cases hstep
        exact h.mono (.of_eq rfl rfl) (fun _ _ hget => hget) (List.Subset.refl _)
          fun _ _ hget => hget
  | loaded managed replies =>
      cases hstep
      refine h.mono ⟨le_refl _, ?_⟩ ?_ (List.Subset.refl _) fun _ _ hget => hget
      · exact fun ca hsettled => LocalCAState.getManagedCA_settled_of_some hsettled
      · intro cacheKey leaf hget
        rw [← LocalCAState.getManagedCA_cache setup s.ocsp.ca (s.context replies) managed]
        exact hget
  | leafGenerated n replies =>
      obtain ⟨call, hcall, hrest⟩ := Option.bind_eq_some_iff.mp hstep
      split at hrest
      · next covered hphase =>
          obtain ⟨leaf, hleaf, rfl⟩ := Option.map_eq_some_iff.mp hrest
          exact h.finishLeaf hcall hphase hleaf
      · cases hrest
  | factoryEnds n acmeExpiry =>
      obtain ⟨call, hcall, hrest⟩ := Option.bind_eq_some_iff.mp hstep
      split at hrest
      · next leaf hphase =>
          cases hrest
          exact h.finishCall hcall hphase acmeExpiry
      · cases hrest
  | factoryFails n =>
      simp only [TlsServer.step] at hstep
      split_ifs at hstep
      cases hstep
      exact h.mono (.of_eq rfl rfl) (fun _ _ hget => hget) (List.eraseIdx_subset ..)
        fun _ _ hget => hget
  | timerFires n =>
      obtain ⟨timer, htimer, hrest⟩ := Option.bind_eq_some_iff.mp hstep
      split_ifs at hrest
      simp only [OcspState.step, htimer, Option.map_some] at hrest
      cases hrest
      refine h.mono (.of_eq rfl rfl) ?_ (List.Subset.refl _) fun _ _ hget => hget
      intro cacheKey leaf hget
      simp only [OcspState.dropLeaf, InsertionMap.get_delete] at hget
      split_ifs at hget
      exact hget
  | tick now =>
      simp only [TlsServer.step] at hstep
      split_ifs at hstep with hnow
      cases hstep
      exact h.mono ⟨hnow, fun _ hsettled => hsettled⟩ (fun _ _ hget => hget) (List.Subset.refl _)
        fun _ _ hget => hget

variable (rootDomain) in
/-- The key of the call of `getOrCreate` that an event may answer. -/
def answeredKey (s : TlsServer x) : Event → Option JsString
  | .handshake serverName _ =>
      (handleConnection rootDomain serverName).handshake.map Handshake.cacheKey
  | .factoryEnds n _ => s.calls[n]?.map fun call => call.key
  | _ => none

variable (setup mode) in
/-- The context serves the handshake: a leaf of the local CA in it was made for the name that
covers the certificate domain and for the options of the handshake, and there is one if its
certificate is to be local. -/
structure Serves (s : TlsServer x) (h : Handshake) (context : ServedContext x) : Prop where
  leaf : ∀ leaf ∈ context.leaf, ∃ covered, coveredDomain h.certDomain = .ok covered ∧
    MadeFor setup s covered h.certOptions leaf
  isLocal : mode = .localOnly ∨ (∃ word ∈ h.serverNameParts, word ∈ localWords) →
    context.leaf.isSome = true

/-- What an event returns was made for a handshake with the key that it answers. -/
theorem Kept.returned (h : Kept setup mode rootDomain s) {e : Event}
    (hstep : s.step setup r mode rootDomain e = some t) {context : ServedContext x}
    (hreturned : t.returned = some context) :
    ∃ serverName b, handleConnection rootDomain serverName = .accepted b ∧
      s.answeredKey rootDomain e = some b.cacheKey ∧
      Holds setup mode rootDomain t b context.leaf := by
  cases e with
  | handshake serverName acmeCert =>
      simp only [TlsServer.step] at hstep
      split at hstep
      · next handshake haccepted =>
          split_ifs at hstep with hkey
          cases hstep
          rw [TlsServer.getOrCreate] at hreturned ⊢
          split at hreturned
          · next found cache heq =>
              obtain rfl : found = context := Option.some.inj hreturned
              have hfound : (s.secureContextCache.lookup ⟨handshake.cacheKey, hkey⟩ s.now).1 =
                  some found := by rw [heq]
              obtain ⟨entry, hget, rfl, -⟩ := SecureContextCache.lookup_eq_some hfound
              obtain ⟨name, b, hb, hkeyb, hholds⟩ := h.contexts _ entry hget
              refine ⟨name, b, hb, ?_, hholds.later (.of_eq rfl rfl)⟩
              simp only [answeredKey, haccepted, Outcome.handshake, Option.map_some, hkeyb]
          · rw [startFactory_returned] at hreturned
            cases hreturned
      · cases hstep
        cases hreturned
  | loaded managed replies =>
      cases hstep
      cases hreturned
  | leafGenerated n replies =>
      obtain ⟨call, -, hrest⟩ := Option.bind_eq_some_iff.mp hstep
      split at hrest
      · obtain ⟨leaf, -, rfl⟩ := Option.map_eq_some_iff.mp hrest
        cases hreturned
      · cases hrest
  | factoryEnds n acmeExpiry =>
      obtain ⟨call, hcall, hrest⟩ := Option.bind_eq_some_iff.mp hstep
      split at hrest
      · next leaf hphase =>
          cases hrest
          obtain ⟨name, b, hb, hkeyb, -, hwaits⟩ := h.calls call (List.mem_of_getElem? hcall)
          rw [hphase] at hwaits
          have hholds : Holds setup mode rootDomain s b leaf := hwaits
          cases hreturned
          refine ⟨name, b, hb, ?_, hholds.later (.of_eq rfl rfl)⟩
          simp only [answeredKey, hcall, Option.map_some, hkeyb]
      · cases hrest
  | factoryFails n =>
      simp only [TlsServer.step] at hstep
      split_ifs at hstep
      cases hstep
      cases hreturned
  | timerFires n =>
      obtain ⟨timer, -, hrest⟩ := Option.bind_eq_some_iff.mp hstep
      split_ifs at hrest
      obtain ⟨ocsp, -, rfl⟩ := Option.map_eq_some_iff.mp hrest
      cases hreturned
  | tick now =>
      simp only [TlsServer.step] at hstep
      split_ifs at hstep
      cases hstep
      cases hreturned

/-- What was made for any handshake with its key serves an own host. -/
theorem Holds.serves (hroot : Unmarked rootDomain) {host : JsString} (hown : Own rootDomain host)
    {a b : Handshake} (ha : handleConnection rootDomain (some host) = .accepted a)
    {serverName : Option JsString} (hb : handleConnection rootDomain serverName = .accepted b)
    (hkey : a.cacheKey = b.cacheKey) {context : ServedContext x}
    (hholds : Holds setup mode rootDomain s b context.leaf) : Serves setup mode s a context := by
  obtain ⟨config, hconfig, -, rfl⟩ := handleConnection_eq_accepted ha
  obtain ⟨config', hconfig', -, rfl⟩ := handleConnection_eq_accepted hb
  rw [requestedDomain_of_own hown] at hconfig hkey ⊢
  obtain ⟨es, hmerged⟩ := mergedFrom_of_accepted hconfig
  obtain ⟨es', hmerged'⟩ := mergedFrom_of_accepted hconfig'
  have hsame := sameKey_of_own hroot hown hconfig hconfig' hkey
  constructor
  · intro leaf hleaf
    obtain ⟨covered, hcovered, name, made, covered', hmade, hcovered', hlocal, hmadeFor⟩ :=
      hholds.kept leaf hleaf
    obtain ⟨config'', hconfig'', -, rfl⟩ := handleConnection_eq_accepted hmade
    obtain ⟨es'', hmerged''⟩ := mergedFrom_of_accepted hconfig''
    rw [← hsame.certDomain] at hcovered
    have hkeyed := hlocal.trans (calculateCacheKey_congr hsame.keyed covered).symm
    obtain rfl := covered_eq_of_localKey hroot hown hconfig hconfig'' hcovered hcovered' hkeyed.symm
    exact ⟨covered, hcovered, hmadeFor.congr (sameKeyed_of_localKey hmerged'' hmerged hkeyed)⟩
  · intro hlocal
    rw [Option.isSome_iff_ne_none]
    intro hnone
    obtain ⟨hmode, hrequired⟩ := hholds.absent hnone
    rcases hlocal with hlocal | hword
    · exact hmode hlocal
    · obtain ⟨word, hword, hmem⟩ := (localWord_congr hmerged hmerged' hsame.keyed).mp hword
      apply hrequired
      simp only [handshakeOf]
      rw [hmerged'.requiredType_eq, if_pos ⟨word, hword, List.mem_cons_of_mem _ hmem⟩]

open X509

/-- Two hosts with a leaf in common, whose first has been visited before. -/
def visited : List Event :=
  [.handshake (some (js "self-signed--wrong-host.testserver.host")) none,
    .handshake (some (js "expired.testserver.host")) none, .leafGenerated 0 .empty,
    .factoryEnds 0 0,
    .handshake (some (js "self-signed--wrong-host--tls-v1-2.testserver.host")) none]

end TlsServer

end TestServer
