import TestServer.Endpoints.AcceptedParts
import TestServer.OwnNames

/-!
# What the secure-context cache key tells

The key of a secure context is the certificate key, a mark for an incomplete
chain, the sorted JSON of the TLS options and a mark for client certificates.
For hosts below one root domain it determines all of these. It does not name
`requiredType`, which only `untrusted-root` sets without another named option.
-/

namespace TestServer

open Js Library Endpoints TlsCertificates

/-- The secure contexts that the factories of two handshakes would build are interchangeable. -/
structure Interchangeable (a b : Handshake) : Prop where
  certDomain : a.certDomain = b.certDomain
  caSource : a.certOptions.requiredType = b.certOptions.requiredType
  shaping : { a.certOptions with requiredType := none } =
    { b.certOptions with requiredType := none }
  servedChain : a.certOptions.incompleteChain = b.certOptions.incompleteChain
  tlsOptions : ∀ key, a.tlsOptions.get key = b.tlsOptions.get key
  clientAuth : a.requireClientCert = b.requireClientCert

def chainText (certOptions : CertOptions) : JsString :=
  if certOptions.incompleteChain then js "|incomplete-chain" else []

def tlsText (tlsOptions : Record) : JsString :=
  if tlsOptions.keys.length > 0 then js "|" ++ stringifyObject (sortedMembers tlsOptions) else []

def clientText (requireClientCert : Bool) : JsString :=
  if requireClientCert then js "|client-cert" else []

theorem mem_sortedMembers {options : Record} {key : JsString} {value : JsValue} :
    (key, value) ∈ sortedMembers options ↔ options.get key = some value := by
  simp only [sortedMembers, List.mem_filterMap, List.mem_insertionSort,
    Option.map_eq_some_iff, Prod.mk.injEq]
  constructor
  · rintro ⟨k, _, v, hv, rfl, rfl⟩
    exact hv
  · intro h
    exact ⟨key, InsertionMap.mem_keys_iff.mpr ⟨value, h⟩, value, h, rfl, rfl⟩

theorem tlsText_cases (options : Record) :
    (options.keys = [] ∧ tlsText options = []) ∨
      tlsText options = js "|" ++ stringifyObject (sortedMembers options) := by
  simp only [tlsText]
  split_ifs with h
  · exact Or.inr rfl
  · exact Or.inl ⟨List.eq_nil_of_length_eq_zero (Nat.eq_zero_of_not_pos h), rfl⟩

theorem clientText_injective {r s : Bool} (h : clientText r = clientText s) : r = s := by
  cases r <;> cases s <;> first | rfl | exact absurd h (by decide)

theorem clientText_ne_object {r : Bool} {l : List (JsString × JsValue)} {t : JsString} :
    clientText r ≠ js "|" ++ stringifyObject l ++ t := by
  intro h
  cases r with
  | false => cases h
  | true => exact absurd (List.cons.inj (List.cons.inj h).2).1 (by decide)

/-- The TLS options and the client mark are read off the end of a key. -/
theorem tlsText_append_inj {a b : Record} {r s : Bool}
    (h : tlsText a ++ clientText r = tlsText b ++ clientText s) :
    (∀ key, a.get key = b.get key) ∧ r = s := by
  rcases tlsText_cases a with ⟨ha, ha'⟩ | ha
  · rcases tlsText_cases b with ⟨hb, hb'⟩ | hb
    · rw [ha', hb'] at h
      refine ⟨fun key => ?_, clientText_injective h⟩
      rw [InsertionMap.get_eq_none_iff.mpr (by simp [ha]),
        InsertionMap.get_eq_none_iff.mpr (by simp [hb])]
    · rw [ha', hb, List.nil_append] at h
      exact absurd h clientText_ne_object
  · rcases tlsText_cases b with ⟨hb, hb'⟩ | hb
    · rw [ha, hb', List.nil_append] at h
      exact absurd h.symm clientText_ne_object
    · rw [ha, hb, List.append_assoc, List.append_assoc] at h
      obtain ⟨hmembers, hclient⟩ := stringifyObject_append_inj (List.append_cancel_left h)
      refine ⟨fun key => Option.ext fun value => ?_, clientText_injective hclient⟩
      rw [← mem_sortedMembers, ← mem_sortedMembers, hmembers]

/-- What follows the certificate key does not look like the chain mark. -/
theorem chainMark_ne {options : Record} {r : Bool} {t : JsString} :
    js "|incomplete-chain" ++ t ≠ tlsText options ++ clientText r := by
  intro h
  rcases tlsText_cases options with ⟨_, htls⟩ | htls
  · rw [htls] at h
    cases r with
    | false => cases h
    | true => exact absurd (List.cons.inj (List.cons.inj h).2).1 (by decide)
  · rw [htls] at h
    exact absurd (List.cons.inj (List.cons.inj h).2).1 (by decide)

/-- The chain mark is read off the front of the text after the certificate key. -/
theorem chainText_append_inj {o o' : CertOptions} {a b : Record} {r s : Bool}
    (h : chainText o ++ (tlsText a ++ clientText r) =
      chainText o' ++ (tlsText b ++ clientText s)) :
    o.incompleteChain = o'.incompleteChain ∧
      tlsText a ++ clientText r = tlsText b ++ clientText s := by
  simp only [chainText] at h
  cases ho : o.incompleteChain <;> cases ho' : o'.incompleteChain <;>
    simp only [ho, ho', if_true, if_false, Bool.false_eq_true, List.nil_append] at h
  · exact ⟨rfl, h⟩
  · exact absurd h.symm chainMark_ne
  · exact absurd h chainMark_ne
  · exact ⟨rfl, List.append_cancel_left h⟩

/-- A text is empty or starts with a bar. -/
def Barred (x : JsString) : Prop := x = [] ∨ ∃ y, x = unit '|' :: y

theorem barred_append {x y : JsString} (hx : Barred x) (hy : Barred y) : Barred (x ++ y) := by
  rcases hx with rfl | ⟨z, rfl⟩
  · exact hy
  · exact Or.inr ⟨z ++ y, rfl⟩

theorem barred_afterCertKey (o : CertOptions) (options : Record) (r : Bool) :
    Barred (chainText o ++ (tlsText options ++ clientText r)) := by
  apply barred_append
  · simp only [chainText]
    split_ifs
    · exact Or.inr ⟨_, js_ofList _⟩
    · exact Or.inl rfl
  · apply barred_append
    · rcases tlsText_cases options with ⟨_, h⟩ | h
      · exact Or.inl h
      · exact Or.inr ⟨_, h⟩
    · cases r
      · exact Or.inl rfl
      · exact Or.inr ⟨_, js_ofList _⟩

theorem append_barred_inj {a b x y : JsString} (ha : unit '|' ∉ a) (hb : unit '|' ∉ b)
    (hx : Barred x) (hy : Barred y) (h : a ++ x = b ++ y) : a = b ∧ x = y := by
  rcases hx with rfl | ⟨x, rfl⟩
  · rcases hy with rfl | ⟨y, rfl⟩
    · exact ⟨by simpa using h, rfl⟩
    · rw [List.append_nil] at h
      exact absurd (h ▸ by simp) ha
  · rcases hy with rfl | ⟨y, rfl⟩
    · rw [List.append_nil] at h
      exact absurd (h ▸ by simp) hb
    · obtain ⟨hab, hxy⟩ := append_cons_inj ha hb h
      exact ⟨hab, by rw [hxy]⟩

def keySizeWords : List JsString :=
  [js "rsa512", js "rsa1024", js "rsa2048", js "rsa4096", js "rsa8192"]

/-- The words other than `untrusted-root` that make a certificate local. -/
def localWords : List JsString :=
  [js "self-signed", js "no-common-name", js "sha1-sig"] ++ keySizeWords

/-- The merged certificate options hold exactly what the named endpoints contribute. -/
structure MergedFrom (words : List JsString) (options : Record) (es : List TlsEndpoint) :
    Prop where
  named : namedEndpoints tlsEndpoints words = some es
  get : ∀ {key v}, fieldCombiner key = none →
    (options.get key = some v ↔ (key, v) ∈ certContributions es)

namespace MergedFrom

variable {words : List JsString} {options : Record} {es : List TlsEndpoint}

/-- The flags that a key names. -/
def flagNames : List JsString :=
  [js "expired", js "revoked", js "selfSigned", js "noCommonName", js "sha1Signature"]

/-- The flags that endpoints set are set to booleans. -/
theorem flags_contributed : ∀ e ∈ tlsEndpoints, ∀ c ∈ e.configureCertOptions,
    c.1 ∈ flagNames → c.2 = .bool true ∨ c.2 = .bool false := by
  decide +kernel

/-- The flags, each with the only word that sets it. -/
def flagWords : List (JsString × JsString) :=
  [(js "expired", js "expired"), (js "revoked", js "revoked"),
    (js "selfSigned", js "self-signed"), (js "noCommonName", js "no-common-name"),
    (js "sha1Signature", js "sha1-sig")]

theorem flagWords_contributed : ∀ e ∈ tlsEndpoints, ∀ p ∈ flagWords,
    (∃ c ∈ e.configureCertOptions, c = (p.1, .bool true)) ↔ e.sniPart ∈ [p.2] := by
  decide +kernel

/-- A flag is true when its word contributes it as true. -/
theorem flag_iff (h : MergedFrom words options es) {key word : JsString}
    (hkey : fieldCombiner key = none) (hword : (key, word) ∈ flagWords) :
    flag options key = true ↔ word ∈ words := by
  have hset : (∃ c ∈ certContributions es, c = (key, .bool true)) ↔ ∃ w ∈ words, w ∈ [word] :=
    exists_contribution_iff (fun e he => flagWords_contributed e he _ hword) h.named
  simp only [exists_eq_right, List.mem_singleton] at hset
  rw [← hset, ← h.get hkey, flag]
  cases hget : options.get key with
  | none => simp
  | some v =>
      have hflag : key ∈ flagNames := List.mem_map_of_mem (f := Prod.fst) hword
      have hv : v = .bool true ∨ v = .bool false :=
        forall_contribution flags_contributed h.named _ ((h.get hkey).mp hget) hflag
      rcases hv with rfl | rfl <;> simp [JsValue.truthy]

theorem expired_iff (h : MergedFrom words options es) :
    (CertOptions.ofRecord options).expired = true ↔ js "expired" ∈ words :=
  h.flag_iff (by decide) (by decide)

theorem revoked_iff (h : MergedFrom words options es) :
    (CertOptions.ofRecord options).revoked = true ↔ js "revoked" ∈ words :=
  h.flag_iff (by decide) (by decide)

theorem selfSigned_iff (h : MergedFrom words options es) :
    (CertOptions.ofRecord options).selfSigned = true ↔ js "self-signed" ∈ words :=
  h.flag_iff (by decide) (by decide)

theorem noCommonName_iff (h : MergedFrom words options es) :
    (CertOptions.ofRecord options).noCommonName = true ↔ js "no-common-name" ∈ words :=
  h.flag_iff (by decide) (by decide)

theorem sha1Signature_iff (h : MergedFrom words options es) :
    (CertOptions.ofRecord options).sha1Signature = true ↔ js "sha1-sig" ∈ words :=
  h.flag_iff (by decide) (by decide)

/-- The key sizes that endpoints set are positive numbers. -/
theorem keyBits_contributed : ∀ e ∈ tlsEndpoints, ∀ c ∈ e.configureCertOptions,
    c.1 = js "keyBits" → ∃ n ∈ [512, 1024, 2048, 4096, 8192], c.2 = .num n := by
  decide +kernel

/-- A key size is set, and is not zero, when a word sets it. -/
theorem keyBits_cases (h : MergedFrom words options es) :
    ((CertOptions.ofRecord options).keyBits = none ∧ ¬ ∃ w ∈ words, w ∈ keySizeWords) ∨
      ∃ n, n ≠ 0 ∧ (CertOptions.ofRecord options).keyBits = some n ∧
        ∃ w ∈ words, w ∈ keySizeWords := by
  have hwords : (∃ c ∈ certContributions es, c.1 = js "keyBits") ↔
      ∃ w ∈ words, w ∈ keySizeWords :=
    exists_contribution_iff (by decide +kernel) h.named
  rw [← hwords]
  simp only [CertOptions.ofRecord]
  cases hget : options.get (js "keyBits") with
  | none =>
      left
      refine ⟨rfl, ?_⟩
      rintro ⟨⟨key, v⟩, hc, rfl⟩
      rw [← h.get (by decide), hget] at hc
      cases hc
  | some v =>
      right
      have hc := (h.get (by decide)).mp hget
      obtain ⟨n, hn, rfl⟩ : ∃ n ∈ [512, 1024, 2048, 4096, 8192], v = .num n :=
        forall_contribution keyBits_contributed h.named _ hc rfl
      refine ⟨n.toNat, ?_, rfl, _, hc, rfl⟩
      have hpos : ∀ n ∈ [512, 1024, 2048, 4096, 8192], Int.toNat n ≠ 0 := by
        decide
      exact hpos n hn

theorem leafKeyBits_eq (h : MergedFrom words options es) :
    (CertOptions.ofRecord options).leafKeyBits = (CertOptions.ofRecord options).keyBits := by
  rcases h.keyBits_cases with ⟨hnone, _⟩ | ⟨n, hn, hsome, _⟩
  · rw [CertOptions.leafKeyBits, hnone]
    rfl
  · rw [CertOptions.leafKeyBits, hsome]
    simp [hn]

theorem leafKeyBits_isSome_iff (h : MergedFrom words options es) :
    (CertOptions.ofRecord options).leafKeyBits.isSome = true ↔ ∃ w ∈ words, w ∈ keySizeWords := by
  rw [h.leafKeyBits_eq]
  rcases h.keyBits_cases with ⟨hnone, hwords⟩ | ⟨n, _, hsome, hwords⟩
  · simp only [hnone, hwords, Option.isSome_none, Bool.false_eq_true]
  · simp only [hsome, hwords, Option.isSome_some]

/-- The only override prefix that an endpoint sets is `example`. -/
theorem overridePrefix_cases (h : MergedFrom words options es) :
    (CertOptions.ofRecord options).overridePrefix = none ∨
      (CertOptions.ofRecord options).overridePrefix = some (js "example") := by
  have htable : ∀ e ∈ tlsEndpoints, ∀ c ∈ e.configureCertOptions,
      c.1 = js "overridePrefix" → c.2 = .str (js "example") := by
    decide +kernel
  simp only [CertOptions.ofRecord]
  cases hget : options.get (js "overridePrefix") with
  | none => exact Or.inl rfl
  | some v =>
      have hv : v = .str (js "example") :=
        forall_contribution htable h.named _ ((h.get (by decide)).mp hget) rfl
      rw [hv]
      exact Or.inr rfl

theorem override_eq (h : MergedFrom words options es) :
    (CertOptions.ofRecord options).override = (CertOptions.ofRecord options).overridePrefix := by
  rcases h.overridePrefix_cases with hnone | hsome
  · rw [CertOptions.override, hnone]
    rfl
  · rw [CertOptions.override, hsome]
    rfl

/-- A certificate is local when a word says so, and of no required type otherwise. -/
theorem requiredType_eq (h : MergedFrom words options es) :
    (CertOptions.ofRecord options).requiredType =
      if ∃ w ∈ words, w ∈ js "untrusted-root" :: localWords then some .local else none := by
  have htable : ∀ e ∈ tlsEndpoints, ∀ c ∈ e.configureCertOptions,
      c.1 = js "requiredType" → c.2 = .str (js "local") := by
    decide +kernel
  have hwords : (∃ c ∈ certContributions es, c.1 = js "requiredType") ↔
      ∃ w ∈ words, w ∈ js "untrusted-root" :: localWords :=
    exists_contribution_iff (by decide +kernel) h.named
  simp only [← hwords, CertOptions.ofRecord]
  cases hget : options.get (js "requiredType") with
  | none =>
      rw [if_neg]
      · rfl
      · rintro ⟨⟨key, v⟩, hc, rfl⟩
        rw [← h.get (by decide), hget] at hc
        cases hc
  | some v =>
      have hc := (h.get (by decide)).mp hget
      have hv : v = .str (js "local") := forall_contribution htable h.named _ hc rfl
      rw [if_pos ⟨_, hc, rfl⟩, hv]
      rfl

/-- Key parts are nonempty and contain neither separator of the key. -/
theorem certKeyParts_plain (h : MergedFrom words options es) :
    ∀ x ∈ certKeyParts (CertOptions.ofRecord options),
      x ≠ [] ∧ unit '+' ∉ x ∧ unit '|' ∉ x := by
  have hoverride {c : UInt16} (hc : c ∉ js "example") :
      ∀ p ∈ (CertOptions.ofRecord options).override, c ∉ p := by
    intro p hp
    rw [h.override_eq] at hp
    rcases h.overridePrefix_cases with hnone | hsome
    · rw [hnone] at hp
      cases hp
    · rw [hsome] at hp
      obtain rfl : js "example" = p := Option.some.inj hp
      exact hc
  intro x hx
  exact ⟨certKeyParts_ne_nil x hx,
    notMem_certKeyParts (by decide) (by decide) (hoverride (by decide)) x hx,
    notMem_certKeyParts (by decide) (by decide) (hoverride (by decide)) x hx⟩

end MergedFrom

/-- What an accepted handshake was merged from. -/
theorem accepted_mergedFrom {rootDomain : JsString} {serverName : Option JsString}
    {a : Handshake} (haccepted : handleConnection rootDomain serverName = .accepted a) :
    ∃ config es, a = handshakeOf rootDomain (requestedDomain rootDomain serverName)
        (getSNIPrefixParts (requestedDomain rootDomain serverName) rootDomain) config ∧
      MergedFrom (getSNIPrefixParts (requestedDomain rootDomain serverName) rootDomain)
        config.certOptions es := by
  obtain ⟨config, hconfig, _, ha⟩ := handleConnection_eq_accepted haccepted
  obtain ⟨es, m, haccept, rfl, hcert, _⟩ := endpointConfigOf_eq_ok hconfig
  refine ⟨_, es, ha, haccept.named, fun hkey => ?_⟩
  exact mergeContribution_get hcert hkey

/-- A unit that is in no endpoint word and no separator is in no text made of them. -/
theorem notMem_stem {c : UInt16} (htable : ∀ e ∈ tlsEndpoints, c ∉ e.sniPart)
    (hdashes : c ∉ js "--") (hdot : c ∉ js ".") {stem : JsString} {es : List TlsEndpoint}
    (h : namedEndpoints tlsEndpoints (stemParts stem) = some es) : c ∉ stem := by
  obtain ⟨hmem, hnames⟩ := namedEndpoints_eq_some h
  have hwords : ∀ w ∈ stemParts stem, c ∉ w := by
    rw [← hnames]
    intro w hw
    obtain ⟨e, he, rfl⟩ := List.mem_map.mp hw
    exact htable e (hmem e he)
  obtain ⟨sep, hsep, hjoin⟩ := join_stemParts stem
  rw [← hjoin]
  intro hin
  rcases mem_join hin with ⟨w, hw, hc⟩ | hc
  · exact hwords w hw hc
  · rcases hsep with rfl | rfl
    · exact hdashes hc
    · exact hdot hc

/-- Endpoint words contain no plus sign, and so does a text made of them. -/
theorem plus_notMem_stem {stem : JsString} {es : List TlsEndpoint}
    (h : namedEndpoints tlsEndpoints (stemParts stem) = some es) : unit '+' ∉ stem :=
  notMem_stem (by decide) (by decide) (by decide) h

/-- An own host is requested under its own name. -/
theorem requestedDomain_of_own {rootDomain host : JsString} (h : Own rootDomain host) :
    requestedDomain rootDomain (some host) = host := by
  simp only [requestedDomain]
  split_ifs with hnil
  · rcases h with heq | ⟨p, hp⟩
    · exact heq.symm
    · rw [hnil] at hp
      simp [js, codeUnits] at hp
  · rfl

/-- The certificate domain of an accepted own host is the root domain after a text without
plus signs. -/
theorem certDomain_below {rootDomain host : JsString} {config : EndpointConfig}
    {es : List TlsEndpoint} (hown : Own rootDomain host)
    (hmerged : MergedFrom (getSNIPrefixParts host rootDomain) config.certOptions es) :
    ∃ stem, certDomainOf rootDomain host (CertOptions.ofRecord config.certOptions) =
      stem ++ rootDomain ∧ unit '+' ∉ stem := by
  simp only [certDomainOf]
  split
  · next p hp =>
      rw [hmerged.override_eq] at hp
      rcases hmerged.overridePrefix_cases with hnone | hsome
      · rw [hnone] at hp
        cases hp
      · rw [hsome, Option.some.injEq] at hp
        subst hp
        exact ⟨js "example" ++ js ".", rfl, by decide⟩
  · rcases hown with heq | ⟨p, hp⟩
    · exact ⟨[], heq, by simp⟩
    · have hname := hmerged.named
      rw [← hp, show p ++ (js "." ++ rootDomain) = p ++ unit '.' :: rootDomain from rfl,
        getSNIPrefixParts_below] at hname
      refine ⟨p ++ js ".", by rw [← hp, List.append_assoc], ?_⟩
      rw [List.mem_append, not_or]
      exact ⟨plus_notMem_stem hname, by decide⟩

theorem cacheKey_handshakeOf (rootDomain domain : JsString) (parts : List JsString)
    (config : EndpointConfig) :
    (handshakeOf rootDomain domain parts config).cacheKey =
      (handshakeOf rootDomain domain parts config).certDomain ++ unit '+' ::
        (join [unit '+'] (certKeyParts (CertOptions.ofRecord config.certOptions)) ++
          (chainText (CertOptions.ofRecord config.certOptions) ++
            (tlsText config.tlsOptions ++ clientText config.requireClientCert))) := by
  simp only [handshakeOf, calculateContextCacheKey, calculateCertCacheKey, chainText, tlsText,
    clientText, List.append_assoc]
  rfl

/-- Everything that the key of a secure context tells. -/
structure SameKey (a b : Handshake) : Prop where
  certDomain : a.certDomain = b.certDomain
  keyed : SameKeyed a.certOptions b.certOptions
  servedChain : a.certOptions.incompleteChain = b.certOptions.incompleteChain
  tlsOptions : ∀ key, a.tlsOptions.get key = b.tlsOptions.get key
  clientAuth : a.requireClientCert = b.requireClientCert

/-- The key is read from the front: certificate domain, key parts, marks and TLS options. -/
theorem sameKey_of_cacheKey_eq {rootDomain host₁ host₂ : JsString}
    {config₁ config₂ : EndpointConfig} {es₁ es₂ : List TlsEndpoint}
    (hown₁ : Own rootDomain host₁) (hown₂ : Own rootDomain host₂)
    (hmerged₁ : MergedFrom (getSNIPrefixParts host₁ rootDomain) config₁.certOptions es₁)
    (hmerged₂ : MergedFrom (getSNIPrefixParts host₂ rootDomain) config₂.certOptions es₂)
    (hkey : (handshakeOf rootDomain host₁ (getSNIPrefixParts host₁ rootDomain) config₁).cacheKey =
      (handshakeOf rootDomain host₂ (getSNIPrefixParts host₂ rootDomain) config₂).cacheKey) :
    SameKey (handshakeOf rootDomain host₁ (getSNIPrefixParts host₁ rootDomain) config₁)
      (handshakeOf rootDomain host₂ (getSNIPrefixParts host₂ rootDomain) config₂) := by
  obtain ⟨stem₁, hstem₁, hplus₁⟩ := certDomain_below hown₁ hmerged₁
  obtain ⟨stem₂, hstem₂, hplus₂⟩ := certDomain_below hown₂ hmerged₂
  have hplain₁ := hmerged₁.certKeyParts_plain
  have hplain₂ := hmerged₂.certKeyParts_plain
  rw [cacheKey_handshakeOf, cacheKey_handshakeOf] at hkey
  simp only [handshakeOf] at hkey ⊢
  rw [hstem₁, hstem₂, List.append_assoc, List.append_assoc] at hkey
  obtain ⟨hstem, hrest⟩ := append_common_inj hplus₁ hplus₂ hkey
  have hnobar {options : CertOptions}
      (h : ∀ x ∈ certKeyParts options, x ≠ [] ∧ unit '+' ∉ x ∧ unit '|' ∉ x) :
      unit '|' ∉ join [unit '+'] (certKeyParts options) := by
    intro hmem
    rcases mem_join hmem with ⟨x, hx, hc⟩ | hc
    · exact (h x hx).2.2 hc
    · exact absurd hc (by decide)
  obtain ⟨hjoin, htail⟩ := append_barred_inj (hnobar hplain₁) (hnobar hplain₂)
    (barred_afterCertKey _ _ _) (barred_afterCertKey _ _ _) hrest
  obtain ⟨hchain, htail⟩ := chainText_append_inj htail
  obtain ⟨htls, hclient⟩ := tlsText_append_inj htail
  have hparts := join_injective (fun x hx => ⟨(hplain₁ x hx).1, (hplain₁ x hx).2.1⟩)
    (fun x hx => ⟨(hplain₂ x hx).1, (hplain₂ x hx).2.1⟩) hjoin
  constructor
  · rw [hstem₁, hstem₂, hstem]
  · exact sameKeyed_of_certKeyParts_eq hparts
  · exact hchain
  · exact htls
  · exact hclient

/-- Exactly one of two hosts names `untrusted-root`, and neither names another word that makes
its certificate local. -/
def UntrustedClash (p q : List JsString) : Prop :=
  ¬ (js "untrusted-root" ∈ p ↔ js "untrusted-root" ∈ q) ∧
    ∀ w ∈ localWords, w ∉ p ∧ w ∉ q

instance (p q : List JsString) : Decidable (UntrustedClash p q) :=
  inferInstanceAs (Decidable (_ ∧ _))

/-- Of the words that make a certificate local, all but `untrusted-root` show in the key. -/
theorem localWord_iff {words : List JsString} {options : Record} {es : List TlsEndpoint}
    (h : MergedFrom words options es) :
    (∃ w ∈ words, w ∈ localWords) ↔
      (CertOptions.ofRecord options).selfSigned = true ∨
      (CertOptions.ofRecord options).noCommonName = true ∨
      (CertOptions.ofRecord options).sha1Signature = true ∨
      (CertOptions.ofRecord options).leafKeyBits.isSome = true := by
  rw [h.selfSigned_iff, h.noCommonName_iff, h.sha1Signature_iff, h.leafKeyBits_isSome_iff]
  simp only [localWords, List.cons_append, List.nil_append, List.mem_cons]
  constructor
  · rintro ⟨w, hw, rfl | rfl | rfl | hsize⟩
    · exact Or.inl hw
    · exact Or.inr (Or.inl hw)
    · exact Or.inr (Or.inr (Or.inl hw))
    · exact Or.inr (Or.inr (Or.inr ⟨w, hw, hsize⟩))
  · rintro (hw | hw | hw | ⟨w, hw, hsize⟩)
    · exact ⟨_, hw, Or.inl rfl⟩
    · exact ⟨_, hw, Or.inr (Or.inl rfl)⟩
    · exact ⟨_, hw, Or.inr (Or.inr (Or.inl rfl))⟩
    · exact ⟨w, hw, Or.inr (Or.inr (Or.inr hsize))⟩

theorem localWord_congr {words words' : List JsString} {options options' : Record}
    {es es' : List TlsEndpoint} (h : MergedFrom words options es)
    (h' : MergedFrom words' options' es')
    (hkeyed : SameKeyed (CertOptions.ofRecord options) (CertOptions.ofRecord options')) :
    (∃ w ∈ words, w ∈ localWords) ↔ ∃ w ∈ words', w ∈ localWords := by
  rw [localWord_iff h, localWord_iff h', hkeyed.selfSigned, hkeyed.noCommonName,
    hkeyed.sha1Signature, hkeyed.leafKeyBits]

/-- Under equal keys the source of the certificate agrees unless the hosts clash. -/
theorem requiredType_eq_iff {words words' : List JsString} {options options' : Record}
    {es es' : List TlsEndpoint} (h : MergedFrom words options es)
    (h' : MergedFrom words' options' es')
    (hkeyed : SameKeyed (CertOptions.ofRecord options) (CertOptions.ofRecord options')) :
    (CertOptions.ofRecord options).requiredType = (CertOptions.ofRecord options').requiredType ↔
      ¬ UntrustedClash words words' := by
  have hlocal := localWord_congr h h' hkeyed
  have hsplit (ws : List JsString) :
      (∃ w ∈ ws, w ∈ js "untrusted-root" :: localWords) ↔
        js "untrusted-root" ∈ ws ∨ ∃ w ∈ ws, w ∈ localWords := by
    simp only [List.mem_cons, and_or_left, exists_or, exists_eq_right]
  have hnone : (∀ w ∈ localWords, w ∉ words ∧ w ∉ words') ↔
      ¬ (∃ w ∈ words, w ∈ localWords) ∧ ¬ ∃ w ∈ words', w ∈ localWords := by
    constructor
    · intro hall
      exact ⟨fun ⟨w, hw, hl⟩ => (hall w hl).1 hw, fun ⟨w, hw, hl⟩ => (hall w hl).2 hw⟩
    · rintro ⟨h₁, h₂⟩ w hl
      exact ⟨fun hw => h₁ ⟨w, hw, hl⟩, fun hw => h₂ ⟨w, hw, hl⟩⟩
  rw [h.requiredType_eq, h'.requiredType_eq, UntrustedClash, hnone]
  simp only [hsplit, ← hlocal]
  by_cases hword : ∃ w ∈ words, w ∈ localWords
  · simp only [hword, or_true, if_true, not_true, and_false, not_false_eq_true]
  · simp only [hword, or_false, not_false_eq_true, and_self, and_true, not_not]
    by_cases hp : js "untrusted-root" ∈ words <;> by_cases hq : js "untrusted-root" ∈ words' <;>
      simp [hp, hq]

/-- Under equal keys all options but the source of the certificate agree. -/
theorem shaping_eq {words words' : List JsString} {options options' : Record}
    {es es' : List TlsEndpoint} (h : MergedFrom words options es)
    (h' : MergedFrom words' options' es')
    (hkeyed : SameKeyed (CertOptions.ofRecord options) (CertOptions.ofRecord options'))
    (hchain : (CertOptions.ofRecord options).incompleteChain =
      (CertOptions.ofRecord options').incompleteChain) :
    { CertOptions.ofRecord options with requiredType := none } =
      { CertOptions.ofRecord options' with requiredType := none } := by
  have hoverride : (CertOptions.ofRecord options).overridePrefix =
      (CertOptions.ofRecord options').overridePrefix := by
    rw [← h.override_eq, ← h'.override_eq, hkeyed.override]
  have hkeyBits : (CertOptions.ofRecord options).keyBits =
      (CertOptions.ofRecord options').keyBits := by
    rw [← h.leafKeyBits_eq, ← h'.leafKeyBits_eq, hkeyed.leafKeyBits]
  rw [CertOptions.mk.injEq]
  exact ⟨rfl, hkeyed.expired, hkeyed.revoked, hkeyed.selfSigned, hoverride, hkeyed.noCommonName,
    hkeyBits, hkeyed.sha1Signature, hchain⟩

/-- Two accepted hosts with the same cache key have interchangeable contexts exactly when they
do not differ in `untrusted-root` alone. -/
theorem interchangeable_iff {rootDomain host₁ host₂ : JsString} {a b : Handshake}
    (hown₁ : Own rootDomain host₁) (hown₂ : Own rootDomain host₂)
    (ha : handleConnection rootDomain (some host₁) = .accepted a)
    (hb : handleConnection rootDomain (some host₂) = .accepted b)
    (hkey : a.cacheKey = b.cacheKey) :
    Interchangeable a b ↔
      ¬ UntrustedClash (getSNIPrefixParts host₁ rootDomain)
        (getSNIPrefixParts host₂ rootDomain) := by
  obtain ⟨config₁, es₁, rfl, hmerged₁⟩ := accepted_mergedFrom ha
  obtain ⟨config₂, es₂, rfl, hmerged₂⟩ := accepted_mergedFrom hb
  rw [requestedDomain_of_own hown₁] at hmerged₁ hkey ⊢
  rw [requestedDomain_of_own hown₂] at hmerged₂ hkey ⊢
  have hsame := sameKey_of_cacheKey_eq hown₁ hown₂ hmerged₁ hmerged₂ hkey
  rw [← requiredType_eq_iff hmerged₁ hmerged₂ hsame.keyed]
  constructor
  · intro h
    exact h.caSource
  · intro hsource
    refine ⟨hsame.certDomain, hsource, ?_, hsame.servedChain, hsame.tlsOptions, hsame.clientAuth⟩
    exact shaping_eq hmerged₁ hmerged₂ hsame.keyed hsame.servedChain

/-- `example` contributes nothing, so it shares the context of `wrong-host`. -/
theorem interchangeable_example_wrong_host : ∃ a b,
    handleConnection (js "t") (some (js "wrong-host.t")) = .accepted a ∧
      handleConnection (js "t") (some (js "example--wrong-host.t")) = .accepted b ∧
      Interchangeable a b := by
  obtain ⟨a, ha⟩ : ∃ a, handleConnection (js "t") (some (js "wrong-host.t")) = .accepted a :=
    ⟨_, rfl⟩
  obtain ⟨b, hb⟩ : ∃ b, handleConnection (js "t") (some (js "example--wrong-host.t")) =
      .accepted b := ⟨_, rfl⟩
  have hkey : (handleConnection (js "t") (some (js "wrong-host.t"))).handshake.map
        Handshake.cacheKey =
      (handleConnection (js "t") (some (js "example--wrong-host.t"))).handshake.map
        Handshake.cacheKey := by
    decide +kernel
  rw [ha, hb] at hkey
  refine ⟨a, b, ha, hb, ?_⟩
  apply (interchangeable_iff (by decide) (by decide) ha hb (Option.some.inj hkey)).mpr
  decide

/-- The context of `wrong-host` and the local one of `wrong-host--untrusted-root` share a key. -/
theorem not_interchangeable_wrong_host_untrusted_root : ∃ a b,
    handleConnection (js "testserver.host") (some (js "wrong-host.testserver.host")) =
        .accepted a ∧
      handleConnection (js "testserver.host")
        (some (js "wrong-host--untrusted-root.testserver.host")) = .accepted b ∧
      a.cacheKey = b.cacheKey ∧ ¬ Interchangeable a b := by
  obtain ⟨a, ha⟩ : ∃ a, handleConnection (js "testserver.host")
      (some (js "wrong-host.testserver.host")) = .accepted a := ⟨_, rfl⟩
  obtain ⟨b, hb⟩ : ∃ b, handleConnection (js "testserver.host")
      (some (js "wrong-host--untrusted-root.testserver.host")) = .accepted b := ⟨_, rfl⟩
  have hkey : (handleConnection (js "testserver.host")
        (some (js "wrong-host.testserver.host"))).handshake.map Handshake.cacheKey =
      (handleConnection (js "testserver.host")
        (some (js "wrong-host--untrusted-root.testserver.host"))).handshake.map
          Handshake.cacheKey := by
    decide +kernel
  have hsource : (handleConnection (js "testserver.host")
        (some (js "wrong-host.testserver.host"))).handshake.map (·.certOptions.requiredType) ≠
      (handleConnection (js "testserver.host")
        (some (js "wrong-host--untrusted-root.testserver.host"))).handshake.map
          (·.certOptions.requiredType) := by
    decide +kernel
  rw [ha, hb] at hkey hsource
  refine ⟨a, b, ha, hb, Option.some.inj hkey, ?_⟩
  intro h
  exact hsource (congrArg some h.caSource)

end TestServer
