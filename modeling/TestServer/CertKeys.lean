import TestServer.CertRequests

/-!
# The keys of certificates

AcmeCA and the local CA find what they have by a key. A key that is made for a
host of the server is made for no other domain, whatever names the clients
send, and so what is found under it was asked for with the name that covers
the host.
-/

namespace TestServer

open Js Library Endpoints TlsCertificates

variable {rootDomain domain : JsString} {certOptions : CertOptions}

/-- The parts of a certificate key or of a key of the local CA. -/
structure KeyParts (parts : List JsString) (certOptions : CertOptions) : Prop where
  sublist : parts.Sublist (certKeyParts certOptions)
  flags : flagParts certOptions ⊆ parts

/-- The parts that a key of the local CA lists. -/
def localKeyParts (options : CertOptions) : List JsString :=
  flagParts options ++
    match options.leafKeyBits with
    | some n => [js "keyBits=" ++ decimal n]
    | none => []

theorem keyParts_cert (options : CertOptions) : KeyParts (certKeyParts options) options where
  sublist := List.Sublist.refl _
  flags := by
    intro part hpart
    rw [certKeyParts, List.append_assoc]
    exact List.mem_append_left _ hpart

theorem keyParts_local (options : CertOptions) : KeyParts (localKeyParts options) options where
  sublist := by
    rw [localKeyParts, certKeyParts, List.append_assoc]
    apply List.Sublist.append_left
    exact List.sublist_append_right ..
  flags := by
    intro part hpart
    exact List.mem_append_left _ hpart

theorem calculateCertCacheKey_eq (domain : JsString) (options : CertOptions) :
    calculateCertCacheKey domain options =
      domain ++ unit '+' :: join [unit '+'] (certKeyParts options) := by
  rw [calculateCertCacheKey, List.append_assoc]
  rfl

theorem calculateCacheKey_eq (domain : JsString) (options : CertOptions) :
    calculateCacheKey domain options =
      domain ++ unit '+' :: join [unit '+'] (localKeyParts options) := by
  rw [calculateCacheKey, List.append_assoc]
  rfl

/-- The first units of the parts tell them apart. -/
theorem certKeyParts_nodup (options : CertOptions) : (certKeyParts options).Nodup := by
  apply List.Nodup.of_map (List.take 3)
  have htags : ((certKeyParts options).map (List.take 3)).Sublist
      [js "exp", js "rev", js "sel", js "noC", js "sha", js "ove", js "key"] := by
    have hflag (b : Bool) (text : JsString) :
        ((if b then [text] else []).map (List.take 3)).Sublist [text.take 3] := by
      cases b with
      | false => exact List.nil_sublist _
      | true => exact List.Sublist.refl _
    have hflags := ((((hflag options.expired (js "expired")).append
      (hflag options.revoked (js "revoked"))).append
      (hflag options.selfSigned (js "selfSigned"))).append
      (hflag options.noCommonName (js "noCommonName"))).append
      (hflag options.sha1Signature (js "sha1Signature"))
    rw [certKeyParts, flagParts]
    simp only [List.map_append]
    change List.Sublist _ (([js "exp", js "rev", js "sel", js "noC", js "sha"] ++ [js "ove"]) ++
      [js "key"])
    refine (hflags.append ?_).append ?_
    · cases options.override with
      | none => exact List.nil_sublist _
      | some p => exact List.Sublist.refl _
    · cases options.leafKeyBits with
      | none => exact List.nil_sublist _
      | some n => exact List.Sublist.refl _
  exact htags.nodup (by decide)

/-- Without an override, a part is the name of a flag or a key size. -/
theorem part_cases {options : CertOptions} (hoverride : options.override = none) {part : JsString}
    (hpart : part ∈ certKeyParts options) :
    part ∈ [js "expired", js "revoked", js "selfSigned", js "noCommonName", js "sha1Signature"] ∨
      ∃ n, part = js "keyBits=" ++ decimal n := by
  rcases mem_certKeyParts.mp hpart with
    ⟨-, rfl⟩ | ⟨-, rfl⟩ | ⟨-, rfl⟩ | ⟨-, rfl⟩ | ⟨-, rfl⟩ | ⟨p, hp, -⟩ | ⟨n, -, hn⟩
  · exact .inl (by decide)
  · exact .inl (by decide)
  · exact .inl (by decide)
  · exact .inl (by decide)
  · exact .inl (by decide)
  · rw [hoverride] at hp
    cases hp
  · exact .inr ⟨n, hn⟩

/-- The pieces of what follows a separator are pieces behind the first. -/
theorem split_subset_tail (c : UInt16) (a b : JsString) :
    split b [c] ⊆ (split (a ++ c :: b) [c]).tail := by
  rw [split_append_cons_append]
  exact List.subset_append_right (splitPieces [c] 0 a).2 (split b [c])

/-- A word that ends a text of endpoint words is one of them. -/
theorem mem_stemParts_of_ends {word stem : JsString} {es : List TlsEndpoint} (hne : word ≠ [])
    (hdot : unit '.' ∉ word) (hdash : unit '-' ∉ word)
    (hends : stem = word ∨ ∃ front, stem = front ++ js "." ++ word)
    (hnamed : namedEndpoints tlsEndpoints (stemParts stem) = some es) :
    word ∈ stemParts stem := by
  have hnil : stem ≠ [] := by
    rcases hends with rfl | ⟨front, rfl⟩
    · exact hne
    · exact List.append_ne_nil_of_right_ne_nil _ hne
  have hdots : ∀ part ∈ stemParts stem, unit '.' ∉ part := by
    have htable : ∀ e ∈ tlsEndpoints, unit '.' ∉ e.sniPart := by decide
    obtain ⟨hmem, hnames⟩ := namedEndpoints_eq_some hnamed
    rw [← hnames]
    intro part hpart
    obtain ⟨e, he, rfl⟩ := List.mem_map.mp hpart
    exact htable e (hmem e he)
  by_cases hdashes : includes stem (js "--") = true
  · -- Parts between dashes have no dots, and the word has no dashes.
    exfalso
    have hparts : stemParts stem = split stem (js "--") := by
      rw [stemParts, if_neg hnil, if_pos hdashes]
    rw [hparts] at hdots
    have hnoDot : unit '.' ∉ stem := by
      intro hin
      rw [← join_split (js_ne_nil (by decide) : js "--" ≠ []) stem] at hin
      rcases mem_join hin with ⟨part, hpart, hc⟩ | hc
      · exact hdots part hpart hc
      · exact absurd hc (by decide)
    rcases hends with rfl | ⟨front, rfl⟩
    · exact hdash ((includes_iff.mp hdashes).subset List.mem_cons_self)
    · apply hnoDot
      exact List.mem_append_left _ (List.mem_append_right _ (List.mem_singleton_self _))
  · have hparts : stemParts stem = split stem (js ".") := by
      rw [stemParts, if_neg hnil, if_neg hdashes]
    rw [hparts]
    have huncut : split word (js ".") = [word] := split_uncut (uncut_of_notMem hdot)
    have hmem : word ∈ split word (js ".") := by
      rw [huncut]
      exact List.mem_singleton_self word
    rcases hends with rfl | ⟨front, rfl⟩
    · exact hmem
    · rw [List.append_assoc]
      exact List.mem_of_mem_tail (split_subset_tail (unit '.') front word hmem)

/-- The names of two flags are also endpoint words, which set them. -/
theorem mem_flagParts_of_word {words : List JsString} {options : Record} {es : List TlsEndpoint}
    (h : MergedFrom words options es) {word : JsString}
    (hword : word = js "expired" ∨ word = js "revoked") (hmem : word ∈ words) :
    word ∈ flagParts (CertOptions.ofRecord options) := by
  rcases hword with rfl | rfl
  · have hexpired : (CertOptions.ofRecord options).expired = true := h.expired_iff.mpr hmem
    simp only [flagParts, hexpired, if_true, List.mem_append, List.mem_singleton, true_or]
  · have hrevoked : (CertOptions.ofRecord options).revoked = true := h.revoked_iff.mpr hmem
    simp only [flagParts, hrevoked, if_true, List.mem_append, List.mem_singleton, true_or, or_true]

/-- A key part of a host without override has neither separators of names nor plus signs. -/
theorem part_plain {options : CertOptions} (hoverride : options.override = none) {part : JsString}
    (hpart : part ∈ certKeyParts options) :
    part ≠ [] ∧ unit '+' ∉ part ∧ unit '.' ∉ part ∧ unit '-' ∉ part := by
  have hnone {c : UInt16} : ∀ p ∈ options.override, c ∉ p := by
    rw [hoverride]
    rintro p ⟨⟩
  exact ⟨certKeyParts_ne_nil part hpart, notMem_certKeyParts (by decide) (by decide) hnone _ hpart,
    notMem_certKeyParts (by decide) (by decide) hnone _ hpart,
    notMem_certKeyParts (by decide) (by decide) hnone _ hpart⟩

/-- Only two key parts are endpoint words. -/
theorem part_of_word {options : CertOptions} (hoverride : options.override = none)
    {part : JsString} (hpart : part ∈ certKeyParts options) {words : List JsString}
    {es : List TlsEndpoint} (hnamed : namedEndpoints tlsEndpoints words = some es)
    (hword : part ∈ words) : part = js "expired" ∨ part = js "revoked" := by
  obtain ⟨hmem, hnames⟩ := namedEndpoints_eq_some hnamed
  rw [← hnames] at hword
  obtain ⟨e, he, rfl⟩ := List.mem_map.mp hword
  have htable : ∀ e ∈ tlsEndpoints, unit '=' ∉ e.sniPart ∧
      e.sniPart ∉ [js "selfSigned", js "noCommonName", js "sha1Signature"] := by
    decide
  obtain ⟨hequals, hflags⟩ := htable e (hmem e he)
  rcases part_cases hoverride hpart with hpart | ⟨n, hn⟩
  · rcases List.mem_cons.mp hpart with h | hpart
    · exact .inl h
    · rcases List.mem_cons.mp hpart with h | hpart
      · exact .inr h
      · exact absurd hpart hflags
  · rw [hn] at hequals
    exact absurd (List.mem_append_left _ (by decide)) hequals

/-- The key of a host does not go on as that of a name with a plus sign before the root domain
does: the first part would be an endpoint word, and the second key would have it again. -/
theorem join_ne_of_plusNamed {stem : JsString} {options : Record} {es : List TlsEndpoint}
    {parts parts' : List JsString} (hroot : unit '+' ∉ rootDomain)
    (hparts : KeyParts parts certOptions) (hoverride : certOptions.override = none)
    (hmerged : MergedFrom (stemParts stem) options es)
    (hparts' : KeyParts parts' (CertOptions.ofRecord options))
    (hends : stem = rootDomain ∨ ∃ front, stem = front ++ js "." ++ rootDomain) :
    join [unit '+'] parts ≠ rootDomain ++ unit '+' :: join [unit '+'] parts' := by
  intro hjoin
  have hplain : ∀ part ∈ parts, part ≠ [] ∧ unit '+' ∉ part ∧ unit '.' ∉ part ∧ unit '-' ∉ part :=
    fun part hpart => part_plain hoverride (hparts.sublist.subset hpart)
  have hne : parts ≠ [] := by
    rintro rfl
    exact absurd hjoin.symm (List.append_ne_nil_of_right_ne_nil _ (List.cons_ne_nil _ _))
  have hsplit : parts = rootDomain :: split (join [unit '+'] parts') [unit '+'] := by
    rw [← split_append_cons hroot, ← hjoin]
    exact (split_join (List.cons_ne_nil _ _) hne fun part hpart =>
      uncut_of_notMem (hplain part hpart).2.1).symm
  have hmem : rootDomain ∈ parts := by
    rw [hsplit]
    exact List.mem_cons_self
  obtain ⟨hrootNe, -, hdot, hdash⟩ := hplain rootDomain hmem
  have hword : rootDomain ∈ stemParts stem :=
    mem_stemParts_of_ends hrootNe hdot hdash hends hmerged.named
  have hflag : rootDomain = js "expired" ∨ rootDomain = js "revoked" :=
    part_of_word hoverride (hparts.sublist.subset hmem) hmerged.named hword
  have hagain : rootDomain ∈ parts' :=
    hparts'.flags (mem_flagParts_of_word hmerged hflag hword)
  have hrest : split (join [unit '+'] parts') [unit '+'] = parts' := by
    apply split_join (List.cons_ne_nil _ _) (List.ne_nil_of_mem hagain)
    intro part hpart
    exact uncut_of_notMem (hmerged.certKeyParts_plain part (hparts'.sublist.subset hpart)).2.1
  have hnodup : parts.Nodup := hparts.sublist.nodup (certKeyParts_nodup certOptions)
  rw [hsplit, hrest] at hnodup
  exact (List.nodup_cons.mp hnodup).1 hagain

theorem Below.exists_front (h : Below rootDomain domain) :
    ∃ front, unit '+' ∉ front ∧ domain = front ++ rootDomain := by
  rcases h with rfl | ⟨stem, hplus, -, rfl⟩
  · exact ⟨[], List.not_mem_nil, rfl⟩
  · refine ⟨stem ++ js ".", ?_, rfl⟩
    rw [List.mem_append, not_or]
    exact ⟨hplus, by decide⟩

/-- Two domains below the root domain are read off their keys. -/
theorem Below.eq_of_append (h : Below rootDomain domain) {domain' s t : JsString}
    (h' : Below rootDomain domain') (heq : domain ++ unit '+' :: s = domain' ++ unit '+' :: t) :
    domain = domain' := by
  obtain ⟨front, hfront, rfl⟩ := h.exists_front
  obtain ⟨front', hfront', rfl⟩ := h'.exists_front
  rw [List.append_assoc, List.append_assoc] at heq
  rw [(append_common_inj hfront hfront' heq).1]

theorem Below.plus_notMem (h : Below rootDomain domain) (hroot : unit '+' ∉ rootDomain) :
    unit '+' ∉ domain := by
  obtain ⟨front, hfront, rfl⟩ := h.exists_front
  rw [List.mem_append, not_or]
  exact ⟨hfront, hroot⟩

theorem Below.ends (h : Below rootDomain domain) :
    domain = rootDomain ∨ ∃ front, domain = front ++ js "." ++ rootDomain := by
  rcases h with heq | ⟨stem, -, -, heq⟩
  · exact .inl heq
  · exact .inr ⟨stem, heq⟩

/-- A key that is made for a domain below the root domain is made for no other domain. -/
theorem Below.eq_of_key (h : Below rootDomain domain) (hoverride : certOptions.override = none)
    {parts : List JsString} (hparts : KeyParts parts certOptions) {domain' : JsString}
    {certOptions' : CertOptions} {parts' : List JsString}
    (h' : Shaped rootDomain domain' certOptions') (hparts' : KeyParts parts' certOptions')
    (heq : domain ++ unit '+' :: join [unit '+'] parts =
      domain' ++ unit '+' :: join [unit '+'] parts') : domain = domain' := by
  rcases h' with hbelow | ⟨hroot, hplus | ⟨stem, options, es, rfl, hmerged, rfl⟩⟩
  · exact h.eq_of_append hbelow heq
  · exact (append_cons_inj (h.plus_notMem hroot) hplus heq).1
  · rw [List.append_assoc, List.cons_append] at heq
    obtain ⟨rfl, hjoin⟩ :=
      append_cons_inj (h.plus_notMem hroot) (plus_notMem_stem hmerged.named) heq
    exact absurd hjoin (join_ne_of_plusNamed hroot hparts hoverride hmerged hparts' h.ends)

theorem Below.effectiveDomain (h : Below rootDomain domain) (dnsServer : Bool)
    (certOptions : CertOptions) :
    Below rootDomain (effectiveDomain dnsServer rootDomain domain certOptions) := by
  rcases effectiveDomain_cases dnsServer rootDomain domain certOptions with heq | heq
  · rw [heq]
    exact h
  · rw [heq]
    exact below_wildcard rootDomain

variable {host : JsString} {config : EndpointConfig}

/-- AcmeCA finds a certificate for a host only under a key that was made for the same domain. -/
theorem acmeDomain_eq_of_key (hown : Own rootDomain host)
    (hconfig : getEndpointConfig (getSNIPrefixParts host rootDomain) = .ok config)
    (hoverride : (CertOptions.ofRecord config.certOptions).override = none) (dnsServer : Bool)
    (hasked : AcmeAsked rootDomain domain certOptions)
    (hkey : calculateCertCacheKey
        (effectiveDomain dnsServer rootDomain host (CertOptions.ofRecord config.certOptions))
        (CertOptions.ofRecord config.certOptions) = calculateCertCacheKey domain certOptions) :
    effectiveDomain dnsServer rootDomain host (CertOptions.ofRecord config.certOptions) =
      domain := by
  rw [calculateCertCacheKey_eq, calculateCertCacheKey_eq] at hkey
  exact ((below_of_own hown hconfig).effectiveDomain dnsServer _).eq_of_key hoverride
    (keyParts_cert _) hasked.shaped (keyParts_cert _) hkey

/-- A domain without underscores is covered by itself. -/
theorem coveredDomain_of_notMem (h : unit '_' ∉ domain) : coveredDomain domain = .ok domain := by
  rw [coveredDomain, if_neg h]

/-- Nothing covers a name below a root domain with underscores. -/
theorem coveredDomain_below {stem name : JsString} (hroot : unit '_' ∈ rootDomain) :
    coveredDomain (stem ++ js "." ++ rootDomain) ≠ .ok name := by
  intro h
  have hpiece : ∃ part ∈ split rootDomain (js "."), unit '_' ∈ part := by
    rw [← join_split (js_ne_nil (by decide) : js "." ≠ []) rootDomain] at hroot
    rcases mem_join hroot with hpiece | hc
    · exact hpiece
    · exact absurd hc (by decide)
  obtain ⟨part, hpart, hc⟩ := hpiece
  have htail : part ∈ (split (stem ++ js "." ++ rootDomain) (js ".")).tail := by
    rw [List.append_assoc]
    exact split_subset_tail (unit '.') stem rootDomain hpart
  have hmem : unit '_' ∈ stem ++ js "." ++ rootDomain := List.mem_append_right _ hroot
  rw [coveredDomain, if_pos hmem] at h
  dsimp only at h
  rw [if_pos (.inr ⟨part, htail, hc⟩)] at h
  cases h

theorem plus_notMem_coveredDomain {name : JsString} (hplus : unit '+' ∉ domain)
    (h : coveredDomain domain = .ok name) : unit '+' ∉ name := by
  rcases (coveredDomain_covers h).1 with rfl | ⟨label, s, -, rfl, rfl⟩
  · exact hplus
  · intro hmem
    apply hplus
    rcases List.mem_append.mp hmem with hmem | hmem
    · exact absurd hmem (by decide)
    · exact List.mem_append_right _ hmem

theorem Below.underscore_notMem (h : Below rootDomain domain) (hroot : unit '_' ∉ rootDomain) :
    unit '_' ∉ domain := by
  rcases h with rfl | ⟨stem, -, hstem, rfl⟩
  · exact hroot
  · simp only [List.mem_append, not_or]
    exact ⟨⟨hstem, by decide⟩, hroot⟩

/-- Below a root domain with underscores only the root domain itself is covered. -/
theorem Below.eq_root_of_covered (h : Below rootDomain domain) (hroot : unit '_' ∈ rootDomain)
    {name : JsString} (hname : coveredDomain domain = .ok name) : domain = rootDomain := by
  rcases h with heq | ⟨stem, -, -, rfl⟩
  · exact heq
  · exact absurd hname (coveredDomain_below hroot)

/-- The root domain has no endpoint options. -/
theorem localKeyParts_root
    (hconfig : getEndpointConfig (getSNIPrefixParts rootDomain rootDomain) = .ok config) :
    localKeyParts (CertOptions.ofRecord config.certOptions) = [] := by
  rw [getSNIPrefixParts_root] at hconfig
  cases hconfig
  rfl

/-- A text without plus signs is read off in front of one that ends the whole. -/
theorem eq_of_append_plus {a b s : JsString} (ha : unit '+' ∉ a)
    (heq : a ++ [unit '+'] = b ++ unit '+' :: s) : a = b := by
  by_cases hb : unit '+' ∈ b
  · obtain ⟨c, d, rfl, hc⟩ := List.eq_append_cons_of_mem hb
    rw [List.append_assoc, List.cons_append] at heq
    exact absurd (append_cons_inj ha hc heq).2.symm
      (List.append_ne_nil_of_right_ne_nil _ (List.cons_ne_nil _ _))
  · exact (append_cons_inj ha hb heq).1

/-- The local CA finds a leaf for a host only under a key that was made for the same name. -/
theorem coveredDomain_eq_of_key (hown : Own rootDomain host)
    (hconfig : getEndpointConfig (getSNIPrefixParts host rootDomain) = .ok config)
    (hoverride : (CertOptions.ofRecord config.certOptions).override = none) {name name' : JsString}
    (hname : coveredDomain host = .ok name) (hasked : Asked rootDomain domain certOptions)
    (hname' : coveredDomain domain = .ok name')
    (hkey : calculateCacheKey name (CertOptions.ofRecord config.certOptions) =
      calculateCacheKey name' certOptions) : name = name' := by
  have hbelow : Below rootDomain host := below_of_own hown hconfig
  rw [calculateCacheKey_eq, calculateCacheKey_eq] at hkey
  by_cases hroot : unit '_' ∈ rootDomain
  · obtain rfl : host = rootDomain := hbelow.eq_root_of_covered hroot hname
    rcases hasked.shaped with h' | ⟨hplus, -⟩
    · obtain rfl : domain = host := h'.eq_root_of_covered hroot hname'
      rw [hname] at hname'
      exact Except.ok.inj hname'
    · rw [localKeyParts_root hconfig] at hkey
      exact eq_of_append_plus (plus_notMem_coveredDomain hplus hname) hkey
  · have hclean : unit '_' ∉ host := hbelow.underscore_notMem hroot
    rw [coveredDomain_of_notMem hclean] at hname
    cases hname
    by_cases hunderscore : unit '_' ∈ domain
    · rcases hasked.shaped with h' | ⟨hplus, hplus' | ⟨stem, options, es, rfl, hmerged, -⟩⟩
      · exact absurd hunderscore (h'.underscore_notMem hroot)
      · exact (append_cons_inj (hbelow.plus_notMem hplus)
          (plus_notMem_coveredDomain hplus' hname') hkey).1
      · exfalso
        rcases List.mem_append.mp hunderscore with hmem | hmem
        · exact underscore_notMem_stem hmerged.named hmem
        · rcases List.mem_cons.mp hmem with hc | hmem
          · exact absurd hc (by decide)
          · exact hroot hmem
    · rw [coveredDomain_of_notMem hunderscore] at hname'
      cases hname'
      exact hbelow.eq_of_key hoverride (keyParts_local _) hasked.shaped (keyParts_local _) hkey

end TestServer
