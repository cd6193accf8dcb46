import TestServer.ContextCacheKey
import TestServer.Endpoints.HostParts
import TestServer.HttpHandler

/-!
# Where the redirect to an untrusted root leads

With a public CA in use, a host whose certificate has to be local is redirected
to the host with one more part, `untrusted-root`. That host is read back as
these parts, and its options do not conflict, so it is served without another
redirect exactly when there is room for one more part.
-/

namespace TestServer

open Js Library Endpoints TlsCertificates

def untrustedRootPart : JsString := js "untrusted-root"

/-- The host is read back as the given parts and one more, is served, and is not redirected. -/
structure Lands (options : HttpHandlerOptions) (prefixParts : List JsString) (host : JsString) :
    Prop where
  parts : getSNIPrefixParts host options.rootDomain = prefixParts ++ [untrustedRootPart]
  valid : validateEndpointParts (prefixParts ++ [untrustedRootPart]) = none
  stable : getLocalOnlyRedirectHost (prefixParts ++ [untrustedRootPart]) options = .ok none

/-- Every redirect for these parts leads to a host that is served and not redirected again. -/
def RedirectLands (options : HttpHandlerOptions) (prefixParts : List JsString) : Prop :=
  ∀ host, getLocalOnlyRedirectHost prefixParts options = .ok (some host) →
    Lands options prefixParts host

/-- Some part makes the certificate local, and none does so explicitly. -/
def ImplicitlyUntrusted (prefixParts : List JsString) : Prop :=
  (∃ w ∈ prefixParts, w ∈ localWords) ∧ js "self-signed" ∉ prefixParts ∧
    untrustedRootPart ∉ prefixParts

instance (prefixParts : List JsString) : Decidable (ImplicitlyUntrusted prefixParts) :=
  inferInstanceAs (Decidable (_ ∧ _))

theorem validateEndpointParts_eq_none_iff {parts : List JsString} :
    validateEndpointParts parts = none ↔ ∃ config, getEndpointConfig parts = .ok config := by
  rw [validateEndpointParts]
  cases getEndpointConfig parts with
  | ok config => exact iff_of_true rfl ⟨config, rfl⟩
  | error message =>
      apply iff_of_false
      · exact Option.some_ne_none message
      · rintro ⟨config, h⟩
        cases h

/-- Valid parts are the accepted ones. -/
theorem validateEndpointParts_eq_none_iff_accepted {parts : List JsString} :
    validateEndpointParts parts = none ↔ ∃ es, Accepted tlsEndpoints parts es := by
  rw [validateEndpointParts_eq_none_iff]
  constructor
  · rintro ⟨config, h⟩
    obtain ⟨es, m, haccepted, _⟩ := endpointConfigOf_eq_ok h
    exact ⟨es, haccepted⟩
  · rintro ⟨es, h⟩
    exact h.isOk

theorem foldlM_addCertOptions {parts : List JsString} {es : List TlsEndpoint}
    (h : namedEndpoints tlsEndpoints parts = some es) (acc : Record) :
    parts.foldlM addCertOptions acc = mergeContribution acc (certContributions es) := by
  induction parts generalizing es acc with
  | nil =>
      cases h
      rfl
  | cons part parts ih =>
      obtain ⟨e, rest, he, hrest, rfl⟩ := namedEndpoints_cons_eq_some_iff.mp h
      rw [List.foldlM_cons, addCertOptions, he, certContributions, List.flatMap_cons,
        mergeContribution, MergeRule.merge_append]
      exact congrArg _ (funext fun m => ih hrest m)

/-- The handler merges the same certificate options as the handshake. -/
theorem getCombinedCertOptions_eq {parts : List JsString} {es : List TlsEndpoint}
    (h : namedEndpoints tlsEndpoints parts = some es) :
    getCombinedCertOptions parts = mergeContribution .empty (certContributions es) :=
  foldlM_addCertOptions h .empty

theorem getCombinedCertOptions_of_accepted {parts : List JsString} {es : List TlsEndpoint}
    (h : Accepted tlsEndpoints parts es) :
    ∃ options, getCombinedCertOptions parts = .ok options ∧ MergedFrom parts options es := by
  obtain ⟨options, hoptions⟩ := mergeContribution_isOk_iff.mpr h.certAgree
  refine ⟨options, ?_, h.named, fun hkey => mergeContribution_get hoptions hkey⟩
  rw [getCombinedCertOptions_eq h.named, hoptions]

theorem requiredType_get_iff {words : List JsString} {options : Record} {es : List TlsEndpoint}
    (h : MergedFrom words options es) :
    options.get (js "requiredType") = some (.str (js "local")) ↔
      ∃ w ∈ words, w ∈ untrustedRootPart :: localWords := by
  have htable : ∀ e ∈ tlsEndpoints,
      (∃ c ∈ e.configureCertOptions, c = (js "requiredType", JsValue.str (js "local"))) ↔
        e.sniPart ∈ untrustedRootPart :: localWords := by
    decide
  rw [h.get (by decide), ← exists_contribution_iff htable h.named]
  simp only [exists_eq_right]
  rfl

theorem selfSigned_truthy_iff {words : List JsString} {options : Record} {es : List TlsEndpoint}
    (h : MergedFrom words options es) :
    (options.get (js "selfSigned")).any JsValue.truthy = true ↔ js "self-signed" ∈ words := by
  rw [← h.selfSigned_iff]
  simp only [CertOptions.ofRecord, flag]
  cases options.get (js "selfSigned") with
  | none => rfl
  | some v => rfl

/-- Accepted parts are redirected exactly when they are implicitly untrusted. -/
theorem getLocalOnlyRedirectHost_of_accepted {options : HttpHandlerOptions}
    {parts : List JsString} {es : List TlsEndpoint} (hpublic : options.usingPublicCA = true)
    (h : Accepted tlsEndpoints parts es) :
    getLocalOnlyRedirectHost parts options =
      .ok (if ImplicitlyUntrusted parts then
        some (join (js "--") (parts ++ [untrustedRootPart]) ++ js "." ++ options.rootDomain)
      else none) := by
  obtain ⟨certOptions, hoptions, hmerged⟩ := getCombinedCertOptions_of_accepted h
  have huntrusted : parts.any (fun part => decide (part = js "untrusted-root")) = true ↔
      untrustedRootPart ∈ parts := by
    simp [untrustedRootPart]
  have hguard : (certOptions.get (js "requiredType") ≠ some (.str (js "local")) ∨
        (certOptions.get (js "selfSigned")).any JsValue.truthy = true ∨
        parts.any (fun part => decide (part = js "untrusted-root")) = true) ↔
      ¬ ImplicitlyUntrusted parts := by
    rw [selfSigned_truthy_iff hmerged, huntrusted, Ne, requiredType_get_iff hmerged,
      ImplicitlyUntrusted]
    simp only [List.mem_cons, and_or_left, exists_or, exists_eq_right]
    by_cases huntrusted : untrustedRootPart ∈ parts <;>
      by_cases hself : js "self-signed" ∈ parts <;> simp [huntrusted, hself]
  rw [getLocalOnlyRedirectHost, if_neg (not_not.mpr hpublic), hoptions]
  by_cases himplicit : ImplicitlyUntrusted parts
  · exact (if_neg (mt hguard.mp (not_not.mpr himplicit))).trans (by rw [if_pos himplicit]; rfl)
  · exact (if_pos (hguard.mpr himplicit)).trans (by rw [if_neg himplicit]; rfl)

/-- No endpoint word is cut by the separator of parts. -/
theorem uncut_sniPart : ∀ e ∈ tlsEndpoints, Uncut (js "--") e.sniPart := by
  decide

/-- Joined parts below the root domain are read back. -/
theorem getSNIPrefixParts_join {rootDomain : JsString} {parts : List JsString}
    {es : List TlsEndpoint} (hnamed : namedEndpoints tlsEndpoints parts = some es)
    (hlen : 2 ≤ parts.length) :
    getSNIPrefixParts (join (js "--") parts ++ js "." ++ rootDomain) rootDomain = parts := by
  obtain ⟨hmem, hnames⟩ := namedEndpoints_eq_some hnamed
  have huncut : ∀ part ∈ parts, Uncut (js "--") part := by
    rw [← hnames]
    intro part hpart
    obtain ⟨e, he, rfl⟩ := List.mem_map.mp hpart
    exact uncut_sniPart e (hmem e he)
  rw [getSNIPrefixParts_dot]
  match parts, hlen with
  | first :: second :: rest, _ => exact stemParts_join_dashes huncut

theorem namedEndpoints_append {parts parts' : List JsString} {es es' : List TlsEndpoint}
    (h : namedEndpoints tlsEndpoints parts = some es)
    (h' : namedEndpoints tlsEndpoints parts' = some es') :
    namedEndpoints tlsEndpoints (parts ++ parts') = some (es ++ es') := by
  rw [namedEndpoints] at h h' ⊢
  rw [List.mapM_append, h, h']
  rfl

/-- What `untrusted-root` contributes agrees with all but `self-signed`. -/
theorem compatible_untrustedRoot : ∀ e ∈ tlsEndpoints, e.sniPart ≠ js "self-signed" →
    ∀ c ∈ e.configureCertOptions, ∀ d ∈ untrustedRoot.configureCertOptions, Compatible c d := by
  decide

/-- There is room for `untrusted-root` beside implicitly untrusted parts, if fewer than four. -/
theorem accepted_append_untrustedRoot {parts : List JsString} {es : List TlsEndpoint}
    (h : Accepted tlsEndpoints parts es) (himplicit : ImplicitlyUntrusted parts)
    (hroom : parts.length < maxSniParts) :
    Accepted tlsEndpoints (parts ++ [untrustedRootPart]) (es ++ [untrustedRoot]) := by
  obtain ⟨hlocal, hself, huntrusted⟩ := himplicit
  obtain ⟨hmem, hnames⟩ := namedEndpoints_eq_some h.named
  constructor
  · rw [List.length_append]
    exact hroom
  · rw [List.nodup_append]
    refine ⟨h.distinct, List.nodup_singleton _, ?_⟩
    rintro part hpart other hother rfl
    rw [List.mem_singleton] at hother
    exact huntrusted (hother ▸ hpart)
  · exact namedEndpoints_append h.named rfl
  · rw [certContributions, List.flatMap_append, List.pairwise_append]
    refine ⟨h.certAgree, by decide, ?_⟩
    intro c hc d hd
    obtain ⟨e, he, hc⟩ := List.mem_flatMap.mp hc
    refine compatible_untrustedRoot e (hmem e he) ?_ c hc d (by simpa using hd)
    intro hname
    apply hself
    rw [← hnames, ← hname]
    exact List.mem_map_of_mem he
  · rw [tlsContributions, List.flatMap_append]
    simpa [untrustedRoot, tlsContributions] using h.tlsAgree
  · intro hreject
    rw [tlsContributions, List.flatMap_append, List.mem_append] at hreject
    obtain hreject | hreject := hreject
    · -- `no-tls` would be the only part, which is not local.
      have hnoTls := (rejectTls_mem_contributions_iff h.named).mp hreject
      have hlen := h.noTlsAlone hreject
      obtain ⟨w, hw, hwords⟩ := hlocal
      have hone : w = js "no-tls" := by
        obtain ⟨part, hpart⟩ := List.length_eq_one_iff.mp
          (Nat.le_antisymm hlen (List.length_pos_of_mem hw))
        rw [hpart] at hw hnoTls
        rw [List.mem_singleton.mp hw, List.mem_singleton.mp hnoTls]
      rw [hone] at hwords
      exact absurd hwords (by decide)
    · exact absurd hreject (by decide)

theorem ImplicitlyUntrusted.ne_nil {parts : List JsString} (h : ImplicitlyUntrusted parts) :
    parts ≠ [] := by
  rintro rfl
  obtain ⟨⟨w, hw, _⟩, _⟩ := h
  cases hw

/-- With a public CA in use, the redirect from accepted parts leads to a host that is served as it
is exactly when there is none, or the parts are fewer than four. -/
theorem redirectLands_iff {options : HttpHandlerOptions} {parts : List JsString}
    (hpublic : options.usingPublicCA = true) (hvalid : validateEndpointParts parts = none) :
    RedirectLands options parts ↔ ImplicitlyUntrusted parts → parts.length < maxSniParts := by
  obtain ⟨es, haccepted⟩ := validateEndpointParts_eq_none_iff_accepted.mp hvalid
  rw [RedirectLands, getLocalOnlyRedirectHost_of_accepted hpublic haccepted]
  constructor
  · intro hlands himplicit
    rw [if_pos himplicit] at hlands
    obtain ⟨es', haccepted'⟩ :=
      validateEndpointParts_eq_none_iff_accepted.mp (hlands _ rfl).valid
    have hfew := haccepted'.few
    rw [List.length_append] at hfew
    exact hfew
  · intro hroom host hhost
    by_cases himplicit : ImplicitlyUntrusted parts
    · rw [if_pos himplicit, Except.ok.injEq, Option.some.injEq] at hhost
      have hmore := accepted_append_untrustedRoot haccepted himplicit (hroom himplicit)
      have hlen : 2 ≤ (parts ++ [untrustedRootPart]).length := by
        have hpos := List.length_pos_of_ne_nil himplicit.ne_nil
        rw [List.length_append, List.length_singleton]
        omega
      constructor
      · rw [← hhost]
        exact getSNIPrefixParts_join hmore.named hlen
      · exact validateEndpointParts_eq_none_iff_accepted.mpr ⟨_, hmore⟩
      · rw [getLocalOnlyRedirectHost_of_accepted hpublic hmore, if_neg]
        rintro ⟨_, _, huntrusted⟩
        exact huntrusted (List.mem_append_right _ (List.mem_singleton_self _))
    · rw [if_neg himplicit] at hhost
      cases hhost

/-- A server with a public CA for the given domain. -/
def publicOptions (rootDomain : JsString) : HttpHandlerOptions :=
  ⟨rootDomain, true, fun _ => .ok none⟩

theorem redirectLands_noCommonName :
    RedirectLands (publicOptions (js "testserver.host")) [js "http2", js "no-common-name"] :=
  (redirectLands_iff rfl (by decide)).mpr fun _ => by decide

/-- Four parts leave no room: the host of the redirect has five and is refused. -/
theorem not_redirectLands_fourParts :
    validateEndpointParts [js "no-common-name", js "expired", js "http1", js "http2"] = none ∧
      ¬ RedirectLands (publicOptions (js "testserver.host"))
        [js "no-common-name", js "expired", js "http1", js "http2"] := by
  refine ⟨by decide, fun h => ?_⟩
  have hvalid := (h _ rfl).valid
  exact absurd hvalid (by decide)

end TestServer
