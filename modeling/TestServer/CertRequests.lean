import TestServer.CertNames
import TestServer.ContextCacheKey
import TestServer.Endpoints.HostParts

/-!
# The domains that certificates are asked for

Certificates are asked for at start, in handshakes and for the names that the
configuration lists. A domain that is asked for is below the root domain, or has
no plus sign, or has one only right before the root domain.
-/

namespace TestServer

open Js Library Endpoints TlsCertificates

/-- Where a root domain has a plus sign, which no domain name has, only its own names count. -/
def KeyedApart (rootDomain domain : JsString) : Prop :=
  Own rootDomain domain ∨ unit '+' ∉ rootDomain

/-- The domains and options with which `generateCertificate` is called. -/
inductive Asked (rootDomain : JsString) : JsString → CertOptions → Prop
  /-- At start, and for the downloads. -/
  | root (options : CertOptions) : Asked rootDomain rootDomain options
  /-- In a handshake. -/
  | served {domain : JsString} {config : EndpointConfig}
      (hconfig : getEndpointConfig (getSNIPrefixParts domain rootDomain) = .ok config)
      (hkeyed : KeyedApart rootDomain domain) :
      Asked rootDomain
        (certDomainOf rootDomain domain (CertOptions.ofRecord config.certOptions))
        (CertOptions.ofRecord config.certOptions)
  /-- For a name that the configuration lists. -/
  | listed {domain : JsString} {config : EndpointConfig}
      (hconfig : getEndpointConfig (getSNIPrefixParts domain rootDomain) = .ok config)
      (hkeyed : KeyedApart rootDomain domain) :
      Asked rootDomain domain (CertOptions.ofRecord config.certOptions)

/-- The domains and options with which AcmeCA is called. -/
def AcmeAsked (rootDomain domain : JsString) (certOptions : CertOptions) : Prop :=
  ∃ dnsServer asked, Asked rootDomain asked certOptions ∧
    domain = effectiveDomain dnsServer rootDomain asked certOptions

/-- The root domain, or a name below it whose stem has neither plus signs nor underscores. -/
def Below (rootDomain domain : JsString) : Prop :=
  domain = rootDomain ∨ ∃ stem, unit '+' ∉ stem ∧ unit '_' ∉ stem ∧
    domain = stem ++ js "." ++ rootDomain

/-- A name that ends in a plus sign and the root domain, with endpoint words before it. -/
def PlusNamed (rootDomain domain : JsString) (certOptions : CertOptions) : Prop :=
  ∃ stem options es, domain = stem ++ unit '+' :: rootDomain ∧
    MergedFrom (stemParts stem) options es ∧ certOptions = CertOptions.ofRecord options

/-- What a domain looks like that is asked for. -/
def Shaped (rootDomain domain : JsString) (certOptions : CertOptions) : Prop :=
  Below rootDomain domain ∨ unit '+' ∉ rootDomain ∧
    (unit '+' ∉ domain ∨ PlusNamed rootDomain domain certOptions)

variable {rootDomain domain : JsString} {certOptions : CertOptions}

/-- What an accepted configuration was merged from. -/
theorem mergedFrom_of_accepted {words : List JsString} {config : EndpointConfig}
    (hconfig : getEndpointConfig words = .ok config) :
    ∃ es, MergedFrom words config.certOptions es := by
  obtain ⟨es, m, haccept, rfl, hcert, -⟩ := endpointConfigOf_eq_ok hconfig
  exact ⟨es, haccept.named, fun hkey => mergeContribution_get hcert hkey⟩

theorem underscore_notMem_stem {stem : JsString} {es : List TlsEndpoint}
    (h : namedEndpoints tlsEndpoints (stemParts stem) = some es) : unit '_' ∉ stem :=
  notMem_stem (by decide) (by decide) (by decide) h

theorem below_dot {stem : JsString} {es : List TlsEndpoint}
    (h : namedEndpoints tlsEndpoints (stemParts stem) = some es) :
    Below rootDomain (stem ++ js "." ++ rootDomain) :=
  .inr ⟨stem, plus_notMem_stem h, underscore_notMem_stem h, rfl⟩

/-- An accepted own name is below the root domain. -/
theorem below_of_own {config : EndpointConfig} (hown : Own rootDomain domain)
    (hconfig : getEndpointConfig (getSNIPrefixParts domain rootDomain) = .ok config) :
    Below rootDomain domain := by
  obtain ⟨es, hmerged⟩ := mergedFrom_of_accepted hconfig
  rcases hown with rfl | ⟨stem, rfl⟩
  · exact .inl rfl
  · have hnamed := hmerged.named
    rw [← List.append_assoc, getSNIPrefixParts_dot] at hnamed
    rw [← List.append_assoc]
    exact below_dot hnamed

/-- Where the root domain has no plus sign, an accepted name has one only before it. -/
theorem shaped_of_accepted {config : EndpointConfig} (hroot : unit '+' ∉ rootDomain)
    (hconfig : getEndpointConfig (getSNIPrefixParts domain rootDomain) = .ok config) :
    Shaped rootDomain domain (CertOptions.ofRecord config.certOptions) := by
  obtain ⟨es, hmerged⟩ := mergedFrom_of_accepted hconfig
  by_cases hends : rootDomain <:+ domain
  · obtain ⟨front, rfl⟩ := hends
    rcases List.eq_nil_or_concat' front with rfl | ⟨stem, c, rfl⟩
    · exact .inl (.inl rfl)
    · rw [List.append_assoc, List.singleton_append] at hmerged ⊢
      rw [getSNIPrefixParts_below] at hmerged
      refine .inr ⟨hroot, ?_⟩
      by_cases hc : c = unit '+'
      · subst hc
        exact .inr ⟨stem, config.certOptions, es, rfl, hmerged, rfl⟩
      · left
        simp only [List.mem_append, List.mem_cons, not_or]
        exact ⟨plus_notMem_stem hmerged.named, Ne.symm hc, hroot⟩
  · rw [getSNIPrefixParts_outside hends] at hmerged
    exact .inr ⟨hroot, .inl (plus_notMem_stem hmerged.named)⟩

theorem KeyedApart.shaped {config : EndpointConfig} (hkeyed : KeyedApart rootDomain domain)
    (hconfig : getEndpointConfig (getSNIPrefixParts domain rootDomain) = .ok config) :
    Shaped rootDomain domain (CertOptions.ofRecord config.certOptions) := by
  rcases hkeyed with hown | hroot
  · exact .inl (below_of_own hown hconfig)
  · exact shaped_of_accepted hroot hconfig

theorem Asked.shaped (h : Asked rootDomain domain certOptions) :
    Shaped rootDomain domain certOptions := by
  cases h with
  | root options => exact .inl (.inl rfl)
  | listed hconfig hkeyed => exact hkeyed.shaped hconfig
  | @served domain config hconfig hkeyed =>
      obtain ⟨es, hmerged⟩ := mergedFrom_of_accepted hconfig
      rw [certDomainOf, hmerged.override_eq]
      rcases hmerged.overridePrefix_cases with hnone | hsome
      · rw [hnone]
        exact hkeyed.shaped hconfig
      · rw [hsome]
        exact .inl (.inr ⟨js "example", by decide, by decide, rfl⟩)

/-- The name that AcmeCA is asked for is the domain, or the wildcard of the root domain. -/
theorem effectiveDomain_cases (dnsServer : Bool) (rootDomain domain : JsString)
    (certOptions : CertOptions) :
    effectiveDomain dnsServer rootDomain domain certOptions = domain ∨
      effectiveDomain dnsServer rootDomain domain certOptions = js "*" ++ js "." ++ rootDomain := by
  rw [effectiveDomain]
  split_ifs
  · exact .inr rfl
  · exact .inl rfl

theorem below_wildcard (rootDomain : JsString) :
    Below rootDomain (js "*" ++ js "." ++ rootDomain) :=
  .inr ⟨js "*", by decide, by decide, rfl⟩

theorem AcmeAsked.shaped (h : AcmeAsked rootDomain domain certOptions) :
    Shaped rootDomain domain certOptions := by
  obtain ⟨dnsServer, asked, hasked, rfl⟩ := h
  rcases effectiveDomain_cases dnsServer rootDomain asked certOptions with heq | heq
  · rw [heq]
    exact hasked.shaped
  · rw [heq]
    exact .inl (below_wildcard rootDomain)

end TestServer
