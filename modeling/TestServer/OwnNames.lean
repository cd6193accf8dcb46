import TestServer.Endpoints.AcceptedParts
import TestServer.Server
import TestServer.TlsHandler

/-!
# The names that certificates are requested for

Certificates should be requested for names under the root domain only. The
suffix test of `getSNIPrefixParts` does not look at the character before the
root domain, and names outside the root domain are read as endpoint parts, so
a foreign name is served exactly when what is left of it are endpoint words.
-/

namespace TestServer

open Js Library Endpoints TlsCertificates

/-- The root domain itself or a name below it. -/
def Own (rootDomain domain : JsString) : Prop :=
  domain = rootDomain ∨ js "." ++ rootDomain <:+ domain

instance (rootDomain domain : JsString) : Decidable (Own rootDomain domain) :=
  inferInstanceAs (Decidable (_ ∨ _))

/-- The handshake of a client requests certificates for own names only, and none at all
when the client asks for a foreign name. -/
structure OwnNamesOnly (rootDomain : JsString) (serverName : Option JsString) : Prop where
  certDomain : ∀ h, handleConnection rootDomain serverName = .accepted h →
    Own rootDomain h.certDomain
  issued : ∀ h, handleConnection rootDomain serverName = .accepted h →
    ∀ (γ : Type) (mode : CertMode) (lookup : JsString → CertOptions → Option γ)
      (g : Generation γ),
      generateCertificate mode rootDomain lookup h.certDomain h.certOptions = .ok g →
        ∀ domain ∈ g.domains, Own rootDomain domain
  foreignRefused : ¬ Own rootDomain (requestedDomain rootDomain serverName) →
    ∀ h, handleConnection rootDomain serverName ≠ .accepted h

/-- At most four distinct endpoint words, other than `no-tls`, without conflicting options. -/
def ServedWords (words : List JsString) : Prop :=
  words.length ≤ maxSniParts ∧ words.Nodup ∧ js "no-tls" ∉ words ∧
    ∃ es, namedEndpoints tlsEndpoints words = some es ∧
      (certContributions es).Pairwise Compatible ∧ (tlsContributions es).Pairwise Compatible

/-- The handshake is refused without an error exactly for `no-tls`. -/
theorem rejectTls_mem_contributions_iff {words : List JsString} {es : List TlsEndpoint}
    (h : namedEndpoints tlsEndpoints words = some es) :
    (js "rejectTls", JsValue.bool true) ∈ tlsContributions es ↔ js "no-tls" ∈ words := by
  have htable : ∀ e ∈ tlsEndpoints,
      (∃ c ∈ e.configureTlsOptions, c = (js "rejectTls", JsValue.bool true)) ↔
        e.sniPart ∈ [js "no-tls"] := by
    decide
  simpa [tlsContributions] using exists_contribution_iff htable h

/-- A handshake is accepted exactly for served words. -/
theorem handleConnection_accepted_iff {rootDomain : JsString} {serverName : Option JsString} :
    (∃ h, handleConnection rootDomain serverName = .accepted h) ↔
      ServedWords (getSNIPrefixParts (requestedDomain rootDomain serverName) rootDomain) := by
  constructor
  · rintro ⟨h, haccepted⟩
    obtain ⟨config, hconfig, hreject, _⟩ := handleConnection_eq_accepted haccepted
    obtain ⟨es, m, haccept, rfl, _, htls, _⟩ := endpointConfigOf_eq_ok hconfig
    refine ⟨haccept.few, haccept.distinct, ?_, es, haccept.named, haccept.certAgree,
      haccept.tlsAgree⟩
    intro hnoTls
    have hmem := (rejectTls_mem_contributions_iff haccept.named).mpr hnoTls
    rw [← resolveMerged_rejectTls htls, hreject] at hmem
    exact Bool.false_ne_true hmem
  · rintro ⟨hfew, hdistinct, hnoTls, es, hnamed, hcert, htls⟩
    have hnot := fun hmem => hnoTls ((rejectTls_mem_contributions_iff hnamed).mp hmem)
    have haccept : Accepted tlsEndpoints _ es :=
      ⟨hfew, hdistinct, hnamed, hcert, htls, fun hmem => absurd hmem hnot⟩
    obtain ⟨config, hconfig⟩ := haccept.isOk
    have hreject : config.rejectTls = false := by
      obtain ⟨es', m, haccept', rfl, _, htls', _⟩ := endpointConfigOf_eq_ok hconfig
      obtain rfl : es = es' := Option.some.inj (hnamed.symm.trans haccept'.named)
      exact Bool.eq_false_iff.mpr fun h => hnot ((resolveMerged_rejectTls htls').mp h)
    simp only [handleConnection, getEndpointConfig, hconfig, hreject]
    exact ⟨_, rfl⟩

theorem own_below (rootDomain p : JsString) : Own rootDomain (p ++ js "." ++ rootDomain) :=
  Or.inr ⟨p, by simp⟩

theorem own_certDomainOf {rootDomain domain : JsString} (certOptions : CertOptions)
    (h : Own rootDomain domain) : Own rootDomain (certDomainOf rootDomain domain certOptions) := by
  simp only [certDomainOf]
  split
  · exact own_below rootDomain _
  · exact h

theorem own_effectiveDomain {rootDomain domain : JsString} (dnsServer : Bool)
    (certOptions : CertOptions) (h : Own rootDomain domain) :
    Own rootDomain (effectiveDomain dnsServer rootDomain domain certOptions) := by
  simp only [effectiveDomain]
  split_ifs
  · exact own_below rootDomain (js "*")
  · exact h

/-- Orders and leaves for an own certificate domain are for own names. -/
theorem own_of_mem_domains {γ : Type} {mode : CertMode} {rootDomain domain : JsString}
    {lookup : JsString → CertOptions → Option γ} {certOptions : CertOptions} {g : Generation γ}
    (hown : Own rootDomain domain)
    (hg : generateCertificate mode rootDomain lookup domain certOptions = .ok g) :
    ∀ d ∈ g.domains, Own rootDomain d := by
  intro d hd
  rcases mem_domains hg hd with rfl | ⟨dnsServer, rfl⟩
  · exact hown
  · exact own_effectiveDomain dnsServer certOptions hown

/-- A foreign name that is served nevertheless: the text before an ending that is the root
domain without a dot in front of it, or else the whole name, consists of endpoint words. -/
def Impostor (rootDomain : JsString) (serverName : Option JsString) : Prop :=
  ∃ name, serverName = some name ∧ name ≠ [] ∧
    ((∃ stem c, name = stem ++ c :: rootDomain ∧ c ≠ unit '.' ∧
        ServedWords (stemParts stem)) ∨
      (¬ rootDomain <:+ name ∧ ServedWords (stemParts name)))

/-- A foreign name that is accepted is an impostor. -/
theorem impostor_of_accepted {rootDomain : JsString} {serverName : Option JsString}
    (hforeign : ¬ Own rootDomain (requestedDomain rootDomain serverName))
    (hserved : ∃ h, handleConnection rootDomain serverName = .accepted h) :
    Impostor rootDomain serverName := by
  rw [handleConnection_accepted_iff] at hserved
  -- Without a server name the root domain is requested, which is an own name.
  cases serverName with
  | none => exact absurd (Or.inl rfl) hforeign
  | some name =>
      by_cases hname : name = []
      · simp only [requestedDomain, if_pos hname] at hforeign
        exact absurd (Or.inl rfl) hforeign
      · simp only [requestedDomain, if_neg hname] at hforeign hserved
        refine ⟨name, rfl, hname, ?_⟩
        by_cases hends : rootDomain <:+ name
        · left
          obtain ⟨q, rfl⟩ := hends
          rcases List.eq_nil_or_concat' q with rfl | ⟨stem, c, rfl⟩
          · exact absurd (Or.inl rfl) hforeign
          · rw [List.append_assoc, List.singleton_append] at hforeign hserved ⊢
            rw [getSNIPrefixParts_below] at hserved
            refine ⟨stem, c, rfl, ?_, hserved⟩
            rintro rfl
            exact hforeign (Or.inr ⟨stem, rfl⟩)
        · right
          rw [getSNIPrefixParts_outside hends] at hserved
          exact ⟨hends, hserved⟩

/-- An impostor is a foreign name, and its handshake is accepted. -/
theorem Impostor.accepted {rootDomain : JsString} {serverName : Option JsString}
    (h : Impostor rootDomain serverName) :
    ¬ Own rootDomain (requestedDomain rootDomain serverName) ∧
      ∃ h, handleConnection rootDomain serverName = .accepted h := by
  obtain ⟨name, rfl, hname, himpostor⟩ := h
  rw [handleConnection_accepted_iff]
  simp only [requestedDomain, if_neg hname]
  rcases himpostor with ⟨stem, c, rfl, hc, hserved⟩ | ⟨hends, hserved⟩
  · rw [getSNIPrefixParts_below]
    refine ⟨?_, hserved⟩
    rintro (heq | ⟨q, hq⟩)
    · have hlen := congrArg List.length heq
      simp only [List.length_append, List.length_cons] at hlen
      omega
    · have hq' : (q ++ [unit '.']) ++ rootDomain = (stem ++ [c]) ++ rootDomain := by
        simpa [js, codeUnits, unit] using hq
      have hlast := List.append_cancel_right hq'
      exact hc (List.append_inj_right' hlast rfl |> List.cons.inj |>.1).symm
  · rw [getSNIPrefixParts_outside hends]
    refine ⟨?_, hserved⟩
    rintro (heq | ⟨q, hq⟩)
    · exact hends ⟨[], by simp [heq]⟩
    · exact hends ⟨q ++ js ".", by simpa using hq⟩

/-- Certificates are requested for own names only, exactly when the client does not send
an impostor name. -/
theorem ownNamesOnly_iff (rootDomain : JsString) (serverName : Option JsString) :
    OwnNamesOnly rootDomain serverName ↔ ¬ Impostor rootDomain serverName := by
  constructor
  · intro hown himpostor
    obtain ⟨hforeign, h, haccepted⟩ := himpostor.accepted
    exact hown.foreignRefused hforeign h haccepted
  · intro himpostor
    have hserved {h : Handshake}
        (haccepted : handleConnection rootDomain serverName = .accepted h) :
        Own rootDomain h.certDomain := by
      obtain ⟨config, _, _, rfl⟩ := handleConnection_eq_accepted haccepted
      apply own_certDomainOf
      by_contra hforeign
      exact himpostor (impostor_of_accepted hforeign ⟨_, haccepted⟩)
    constructor
    · intro h haccepted
      exact hserved haccepted
    · intro h haccepted γ mode lookup g hg
      exact own_of_mem_domains (hserved haccepted) hg
    · intro hforeign h haccepted
      exact himpostor (impostor_of_accepted hforeign ⟨h, haccepted⟩)

/-- The name `example-testserver.host` ends in the letters of the root domain only. -/
theorem not_ownNamesOnly_example :
    ¬ OwnNamesOnly (js "testserver.host") (some (js "example-testserver.host")) := by
  intro h
  exact absurd (h.certDomain _ rfl) (by decide)

end TestServer
