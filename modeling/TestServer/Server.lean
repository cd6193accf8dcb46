import TestServer.TlsCertificates.CertDefinitions
import Mathlib.Tactic.SplitIfs

/-!
# Where a handshake's certificate comes from

The `generateCertificate` callbacks of `src/server.ts`: with local certificates
only, and with ACME, where a single-level subdomain may share the wildcard
certificate of the root domain.
-/

namespace TestServer

open Js TlsCertificates

inductive CertMode where
  | localOnly
  | acme (dnsServer : Bool)
deriving DecidableEq

def isWildcardCoverable (domain rootDomain : JsString) : Bool :=
  if ¬ endsWith domain (js "." ++ rootDomain) then false
  else
    let stem := sliceEnd domain (rootDomain.length + 1)
    !includes stem (js ".")

/-- The name under which AcmeCA is asked for a certificate. -/
def effectiveDomain (dnsServer : Bool) (rootDomain domain : JsString)
    (certOptions : CertOptions) : JsString :=
  if dnsServer ∧ isWildcardCoverable domain rootDomain ∧ certOptions.override = none then
    js "*." ++ rootDomain
  else domain

/-- The source of a generated certificate. -/
inductive CertSource (γ : Type*) where
  /-- The certificate that AcmeCA handed back at once. -/
  | acmeCached (cert : γ)
  /-- The handshake waits for AcmeCA. -/
  | acmeWaited
  /-- A leaf issued by the local CA for this domain. -/
  | localLeaf (domain : JsString) (isTemporary : Bool)

structure Generation (γ : Type*) where
  /-- The name AcmeCA was asked for. -/
  acmeDomain : Option JsString
  source : CertSource γ

/-- Every name that an order is placed for or that `LocalCA` is given for a leaf; the leaf is for
the wildcard above a name with an underscore. -/
def Generation.domains {γ : Type*} (g : Generation γ) : List JsString :=
  g.acmeDomain.toList ++
    match g.source with
    | .localLeaf domain _ => [domain]
    | _ => []

/-- `generateCertificate`, given what `tryGetCertificateSync` returns. -/
def generateCertificate {γ : Type*} (mode : CertMode) (rootDomain : JsString)
    (tryGetCertificateSync : JsString → CertOptions → Option γ) (domain : JsString)
    (certOptions : CertOptions) : Except JsString (Generation γ) :=
  match mode with
  | .localOnly =>
      if certOptions.requiredType = some .acme then
        .error (js "Can't generate cert for " ++ domain ++ js " without ACME")
      else .ok ⟨none, .localLeaf domain false⟩
  | .acme dnsServer =>
      if certOptions.requiredType = some .local then .ok ⟨none, .localLeaf domain false⟩
      else
        let acmeDomain := effectiveDomain dnsServer rootDomain domain certOptions
        match tryGetCertificateSync acmeDomain certOptions with
        | some cert => .ok ⟨some acmeDomain, .acmeCached cert⟩
        | none =>
            if certOptions.requiredType = some .acme then .ok ⟨some acmeDomain, .acmeWaited⟩
            else .ok ⟨some acmeDomain, .localLeaf domain true⟩

/-- A certificate is ordered or issued for the requested domain, or ordered for the name
that covers it. -/
theorem mem_domains {γ : Type*} {mode : CertMode} {rootDomain domain : JsString}
    {lookup : JsString → CertOptions → Option γ} {certOptions : CertOptions} {g : Generation γ}
    (hg : generateCertificate mode rootDomain lookup domain certOptions = .ok g)
    {d : JsString} (hd : d ∈ g.domains) :
    d = domain ∨ ∃ dnsServer, d = effectiveDomain dnsServer rootDomain domain certOptions := by
  cases mode with
  | localOnly =>
      simp only [generateCertificate] at hg
      split_ifs at hg
      cases hg
      left
      simpa [Generation.domains] using hd
  | acme dnsServer =>
      simp only [generateCertificate] at hg
      split at hg
      · cases hg
        left
        simpa [Generation.domains] using hd
      · split at hg
        · cases hg
          right
          exact ⟨dnsServer, by simpa [Generation.domains] using hd⟩
        · split at hg
          · cases hg
            right
            exact ⟨dnsServer, by simpa [Generation.domains] using hd⟩
          · cases hg
            simp only [Generation.domains, Option.toList_some, List.singleton_append,
              List.mem_cons, List.not_mem_nil, or_false] at hd
            rcases hd with hd | hd
            · exact Or.inr ⟨dnsServer, hd⟩
            · exact Or.inl hd

end TestServer
