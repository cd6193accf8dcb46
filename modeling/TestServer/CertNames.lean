import TestServer.Server
import TestServer.TlsCertificates.Acme
import TestServer.TlsCertificates.LocalCACalls
import TestServer.TlsCertificates.RequestCertificate

/-!
# The names in a certificate

What an ACME order and a local leaf name, for the domain that they are asked
for: `requestCertificate` of `src/tls-certificates/acme.ts` names the domain, and
for a wildcard its root too; the local CA has a wildcard stand for a first label
with underscores.
-/

namespace TestServer

open Js TlsCertificates

/-- A DNS name of a certificate covers a host: it is the host, or a wildcard for one label. -/
def NameCovers (name host : JsString) : Prop :=
  name = host ∨ ∃ label s, unit '.' ∉ label ∧ host = label ++ js "." ++ s ∧ name = js "*." ++ s

def CoversHost (names : List JsString) (host : JsString) : Prop :=
  ∃ name ∈ names, NameCovers name host

/-- What `createCsr` is given. -/
structure CsrData where
  commonName : JsString
  altNames : List JsString
deriving DecidableEq

/-- What `acme-client` makes of names, and what it reads off a certificate. -/
structure AcmeLibrary where
  /-- The alternative names in the CSR. -/
  csrNames : CsrData → List JsString
  /-- The DNS names of a certificate that is given as PEM. -/
  dnsNames : JsString → List JsString

structure AcmeLibrary.Lawful (a : AcmeLibrary) : Prop where
  commonName_mem : ∀ data, data.commonName ∈ a.csrNames data
  altNames_subset : ∀ data, data.altNames ⊆ a.csrNames data

/-- What `requestCertificate` orders. -/
structure CertOrder where
  csr : CsrData
  /-- The identifiers of a short-lived order; `auto` reads them off the CSR. -/
  identifiers : Option (List JsString)
deriving DecidableEq

/-- `SUPPORTED_ACME_PROVIDERS` -/
inductive AcmeProvider where
  | letsencrypt
  | zerossl
  | google
deriving DecidableEq

def certOrder (hasDnsServer : Bool) (domain : JsString) (shortLived : Bool) : CertOrder :=
  let isWildcard := isWildcard domain hasDnsServer
  let rootDomain := if isWildcard then domain.drop 2 else domain
  { csr := if isWildcard then ⟨rootDomain, [domain, rootDomain]⟩ else ⟨domain, []⟩
    identifiers :=
      if shortLived then some (if isWildcard then [domain, rootDomain] else [domain]) else none }

/-- The order of an attempt. -/
def attemptOrder (acmeProvider : AcmeProvider) (hasDnsServer : Bool) (attempt : Attempt) :
    CertOrder :=
  certOrder hasDnsServer attempt.domain
    (attempt.certOptions.expired && decide (acmeProvider = .google))

/-- The DNS names that an order identifies. -/
def CertOrder.names (a : AcmeLibrary) (order : CertOrder) : List JsString :=
  order.identifiers.getD (a.csrNames order.csr)

/-- A certificate has the names of the CSR with which an order was finalized. -/
def CertOrder.Answered (a : AcmeLibrary) (order : CertOrder) (cert : JsString) : Prop :=
  a.csrNames order.csr ⊆ a.dnsNames cert

variable {a : AcmeLibrary}

theorem domain_mem_csrNames (ha : a.Lawful) (hasDnsServer : Bool) (domain : JsString)
    (shortLived : Bool) : domain ∈ a.csrNames (certOrder hasDnsServer domain shortLived).csr := by
  simp only [certOrder]
  by_cases hwildcard : isWildcard domain hasDnsServer = true
  · rw [if_pos hwildcard]
    apply ha.altNames_subset
    exact List.mem_cons_self
  · rw [if_neg hwildcard]
    exact ha.commonName_mem ⟨domain, []⟩

/-- Every order identifies the domain that it is for. -/
theorem domain_mem_names (ha : a.Lawful) (hasDnsServer : Bool) (domain : JsString)
    (shortLived : Bool) : domain ∈ (certOrder hasDnsServer domain shortLived).names a := by
  have hcsr : domain ∈ a.csrNames (certOrder hasDnsServer domain shortLived).csr :=
    domain_mem_csrNames ha hasDnsServer domain shortLived
  cases shortLived with
  | false => exact hcsr
  | true =>
      simp only [CertOrder.names, certOrder, if_true, Option.getD_some]
      split_ifs
      · exact List.mem_cons_self
      · exact List.mem_cons_self

variable {rootDomain host name : JsString}

theorem NameCovers.coversHost {names : List JsString} (h : NameCovers name host)
    (hname : name ∈ names) : CoversHost names host :=
  ⟨name, hname, h⟩

/-- What a wildcard may stand in for is one label below the root domain. -/
theorem exists_label_of_isWildcardCoverable (h : isWildcardCoverable host rootDomain = true) :
    ∃ label, unit '.' ∉ label ∧ host = label ++ js "." ++ rootDomain := by
  rw [isWildcardCoverable] at h
  split_ifs at h with hends
  obtain ⟨label, rfl⟩ := endsWith_iff.mp hends
  have hlabel : includes label (js ".") = false := by
    have hslice : sliceEnd (label ++ (js "." ++ rootDomain)) (rootDomain.length + 1) = label :=
      sliceEnd_append label _ (List.length_append.trans (Nat.add_comm ..))
    rw [hslice] at h
    exact (Bool.not_eq_true' _).mp h
  refine ⟨label, fun hdot => ?_, (List.append_assoc ..).symm⟩
  exact Bool.eq_false_iff.mp hlabel (includes_singleton.mpr hdot)

/-- The name that AcmeCA is asked for covers the host. -/
theorem effectiveDomain_covers (dnsServer : Bool) (rootDomain host : JsString)
    (certOptions : CertOptions) :
    NameCovers (effectiveDomain dnsServer rootDomain host certOptions) host := by
  rw [effectiveDomain]
  split_ifs with hwildcard
  · obtain ⟨label, hlabel, hhost⟩ := exists_label_of_isWildcardCoverable hwildcard.2.1
    exact .inr ⟨label, rootDomain, hlabel, hhost, rfl⟩
  · exact .inl rfl

/-- What the local CA puts into a leaf covers the host, and has no underscore. -/
theorem coveredDomain_covers (h : coveredDomain host = .ok name) :
    NameCovers name host ∧ unit '_' ∉ name := by
  rw [coveredDomain] at h
  split_ifs at h with hunderscore
  · dsimp only at h
    split_ifs at h with hparts
    cases h
    obtain ⟨first, others, hsplit⟩ : ∃ first others, split host (js ".") = first :: others :=
      ⟨_, _, rfl⟩
    rw [hsplit, List.tail_cons] at hparts ⊢
    obtain ⟨hlong, hclean⟩ := not_or.mp hparts
    have hothers : others ≠ [] := by
      rintro rfl
      exact hlong (Nat.zero_le 1)
    have hhost : host = first ++ js "." ++ join (js ".") others := by
      rw [← join_cons (js ".") first hothers, ← hsplit]
      exact (join_split (js_ne_nil (by decide)) host).symm
    have hmem : first ∈ split host (js ".") := by
      rw [hsplit]
      exact List.mem_cons_self
    have hfirst : unit '.' ∉ first := notMem_of_mem_split hmem
    refine ⟨.inr ⟨first, _, hfirst, hhost, rfl⟩, fun hmem => ?_⟩
    rcases List.mem_append.mp hmem with hmem | hmem
    · exact absurd hmem (by decide)
    · rcases mem_join hmem with ⟨part, hpart, hc⟩ | hc
      · exact hclean ⟨part, hpart, hc⟩
      · exact absurd hc (by decide)
  · cases h
    exact ⟨.inl rfl, hunderscore⟩

end TestServer
