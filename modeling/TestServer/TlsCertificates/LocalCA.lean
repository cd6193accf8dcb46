import Mathlib.Order.MinMax
import TestServer.Js.Date
import TestServer.TlsCertificates.CertDefinitions

/-!
# Leaf certificates of the local CA

The validity that `LocalCA.generateCertificate` of `src/tls-certificates/local-ca.ts`
gives to a leaf: a year, or a day that is over for an expired certificate, and
never past the end of the intermediate certificate that issues it.
-/

namespace TestServer.TlsCertificates

open Js

structure Validity where
  notBefore : Time
  notAfter : Time
deriving DecidableEq

def clampNotAfter (notAfter issuerNotAfter : Time) : Time :=
  if notAfter > issuerNotAfter then issuerNotAfter else notAfter

/-- The validity asked for, before the issuer limits it. -/
def requestedValidity (options : CertOptions) (now : Time) : Validity :=
  if options.expired then ⟨addDays now (-2), addDays now (-1)⟩
  else ⟨addDays now (-1), addYears now 1⟩

/-- The validity of a new leaf. A self-signed leaf has no issuer to outlive. -/
def leafValidity (options : CertOptions) (intermediateNotAfter now : Time) : Validity :=
  let requested := requestedValidity options now
  if options.selfSigned then requested
  else { requested with notAfter := clampNotAfter requested.notAfter intermediateNotAfter }

/-- What one process holds of the local CA for a leaf: the leaf in its cache, if any, and the
end of its intermediate certificate. -/
structure LocalCA where
  cachedLeaf : Option Validity
  intermediateNotAfter : Time
deriving DecidableEq

/-- The end of the leaf; that of a new one is the date as certificates encode it. -/
def LocalCA.leafNotAfter (ca : LocalCA) (encodeTime : Time → Time) (options : CertOptions)
    (now : Time) : Time :=
  match ca.cachedLeaf with
  | some leaf => leaf.notAfter
  | none => encodeTime (leafValidity options ca.intermediateNotAfter now).notAfter

theorem clampNotAfter_eq_min (notAfter issuerNotAfter : Time) :
    clampNotAfter notAfter issuerNotAfter = min notAfter issuerNotAfter := by
  rw [clampNotAfter]
  split_ifs with h
  · exact (min_eq_right h.le).symm
  · exact (min_eq_left (not_lt.mp h)).symm

/-- A new leaf that is not asked to be expired is valid as long as its issuer, up to a year. -/
theorem lt_encodeTime_leafValidity_iff {options : CertOptions} {encodeTime : Time → Time}
    (hmono : ∀ s t, s ≤ t → encodeTime s ≤ encodeTime t) {intermediateNotAfter now t : Time}
    (hexpired : options.expired = false) :
    t < encodeTime (leafValidity options intermediateNotAfter now).notAfter ↔
      t < encodeTime (addYears now 1) ∧
        (options.selfSigned = true ∨ t < encodeTime intermediateNotAfter) := by
  simp only [leafValidity, requestedValidity, hexpired, Bool.false_eq_true, if_false]
  split_ifs with hself
  · simp [hself]
  · have hmonotone : Monotone encodeTime := fun s t hle => hmono s t hle
    rw [clampNotAfter_eq_min, hmonotone.map_min, lt_min_iff]
    simp [hself]

end TestServer.TlsCertificates
