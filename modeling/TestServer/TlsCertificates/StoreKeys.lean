import Mathlib.Data.Set.Function
import TestServer.Js.Uri
import TestServer.TlsCertificates.CertDefinitions
import TestServer.TlsCertificates.PersistedCA

/-!
# The keys of a certificate store

Leaf certificates and the authorities of a local CA are kept under one space of
keys. A leaf's key names its domain and its options, and it is the key of no
authority: the intermediate's goes on with hexadecimal digits only, and each part of a
leaf's key has a unit that is none.
-/

namespace TestServer.TlsCertificates

open Js

/-- A text as `crypto.hash` gives it. -/
structure HexText (s : JsString) : Prop where
  ne_nil : s ≠ []
  digits : ∀ u ∈ s, (hexValue u).isSome = true

instance (s : JsString) : Decidable (HexText s) :=
  decidable_of_iff (s ≠ [] ∧ s.all (fun u => (hexValue u).isSome) = true)
    ⟨fun h => ⟨h.1, List.all_eq_true.mp h.2⟩, fun h => ⟨h.ne_nil, List.all_eq_true.mpr h.digits⟩⟩

/-- A part of a key that has no separator. -/
theorem plus_notMem_certKeyParts {options : CertOptions}
    (hoverride : ∀ p ∈ options.overridePrefix, unit '+' ∉ p) :
    ∀ part ∈ certKeyParts options, part ≠ [] ∧ unit '+' ∉ part := by
  intro part hpart
  refine ⟨certKeyParts_ne_nil part hpart, ?_⟩
  apply notMem_certKeyParts (by decide) (by decide) _ part hpart
  intro p hp
  exact hoverride p (Option.filter_eq_some_iff.mp hp).1

/-- A key is read back as its domain and the options that count. -/
theorem calculateCertCacheKey_inj {d d' : JsString} {options options' : CertOptions}
    (hd : unit '+' ∉ d) (hd' : unit '+' ∉ d')
    (hoverride : ∀ p ∈ options.overridePrefix, unit '+' ∉ p)
    (hoverride' : ∀ p ∈ options'.overridePrefix, unit '+' ∉ p)
    (h : calculateCertCacheKey d options = calculateCertCacheKey d' options') :
    d = d' ∧ SameKeyed options options' := by
  rw [calculateCertCacheKey, calculateCertCacheKey, List.append_assoc, List.append_assoc] at h
  obtain ⟨hdomain, hjoin⟩ := append_cons_inj hd hd' h
  refine ⟨hdomain, sameKeyed_of_certKeyParts_eq ?_⟩
  exact join_injective (plus_notMem_certKeyParts hoverride)
    (plus_notMem_certKeyParts hoverride') hjoin

/-- Every part of a key has a unit that is no hexadecimal digit. -/
theorem exists_not_hex {options : CertOptions} {part : JsString}
    (hpart : part ∈ certKeyParts options) : ∃ u ∈ part, hexValue u = none := by
  rcases mem_certKeyParts.mp hpart with
    ⟨_, rfl⟩ | ⟨_, rfl⟩ | ⟨_, rfl⟩ | ⟨_, rfl⟩ | ⟨_, rfl⟩ | ⟨p, _, rfl⟩ | ⟨n, _, rfl⟩
  · exact ⟨unit 'x', by decide, rfl⟩
  · exact ⟨unit 'r', by decide, rfl⟩
  · exact ⟨unit 's', by decide, rfl⟩
  · exact ⟨unit 'n', by decide, rfl⟩
  · exact ⟨unit 's', by decide, rfl⟩
  · exact ⟨unit 'o', List.mem_append_left p (by decide), rfl⟩
  · exact ⟨unit 'k', List.mem_append_left _ (by decide), rfl⟩

theorem join_certKeyParts_ne_hex {options : CertOptions} {s : JsString} (hs : HexText s) :
    join (js "+") (certKeyParts options) ≠ s := by
  rintro rfl
  cases hparts : certKeyParts options with
  | nil =>
      apply hs.ne_nil
      rw [hparts, join_nil]
  | cons part rest =>
      have hpart : part ∈ certKeyParts options := hparts ▸ List.mem_cons_self
      obtain ⟨u, hu, hnone⟩ := exists_not_hex hpart
      have hmem : u ∈ join (js "+") (certKeyParts options) := by
        rw [hparts, join_cons_eq_flatMap]
        exact List.mem_append_left _ hu
      have hdigit := hs.digits u hmem
      rw [hnone] at hdigit
      cases hdigit

variable {x : X509}

/-- No leaf has the key of an authority. -/
theorem calculateCertCacheKey_ne_cacheKey (hhex : ∀ text, HexText (x.certObjectId text))
    {d : JsString} (hd : unit '+' ∉ d) (options : CertOptions) (root : RootCA x)
    (managed : ManagedCA) : calculateCertCacheKey d options ≠ root.cacheKey managed := by
  rw [calculateCertCacheKey, List.append_assoc]
  cases managed with
  | intermediate =>
      intro h
      obtain ⟨-, hjoin⟩ := append_cons_inj (a := d) (b := js "intermediate") hd (by decide) h
      exact join_certKeyParts_ne_hex (hhex _) hjoin
  | clientAuth =>
      intro h
      have hplus : unit '+' ∈ js "client-auth-ca" := by
        rw [← show d ++ (js "+" ++ _) = js "client-auth-ca" from h]
        exact List.mem_append_right _ (List.mem_append_left _ (by decide))
      exact absurd hplus (by decide)

/-- Leaves share a key only if they share their domain and the options that count, none has the
key of an authority, and the same goes for the objects of a store, as far as object ids tell
keys apart. -/
theorem storeKeys_apart (hhex : ∀ text, HexText (x.certObjectId text)) {d d' : JsString}
    {options options' : CertOptions} (hd : unit '+' ∉ d) (hd' : unit '+' ∉ d')
    (hoverride : ∀ p ∈ options.overridePrefix, unit '+' ∉ p)
    (hoverride' : ∀ p ∈ options'.overridePrefix, unit '+' ∉ p) (root : RootCA x)
    (managed : ManagedCA) :
    (calculateCertCacheKey d options = calculateCertCacheKey d' options' →
        d = d' ∧ SameKeyed options options') ∧
      calculateCertCacheKey d options ≠ root.cacheKey managed ∧
      (Set.InjOn x.certObjectId {calculateCertCacheKey d options,
          calculateCertCacheKey d' options', root.cacheKey managed} →
        (x.certObjectId (calculateCertCacheKey d options) =
            x.certObjectId (calculateCertCacheKey d' options') →
          d = d' ∧ SameKeyed options options') ∧
        x.certObjectId (calculateCertCacheKey d options) ≠
          x.certObjectId (root.cacheKey managed)) := by
  have hleaves : calculateCertCacheKey d options = calculateCertCacheKey d' options' →
      d = d' ∧ SameKeyed options options' :=
    calculateCertCacheKey_inj hd hd' hoverride hoverride'
  have hauthority := calculateCertCacheKey_ne_cacheKey hhex hd options root managed
  refine ⟨hleaves, hauthority, fun hinj => ⟨fun hids => ?_, fun hids => ?_⟩⟩
  · apply hleaves
    exact hinj (by simp) (by simp) hids
  · apply hauthority
    exact hinj (by simp) (by simp) hids

/-- The object ids of the keys below, as the hash gives them. -/
def sampleObjectId (text : JsString) : JsString :=
  if text = js "CERTIFICATE 4102444800000" then js "f9c36713bf570a56"
  else if text = js "example.testserver.host+" then js "cfe6ac9b97a98d94"
  else if text = js "example.testserver.host+override=example" then js "3322599a87dfc227"
  else js "21641bbacaab1c43"

def sampleLibrary : X509 := { X509.plain with certObjectId := sampleObjectId }

def sampleRoot : RootCA sampleLibrary where
  caCert := (4102444800000 : Int)
  caKey := (0 : Nat)
  caCertPem := js "CERTIFICATE 4102444800000"
  countryName := none
  keyLength := none

/-- The certificate of `wrong-host` and the genuine one are kept apart, and both from the
intermediate. -/
theorem storeKeys_apart_wrongHost :
    let genuine := calculateCertCacheKey (js "example.testserver.host") {}
    let wrongHost := calculateCertCacheKey (js "example.testserver.host")
      { overridePrefix := some (js "example") }
    genuine ≠ wrongHost ∧ genuine ≠ sampleRoot.cacheKey .intermediate ∧
      sampleObjectId genuine ≠ sampleObjectId wrongHost := by
  intro genuine wrongHost
  have hhex : ∀ text, HexText (sampleLibrary.certObjectId text) := by
    intro text
    change HexText (sampleObjectId text)
    rw [sampleObjectId]
    split_ifs <;> decide
  have hdomain : unit '+' ∉ js "example.testserver.host" := by
    decide +kernel
  have hnone : ∀ p ∈ ({} : CertOptions).overridePrefix, unit '+' ∉ p := by decide
  have hexample : ∀ p ∈ ({ overridePrefix := some (js "example") } : CertOptions).overridePrefix,
      unit '+' ∉ p := by decide
  have hapart := storeKeys_apart hhex hdomain hdomain hnone hexample sampleRoot .intermediate
  have hdiffer : ¬ SameKeyed {} { overridePrefix := some (js "example") } :=
    fun h => absurd h.override (by decide)
  refine ⟨fun h => hdiffer (hapart.1 h).2, hapart.2.1, fun h => ?_⟩
  apply hdiffer
  refine ((hapart.2.2 ?_).1 h).2
  rintro k hk k' hk'
  simp only [Set.mem_insert_iff, Set.mem_singleton_iff] at hk hk'
  obtain rfl | rfl | rfl := hk <;> obtain rfl | rfl | rfl := hk' <;> decide

/-- An empty override prefix makes the same key as none. -/
theorem calculateCertCacheKey_empty_override :
    let options : CertOptions := { overridePrefix := some [] }
    calculateCertCacheKey (js "example.testserver.host") options =
        calculateCertCacheKey (js "example.testserver.host") {} ∧
      options.overridePrefix ≠ ({} : CertOptions).overridePrefix := by
  decide

end TestServer.TlsCertificates
