import TestServer.Endpoints.TlsMerge

/-!
# Certificate options

`src/tls-certificates/cert-definitions.ts`. The options that shape a
certificate, and the key under which a certificate with them is cached.
-/

namespace TestServer.TlsCertificates

open Js Library Endpoints

inductive RequiredType where
  | acme
  | «local»
deriving DecidableEq

/-- The options of a certificate. A flag that is absent reads as false. -/
structure CertOptions where
  requiredType : Option RequiredType := none
  expired : Bool := false
  revoked : Bool := false
  selfSigned : Bool := false
  overridePrefix : Option JsString := none
  noCommonName : Bool := false
  keyBits : Option Nat := none
  sha1Signature : Bool := false
  incompleteChain : Bool := false
deriving DecidableEq

def flag (options : Record) (key : JsString) : Bool :=
  match options.get key with
  | some v => v.truthy
  | none => false

def readRequiredType : Option JsValue → Option RequiredType
  | some (.str s) =>
      if s = js "acme" then some .acme else if s = js "local" then some .local else none
  | _ => none

/-- The merged options read as `CertOptions`. -/
def CertOptions.ofRecord (options : Record) : CertOptions where
  requiredType := readRequiredType (options.get (js "requiredType"))
  expired := flag options (js "expired")
  revoked := flag options (js "revoked")
  selfSigned := flag options (js "selfSigned")
  overridePrefix :=
    match options.get (js "overridePrefix") with
    | some (.str s) => some s
    | _ => none
  noCommonName := flag options (js "noCommonName")
  keyBits :=
    match options.get (js "keyBits") with
    | some (.num n) => some n.toNat
    | _ => none
  sha1Signature := flag options (js "sha1Signature")
  incompleteChain := flag options (js "incompleteChain")

/-- The override prefix, when it counts as true. -/
def CertOptions.override (options : CertOptions) : Option JsString :=
  options.overridePrefix.filter fun p => !p.isEmpty

/-- The key size, when it counts as true. -/
def CertOptions.leafKeyBits (options : CertOptions) : Option Nat :=
  options.keyBits.filter fun n => decide (n ≠ 0)

def flagParts (options : CertOptions) : List JsString :=
  (if options.expired then [js "expired"] else []) ++
  (if options.revoked then [js "revoked"] else []) ++
  (if options.selfSigned then [js "selfSigned"] else []) ++
  (if options.noCommonName then [js "noCommonName"] else []) ++
  (if options.sha1Signature then [js "sha1Signature"] else [])

/-- The `parts` that a cache key lists. -/
def certKeyParts (options : CertOptions) : List JsString :=
  flagParts options ++
  (match options.override with
    | some p => [js "override=" ++ p]
    | none => []) ++
  (match options.leafKeyBits with
    | some n => [js "keyBits=" ++ decimal n]
    | none => [])

def calculateCertCacheKey (domain : JsString) (options : CertOptions) : JsString :=
  domain ++ js "+" ++ join (js "+") (certKeyParts options)

theorem mem_certKeyParts {options : CertOptions} {x : JsString} :
    x ∈ certKeyParts options ↔
      (options.expired = true ∧ x = js "expired") ∨
      (options.revoked = true ∧ x = js "revoked") ∨
      (options.selfSigned = true ∧ x = js "selfSigned") ∨
      (options.noCommonName = true ∧ x = js "noCommonName") ∨
      (options.sha1Signature = true ∧ x = js "sha1Signature") ∨
      (∃ p, options.override = some p ∧ x = js "override=" ++ p) ∨
      (∃ n, options.leafKeyBits = some n ∧ x = js "keyBits=" ++ decimal n) := by
  simp only [certKeyParts, flagParts, List.mem_append, List.mem_ite_nil_right,
    List.mem_singleton, or_assoc]
  cases options.override <;> cases options.leafKeyBits <;> simp

/-- The texts that key parts are made of, besides an override prefix and a number. -/
def keyPartWords : List JsString :=
  [js "expired", js "revoked", js "selfSigned", js "noCommonName", js "sha1Signature",
    js "override=", js "keyBits="]

theorem certKeyParts_ne_nil {options : CertOptions} :
    ∀ part ∈ certKeyParts options, part ≠ [] := by
  intro part hpart
  rcases mem_certKeyParts.mp hpart with
    ⟨_, rfl⟩ | ⟨_, rfl⟩ | ⟨_, rfl⟩ | ⟨_, rfl⟩ | ⟨_, rfl⟩ | ⟨p, _, rfl⟩ | ⟨n, _, rfl⟩
  · decide
  · decide
  · decide
  · decide
  · decide
  · exact List.append_ne_nil_of_left_ne_nil (by decide) p
  · exact List.append_ne_nil_of_left_ne_nil (by decide) _

/-- A unit that is in none of the texts, no digit and not in the override is in no key part. -/
theorem notMem_certKeyParts {c : UInt16} (hwords : ∀ word ∈ keyPartWords, c ∉ word)
    (hdigit : isDigit c = false) {options : CertOptions}
    (hoverride : ∀ p ∈ options.override, c ∉ p) : ∀ part ∈ certKeyParts options, c ∉ part := by
  intro part hpart
  rcases mem_certKeyParts.mp hpart with
    ⟨_, rfl⟩ | ⟨_, rfl⟩ | ⟨_, rfl⟩ | ⟨_, rfl⟩ | ⟨_, rfl⟩ | ⟨p, hp, rfl⟩ | ⟨n, _, rfl⟩
  · exact hwords _ (by decide)
  · exact hwords _ (by decide)
  · exact hwords _ (by decide)
  · exact hwords _ (by decide)
  · exact hwords _ (by decide)
  · rw [List.mem_append, not_or]
    exact ⟨hwords _ (by decide), hoverride p hp⟩
  · rw [List.mem_append, not_or]
    refine ⟨hwords _ (by decide), fun hmem => ?_⟩
    rw [isDigit_of_mem_decimal hmem] at hdigit
    cases hdigit

/-- The first three units of a key part tell which option it stands for. -/
theorem mem_tags_iff {options : CertOptions} {tag : JsString} :
    tag ∈ (certKeyParts options).map (List.take 3) ↔
      (options.expired = true ∧ tag = js "exp") ∨
      (options.revoked = true ∧ tag = js "rev") ∨
      (options.selfSigned = true ∧ tag = js "sel") ∨
      (options.noCommonName = true ∧ tag = js "noC") ∨
      (options.sha1Signature = true ∧ tag = js "sha") ∨
      (options.override.isSome = true ∧ tag = js "ove") ∨
      (options.leafKeyBits.isSome = true ∧ tag = js "key") := by
  simp only [List.mem_map, mem_certKeyParts]
  constructor
  · rintro ⟨x, hx, rfl⟩
    rcases hx with ⟨h, rfl⟩ | ⟨h, rfl⟩ | ⟨h, rfl⟩ | ⟨h, rfl⟩ | ⟨h, rfl⟩ | ⟨p, h, rfl⟩ | ⟨n, h, rfl⟩
    · exact Or.inl ⟨h, rfl⟩
    · exact Or.inr (Or.inl ⟨h, rfl⟩)
    · exact Or.inr (Or.inr (Or.inl ⟨h, rfl⟩))
    · exact Or.inr (Or.inr (Or.inr (Or.inl ⟨h, rfl⟩)))
    · exact Or.inr (Or.inr (Or.inr (Or.inr (Or.inl ⟨h, rfl⟩))))
    · exact Or.inr (Or.inr (Or.inr (Or.inr (Or.inr (Or.inl ⟨by simp [h], rfl⟩)))))
    · exact Or.inr (Or.inr (Or.inr (Or.inr (Or.inr (Or.inr ⟨by simp [h], rfl⟩)))))
  · rintro (⟨h, rfl⟩ | ⟨h, rfl⟩ | ⟨h, rfl⟩ | ⟨h, rfl⟩ | ⟨h, rfl⟩ | ⟨h, rfl⟩ | ⟨h, rfl⟩)
    · exact ⟨_, Or.inl ⟨h, rfl⟩, rfl⟩
    · exact ⟨_, Or.inr (Or.inl ⟨h, rfl⟩), rfl⟩
    · exact ⟨_, Or.inr (Or.inr (Or.inl ⟨h, rfl⟩)), rfl⟩
    · exact ⟨_, Or.inr (Or.inr (Or.inr (Or.inl ⟨h, rfl⟩))), rfl⟩
    · exact ⟨_, Or.inr (Or.inr (Or.inr (Or.inr (Or.inl ⟨h, rfl⟩)))), rfl⟩
    · obtain ⟨p, hp⟩ := Option.isSome_iff_exists.mp h
      exact ⟨_, Or.inr (Or.inr (Or.inr (Or.inr (Or.inr (Or.inl ⟨p, hp, rfl⟩))))), rfl⟩
    · obtain ⟨n, hn⟩ := Option.isSome_iff_exists.mp h
      exact ⟨_, Or.inr (Or.inr (Or.inr (Or.inr (Or.inr (Or.inr ⟨n, hn, rfl⟩))))), rfl⟩

/-- Options agree on everything that a cache key names. -/
structure SameKeyed (a b : CertOptions) : Prop where
  expired : a.expired = b.expired
  revoked : a.revoked = b.revoked
  selfSigned : a.selfSigned = b.selfSigned
  noCommonName : a.noCommonName = b.noCommonName
  sha1Signature : a.sha1Signature = b.sha1Signature
  override : a.override = b.override
  leafKeyBits : a.leafKeyBits = b.leafKeyBits

theorem override_of_mem {options : CertOptions} {p : JsString}
    (h : js "override=" ++ p ∈ certKeyParts options) : options.override = some p := by
  have differs {t : JsString} (ht : js "override=" ++ p = t) : js "ove" = t.take 3 := by
    rw [← ht]
    rfl
  rcases mem_certKeyParts.mp h with
    ⟨_, h⟩ | ⟨_, h⟩ | ⟨_, h⟩ | ⟨_, h⟩ | ⟨_, h⟩ | ⟨q, hq, h⟩ | ⟨n, _, h⟩
  · exact absurd (differs h) (by decide)
  · exact absurd (differs h) (by decide)
  · exact absurd (differs h) (by decide)
  · exact absurd (differs h) (by decide)
  · exact absurd (differs h) (by decide)
  · rw [hq, List.append_cancel_left h]
  · exact absurd (show js "ove" = js "key" from differs h) (by decide)

theorem leafKeyBits_of_mem {options : CertOptions} {n : Nat}
    (h : js "keyBits=" ++ decimal n ∈ certKeyParts options) : options.leafKeyBits = some n := by
  have differs {t : JsString} (ht : js "keyBits=" ++ decimal n = t) : js "key" = t.take 3 := by
    rw [← ht]
    rfl
  rcases mem_certKeyParts.mp h with
    ⟨_, h⟩ | ⟨_, h⟩ | ⟨_, h⟩ | ⟨_, h⟩ | ⟨_, h⟩ | ⟨q, _, h⟩ | ⟨m, hm, h⟩
  · exact absurd (differs h) (by decide)
  · exact absurd (differs h) (by decide)
  · exact absurd (differs h) (by decide)
  · exact absurd (differs h) (by decide)
  · exact absurd (differs h) (by decide)
  · exact absurd (show js "key" = js "ove" from differs h) (by decide)
  · rw [hm, decimal_injective (List.append_cancel_left h)]

/-- The parts of a cache key determine the options they name. -/
theorem sameKeyed_of_certKeyParts_eq {a b : CertOptions} (h : certKeyParts a = certKeyParts b) :
    SameKeyed a b := by
  have htags (tag : JsString) :
      tag ∈ (certKeyParts a).map (List.take 3) ↔ tag ∈ (certKeyParts b).map (List.take 3) := by
    rw [h]
  simp only [mem_tags_iff] at htags
  have hoverride {a b : CertOptions} (h : certKeyParts a = certKeyParts b) {p : JsString}
      (hp : a.override = some p) : b.override = some p := by
    apply override_of_mem
    rw [← h, mem_certKeyParts]
    exact Or.inr (Or.inr (Or.inr (Or.inr (Or.inr (Or.inl ⟨p, hp, rfl⟩)))))
  have hkeyBits {a b : CertOptions} (h : certKeyParts a = certKeyParts b) {n : Nat}
      (hn : a.leafKeyBits = some n) : b.leafKeyBits = some n := by
    apply leafKeyBits_of_mem
    rw [← h, mem_certKeyParts]
    exact Or.inr (Or.inr (Or.inr (Or.inr (Or.inr (Or.inr ⟨n, hn, rfl⟩)))))
  constructor
  · exact Bool.eq_iff_iff.mpr (by simpa +decide using htags (js "exp"))
  · exact Bool.eq_iff_iff.mpr (by simpa +decide using htags (js "rev"))
  · exact Bool.eq_iff_iff.mpr (by simpa +decide using htags (js "sel"))
  · exact Bool.eq_iff_iff.mpr (by simpa +decide using htags (js "noC"))
  · exact Bool.eq_iff_iff.mpr (by simpa +decide using htags (js "sha"))
  · exact Option.ext fun p => ⟨hoverride h, hoverride h.symm⟩
  · exact Option.ext fun n => ⟨hkeyBits h, hkeyBits h.symm⟩

end TestServer.TlsCertificates
