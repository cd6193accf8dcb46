import TestServer.TlsCertificates.CertStore
import TestServer.TlsCertificates.LocalCA

/-!
# Certificate authorities kept in a store

`LocalCA.loadOrCreatePersistedCA` of `src/tls-certificates/local-ca.ts` and what
it uses: the two authorities that a server operates, how they are built, how one
is written to the store and how a stored one is read and judged.

## Implementation notes

The X.509 library and the keys are a parameter, and so is the digest that names
an object. A certificate is given by what it is made from. Of its
extensions there is the name that it covers. What is random is drawn from a number.
-/

namespace TestServer.TlsCertificates

open Js

/-- What a certificate is made from. -/
structure CertificateRequest (Certificate CryptoKey : Type) where
  subject : List (JsString × JsString)
  /-- The certificate that issues it, unless it is self-signed. -/
  issuer : Option Certificate
  notBefore : Time
  notAfter : Time
  publicKey : CryptoKey
  signingKey : CryptoKey
  /-- The name that a leaf covers. -/
  dnsName : Option JsString
  sha1Signature : Bool

/-- The X.509 library and the keys. -/
structure X509 where
  Certificate : Type
  CryptoKey : Type
  generateKey : (seed bits : Nat) → CryptoKey
  create : (seed : Nat) → CertificateRequest Certificate CryptoKey → Certificate
  notAfter : Certificate → Time
  /-- `new X509Certificate(pem)`, or nothing where it throws. -/
  parseCertificate : JsString → Option Certificate
  /-- `certificate.toString('pem')` -/
  certificatePem : Certificate → JsString
  /-- `pemToCryptoKey`, or nothing where it throws. -/
  pemToCryptoKey : JsString → Option CryptoKey
  /-- The PEM of an exported key. -/
  keyPem : CryptoKey → JsString
  /-- The end that a certificate gets for a date. -/
  encodeTime : Time → Time
  certObjectId : JsString → JsString

/-- What the library promises. -/
structure X509.Lawful (x : X509) : Prop where
  parse_pem : ∀ certificate, x.parseCertificate (x.certificatePem certificate) = some certificate
  import_key : ∀ key, x.pemToCryptoKey (x.keyPem key) = some key
  certificatePem_ne_nil : ∀ certificate, x.certificatePem certificate ≠ []
  keyPem_ne_nil : ∀ key, x.keyPem key ≠ []
  notAfter_create : ∀ seed request,
    x.notAfter (x.create seed request) = x.encodeTime request.notAfter
  /-- Dates are cut off at seconds or kept. -/
  encodeTime_le : ∀ t, x.encodeTime t ≤ t
  lt_encodeTime : ∀ t, t - 1000 < x.encodeTime t

structure CaMaterial (x : X509) where
  cert : x.Certificate
  key : x.CryptoKey
  pem : JsString

structure CAOptions where
  key : JsString
  cert : JsString
  keyLength : Option Nat
  countryName : Option JsString

/-- The root of a local CA, with the options that it was created with. -/
structure RootCA (x : X509) where
  caCert : x.Certificate
  caKey : x.CryptoKey
  caCertPem : JsString
  countryName : Option JsString
  keyLength : Option Nat

/-- The authorities that are kept in the store. -/
inductive ManagedCA where
  | intermediate
  | clientAuth
deriving DecidableEq

/-- `RENEWAL_MARGIN_MS` -/
def renewalMargin : Time := 1000 * 60 * 60 * 24 * 30

namespace ManagedCA

def cacheDomain : ManagedCA → JsString
  | intermediate => js "intermediate-ca"
  | clientAuth => js "client-auth-ca"

def commonName : ManagedCA → JsString
  | intermediate => js "Test Intermediate CA"
  | clientAuth => js "Testserver Client Authentication CA"

def lifespanYears : ManagedCA → Nat
  | intermediate => 6
  | clientAuth => 10

end ManagedCA

section

variable {x : X509}

def RootCA.cacheKey (root : RootCA x) : ManagedCA → JsString
  | .intermediate => js "intermediate+" ++ x.certObjectId root.caCertPem
  | .clientAuth => js "client-auth-ca"

/-- The certificate and key that issue an authority, if another one does. -/
def RootCA.signWith (root : RootCA x) : ManagedCA → Option (x.Certificate × x.CryptoKey)
  | .intermediate => some (root.caCert, root.caKey)
  | .clientAuth => none

/-- `options.keyLength || 2048`. -/
def RootCA.bits (root : RootCA x) : Nat :=
  match root.keyLength with
  | some (n + 1) => n + 1
  | _ => 2048

variable (x)

/-- `buildCaCertificate`: the key and the certificate. -/
def buildCaCertificate (subject : List (JsString × JsString)) (bits lifespanYears : Nat)
    (signWith : Option (x.Certificate × x.CryptoKey)) (seed : Nat) (now : Time) :
    x.CryptoKey × x.Certificate :=
  let key := x.generateKey seed bits
  (key, x.create seed
    { subject := subject
      issuer := signWith.map Prod.fst
      notBefore := addDays now (-1)
      notAfter := addYears now lifespanYears
      publicKey := key
      signingKey := (signWith.map Prod.snd).getD key
      dnsName := none
      sha1Signature := false })

/-- `generateCACertificate`: a root that signs itself and lasts for a year. -/
def generateCACertificate (commonName organizationName countryName : JsString) (bits seed : Nat)
    (now : Time) : CAOptions :=
  let subject :=
    (if countryName = [] then [] else [(js "C", countryName)]) ++
    (if organizationName = [] then [] else [(js "O", organizationName)]) ++
    (if commonName = [] then [] else [(js "CN", commonName)])
  let (key, certificate) := buildCaCertificate x subject bits 1 none seed now
  { key := x.keyPem key
    cert := x.certificatePem certificate
    keyLength := none
    countryName := none }

/-- The root of `LocalCA.create`, or nothing where it throws. -/
def RootCA.create (caOptions : CAOptions) : Option (RootCA x) := do
  let caCert ← x.parseCertificate caOptions.cert
  let caKey ← x.pemToCryptoKey caOptions.key
  return ⟨caCert, caKey, caOptions.cert, caOptions.countryName, caOptions.keyLength⟩

variable {x}

/-- `buildManagedCA`, for the authority that it is called for. -/
def buildManagedCA (root : RootCA x) (managed : ManagedCA) (seed : Nat) (now : Time) :
    CaMaterial x :=
  let (key, certificate) := buildCaCertificate x
    [(js "C", root.countryName.getD (js "XX")), (js "O", js "Testserver"),
      (js "CN", managed.commonName)]
    root.bits managed.lifespanYears (root.signWith managed) seed now
  ⟨certificate, key, x.certificatePem certificate⟩

/-- Whether the stored end is further away than the margin; nothing if the subtraction throws.
The difference is compared without rounding, which makes no difference. -/
def isCaUsable (stored : StoredCertificate) (now : Time) : Option Bool :=
  stored.expiry.toNumber.map fun n =>
    match n with
    | some (.finite q) => decide (q - now > renewalMargin)
    | some (.infinite negative) => !negative
    | none => false

/-- Only texts can be parsed. -/
def tryParseStoredCA (x : X509) (stored : StoredCertificate) : Option (CaMaterial x) :=
  match stored.cert, stored.key with
  | .str cert, .str key => do
      let certificate ← x.parseCertificate cert
      let cryptoKey ← x.pemToCryptoKey key
      return ⟨certificate, cryptoKey, cert⟩
  | _, _ => none

def caToRecord (ca : CaMaterial x) (cacheKey domain : JsString) : CachedCertificate where
  cacheKey := cacheKey
  domain := domain
  key := x.keyPem ca.key
  cert := ca.pem
  expiry := x.notAfter ca.cert

/-- The authority that a read gives, if it is usable and can be parsed. -/
def adoptStored (x : X509) (stored : Option StoredCertificate) (now : Time) :
    Except JsString (Option (CaMaterial x)) :=
  match stored with
  | none => .ok none
  | some stored =>
      match isCaUsable stored now with
      | none => .error (js "Cannot convert object to primitive value")
      | some true => .ok (tryParseStoredCA x stored)
      | some false => .ok none

/-- What the operations of the store give, where they are called. -/
structure StoreReplies where
  read : Except JsString (Option StoredCertificate)
  write : Except JsString Unit
  writeIfAbsent : Except JsString Bool
  reread : Except JsString (Option StoredCertificate)

/-- `loadOrCreatePersistedCA`, given what `create` gives and the clock at the two checks. -/
def loadOrCreatePersistedCA (store : Option StoreReplies) (generated : CaMaterial x)
    (now now' : Time) : Except JsString (CaMaterial x) :=
  match store with
  | none => .ok generated
  | some replies => do
      let stored ← replies.read
      match ← adoptStored x stored now with
      | some parsed => return parsed
      | none =>
          if stored.isSome then do
            replies.write
            return generated
          else if ← replies.writeIfAbsent then return generated
          else do
            let winner ← replies.reread
            match ← adoptStored x winner now' with
            | some parsed => return parsed
            | none => return generated

theorem notAfter_buildManagedCA (hx : x.Lawful) (root : RootCA x) (managed : ManagedCA)
    (seed : Nat) (now : Time) :
    x.notAfter (buildManagedCA root managed seed now).cert =
      x.encodeTime (addYears now managed.lifespanYears) :=
  hx.notAfter_create _ _

/-- A new authority lasts for more than the margin. -/
theorem buildManagedCA_fresh (hx : x.Lawful) (root : RootCA x) (managed : ManagedCA) (seed : Nat)
    (now : Time) :
    renewalMargin < x.notAfter (buildManagedCA root managed seed now).cert - now := by
  have hyears := le_addYears now managed.lifespanYears
  have hend : addYears now managed.lifespanYears - 1000 <
      x.notAfter (buildManagedCA root managed seed now).cert := by
    rw [notAfter_buildManagedCA hx]
    exact hx.lt_encodeTime _
  have hspan : renewalMargin + 1000 ≤ 365 * managed.lifespanYears * oneDay := by
    cases managed with
    | intermediate => decide
    | clientAuth => decide
  linarith

/-- A root that was generated is taken as it is. -/
theorem create_generateCACertificate (hx : x.Lawful)
    (commonName organizationName countryName : JsString) (bits seed : Nat) (now : Time) :
    ∃ root, RootCA.create x
        (generateCACertificate x commonName organizationName countryName bits seed now) =
        some root ∧ x.notAfter root.caCert = x.encodeTime (addYears now 1) := by
  simp only [RootCA.create, generateCACertificate, hx.parse_pem, hx.import_key,
    Option.bind_eq_bind, Option.bind_some, Option.pure_def]
  exact ⟨_, rfl, hx.notAfter_create _ _⟩

/-- No operation that a load performs fails, and each end that it looks at can be compared. -/
def StoreReplies.resolve (x : X509) (replies : StoreReplies) (now : Time) : Bool :=
  match replies.read with
  | .error _ => false
  | .ok stored =>
      match adoptStored x stored now with
      | .error _ => false
      | .ok (some _) => true
      | .ok none =>
          if stored.isSome then replies.write.isOk
          else
            match replies.writeIfAbsent with
            | .error _ => false
            | .ok true => true
            | .ok false =>
                match replies.reread with
                | .error _ => false
                | .ok winner => (adoptStored x winner now).isOk

/-- The authority that a load takes from the store. -/
def StoreReplies.adopted (x : X509) (replies : StoreReplies) (now : Time) :
    Option (CaMaterial x) :=
  match replies.read with
  | .error _ => none
  | .ok stored =>
      match adoptStored x stored now with
      | .error _ => none
      | .ok (some parsed) => some parsed
      | .ok none =>
          match stored, replies.writeIfAbsent, replies.reread with
          | none, .ok false, .ok winner => (adoptStored x winner now).toOption.join
          | _, _, _ => none

/-- A load that does not fail gives what it adopts, or else what it has created. -/
theorem loadOrCreatePersistedCA_eq_ok_iff {replies : StoreReplies} {generated ca : CaMaterial x}
    {now : Time} :
    loadOrCreatePersistedCA (some replies) generated now now = .ok ca ↔
      replies.resolve x now = true ∧ (replies.adopted x now).getD generated = ca := by
  rw [loadOrCreatePersistedCA, StoreReplies.resolve, StoreReplies.adopted]
  cases replies.read with
  | error message => simp [Bind.bind, Except.bind]
  | ok stored =>
      simp only [Bind.bind, Except.bind]
      cases adoptStored x stored now with
      | error message => simp
      | ok adopted =>
          cases adopted with
          | some parsed => simp [Pure.pure, Except.pure]
          | none =>
              cases stored with
              | some stored =>
                  cases replies.write with
                  | error message => simp [Except.isOk, Except.toBool]
                  | ok written => simp [Except.isOk, Except.toBool, Pure.pure, Except.pure]
              | none =>
                  cases replies.writeIfAbsent with
                  | error message => simp
                  | ok written =>
                      cases written with
                      | true => simp [Pure.pure, Except.pure]
                      | false =>
                          cases replies.reread with
                          | error message => simp
                          | ok winner =>
                              simp only [Bool.false_eq_true, if_false, Option.isSome_none]
                              cases adoptStored x winner now with
                              | error message => simp [Except.isOk, Except.toBool]
                              | ok adopted =>
                                  cases adopted with
                                  | some parsed =>
                                      simp [Except.isOk, Except.toBool, Except.toOption,
                                        Pure.pure, Except.pure]
                                  | none =>
                                      simp [Except.isOk, Except.toBool, Except.toOption,
                                        Pure.pure, Except.pure]

theorem RootCA.cacheKey_ne_nil (root : RootCA x) (managed : ManagedCA) :
    root.cacheKey managed ≠ [] := by
  cases managed with
  | intermediate => exact List.append_ne_nil_of_left_ne_nil (js_ne_nil (by decide)) _
  | clientAuth => exact js_ne_nil (by decide)

theorem ManagedCA.cacheDomain_ne_nil (managed : ManagedCA) : managed.cacheDomain ≠ [] := by
  cases managed with
  | intermediate => exact js_ne_nil (by decide)
  | clientAuth => exact js_ne_nil (by decide)

variable {ca : CaMaterial x} {cacheKey domain : JsString}

theorem tryParseStoredCA_caToRecord (hx : x.Lawful) (hpem : ca.pem = x.certificatePem ca.cert) :
    tryParseStoredCA x (caToRecord ca cacheKey domain).stored = some ca := by
  cases ca with
  | mk certificate key pem =>
      obtain rfl : pem = x.certificatePem certificate := hpem
      simp only [tryParseStoredCA, caToRecord, CachedCertificate.stored, hx.parse_pem,
        hx.import_key, Option.bind_eq_bind, Option.bind_some, Option.pure_def]

theorem complete_caToRecord (hx : x.Lawful) (hpem : ca.pem = x.certificatePem ca.cert)
    (hkey : cacheKey ≠ []) (hdomain : domain ≠ []) (hne : x.notAfter ca.cert ≠ 0)
    (hexact : |x.notAfter ca.cert| < 2 ^ 53) : (caToRecord ca cacheKey domain).Complete where
  cacheKey := hkey
  domain := hdomain
  key := hx.keyPem_ne_nil _
  cert := by
    change ca.pem ≠ []
    rw [hpem]
    exact hx.certificatePem_ne_nil _
  expiry := hne
  exact := hexact

/-- A record is usable as long as its end is further away than the margin. -/
theorem isCaUsable_caToRecord (now : Time) :
    isCaUsable (caToRecord ca cacheKey domain).stored now =
      some (decide (renewalMargin < x.notAfter ca.cert - now)) := by
  have hiff : ((x.notAfter ca.cert : ℚ) - (now : ℚ) > (renewalMargin : ℚ)) ↔
      renewalMargin < x.notAfter ca.cert - now := by
    rw [← Int.cast_sub, gt_iff_lt, Int.cast_lt]
  exact congrArg some (decide_eq_decide.mpr hiff)

theorem adoptStored_of_usable {stored : StoredCertificate} {now : Time}
    (h : isCaUsable stored now = some true) :
    adoptStored x (some stored) now = .ok (tryParseStoredCA x stored) := by
  simp only [adoptStored, h]

/-- A record that is not adopted is not adopted later. -/
theorem adoptStored_none_mono {stored : StoredCertificate} {now later : Time} (h : now ≤ later)
    (hnone : adoptStored x (some stored) now = .ok none) :
    adoptStored x (some stored) later = .ok none := by
  have hcast : (now : ℚ) ≤ later := Int.cast_le.mpr h
  simp only [adoptStored, isCaUsable] at hnone ⊢
  cases hnumber : stored.expiry.toNumber with
  | none =>
      rw [hnumber] at hnone
      cases hnone
  | some n =>
      rw [hnumber] at hnone
      cases n with
      | none => rfl
      | some n =>
          cases n with
          | infinite negative => exact hnone
          | finite q =>
              simp only [Option.map_some] at hnone ⊢
              by_cases hlater : q - later > renewalMargin
              · have hnow : q - now > renewalMargin := by linarith
                rw [decide_eq_true hnow] at hnone
                rw [decide_eq_true hlater]
                exact hnone
              · rw [decide_eq_false hlater]

end

namespace X509

/-- The number that follows a label. -/
def readLabelled (label pem : JsString) : Option Int :=
  let (negative, digits) := minusSign (pem.drop label.length)
  let n : Int := if negative then -(digitsValue digits : Int) else digitsValue digits
  if pem = label ++ integer n then some n else none

theorem readLabelled_append (label : JsString) (n : Int) :
    readLabelled label (label ++ integer n) = some n := by
  have hsign : minusSign (integer n) = (decide (n < 0), decimal n.natAbs) := by
    rw [← List.append_nil (integer n), minusSign_integer, List.append_nil]
  rw [readLabelled, List.drop_left, hsign]
  dsimp only
  rw [digitsValue_decimal]
  have hn : (if decide (n < 0) = true then -(n.natAbs : Int) else n.natAbs) = n := by
    split_ifs with h
    · rw [decide_eq_true_eq] at h
      omega
    · rw [decide_eq_true_eq] at h
      omega
  rw [hn, if_pos rfl]

/-- A certificate is no more than its end, and a key no more than the number it is drawn from. -/
def plain : X509 where
  Certificate := Int
  CryptoKey := Nat
  generateKey seed _ := seed
  create _ request := request.notAfter - request.notAfter % 1000
  notAfter certificate := certificate
  parseCertificate := readLabelled (js "CERTIFICATE ")
  certificatePem certificate := js "CERTIFICATE " ++ integer certificate
  pemToCryptoKey pem := (readLabelled (js "PRIVATE KEY ") pem).map Int.toNat
  keyPem key := js "PRIVATE KEY " ++ integer key
  encodeTime t := t - t % 1000
  certObjectId certPem := certPem

theorem plain_lawful : plain.Lawful where
  parse_pem certificate := readLabelled_append _ certificate
  import_key key := by
    change ((readLabelled (js "PRIVATE KEY ") (js "PRIVATE KEY " ++ integer _)).map Int.toNat) = _
    rw [readLabelled_append]
    rfl
  certificatePem_ne_nil certificate :=
    List.append_ne_nil_of_left_ne_nil (js_ne_nil (by decide)) _
  keyPem_ne_nil key := List.append_ne_nil_of_left_ne_nil (js_ne_nil (by decide)) _
  notAfter_create seed request := rfl
  encodeTime_le t := Int.sub_le_self t (Int.emod_nonneg t (by decide))
  lt_encodeTime t := Int.sub_lt_sub_left (Int.emod_lt_of_pos t (by decide)) t

/-- A root for the plain library. -/
def plainRoot : RootCA plain where
  caCert := (4102444800000 : Int)
  caKey := (0 : Nat)
  caCertPem := js "CERTIFICATE 4102444800000"
  countryName := none
  keyLength := none

end X509

end TestServer.TlsCertificates
