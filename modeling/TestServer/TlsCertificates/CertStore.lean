import TestServer.Js.Coercion
import TestServer.TlsCertificates.CertCache

/-!
# Certificates in a shared store

The records of `src/tls-certificates/cert-cache.ts` and what the two backends,
`src/tls-certificates/fs-cert-store.ts` and `src/tls-certificates/s3-cert-store.ts`,
make of the text that is stored under a key.

## Implementation notes

The text under one key is modelled, with nothing for no text. An operation that
rejects gives the message of its error. The messages of the runtime are shortened.
-/

namespace TestServer.TlsCertificates

open Js

/-- What a stored text holds. Its members are checked to count as true, and nothing else. -/
structure StoredCertificate where
  cacheKey : JsonValue
  domain : JsonValue
  key : JsonValue
  cert : JsonValue
  expiry : JsonValue

/-- A member that has to be there. -/
def requireMember (data : JsonValue) (name : JsString) : Except JsString JsonValue :=
  match data with
  | .null => .error (js "Cannot read properties of null")
  | data =>
      match data.get name with
      | some v => if v.truthy then .ok v else .error (js "No " ++ name ++ js " in cert")
      | none => .error (js "No " ++ name ++ js " in cert")

def parseStoredCertificate (raw : JsString) : Except JsString StoredCertificate :=
  match jsonParse raw with
  | none => .error (js "SyntaxError")
  | some data => do
      let cacheKey ← requireMember data (js "cacheKey")
      let domain ← requireMember data (js "domain")
      let key ← requireMember data (js "key")
      let cert ← requireMember data (js "cert")
      let expiry ← requireMember data (js "expiry")
      return ⟨cacheKey, domain, key, cert, expiry⟩

/-- `JSON.stringify(cert)`. -/
def stringifyCertificate (cert : CachedCertificate) : JsString :=
  stringifyObject
    [(js "cacheKey", .str cert.cacheKey), (js "domain", .str cert.domain),
      (js "key", .str cert.key), (js "cert", .str cert.cert), (js "expiry", .num cert.expiry)]

/-- The certificate as it is read back. -/
def CachedCertificate.stored (cert : CachedCertificate) : StoredCertificate where
  cacheKey := .str cert.cacheKey
  domain := .str cert.domain
  key := .str cert.key
  cert := .str cert.cert
  expiry := .num (.finite cert.expiry)

inductive CertStoreBackend where
  | filesystem
  | s3
deriving DecidableEq

namespace CertStoreBackend

/-- `read` of a stored text. An empty object in S3 reads as no certificate. -/
def read (backend : CertStoreBackend) (raw : Option JsString) :
    Except JsString (Option StoredCertificate) :=
  match backend, raw with
  | _, none => .ok none
  | .s3, some [] => .ok none
  | _, some text => (parseStoredCertificate text).map some

/-- `writeIfAbsent`: whether it has written, and the text after it. -/
def writeIfAbsent (raw : Option JsString) (cert : CachedCertificate) : Bool × Option JsString :=
  match raw with
  | none => (true, some (stringifyCertificate cert))
  | some text => (false, some text)

end CertStoreBackend

/-- A certificate whose members count as true, with an end that is exact as a number. -/
structure CachedCertificate.Complete (record : CachedCertificate) : Prop where
  cacheKey : record.cacheKey ≠ []
  domain : record.domain ≠ []
  key : record.key ≠ []
  cert : record.cert ≠ []
  expiry : record.expiry ≠ 0
  exact : |record.expiry| < 2 ^ 53

theorem jsonParse_stringifyCertificate {cert : CachedCertificate} (h : cert.Complete) :
    jsonParse (stringifyCertificate cert) = some (.object
      [(js "cacheKey", .str cert.cacheKey), (js "domain", .str cert.domain),
        (js "key", .str cert.key), (js "cert", .str cert.cert),
        (js "expiry", .num (.finite cert.expiry))]) := by
  apply jsonParse_stringifyObject (List.cons_ne_nil _ _)
  exact .cons ⟨rfl, readsBack_str _⟩ (.cons ⟨rfl, readsBack_str _⟩ (.cons ⟨rfl, readsBack_str _⟩
    (.cons ⟨rfl, readsBack_str _⟩ (.cons ⟨rfl, readsBack_num h.exact⟩ .nil))))

theorem requireMember_of_get {data v : JsonValue} {name : JsString}
    (hget : data.get name = some v) (hv : v.truthy = true) : requireMember data name = .ok v := by
  cases data with
  | object members =>
      simp only [requireMember, hget, hv, if_true]
  | null => cases hget
  | bool b => cases hget
  | num n => cases hget
  | str s => cases hget
  | array elements => cases hget

theorem truthy_str {s : JsString} (h : s ≠ []) : (JsonValue.str s).truthy = true := by
  rw [JsonValue.truthy, Bool.not_eq_true', List.isEmpty_eq_false_iff]
  exact h

/-- A certificate that is written is read back. -/
theorem parse_stringifyCertificate {cert : CachedCertificate} (h : cert.Complete) :
    parseStoredCertificate (stringifyCertificate cert) = .ok cert.stored := by
  have hexpiry : (JsonValue.num (.finite cert.expiry)).truthy = true := by
    rw [JsonValue.truthy, decide_eq_true_eq]
    exact Int.cast_ne_zero.mpr h.expiry
  rw [parseStoredCertificate, jsonParse_stringifyCertificate h]
  dsimp only
  rw [requireMember_of_get rfl (truthy_str h.cacheKey),
    requireMember_of_get rfl (truthy_str h.domain), requireMember_of_get rfl (truthy_str h.key),
    requireMember_of_get rfl (truthy_str h.cert), requireMember_of_get rfl hexpiry]
  rfl

theorem read_some_cons (backend : CertStoreBackend) (c : UInt16) (rest : JsString) :
    backend.read (some (c :: rest)) = (parseStoredCertificate (c :: rest)).map some := by
  cases backend with
  | filesystem => rfl
  | s3 => rfl

/-- Either backend reads a written certificate as it parses. -/
theorem read_stringifyCertificate (backend : CertStoreBackend) {cert : CachedCertificate}
    {stored : StoredCertificate}
    (h : parseStoredCertificate (stringifyCertificate cert) = .ok stored) :
    backend.read (some (stringifyCertificate cert)) = .ok (some stored) := by
  have htext : stringifyCertificate cert = 123 :: (stringifyCertificate cert).tail := rfl
  rw [htext] at h ⊢
  rw [read_some_cons, h]
  rfl

end TestServer.TlsCertificates
