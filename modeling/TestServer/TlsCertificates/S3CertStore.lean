import TestServer.Library.EncodedMap
import TestServer.Library.Runs
import TestServer.TlsCertificates.CertStore

/-!
# Certificates in a bucket

`S3CertStore` of `src/tls-certificates/s3-cert-store.ts`, with an object for each cache key, and
the start of a server, which lists the objects, reads them one by one and puts what it has read
into its certificate cache.

## Implementation notes

The commands of the bucket are atomic, and answer with an HTTP status where they fail. Between two
of them any server may write or delete a certificate, and anything may happen outside the prefix
of the store, where the pending challenges are kept. What was stored is recorded for the
statements only.
-/

namespace TestServer.TlsCertificates

open Js Library Library.Runs Library.EncodedMap

abbrev S3Objects := InsertionMap JsString JsString

/-- `GetObjectCommand` -/
def getObject (objects : S3Objects) (key : JsString) : Except Nat JsString :=
  match objects.get key with
  | some body => .ok body
  | none => .error 404

/-- `PutObjectCommand`, with `IfNoneMatch: '*'` or without -/
def putObject (objects : S3Objects) (key body : JsString) (ifNoneMatch : Bool) :
    Except Nat S3Objects :=
  if ifNoneMatch = true ∧ (objects.get key).isSome = true then .error 412
  else .ok (objects.set key body)

/-- What a listing gives: the keys with a leading part, in any order. -/
def ListsObjects (objects : S3Objects) (lead : JsString) (listed : List JsString) : Prop :=
  listed.Perm (objects.keys.filter (startsWith · lead))

instance (objects : S3Objects) (lead : JsString) (listed : List JsString) :
    Decidable (ListsObjects objects lead listed) := inferInstanceAs (Decidable (List.Perm _ _))

structure S3CertStore where
  bucketPrefix : JsString
  /-- The first 16 digits of a SHA-256 hash. -/
  certObjectId : JsString → JsString

namespace S3CertStore

variable (store : S3CertStore)

def objectKey (cacheKey : JsString) : JsString :=
  store.bucketPrefix ++ store.certObjectId cacheKey ++ js ".json"

/-- The message of any other failure of the client. -/
def clientError : JsString := js "UnknownError"

/-- The certificate of a body, which may be empty. -/
def parseBody (body : JsString) : Except JsString (Option StoredCertificate) :=
  if body = [] then .ok none else (parseStoredCertificate body).map some

def read (objects : S3Objects) (cacheKey : JsString) :
    Except JsString (Option StoredCertificate) :=
  match getObject objects (store.objectKey cacheKey) with
  | .ok body => parseBody body
  | .error status => if status = 404 then .ok none else .error clientError

/-- What `readAll` makes of a listed key. -/
def readListed (objects : S3Objects) (key : JsString) : Option StoredCertificate :=
  match getObject objects key with
  | .ok body => (parseBody body).toOption.join
  | .error _ => none

def put (objects : S3Objects) (cert : CachedCertificate) (onlyIfAbsent : Bool) :
    Except JsString Bool × S3Objects :=
  match putObject objects (store.objectKey cert.cacheKey) (stringifyCertificate cert)
      onlyIfAbsent with
  | .ok written => (.ok true, written)
  | .error status =>
      (if onlyIfAbsent = true ∧ status = 412 then .ok false else .error clientError, objects)

/-- `DeleteObjectCommand`, which also succeeds without the object -/
def delete (objects : S3Objects) (cacheKey : JsString) : S3Objects :=
  objects.delete (store.objectKey cacheKey)

/-- A read is the one of the text under the object's key. -/
theorem read_eq (objects : S3Objects) (cacheKey : JsString) :
    store.read objects cacheKey =
      CertStoreBackend.s3.read (objects.get (store.objectKey cacheKey)) := by
  rw [read, getObject]
  cases objects.get (store.objectKey cacheKey) with
  | none => rfl
  | some body => cases body <;> rfl

theorem put_always (objects : S3Objects) (cert : CachedCertificate) :
    store.put objects cert false =
      (.ok true, objects.set (store.objectKey cert.cacheKey) (stringifyCertificate cert)) := by
  rw [put, putObject, if_neg (fun h => Bool.false_ne_true h.1)]

theorem put_absent {objects : S3Objects} {cert : CachedCertificate}
    (h : objects.get (store.objectKey cert.cacheKey) = none) :
    store.put objects cert true =
      (.ok true, objects.set (store.objectKey cert.cacheKey) (stringifyCertificate cert)) := by
  rw [put, putObject, h, if_neg (fun h => Bool.false_ne_true h.2)]

theorem put_present {objects : S3Objects} {cert : CachedCertificate} {body : JsString}
    (h : objects.get (store.objectKey cert.cacheKey) = some body) :
    store.put objects cert true = (.ok false, objects) := by
  rw [put, putObject, h, if_pos ⟨rfl, rfl⟩]
  rfl

end S3CertStore

end TestServer.TlsCertificates
