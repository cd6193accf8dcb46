import TestServer.Js.Date
import TestServer.Js.Text
import TestServer.Library.InsertionMap

/-!
# The certificate cache in memory

`PersistentCertCache` of `src/tls-certificates/cert-cache.ts`, as far as it acts
on the memory of one process. The backend operations it starts complete later
and are events of the components that use the cache.
-/

namespace TestServer.TlsCertificates

open Js Library

structure CachedCertificate where
  cacheKey : JsString
  domain : JsString
  key : JsString
  cert : JsString
  expiry : Time
deriving DecidableEq

structure PersistentCertCache where
  cache : InsertionMap JsString CachedCertificate
deriving DecidableEq

namespace PersistentCertCache

/-- Put every certificate that the backend lists into the cache. -/
def loadCache (c : PersistentCertCache) (certs : List CachedCertificate) : PersistentCertCache :=
  ⟨certs.foldl (fun cache cert => cache.set cert.cacheKey cert) c.cache⟩

def cacheCert (c : PersistentCertCache) (cert : CachedCertificate) : PersistentCertCache :=
  ⟨c.cache.set cert.cacheKey cert⟩

def clearCache (c : PersistentCertCache) (cacheKey : JsString) : PersistentCertCache :=
  ⟨c.cache.delete cacheKey⟩

def getCert (c : PersistentCertCache) (cacheKey : JsString) : Option CachedCertificate :=
  c.cache.get cacheKey

/-- What `fetchCert` does with the answer of the backend. -/
def storeFetched (c : PersistentCertCache) (cacheKey : JsString)
    (stored : Option CachedCertificate) : PersistentCertCache :=
  match stored with
  | some cert => ⟨c.cache.set cacheKey cert⟩
  | none => c

end PersistentCertCache

end TestServer.TlsCertificates
