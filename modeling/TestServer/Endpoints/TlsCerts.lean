import TestServer.TlsCertificates.LocalCACalls

/-!
# Downloads of certificates

The endpoint of `src/endpoints/http/tls-certs.ts` with the providers that
`src/server.ts` registers before any request. What a provider has given first is
given to every later request.
-/

namespace TestServer.Endpoints

open Js TlsCertificates

/-- `CERT_NAMES` -/
inductive CertName where
  | untrustedRoot
  | intermediate
  | selfSigned
  | clientCert
deriving DecidableEq

def CertName.text : CertName → JsString
  | untrustedRoot => js "untrusted-root"
  | intermediate => js "intermediate"
  | selfSigned => js "self-signed"
  | clientCert => js "client-cert"

/-- The answer to a download. -/
structure Download where
  contentType : JsString
  contentDisposition : JsString
  body : JsString

structure DownloadSetup (x : X509) where
  localCA : LocalCASetup x
  rootDomain : JsString

structure Downloads (x : X509) where
  localCA : LocalCAState x
  /-- What the provider of each certificate has given. -/
  resolved : CertName → Option (Except JsString JsString)

/-- A call of the local CA, or a download. -/
inductive CertRequest where
  | call (c : LocalCACall)
  | handle (name : CertName)

variable {x : X509}

/-- The call that the provider of a certificate makes; the root is at hand. -/
def providerCall (rootDomain : JsString) : CertName → Option LocalCACall
  | .untrustedRoot => none
  | .intermediate => some .getIntermediateCertificatePem
  | .selfSigned => some (.generateCertificate rootDomain { selfSigned := true })
  | .clientCert => some .getClientCertificate

/-- The text that a provider makes of what its call hands out. -/
def providedText (name : CertName) : Handed x → JsString
  | .authority ca => ca.pem
  | .certificate cert =>
      if name = .clientCert then
        trimEnd cert.cert ++ js "\n" ++ trimEnd cert.key ++ js "\n"
      else cert.cert
  | .nothing => []

namespace Downloads

def initial : Downloads x := ⟨LocalCAState.initial, fun _ => none⟩

variable (setup : DownloadSetup x) (s : Downloads x) (context : CallContext)

/-- A provider runs. -/
def provide (name : CertName) : Except JsString JsString × LocalCAState x :=
  match providerCall setup.rootDomain name with
  | none => (.ok setup.localCA.root.caCertPem, s.localCA)
  | some c =>
      let (outcome, localCA) := s.localCA.call setup.localCA context c
      (outcome.map (providedText name), localCA)

/-- `await (resolved[name] ??= provider())` -/
def resolve (name : CertName) : Except JsString JsString × Downloads x :=
  match s.resolved name with
  | some outcome => (outcome, s)
  | none =>
      let (outcome, localCA) := provide setup s context name
      (outcome, ⟨localCA, Function.update s.resolved name (some outcome)⟩)

def handle (name : CertName) : Except JsString Download × Downloads x :=
  let (pem, s) := resolve setup s context name
  (pem.map fun body =>
    { contentType :=
        if name = .clientCert then js "application/x-pem-file"
        else js "application/x-x509-ca-cert"
      contentDisposition :=
        js "attachment; filename=\"testserver-" ++ name.text ++ js ".pem\""
      body := body }, s)

/-- What a request gives, and what is kept after it. -/
def serve : CertRequest → Except JsString (Handed x ⊕ Download) × Downloads x
  | .call c =>
      let (outcome, localCA) := s.localCA.call setup.localCA context c
      (outcome.map .inl, { s with localCA := localCA })
  | .handle name =>
      let (outcome, s) := handle setup s context name
      (outcome.map .inr, s)

end Downloads

end TestServer.Endpoints
