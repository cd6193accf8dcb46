import TestServer.TlsCertificates.LocalCACalls

/-!
# OCSP answers of the local CA

`LocalCA.getOcspResponse` of `src/tls-certificates/local-ca.ts` with what it
looks at: the certificates that a process holds with their keys, and how leaves
come and go. The response is that of `src/tls-certificates/ocsp.ts`.

## Implementation notes

A response is given by what it is made from, before it is encoded; the digests
of names and keys are read off a certificate. A key stands for the pair of a
private and a public key. The end of a generation is an event of its own,
so generations may overlap.
-/

namespace TestServer.TlsCertificates

open Js Library

/-- What the library reads off a certificate, and how it checks one. -/
structure X509.Reader (x : X509) where
  /-- The bytes of a certificate. -/
  rawData : x.Certificate → List UInt8
  /-- `new X509Certificate(pem)` for the PEM of some bytes, or nothing where it throws. -/
  parseDer : List UInt8 → Option x.Certificate
  /-- The text of a distinguished name. -/
  nameText : List (JsString × JsString) → JsString
  subject : x.Certificate → JsString
  issuer : x.Certificate → JsString
  serialNumber : x.Certificate → JsString
  /-- The serial number that is drawn for a certificate. -/
  generateSerialNumber : Nat → JsString
  publicKey : x.Certificate → x.CryptoKey
  /-- The DNS names of the subject alternative name extension, if there is one. -/
  dnsNames : x.Certificate → Option (List JsString)
  equal : x.Certificate → x.Certificate → Bool
  /-- Whether the signature of the certificate is one of the key; false where this throws. -/
  verify : x.Certificate → x.CryptoKey → Bool
  /-- The SHA-1 digests of the subject and of the public key. -/
  subjectHash : x.Certificate → List UInt8
  publicKeyHash : x.Certificate → List UInt8

/-- What the library promises of the certificates that it creates, and of equality. -/
structure X509.Reader.Lawful {x : X509} (r : x.Reader) : Prop where
  parse_rawData : ∀ certificate, r.parseDer (r.rawData certificate) = some certificate
  subject_create : ∀ seed request, r.subject (x.create seed request) = r.nameText request.subject
  issuer_create : ∀ seed request, r.issuer (x.create seed request) =
    (request.issuer.map r.subject).getD (r.nameText request.subject)
  serialNumber_create : ∀ seed request,
    r.serialNumber (x.create seed request) = r.generateSerialNumber seed
  serial_unique : ∀ seed seed', r.generateSerialNumber seed = r.generateSerialNumber seed' →
    seed = seed'
  publicKey_create : ∀ seed request, r.publicKey (x.create seed request) = request.publicKey
  dnsNames_create : ∀ seed request,
    r.dnsNames (x.create seed request) = request.dnsName.map fun name => [name]
  verify_create : ∀ seed request, r.verify (x.create seed request) request.signingKey = true
  equal_iff : ∀ a b, r.equal a b = true ↔ a = b

inductive CertStatus where
  | good
  | revoked (revocationTime : Time)
deriving DecidableEq

def CertStatus.isRevoked : CertStatus → Bool
  | good => false
  | revoked _ => true

structure CertID where
  issuerNameHash : List UInt8
  issuerKeyHash : List UInt8
  serialNumber : JsString
deriving DecidableEq

structure OcspResponse (x : X509) where
  certID : CertID
  certStatus : CertStatus
  thisUpdate : Time
  responderID : JsString
  producedAt : Time
  /-- The key that signs the response. -/
  signingKey : x.CryptoKey
  certs : List x.Certificate

/-- A certificate with its private key. -/
structure KeyedCertificate (x : X509) where
  cert : x.Certificate
  key : x.CryptoKey

section

variable {x : X509} (r : x.Reader)

def createCertId (cert issuerCert : x.Certificate) : CertID where
  issuerNameHash := r.subjectHash issuerCert
  issuerKeyHash := r.publicKeyHash issuerCert
  serialNumber := r.serialNumber cert

def createOcspResponse (cert : x.Certificate) (issuer : KeyedCertificate x) (status : CertStatus)
    (now : Time) : OcspResponse x where
  certID := createCertId r cert issuer.cert
  certStatus := status
  thisUpdate := now
  responderID := r.subject issuer.cert
  producedAt := now
  signingKey := issuer.key
  certs := [issuer.cert]

/-- Whether a part of the name is `revoked`: it is cut at dots, and also at `--` if one of its
labels has that. -/
def isRevokedName (dnsName : JsString) : Bool :=
  let labels := split dnsName (js ".")
  let parts :=
    if labels.any fun l => includes l (js "--") then labels.flatMap fun l => split l (js "--")
    else labels
  decide (js "revoked" ∈ parts)

def isRevokedCert (cert : x.Certificate) : Bool :=
  match r.dnsNames cert with
  | none => false
  | some names => names.any isRevokedName

end

/-- The timer that drops a leaf a day after its generation. -/
structure LeafTimer where
  due : Time
  cacheKey : JsString
  serialNumber : JsString
deriving DecidableEq

/-- The local CA with the self-signed certificates that it still holds the keys of. -/
structure OcspState (x : X509) where
  ca : LocalCAState x
  selfSignedCerts : InsertionMap JsString (KeyedCertificate x)
  timers : List LeafTimer
  /-- Every self-signed certificate that was generated; no code reads this. -/
  generated : List x.Certificate

namespace OcspState

variable {x : X509}

def initial : OcspState x where
  ca := .initial
  selfSignedCerts := .empty
  timers := []
  generated := []

variable (setup : LocalCASetup x) (r : x.Reader)

/-- The key pair of a leaf. -/
def leafKeyPair (context : CallContext) (options : CertOptions) : x.CryptoKey :=
  match options.leafKeyBits with
  | some bits => x.generateKey (context.seed + 1) bits
  | none => setup.keyPair

/-- The end of `generateCertificate`, for the leaf that it has made. -/
def keepLeaf (s : OcspState x) (context : CallContext) (domain : JsString)
    (options : CertOptions) (leaf : LocallyGeneratedCertificate x) : OcspState x :=
  let cacheKey := calculateCacheKey domain options
  let serialNumber := r.serialNumber leaf.certificate
  { ca := s.ca.cacheLeaf cacheKey leaf
    selfSignedCerts :=
      if options.selfSigned then
        s.selfSignedCerts.set serialNumber ⟨leaf.certificate, leafKeyPair setup context options⟩
      else s.selfSignedCerts
    timers := s.timers ++ [⟨context.now + oneDay, cacheKey, serialNumber⟩]
    generated := if options.selfSigned then s.generated ++ [leaf.certificate] else s.generated }

/-- The leaf of a generation that ends, if its issuer is there. -/
def leafFor (s : OcspState x) (context : CallContext) (domain : JsString)
    (options : CertOptions) : Option (LocallyGeneratedCertificate x) :=
  if options.selfSigned then
    some (LocalCAState.makeLeaf setup context domain options none)
  else
    match s.ca.settled .intermediate with
    | some (.ok intermediate) =>
        some (LocalCAState.makeLeaf setup context domain options (some intermediate))
    | _ => none

/-- The callback of a timer. -/
def dropLeaf (s : OcspState x) (timer : LeafTimer) : OcspState x :=
  { s with
    ca := { s.ca with certInMemoryCache := s.ca.certInMemoryCache.delete timer.cacheKey }
    selfSignedCerts := s.selfSignedCerts.delete timer.serialNumber }

def rootIssuer : KeyedCertificate x := ⟨setup.root.caCert, setup.root.caKey⟩

/-- The authorities that may have issued a certificate; the intermediate counts once its load
has begun, and fails with it. -/
def candidates (s : OcspState x) : Except JsString (List (KeyedCertificate x)) :=
  match s.ca.settled .intermediate with
  | some (.ok intermediate) => .ok [⟨intermediate.cert, intermediate.key⟩, rootIssuer setup]
  | some (.error message) => .error message
  | none => .ok [rootIssuer setup]

/-- Whether the authority has issued the certificate. -/
def signedBy (cert : x.Certificate) (candidate : KeyedCertificate x) : Bool :=
  decide (r.issuer cert = r.subject candidate.cert) &&
    r.verify cert (r.publicKey candidate.cert)

/-- The self-signed certificate that is held and is the given one. -/
def ownCert (s : OcspState x) (cert : x.Certificate) : Option (KeyedCertificate x) :=
  (s.selfSignedCerts.get (r.serialNumber cert)).filter fun held => r.equal held.cert cert

def findOcspIssuer (s : OcspState x) (cert : x.Certificate) :
    Except JsString (Option (KeyedCertificate x)) :=
  match s.ownCert r cert with
  | some selfSigned => .ok (some selfSigned)
  | none => (s.candidates setup).map fun candidates => candidates.find? (signedBy r cert)

def getOcspResponse (s : OcspState x) (certDer : List UInt8) (now : Time) :
    Except JsString (Option (OcspResponse x)) :=
  match r.parseDer certDer with
  | none => .ok none
  | some cert =>
      (s.findOcspIssuer setup r cert).map fun issuer =>
        issuer.map fun issuer =>
          createOcspResponse r cert issuer (if isRevokedCert r cert then .revoked now else .good)
            now

inductive Event where
  /-- A load of an authority, whose outcome is kept. -/
  | load (managed : ManagedCA) (context : CallContext)
  /-- A generation ends for a domain that a certificate can cover. -/
  | generated (domain : JsString) (options : CertOptions) (context : CallContext)
  | timer (n : Nat)

def step (s : OcspState x) : Event → Option (OcspState x)
  | .load managed context =>
      some { s with ca := (LocalCAState.getManagedCA setup s.ca context managed).2 }
  | .generated domain options context =>
      (s.leafFor setup context domain options).map (s.keepLeaf setup r context domain options)
  | .timer n =>
      s.timers[n]?.map fun timer =>
        { s.dropLeaf timer with timers := s.timers.eraseIdx n }

end OcspState

end TestServer.TlsCertificates
