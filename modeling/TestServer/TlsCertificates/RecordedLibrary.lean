import TestServer.TlsCertificates.Ocsp
import Mathlib.Data.Nat.Digits.Lemmas
import Mathlib.Logic.Encodable.Basic
import Mathlib.Logic.Equiv.List
import Mathlib.Tactic.DeriveEncodable

/-!
# A library that records what certificates are made from

A certificate of this library records the request that it was created for, and
its texts and bytes are those of a number that stands for it. It keeps all that
is promised of the X.509 library.
-/

namespace TestServer.TlsCertificates

open Js Library

instance encodableUnit : Encodable UInt16 :=
  Encodable.ofLeftInverse UInt16.toNat UInt16.ofNat fun _ => UInt16.ofNat_toNat

structure RecordedCertificate where
  serial : Nat
  subject : JsString
  issuer : JsString
  notAfter : Time
  publicKey : Nat
  signingKey : Nat
  dnsName : Option JsString
deriving DecidableEq, Encodable

namespace RecordedCertificate

def number (certificate : RecordedCertificate) : Nat := Encodable.encode certificate

def ofNumber (n : Nat) : Option RecordedCertificate := Encodable.decode n

theorem ofNumber_number (certificate : RecordedCertificate) :
    ofNumber certificate.number = some certificate :=
  Encodable.encodek certificate

def hasKey (certificate : RecordedCertificate) (key : Nat) : Bool :=
  decide (certificate.signingKey = key)

def same (a b : RecordedCertificate) : Bool := decide (a = b)

theorem hasKey_self (certificate : RecordedCertificate) :
    certificate.hasKey certificate.signingKey = true :=
  decide_eq_true rfl

theorem same_iff (a b : RecordedCertificate) : a.same b = true ↔ a = b := decide_eq_true_iff

end RecordedCertificate

namespace X509

/-- The name with each of its fields. -/
def recordedName (fields : List (JsString × JsString)) : JsString :=
  join (js ", ") (fields.map fun field => field.1 ++ js "=" ++ field.2)

def recorded : X509 where
  Certificate := RecordedCertificate
  CryptoKey := Nat
  generateKey seed _ := seed
  create seed request :=
    { serial := seed
      subject := recordedName request.subject
      issuer := (request.issuer.map RecordedCertificate.subject).getD
        (recordedName request.subject)
      notAfter := request.notAfter - request.notAfter % 1000
      publicKey := request.publicKey
      signingKey := request.signingKey
      dnsName := request.dnsName }
  notAfter := RecordedCertificate.notAfter
  parseCertificate pem :=
    (readLabelled (js "CERTIFICATE ") pem).bind fun n => RecordedCertificate.ofNumber n.toNat
  certificatePem certificate :=
    js "CERTIFICATE " ++ integer (RecordedCertificate.number certificate)
  pemToCryptoKey pem := (readLabelled (js "PRIVATE KEY ") pem).map Int.toNat
  keyPem key := js "PRIVATE KEY " ++ integer key
  encodeTime t := t - t % 1000
  certObjectId certPem := certPem

theorem recorded_lawful : recorded.Lawful where
  parse_pem certificate := by
    change (readLabelled (js "CERTIFICATE ") (js "CERTIFICATE " ++ integer _)).bind _ = _
    rw [readLabelled_append, Option.bind_some, Int.toNat_natCast]
    exact RecordedCertificate.ofNumber_number certificate
  import_key key := by
    change ((readLabelled (js "PRIVATE KEY ") (js "PRIVATE KEY " ++ integer _)).map Int.toNat) = _
    rw [readLabelled_append]
    rfl
  certificatePem_ne_nil _ :=
    List.append_ne_nil_of_left_ne_nil (js_ne_nil (by decide)) _
  keyPem_ne_nil _ := List.append_ne_nil_of_left_ne_nil (js_ne_nil (by decide)) _
  notAfter_create _ _ := rfl
  encodeTime_le t := Int.sub_le_self t (Int.emod_nonneg t (by decide))
  lt_encodeTime t := Int.sub_lt_sub_left (Int.emod_lt_of_pos t (by decide)) t

/-- The bytes of a number, the lowest first. -/
def numberBytes (n : Nat) : List UInt8 := (Nat.digits 256 n).map UInt8.ofNat

theorem ofDigits_numberBytes (n : Nat) :
    Nat.ofDigits 256 ((numberBytes n).map UInt8.toNat) = n := by
  have hdigits : (numberBytes n).map UInt8.toNat = Nat.digits 256 n := by
    rw [numberBytes, List.map_map]
    conv_rhs => rw [← List.map_id (Nat.digits 256 n)]
    apply List.map_congr_left
    intro d hd
    exact UInt8.toNat_ofNat_of_lt' (Nat.digits_lt_base (by decide) hd)
  rw [hdigits]
  exact Nat.ofDigits_digits 256 n

@[irreducible] def recordedBytes (certificate : RecordedCertificate) : List UInt8 :=
  numberBytes certificate.number

@[irreducible] def parseRecorded (bytes : List UInt8) : Option RecordedCertificate :=
  RecordedCertificate.ofNumber (Nat.ofDigits 256 (bytes.map UInt8.toNat))

theorem parseRecorded_recordedBytes (certificate : RecordedCertificate) :
    parseRecorded (recordedBytes certificate) = some certificate := by
  have hnumber := ofDigits_numberBytes certificate.number
  unfold parseRecorded recordedBytes
  exact (congrArg RecordedCertificate.ofNumber hnumber).trans
    (RecordedCertificate.ofNumber_number certificate)

def recordedReader : recorded.Reader where
  rawData := recordedBytes
  parseDer := parseRecorded
  nameText := recordedName
  subject := RecordedCertificate.subject
  issuer := RecordedCertificate.issuer
  serialNumber certificate := decimal certificate.serial
  generateSerialNumber := decimal
  publicKey := RecordedCertificate.publicKey
  dnsNames certificate := certificate.dnsName.map fun name => [name]
  equal := RecordedCertificate.same
  verify := RecordedCertificate.hasKey
  subjectHash certificate := certificate.subject.map UInt16.toUInt8
  publicKeyHash certificate := numberBytes certificate.publicKey

theorem recordedReader_lawful : recordedReader.Lawful where
  parse_rawData := parseRecorded_recordedBytes
  subject_create _ _ := rfl
  issuer_create _ _ := rfl
  serialNumber_create _ _ := rfl
  serial_unique _ _ h := decimal_injective h
  publicKey_create _ _ := rfl
  dnsNames_create _ _ := rfl
  verify_create _ _ := RecordedCertificate.hasKey_self _
  equal_iff := RecordedCertificate.same_iff

/-- A root that has signed itself. -/
def recordedRootCert : RecordedCertificate :=
  ⟨0, js "CN=Root", js "CN=Root", 4102444800000, 0, 0, none⟩

def recordedRoot : RootCA recorded where
  caCert := recordedRootCert
  caKey := (0 : Nat)
  caCertPem := recorded.certificatePem recordedRootCert
  countryName := none
  keyLength := none

def recordedSetup : LocalCASetup recorded where
  root := recordedRoot
  hasStore := true
  keyPair := (1 : Nat)

end X509

end TestServer.TlsCertificates
