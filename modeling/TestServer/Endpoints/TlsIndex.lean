import TestServer.Endpoints.TlsMerge

/-!
# The TLS endpoints

`src/endpoints/tls-index.ts` and the endpoints of `src/endpoints/tls/`, in the
order of their exports. Each one contributes certificate options, TLS options
or ALPN preferences to the host names that carry its SNI part.
-/

namespace TestServer.Endpoints

open Js Library

structure TlsEndpoint where
  sniPart : JsString
  plainTextAllowed : Bool := false
  configureCertOptions : Contribution := []
  configureTlsOptions : Contribution := []
  configureAlpnPreferences : List JsString → List JsString := id

def http2 : TlsEndpoint where
  sniPart := js "http2"
  configureAlpnPreferences := fun alpnList => alpnList ++ [js "h2"]

def http1 : TlsEndpoint where
  sniPart := js "http1"
  configureAlpnPreferences := fun alpnList => alpnList ++ [js "http/1.1"]

def expired : TlsEndpoint where
  sniPart := js "expired"
  configureCertOptions := [(js "expired", .bool true)]

def revoked : TlsEndpoint where
  sniPart := js "revoked"
  configureCertOptions := [(js "revoked", .bool true)]

def selfSigned : TlsEndpoint where
  sniPart := js "self-signed"
  configureCertOptions :=
    [(js "requiredType", .str (js "local")), (js "selfSigned", .bool true)]

def untrustedRoot : TlsEndpoint where
  sniPart := js "untrusted-root"
  configureCertOptions :=
    [(js "requiredType", .str (js "local")), (js "selfSigned", .bool false)]

def noCommonName : TlsEndpoint where
  sniPart := js "no-common-name"
  configureCertOptions :=
    [(js "requiredType", .str (js "local")), (js "noCommonName", .bool true)]

def incompleteChain : TlsEndpoint where
  sniPart := js "incomplete-chain"
  configureCertOptions := [(js "incompleteChain", .bool true), (js "selfSigned", .bool false)]

def sha1Sig : TlsEndpoint where
  sniPart := js "sha1-sig"
  configureCertOptions :=
    [(js "requiredType", .str (js "local")), (js "sha1Signature", .bool true)]
  configureTlsOptions := [(js "securityLevel", .num 0)]

def wrongHost : TlsEndpoint where
  sniPart := js "wrong-host"
  configureCertOptions := [(js "overridePrefix", .str (js "example"))]

def dh1024Params : JsString :=
  js "-----BEGIN DH PARAMETERS-----\n" ++
  js "MIGHAoGBAPwIcVZU2Dt7WtCI8hhI8wECGgMidZpXASdKXwAQReA+739EGI4HUmM4\n" ++
  js "qkm2vyhAReLHc4UALQI8SKV5G7WDHKIAZi0sDofR3qitV2Z44aVk0u4Z3M8S1NA9\n" ++
  js "aSgcv6Iz0BQPADQkEq28bRT0i3/A+K6DuHbC98RtnhqF+OuaHXJ/AgEC\n" ++
  js "-----END DH PARAMETERS-----"

def dh2048Params : JsString :=
  js "-----BEGIN DH PARAMETERS-----\n" ++
  js "MIIBCAKCAQEAhEM9PY7cnvVzkOwE37JFRQCwoEa3sXoxbvLy5sHkPPwpu8/jM4wZ\n" ++
  js "C0v7T1EOf6Kk94NZDAnghUC8t0PGV9Dfel/QOG7F/fBiiGyqyMHg99+aLxsbY5i3\n" ++
  js "Y6eIwZj7JeuEIgrIS2NQ67Pn8tPEr7yDZHscJruyY+97K56h3h16Oyjgp8YLeglJ\n" ++
  js "iMLZxVVqLNY0bI9is9Prhf9+QRgepuGK3eBaSybJYpdXv3ztWF5l8wgy+GxkZJB9\n" ++
  js "aI/FRfUQi5FLOLv7p8v2LOvHVsoZZoMZh4DcH7BbNfyf2SYbz/tPcSDm2sZd57WK\n" ++
  js "oBMuASJHcaqiTS7Al86HkBdup48Xe4jGjwIBAg==\n" ++
  js "-----END DH PARAMETERS-----"

/-- A cipher endpoint: one weak suite list, capped at TLS 1.2. -/
def cipherOptions (ciphers : JsString) : Contribution :=
  [(js "ciphers", .str ciphers), (js "securityLevel", .num 0),
    (js "maxVersion", .str (js "TLSv1.2"))]

def staticRsa : TlsEndpoint where
  sniPart := js "static-rsa"
  configureTlsOptions :=
    cipherOptions (js "AES128-GCM-SHA256:AES256-GCM-SHA384:AES128-SHA:AES256-SHA")

def cbc : TlsEndpoint where
  sniPart := js "cbc"
  configureTlsOptions := cipherOptions (js "ECDHE-RSA-AES128-SHA:AES128-SHA")

def nullCipher : TlsEndpoint where
  sniPart := js "null-cipher"
  configureTlsOptions := cipherOptions (js "NULL-SHA:NULL-SHA256")

def dh1024 : TlsEndpoint where
  sniPart := js "dh1024"
  configureTlsOptions :=
    cipherOptions (js "DHE-RSA-AES128-SHA:DHE-RSA-AES256-SHA") ++
      [(js "dhparam", .str dh1024Params)]

def dh2048 : TlsEndpoint where
  sniPart := js "dh2048"
  configureTlsOptions :=
    cipherOptions (js "DHE-RSA-AES128-SHA:DHE-RSA-AES256-SHA") ++
      [(js "dhparam", .str dh2048Params)]

def clientCert : TlsEndpoint where
  sniPart := js "client-cert"
  configureTlsOptions := [(js "requireClientCert", .bool true)]

def exampleEndpoint : TlsEndpoint where
  sniPart := js "example"
  plainTextAllowed := true

def noTls : TlsEndpoint where
  sniPart := js "no-tls"
  plainTextAllowed := true
  configureTlsOptions := [(js "rejectTls", .bool true)]

/-- The certificate options of a key-size endpoint. -/
def keyBitsOptions (keyBits : Int) : Contribution :=
  [(js "requiredType", .str (js "local")), (js "keyBits", .num keyBits)]

def rsa512 : TlsEndpoint where
  sniPart := js "rsa512"
  configureCertOptions := keyBitsOptions 512
  configureTlsOptions := cipherOptions (js "AES128-SHA")

def rsa1024 : TlsEndpoint where
  sniPart := js "rsa1024"
  configureCertOptions := keyBitsOptions 1024
  configureTlsOptions := [(js "securityLevel", .num 1)]

def rsa2048 : TlsEndpoint where
  sniPart := js "rsa2048"
  configureCertOptions := keyBitsOptions 2048

def rsa4096 : TlsEndpoint where
  sniPart := js "rsa4096"
  configureCertOptions := keyBitsOptions 4096

def rsa8192 : TlsEndpoint where
  sniPart := js "rsa8192"
  configureCertOptions := keyBitsOptions 8192

def tlsV1 : TlsEndpoint where
  sniPart := js "tls-v1-0"
  configureTlsOptions := [(js "enabledVersions", .strs [js "TLSv1"])]

def tlsV1_1 : TlsEndpoint where
  sniPart := js "tls-v1-1"
  configureTlsOptions := [(js "enabledVersions", .strs [js "TLSv1.1"])]

def tlsV1_2 : TlsEndpoint where
  sniPart := js "tls-v1-2"
  configureTlsOptions := [(js "enabledVersions", .strs [js "TLSv1.2"])]

def tlsV1_3 : TlsEndpoint where
  sniPart := js "tls-v1-3"
  configureTlsOptions := [(js "enabledVersions", .strs [js "TLSv1.3"])]

/-- The exports of the index module, which are ordered by name. -/
def tlsEndpoints : List TlsEndpoint :=
  [cbc, clientCert, dh1024, dh2048, exampleEndpoint, expired, http1, http2, incompleteChain,
    noCommonName, noTls, nullCipher, revoked, rsa1024, rsa2048, rsa4096, rsa512, rsa8192,
    selfSigned, sha1Sig, staticRsa, tlsV1, tlsV1_1, tlsV1_2, tlsV1_3, untrustedRoot, wrongHost]

end TestServer.Endpoints
