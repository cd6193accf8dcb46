import TestServer.Endpoints.EndpointConfig
import TestServer.TlsCertificates.CertDefinitions
import Mathlib.Data.List.Sort

/-!
# The TLS handshake handler

`TlsConnectionHandler.handleConnection` of `src/tls-handler.ts`, up to the
secure context it asks for: the certificate domain, the options that shape the
context, and the key under which the context is cached.
-/

namespace TestServer

open Js Library Endpoints TlsCertificates

/-- The members that `JSON.stringify(tlsOptions, Object.keys(tlsOptions).sort())` writes. -/
def sortedMembers (options : Record) : List (JsString × JsValue) :=
  (options.keys.insertionSort fun a b => ¬ b < a).filterMap fun key =>
    (options.get key).map fun value => (key, value)

def calculateContextCacheKey (domain : JsString) (certOptions : CertOptions)
    (tlsOptions : Record) : JsString :=
  let certKey := calculateCertCacheKey domain certOptions
  let chainKey := if certOptions.incompleteChain then js "|incomplete-chain" else []
  let tlsKey :=
    if tlsOptions.keys.length > 0 then js "|" ++ stringifyObject (sortedMembers tlsOptions)
    else []
  certKey ++ chainKey ++ tlsKey

def defaultAlpnProtocols : List JsString := [js "http/1.1", js "h2"]

/-- What a handshake that is not refused asks the secure-context cache for. -/
structure Handshake where
  serverNameParts : List JsString
  certDomain : JsString
  certOptions : CertOptions
  tlsOptions : Record
  requireClientCert : Bool
  alpnProtocols : List JsString
  cacheKey : JsString

/-- `serverName || rootDomain`. -/
def requestedDomain (rootDomain : JsString) (serverName : Option JsString) : JsString :=
  match serverName with
  | some name => if name = [] then rootDomain else name
  | none => rootDomain

/-- `overridePrefix ? overridePrefix.rootDomain : domain`. -/
def certDomainOf (rootDomain domain : JsString) (certOptions : CertOptions) : JsString :=
  match certOptions.override with
  | some p => p ++ js "." ++ rootDomain
  | none => domain

inductive Outcome where
  /-- The setup threw, and the socket was destroyed. -/
  | failed (message : JsString)
  /-- The endpoint refuses TLS, and the socket was destroyed. -/
  | rejected
  | accepted (handshake : Handshake)

def Outcome.handshake : Outcome → Option Handshake
  | accepted h => some h
  | _ => none

def handshakeOf (rootDomain domain : JsString) (serverNameParts : List JsString)
    (config : EndpointConfig) : Handshake :=
  let certOptions := CertOptions.ofRecord config.certOptions
  let certDomain := certDomainOf rootDomain domain certOptions
  { serverNameParts := serverNameParts
    certDomain := certDomain
    certOptions := certOptions
    tlsOptions := config.tlsOptions
    requireClientCert := config.requireClientCert
    alpnProtocols :=
      if config.alpnPreferences.length > 0 then config.alpnPreferences else defaultAlpnProtocols
    cacheKey := calculateContextCacheKey certDomain certOptions config.tlsOptions ++
      if config.requireClientCert then js "|client-cert" else [] }

/-- The handshake for a client that sent the given server name, or none. -/
def handleConnection (rootDomain : JsString) (serverName : Option JsString) : Outcome :=
  let domain := requestedDomain rootDomain serverName
  let serverNameParts := getSNIPrefixParts domain rootDomain
  match getEndpointConfig serverNameParts with
  | .error message => .failed message
  | .ok config =>
      if config.rejectTls then .rejected
      else .accepted (handshakeOf rootDomain domain serverNameParts config)

/-- What an accepted handshake is made of. -/
theorem handleConnection_eq_accepted {rootDomain : JsString} {serverName : Option JsString}
    {h : Handshake} (haccepted : handleConnection rootDomain serverName = .accepted h) :
    ∃ config, getEndpointConfig
        (getSNIPrefixParts (requestedDomain rootDomain serverName) rootDomain) = .ok config ∧
      config.rejectTls = false ∧
      h = handshakeOf rootDomain (requestedDomain rootDomain serverName)
        (getSNIPrefixParts (requestedDomain rootDomain serverName) rootDomain) config := by
  simp only [handleConnection] at haccepted
  cases hconfig : getEndpointConfig
      (getSNIPrefixParts (requestedDomain rootDomain serverName) rootDomain) with
  | error message =>
      rw [hconfig] at haccepted
      cases haccepted
  | ok config =>
      rw [hconfig] at haccepted
      simp only at haccepted
      split_ifs at haccepted with hreject
      exact ⟨config, rfl, Bool.eq_false_iff.mpr hreject, (Outcome.accepted.inj haccepted).symm⟩

end TestServer
