import TestServer.Endpoints.TlsIndex

/-!
# Endpoint configuration of a host name

`src/endpoints/endpoint-config.ts`. The part of a host name before the root
domain is split into endpoint parts, and the contributions of those parts are
merged into one TLS configuration.
-/

namespace TestServer.Endpoints

open Js Library

def maxSniParts : Nat := 4

def getSNIPrefixParts (servername rootDomain : JsString) : List JsString :=
  let serverNamePrefix :=
    if endsWith servername rootDomain then sliceEnd servername (rootDomain.length + 1)
    else servername
  if serverNamePrefix = [] then []
  else if includes serverNamePrefix (js "--") then split serverNamePrefix (js "--")
  else split serverNamePrefix (js ".")

/-- What the parts seen so far have contributed. -/
structure Merged where
  certOptions : Record
  tlsOptions : Record
  alpnPreferences : List JsString

def Merged.initial : Merged := ⟨.empty, .empty, []⟩

structure EndpointConfig where
  certOptions : Record
  tlsOptions : Record
  alpnPreferences : List JsString
  rejectTls : Bool
  requireClientCert : Bool

def tooManyMessage (parts : List JsString) : JsString :=
  js "Too many endpoint parts (" ++ decimal parts.length ++ js ", max " ++
    decimal maxSniParts ++ js ")"

def duplicateMessage (parts : List JsString) : JsString :=
  js "Duplicate endpoint parts in '" ++ join (js "--") parts ++ js "'"

def unknownMessage (part : JsString) : JsString := js "Unknown endpoint '" ++ part ++ js "'"

def noTlsMessage (parts : List JsString) : JsString :=
  js "'no-tls' can't be combined with other endpoints in '" ++ join (js "--") parts ++ js "'"

section Table

variable (endpoints : List TlsEndpoint)

def findEndpoint (part : JsString) : Option TlsEndpoint :=
  endpoints.find? fun e => decide (e.sniPart = part)

/-- One turn of the loop over the parts. -/
def mergePart (acc : Merged) (part : JsString) : Except JsString Merged :=
  match findEndpoint endpoints part with
  | none => .error (unknownMessage part)
  | some endpoint => do
      let certOptions ← mergeContribution acc.certOptions endpoint.configureCertOptions
      let tlsOptions ← mergeContribution acc.tlsOptions endpoint.configureTlsOptions
      return ⟨certOptions, tlsOptions, endpoint.configureAlpnPreferences acc.alpnPreferences⟩

/-- The resolved options, with the markers that are not OpenSSL options pulled out. -/
def resolveMerged (merged : Merged) : EndpointConfig :=
  let tlsOptions := resolveSecurityLevel (resolveEnabledVersions merged.tlsOptions)
  { certOptions := merged.certOptions
    tlsOptions := (tlsOptions.delete (js "rejectTls")).delete (js "requireClientCert")
    alpnPreferences := merged.alpnPreferences
    rejectTls := decide (tlsOptions.get (js "rejectTls") = some (.bool true))
    requireClientCert := decide (tlsOptions.get (js "requireClientCert") = some (.bool true)) }

/-- `getEndpointConfig` over a given table of endpoints. -/
def endpointConfigOf (serverNameParts : List JsString) : Except JsString EndpointConfig :=
  if serverNameParts.length > maxSniParts then .error (tooManyMessage serverNameParts)
  else if ¬ serverNameParts.Nodup then .error (duplicateMessage serverNameParts)
  else
    match serverNameParts.foldlM (mergePart endpoints) .initial with
    | .error message => .error message
    | .ok merged =>
        if (resolveMerged merged).rejectTls ∧ serverNameParts.length > 1 then
          .error (noTlsMessage serverNameParts)
        else .ok (resolveMerged merged)

end Table

def getEndpointConfig (serverNameParts : List JsString) : Except JsString EndpointConfig :=
  endpointConfigOf tlsEndpoints serverNameParts

/-- The message of the error thrown for these parts, if any. -/
def validateEndpointParts (serverNameParts : List JsString) : Option JsString :=
  match getEndpointConfig serverNameParts with
  | .ok _ => none
  | .error message => some message

/-- The parts that a text in front of the root domain is split into. -/
def stemParts (stem : JsString) : List JsString :=
  if stem = [] then []
  else if includes stem (js "--") then split stem (js "--")
  else split stem (js ".")

/-- A text is its parts, joined by the one separator or the other. -/
theorem join_stemParts (stem : JsString) :
    ∃ sep, (sep = js "--" ∨ sep = js ".") ∧ join sep (stemParts stem) = stem := by
  by_cases hnil : stem = []
  · exact ⟨js ".", .inr rfl, by rw [stemParts, if_pos hnil, hnil]; rfl⟩
  · by_cases hdash : includes stem (js "--") = true
    · refine ⟨js "--", .inl rfl, ?_⟩
      rw [stemParts, if_neg hnil, if_pos hdash]
      exact join_split (by decide) stem
    · refine ⟨js ".", .inr rfl, ?_⟩
      rw [stemParts, if_neg hnil, if_neg hdash]
      exact join_split (by decide) stem

theorem getSNIPrefixParts_below (rootDomain stem : JsString) (c : UInt16) :
    getSNIPrefixParts (stem ++ c :: rootDomain) rootDomain = stemParts stem := by
  have hends : endsWith (stem ++ c :: rootDomain) rootDomain = true :=
    endsWith_iff.mpr ⟨stem ++ [c], by simp⟩
  simp only [getSNIPrefixParts, if_pos hends, stemParts]
  rw [sliceEnd_append stem (c :: rootDomain) (List.length_cons)]

theorem getSNIPrefixParts_outside {rootDomain name : JsString} (h : ¬ rootDomain <:+ name) :
    getSNIPrefixParts name rootDomain = stemParts name := by
  have hends : ¬ endsWith name rootDomain = true := fun hends => h (endsWith_iff.mp hends)
  simp only [getSNIPrefixParts, if_neg hends, stemParts]

end TestServer.Endpoints
