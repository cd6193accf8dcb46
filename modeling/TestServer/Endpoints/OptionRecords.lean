import TestServer.Endpoints.EndpointConfig
import TestServer.Js.Coercion
import TestServer.Js.Numeric
import TestServer.Library.AnyOrder

/-!
# Endpoint configuration from any option records

`getEndpointConfig` of `src/endpoints/endpoint-config.ts` and the merge of
`src/endpoints/tls-merge.ts` on any table whose endpoints contribute primitive
values, lists of enabled versions and numeric security levels.

## Implementation notes

The functions keep their names; those of the table of the program are on values
of the kinds that its endpoints use. An accumulator is an ordinary object, so a
key that it inherits is never undefined and has a combiner that is inherited as
well.
-/

namespace TestServer.Endpoints.OptionRecords

open Js Library

inductive OptionValue where
  | null
  | bool (b : Bool)
  | number (n : Option Numeric)
  | bigint (n : Int)
  | str (s : JsString)
  | symbol (identity : Nat)
  | strs (l : List JsString)
  /-- What an ordinary object inherits under a name. -/
  | inherited (name : JsString)
deriving DecidableEq

namespace OptionValue

def zero : OptionValue := .number (some (.number (.finite 0)))

/-- The value without the sign of a zero. -/
def unsigned : OptionValue → OptionValue
  | number (some n) => number (some (.number n.magnitude))
  | v => v

/-- `===`; two lists are never the same object here. -/
def strictEq : OptionValue → OptionValue → Bool
  | number none, _ => false
  | strs _, _ => false
  | v, w => decide (v.unsigned = w.unsigned)

def Primitive : OptionValue → Prop
  | strs _ | inherited _ => False
  | _ => True

/-- The integer that a bitwise operator takes the value for, before it is cut to 32 digits;
`none` if the operator throws. -/
def operand : OptionValue → Option Int
  | null | inherited _ => some 0
  | bool b => some (if b then 1 else 0)
  | number n => some (n.elim 0 Numeric.truncated)
  | str s => some ((stringToNumber s).elim 0 fun n => (Numeric.number n).truncated)
  | strs l => some ((stringToNumber (join (js ",") l)).elim 0 fun n => (Numeric.number n).truncated)
  | bigint _ | symbol _ => none

end OptionValue

/-- `value ?? default`. -/
def nullish (value : Option OptionValue) (default : OptionValue) : OptionValue :=
  match value with
  | none | some .null => default
  | some v => v

/-- What `getEndpointConfig` throws. -/
inductive Refusal where
  | tooMany
  | duplicate
  | unknown (part : JsString)
  | conflict (key : JsString) (existing incoming : OptionValue)
  | noTls
  | typeError

abbrev Record := InsertionMap JsString OptionValue

/-- The `Object.entries` of a contributed object; an undefined value is `none`. -/
abbrev Contribution := List (JsString × Option OptionValue)

/-- The names that an ordinary object inherits. -/
def objectPrototype : List JsString :=
  [js "constructor", js "__defineGetter__", js "__defineSetter__", js "hasOwnProperty",
    js "__lookupGetter__", js "__lookupSetter__", js "isPrototypeOf", js "propertyIsEnumerable",
    js "toString", js "valueOf", js "__proto__", js "toLocaleString"]

/-- What a key without a value of its own reads as. -/
def inheritedValue (key : JsString) : Option OptionValue :=
  if key ∈ objectPrototype then some (.inherited key) else none

/-- `[...a, ...b]`, on the lists this field holds. -/
def concatVersions : OptionValue → OptionValue → Except Refusal OptionValue
  | .strs a, .strs b => .ok (.strs (a ++ b))
  | _, _ => .error .typeError

/-- `Math.min(a, b)`, on the numbers this field holds. -/
def minLevel : OptionValue → OptionValue → Except Refusal OptionValue
  | .number a, .number b => .ok (.number (mathMin a b))
  | _, _ => .error .typeError

/-- What calling an inherited member as a combiner gives. -/
def inheritedCombiner (key : JsString) (existing : OptionValue) : Except Refusal OptionValue :=
  -- `toString` of no object, and `Object` of an object.
  if key = js "toString" then .ok (.str (js "[object Undefined]"))
  else if key = js "constructor" then .ok existing
  else .error .typeError

/-- `FIELD_COMBINERS[key]`. -/
def fieldCombiner (key : JsString) :
    Option (OptionValue → OptionValue → Except Refusal OptionValue) :=
  if key = js "enabledVersions" then some concatVersions
  else if key = js "securityLevel" then some minLevel
  else if key ∈ objectPrototype then some fun existing _ => inheritedCombiner key existing
  else none

/-- One turn of the loop over the entries of a contribution. -/
def mergeField (acc : Record) (key : JsString) (value : Option OptionValue) :
    Except Refusal Record :=
  match value with
  | none => .ok acc
  | some value =>
      match (acc.get key).or (inheritedValue key) with
      | none => .ok (acc.set key value)
      | some existing =>
          match fieldCombiner key with
          | some combine => do return acc.set key (← combine existing value)
          | none =>
              if existing.strictEq value then .ok acc
              else .error (.conflict key existing value)

def mergeContribution (acc : Record) (contribution : Contribution) : Except Refusal Record :=
  contribution.foldlM (fun acc entry => mergeField acc entry.1 entry.2) acc

/-- `flags |= flag`. -/
def orFlag (flags : OptionValue) (flag : Int) : Except Refusal OptionValue :=
  match flags.operand with
  | none => .error .typeError
  | some n => .ok (.number (some (.number (.finite (bitOr n flag)))))

/-- The number that a security level is. -/
def levelNumber : OptionValue → Option Numeric
  | .number n => n
  | _ => none

/-- `secureOptions` with the flags of all versions that are not enabled. -/
def disableVersions (enabled : List JsString) (secureOptions : OptionValue) :
    Except Refusal OptionValue :=
  versionOrder.foldlM (fun flags version =>
    if version ∈ enabled then .ok flags else orFlag flags (versionDisableFlag version))
    secureOptions

/-- The fields that follow from the lowest version. -/
def limitVersions (enabled : List JsString) (tlsOptions : Record) : Record :=
  match versionOrder.find? fun v => decide (v ∈ enabled) with
  | none => tlsOptions
  | some lowest =>
      let limited := tlsOptions.set (js "minVersion") (.str lowest)
      if lowest = js "TLSv1" ∨ lowest = js "TLSv1.1" then
        let level := nullish (limited.get (js "securityLevel"))
          (.number (some (.number (.infinite false))))
        limited.set (js "securityLevel")
          (.number (mathMin (levelNumber level) (some (.number (.finite 0)))))
      else limited

def resolveEnabledVersions (tlsOptions : Record) : Except Refusal Record :=
  match tlsOptions.get (js "enabledVersions") with
  | some (.strs enabled) => do
      let rest := tlsOptions.delete (js "enabledVersions")
      let secureOptions ← disableVersions enabled (nullish (rest.get (js "secureOptions")) .zero)
      return limitVersions enabled (rest.set (js "secureOptions") secureOptions)
  | _ => .ok tlsOptions

section

-- The text of a value in a template.
variable (text : OptionValue → JsString)

def resolveSecurityLevel (tlsOptions : Record) : Except Refusal Record :=
  match tlsOptions.get (js "securityLevel") with
  | none => .ok tlsOptions
  | some level =>
      let rest := tlsOptions.delete (js "securityLevel")
      match nullish (rest.get (js "ciphers")) (.str (js "DEFAULT")) with
      | .str ciphers =>
          .ok (rest.set (js "ciphers")
            (.str (stripSecLevel 0 ciphers ++ js "@SECLEVEL=" ++ text level)))
      | _ => .error .typeError

/-- The values that TLS options may have. -/
def TlsField (key : JsString) (value : OptionValue) : Prop :=
  if key = js "enabledVersions" then ∃ versions, value = .strs versions
  else if key = js "securityLevel" then ∃ level, value = .number level
  else value.Primitive

/-- The values that certificate options may have; no certificate option lists versions. -/
def CertField (key : JsString) (value : OptionValue) : Prop :=
  key ≠ js "enabledVersions" ∧ TlsField key value

structure TlsEndpoint where
  sniPart : JsString
  configureCertOptions : Contribution := []
  configureTlsOptions : Contribution := []
  configureAlpnPreferences : List JsString → List JsString := id
  certFields : ∀ key value, (key, some value) ∈ configureCertOptions → CertField key value
  tlsFields : ∀ key value, (key, some value) ∈ configureTlsOptions → TlsField key value

structure Merged where
  certOptions : Record
  tlsOptions : Record
  alpnPreferences : List JsString

def Merged.initial : Merged := ⟨.empty, .empty, []⟩

structure EndpointConfig where
  certOptions : Record
  tlsOptions : Record
  alpnPreferences : List JsString
  rejectTls : Bool
  requireClientCert : Bool

variable (endpoints : List TlsEndpoint)

def findEndpoint (part : JsString) : Option TlsEndpoint :=
  endpoints.find? fun e => decide (e.sniPart = part)

/-- One turn of the loop over the parts. -/
def mergePart (acc : Merged) (part : JsString) : Except Refusal Merged :=
  match findEndpoint endpoints part with
  | none => .error (.unknown part)
  | some endpoint => do
      let certOptions ← mergeContribution acc.certOptions endpoint.configureCertOptions
      let tlsOptions ← mergeContribution acc.tlsOptions endpoint.configureTlsOptions
      return ⟨certOptions, tlsOptions, endpoint.configureAlpnPreferences acc.alpnPreferences⟩

/-- The configuration, with the markers that are not options of OpenSSL pulled out. -/
def pullMarkers (merged : Merged) (tlsOptions : Record) : EndpointConfig where
  certOptions := merged.certOptions
  tlsOptions := (tlsOptions.delete (js "rejectTls")).delete (js "requireClientCert")
  alpnPreferences := merged.alpnPreferences
  rejectTls := decide (tlsOptions.get (js "rejectTls") = some (.bool true))
  requireClientCert := decide (tlsOptions.get (js "requireClientCert") = some (.bool true))

def getEndpointConfig (serverNameParts : List JsString) : Except Refusal EndpointConfig :=
  if serverNameParts.length > maxSniParts then .error .tooMany
  else if ¬ serverNameParts.Nodup then .error .duplicate
  else do
    let merged ← serverNameParts.foldlM (mergePart endpoints) .initial
    let tlsOptions ← resolveEnabledVersions merged.tlsOptions
    let tlsOptions ← resolveSecurityLevel text tlsOptions
    let config := pullMarkers merged tlsOptions
    if config.rejectTls ∧ serverNameParts.length > 1 then .error .noTls
    else return config

end

end TestServer.Endpoints.OptionRecords
