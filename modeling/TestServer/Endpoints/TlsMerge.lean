import TestServer.Js.Json
import TestServer.Library.KeyedMerge

/-!
# Merging the options of TLS endpoints

`src/endpoints/tls-merge.ts`. Each endpoint part contributes option fields;
fields outside `FIELD_COMBINERS` are exclusive. The accumulated TLS versions and
security level are then translated into OpenSSL options.
-/

namespace TestServer.Endpoints

open Js Library

/-- An options object: its own properties in insertion order. -/
abbrev Record := InsertionMap JsString JsValue

/-- The `Object.entries` of a contributed options object; empty when a part declares none. -/
abbrev Contribution := List (JsString × JsValue)

def versionOrder : List JsString := [js "TLSv1", js "TLSv1.1", js "TLSv1.2", js "TLSv1.3"]

/-- `SSL_OP_NO_TLSv1`, `SSL_OP_NO_TLSv1_1`, `SSL_OP_NO_TLSv1_2` and `SSL_OP_NO_TLSv1_3`. -/
def versionDisableFlag (version : JsString) : Int :=
  if version = js "TLSv1" then 0x04000000
  else if version = js "TLSv1.1" then 0x10000000
  else if version = js "TLSv1.2" then 0x08000000
  else 0x20000000

/-- `[...a, ...b]`, on the version lists this field holds. -/
def concatVersions : JsValue → JsValue → JsValue
  | .strs a, .strs b => .strs (a ++ b)
  | a, _ => a

/-- `Math.min(a, b)`, on the numbers this field holds. -/
def minLevel : JsValue → JsValue → JsValue
  | .num a, .num b => .num (min a b)
  | a, _ => a

/-- `FIELD_COMBINERS[key]`. -/
def fieldCombiner (key : JsString) : Option (JsValue → JsValue → JsValue) :=
  if key = js "enabledVersions" then some concatVersions
  else if key = js "securityLevel" then some minLevel
  else none

def conflictMessage (key : JsString) (existing incoming : JsValue) : JsString :=
  js "Conflicting endpoint options: '" ++ key ++ js "' is set to both " ++
    stringifyValue existing ++ js " and " ++ stringifyValue incoming

def fieldRule : MergeRule JsString JsValue JsString where
  combine := fieldCombiner
  same := JsValue.strictEq
  conflict := conflictMessage

/-- The error is the message of the thrown `Error`. -/
def mergeContribution (acc : Record) (contribution : Contribution) : Except JsString Record :=
  fieldRule.merge acc contribution

/-- `a | b` on 32-bit integers. -/
def bitOr (a b : Int) : Int := (BitVec.ofInt 32 a ||| BitVec.ofInt 32 b).toInt

def numberOr (value : Option JsValue) (default : Int) : Int :=
  match value with
  | some (.num n) => n
  | _ => default

def resolveEnabledVersions (tlsOptions : Record) : Record :=
  match tlsOptions.get (js "enabledVersions") with
  | some (.strs enabled) =>
      let rest := tlsOptions.delete (js "enabledVersions")
      let secureOptions := versionOrder.foldl (fun flags version =>
        if version ∈ enabled then flags else bitOr flags (versionDisableFlag version))
        (numberOr (rest.get (js "secureOptions")) 0)
      let secured := rest.set (js "secureOptions") (.num secureOptions)
      match versionOrder.find? fun v => decide (v ∈ enabled) with
      | none => secured
      | some lowest =>
          let limited := secured.set (js "minVersion") (.str lowest)
          if lowest = js "TLSv1" ∨ lowest = js "TLSv1.1" then
            -- `Math.min(securityLevel ?? Infinity, 0)`
            limited.set (js "securityLevel")
              (.num (min (numberOr (limited.get (js "securityLevel")) 0) 0))
          else limited
  | _ => tlsOptions

/-- The length of a match of `/@SECLEVEL=\d+/` at the start of the text, or zero. -/
def secLevelLength (s : JsString) : Nat :=
  if startsWith s (js "@SECLEVEL=") then
    match ((s.drop 10).takeWhile isDigit).length with
    | 0 => 0
    | digits + 1 => 10 + (digits + 1)
  else 0

/-- `s.replace(/@SECLEVEL=\d+/g, '')`, where the first `skip` units are part of a match. -/
def stripSecLevel : Nat → JsString → JsString
  | _, [] => []
  | skip + 1, _ :: s => stripSecLevel skip s
  | 0, c :: s =>
      match secLevelLength (c :: s) with
      | 0 => c :: stripSecLevel 0 s
      | length + 1 => stripSecLevel length s

def resolveSecurityLevel (tlsOptions : Record) : Record :=
  match tlsOptions.get (js "securityLevel") with
  | some (.num level) =>
      let rest := tlsOptions.delete (js "securityLevel")
      let ciphers := match rest.get (js "ciphers") with
        | some (.str c) => c
        | _ => js "DEFAULT"
      rest.set (js "ciphers")
        (.str (stripSecLevel 0 ciphers ++ js "@SECLEVEL=" ++ integer level))
  | _ => tlsOptions

/-- Two contributions do not set an exclusive field to different values. -/
def Compatible (e f : JsString × JsValue) : Prop := fieldRule.Agrees e f

instance (e f : JsString × JsValue) : Decidable (Compatible e f) :=
  inferInstanceAs (Decidable (e.1 = f.1 → fieldRule.combine e.1 = none → _))

theorem mergeContribution_isOk_iff {contribution : Contribution} :
    (∃ m, mergeContribution .empty contribution = .ok m) ↔ contribution.Pairwise Compatible :=
  MergeRule.merge_empty_isOk_iff JsValue.eq_of_strictEq

/-- An exclusive field holds exactly what was contributed to it. -/
theorem mergeContribution_get {contribution : Contribution} {m : Record}
    (h : mergeContribution .empty contribution = .ok m) {key : JsString}
    (hkey : fieldCombiner key = none) {v : JsValue} :
    m.get key = some v ↔ (key, v) ∈ contribution := by
  rw [MergeRule.merge_get JsValue.eq_of_strictEq h hkey]
  simp

end TestServer.Endpoints
