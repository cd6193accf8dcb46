import TestServer.HttpHandler

/-!
# Errors over HTTP/1 and HTTP/2

The two handlers answer a thrown error with the same status unless it names a
status other than 500: HTTP/1 sends the status that the error names, HTTP/2
sends 500 for every error. All that the resolution of a chain throws names
another status.
-/

namespace TestServer

open Js Endpoints

/-- Errors that name the status of a client error. -/
def Thrown.IsClientError (e : Thrown) : Prop :=
  ∃ statusCode message, e = .statusError statusCode message ∧ statusCode ≠ 500

theorem isClientError_badRequest (message : JsString) :
    (Thrown.statusError 400 message).IsClientError := ⟨400, message, rfl, by decide⟩

theorem isClientError_notFound (message : JsString) :
    (Thrown.statusError 404 message).IsClientError := ⟨404, message, rfl, by decide⟩

/-- What the resolution of a chain of HTTP endpoints throws names the status of a client error. -/
theorem isClientError_of_httpChain {path : JsString} {hostnamePrefix : Option JsString} {e : Thrown}
    (h : httpChain path hostnamePrefix = .error e) : e.IsClientError := by
  apply thrown_of_resolve isClientError_badRequest isClientError_notFound _ h
  intro endpoint hmem path e h
  obtain ⟨message, rfl⟩ := httpEndpoints_throwBadRequest endpoint hmem path hostnamePrefix e h
  exact isClientError_badRequest message

variable (context : HandlerContext) (req : HttpRequest)

/-- Where the request throws over both protocols, the status that is sent is the same; and the
error of a chain is sent with the status it names. -/
structure SameVerdict : Prop where
  same : ∀ e₁ e₂, handleRequest context .http1 req = .error e₁ →
    handleRequest context .http2 req = .error e₂ → ∀ closed,
      (http1Catch e₁ ⟨closed, false⟩).statusCode = (http2Catch e₂ ⟨closed, false⟩).statusCode
  own : ∀ path hostnamePrefix statusCode message e₂,
    routeRequest context .http1 req = .ok (.routed path hostnamePrefix) →
    httpChain path hostnamePrefix = .error (.statusError statusCode message) →
    handleRequest context .http2 req = .error e₂ →
      (http1Catch (.statusError statusCode message) ⟨false, false⟩).statusCode = some statusCode ∧
        (http2Catch e₂ ⟨false, false⟩).statusCode = some statusCode

/-- A request that is routed to a chain, and throws over HTTP/2, has a chain, and its handlers
throw no error over HTTP/1 that names a status other than 500. -/
def NamesNoStatus : Prop :=
  ∀ path hostnamePrefix e₂, routeRequest context .http1 req = .ok (.routed path hostnamePrefix) →
    handleRequest context .http2 req = .error e₂ →
      ∃ entries, httpChain path hostnamePrefix = .ok entries ∧
        ∀ statusCode message,
          context.runHandlers .http1 req entries = .error (.statusError statusCode message) →
            statusCode = 500

variable {context req}

theorem statusCode_http2Catch (e : Thrown) :
    (http2Catch e ⟨false, false⟩).statusCode = some 500 := rfl

/-- An error whose name of a status is no other than 500 is answered alike. -/
theorem statusCode_catch_eq {e₁ : Thrown} (e₂ : Thrown) (closed : Bool)
    (h : ∀ statusCode message, e₁ = .statusError statusCode message → statusCode = 500) :
    (http1Catch e₁ ⟨closed, false⟩).statusCode = (http2Catch e₂ ⟨closed, false⟩).statusCode := by
  cases closed with
  | true => rfl
  | false =>
      cases e₁ with
      | error message => rfl
      | statusError statusCode message =>
          rw [h statusCode message rfl]
          rfl

/-- A routed request throws what its chain throws, or what its handlers throw. -/
theorem handleRequest_routed {version : HttpVersion} {path : JsString}
    {hostnamePrefix : Option JsString}
    (hroute : routeRequest context version req = .ok (.routed path hostnamePrefix)) :
    handleRequest context version req =
      httpChain path hostnamePrefix >>= context.runHandlers version req := by
  rw [handleRequest, hroute]

/-- A request gets the same verdict over both protocols if and only if what it throws names no
status other than 500; no chain of endpoints may fail to resolve. -/
theorem sameVerdict_iff : SameVerdict context req ↔ NamesNoStatus context req := by
  constructor
  · intro h path hostnamePrefix e₂ hroute hthrows
    cases hchain : httpChain path hostnamePrefix with
    | error e₁ =>
        obtain ⟨statusCode, message, rfl, hne⟩ := isClientError_of_httpChain hchain
        have hown := (h.own path hostnamePrefix statusCode message e₂ hroute hchain hthrows).2
        rw [statusCode_http2Catch] at hown
        exact absurd (Option.some.inj hown).symm hne
    | ok entries =>
        refine ⟨entries, rfl, fun statusCode message hhandlers => ?_⟩
        have hfirst : handleRequest context .http1 req =
            .error (.statusError statusCode message) := by
          rw [handleRequest_routed hroute, hchain]
          exact hhandlers
        exact Option.some.inj (h.same _ e₂ hfirst hthrows false)
  · intro h
    constructor
    · intro e₁ e₂ hfirst hthrows closed
      apply statusCode_catch_eq
      rintro statusCode message rfl
      cases hroute : routeRequest context .http1 req with
      | error message =>
          rw [handleRequest, hroute] at hfirst
          cases hfirst
      | ok route =>
          match route with
          | .routed path hostnamePrefix =>
              obtain ⟨entries, hchain, hstatus⟩ := h path hostnamePrefix e₂ hroute hthrows
              rw [handleRequest_routed hroute, hchain] at hfirst
              exact hstatus statusCode message hfirst
          | .proxyReject | .misdirected | .acmeChallenge _ | .invalidEndpoint _ | .redirect _
          | .docs | .corsPreflight =>
              rw [handleRequest, hroute] at hfirst
              cases hfirst
    · intro path hostnamePrefix statusCode message e₂ hroute hchain hthrows
      obtain ⟨entries, hok, _⟩ := h path hostnamePrefix e₂ hroute hthrows
      rw [hchain] at hok
      cases hok

def unknownRequest : HttpRequest := ⟨js "/unknown", js "GET", some (js "t"), false, none⟩

/-- A path that no endpoint takes is not found over HTTP/1, and a server error over HTTP/2. -/
theorem not_sameVerdict_unknownRequest : ¬ SameVerdict plainContext unknownRequest := by
  intro h
  have hthrows : ∀ version, handleRequest plainContext version unknownRequest =
      .error (.statusError 404 (js "Could not match endpoint for /unknown")) := by
    intro version
    cases version <;> decide +kernel
  have hsame := h.same _ _ (hthrows .http1) (hthrows .http2) false
  revert hsame
  decide

end TestServer
