import TestServer.Endpoints.HostParts
import TestServer.HttpHandler
import TestServer.TlsHandler

/-!
# One host name, three verdicts

A host name reaches the TLS handler as it is sent, and the HTTP and WebSocket handlers
in lower case. The three split it and validate its parts alike. So they agree if and
only if the name has no capital letter.
-/

namespace TestServer

open Js Endpoints

/-- The parts that the TLS handler validates. -/
def tlsParts (rootDomain hostname : JsString) : List JsString :=
  getSNIPrefixParts (requestedDomain rootDomain (some hostname)) rootDomain

/-- The handshake for a server name fails. -/
def TlsRejects (rootDomain hostname : JsString) : Prop :=
  ∃ message, handleConnection rootDomain (some hostname) = .failed message

/-- The parts that the HTTP and WebSocket handlers validate. -/
def urlParts (rootDomain hostname : JsString) : List JsString :=
  match hostnamePrefixOf rootDomain hostname with
  | some (_ :: _) => getSNIPrefixParts hostname rootDomain
  | _ => []

def HttpRejects (context : HandlerContext) (version : HttpVersion) (req : HttpRequest) : Prop :=
  ∃ message, routeRequest context version req = .ok (.invalidEndpoint message)

/-- The upgrade is refused for the parts of its host. -/
def WsRejects (parseUrl : JsString → JsString → Option Url) (rootDomain : JsString)
    (req : UpgradeRequest) : Prop :=
  ∃ url message, parseUrl req.url (js "http://" ++ headerText req.host) = some url ∧
    hostError rootDomain url.hostname = some message ∧
    handleWebSocketUpgrade parseUrl rootDomain req = reject 400 (js "Bad Request")

/-- A request for a host, as far as the check of the host: its target is for this server, it came
over a connection for its host, and it is not an ACME challenge. -/
structure ReachesHostCheck (context : HandlerContext) (version : HttpVersion) (req : HttpRequest)
    (url : Url) : Prop where
  forServer : isProxyRequest context req = .ok false
  directed : isMisdirected context version req = false
  parsed : context.parseUrl req.url (protocol req ++ js "://" ++ headerText req.host) = some url
  noChallenge : startsWith url.pathname acmePath = false

/-- The name is the root domain or below it, in any case of letters. -/
def IsServerName (rootDomain hostname : JsString) : Prop :=
  asciiLowerCase hostname = rootDomain ∨
    js "." ++ rootDomain <:+ asciiLowerCase hostname

/-- A host name, with requests for it whose URLs have it in lower case. -/
structure HostRequests where
  context : HandlerContext
  hostname : JsString
  version : HttpVersion
  req : HttpRequest
  url : Url
  upgrade : UpgradeRequest
  upgradeUrl : Url
  lowerRoot : asciiLowerCase context.options.rootDomain = context.options.rootDomain
  serverName : IsServerName context.options.rootDomain hostname
  reaches : ReachesHostCheck context version req url
  lowerUrl : url.hostname = asciiLowerCase hostname
  parsedUpgrade : context.parseUrl upgrade.url (js "http://" ++ headerText upgrade.host) =
    some upgradeUrl
  lowerUpgrade : upgradeUrl.hostname = asciiLowerCase hostname

namespace HostRequests

def rootDomain (requests : HostRequests) : JsString := requests.context.options.rootDomain

/-- The three handlers see the same parts, and all or none of them reject the name. -/
structure JudgedAlike (requests : HostRequests) : Prop where
  tls_http : TlsRejects requests.rootDomain requests.hostname ↔
    HttpRejects requests.context requests.version requests.req
  http_ws : HttpRejects requests.context requests.version requests.req ↔
    WsRejects requests.context.parseUrl requests.rootDomain requests.upgrade
  parts : tlsParts requests.rootDomain requests.hostname =
      urlParts requests.rootDomain requests.url.hostname ∧
    urlParts requests.rootDomain requests.url.hostname =
      urlParts requests.rootDomain requests.upgradeUrl.hostname

end HostRequests

/-- The capital letters of ASCII. -/
def IsCapital (c : UInt16) : Prop := 65 ≤ c ∧ c ≤ 90

theorem not_isCapital_of_mem_lowerCase {s : JsString} {c : UInt16} (h : c ∈ asciiLowerCase s) :
    ¬ IsCapital c := by
  obtain ⟨d, -, rfl⟩ := List.mem_map.mp h
  simp only [IsCapital]
  split_ifs with hd
  · simp only [UInt16.le_iff_toNat_le, UInt16.toNat_add, UInt16.reduceToNat] at hd ⊢
    omega
  · exact hd

theorem asciiLowerCase_of_not_isCapital {s : JsString} (h : ∀ c ∈ s, ¬ IsCapital c) :
    asciiLowerCase s = s := by
  rw [asciiLowerCase]
  conv_rhs => rw [← List.map_id s]
  apply List.map_congr_left
  intro c hc
  exact if_neg (h c hc)

/-- A text is in lower case if and only if it has no capital letter. -/
theorem asciiLowerCase_eq_self_iff {s : JsString} :
    asciiLowerCase s = s ↔ ∀ c ∈ s, ¬ IsCapital c := by
  constructor
  · intro h c hc
    rw [← h] at hc
    exact not_isCapital_of_mem_lowerCase hc
  · exact asciiLowerCase_of_not_isCapital

theorem mem_of_mem_stemParts {stem part : JsString} {c : UInt16} (hpart : part ∈ stemParts stem)
    (hc : c ∈ part) : c ∈ stem := by
  obtain ⟨sep, -, hjoin⟩ := join_stemParts stem
  exact hjoin ▸ mem_join_of_mem hpart hc

/-- Only the separators are not in the parts. -/
theorem exists_mem_stemParts {stem : JsString} {c : UInt16} (hc : c ∈ stem)
    (hcapital : IsCapital c) : ∃ part ∈ stemParts stem, c ∈ part := by
  have hsep : ∀ {sep : JsString}, (∀ d ∈ sep, ¬ IsCapital d) → c ∉ sep :=
    fun h hmem => h c hmem hcapital
  obtain ⟨sep, hsepCases, hjoin⟩ := join_stemParts stem
  rw [← hjoin] at hc
  refine (mem_join hc).resolve_right (hsep ?_)
  rcases hsepCases with rfl | rfl
  · exact asciiLowerCase_eq_self_iff.mp (by decide)
  · exact asciiLowerCase_eq_self_iff.mp (by decide)

/-- A capital letter of a name is in a part that the TLS handler sees. -/
theorem exists_part_of_isCapital {rootDomain hostname : JsString} {c : UInt16}
    (hroot : asciiLowerCase rootDomain = rootDomain) (hname : IsServerName rootDomain hostname)
    (hc : c ∈ hostname) (hcapital : IsCapital c) :
    ∃ part ∈ tlsParts rootDomain hostname, c ∈ part := by
  have hdomain : requestedDomain rootDomain (some hostname) = hostname := by
    rw [requestedDomain, if_neg (List.ne_nil_of_mem hc)]
  rw [tlsParts, hdomain]
  by_cases hends : rootDomain <:+ hostname
  · obtain ⟨front, rfl⟩ := hends
    have hfront : c ∈ front := by
      rcases List.mem_append.mp hc with hfront | hmem
      · exact hfront
      · exact absurd hcapital (asciiLowerCase_eq_self_iff.mp hroot c hmem)
    have hlower : asciiLowerCase (front ++ rootDomain) = asciiLowerCase front ++ rootDomain := by
      conv_rhs => rw [← hroot]
      exact List.map_append
    rw [IsServerName, hlower] at hname
    rcases hname with hequal | ⟨stem, hstem⟩
    · have hnil := List.append_cancel_right (hequal.trans (List.nil_append _).symm)
      rw [List.map_eq_nil_iff.mp hnil] at hfront
      cases hfront
    · rw [← List.append_assoc] at hstem
      have hdot := List.append_cancel_right hstem
      obtain ⟨stem', last, rfl, -, hlast⟩ := List.map_eq_append_iff.mp hdot.symm
      obtain ⟨d, rfl⟩ : ∃ d, last = [d] := by
        have hlength := congrArg List.length hlast
        rw [List.length_map] at hlength
        exact List.length_eq_one_iff.mp hlength
      rw [List.append_assoc, List.singleton_append, getSNIPrefixParts_below]
      refine exists_mem_stemParts ((List.mem_append.mp hfront).resolve_right ?_) hcapital
      rw [List.mem_singleton]
      rintro rfl
      have hlower' : (if 65 ≤ c ∧ c ≤ 90 then c + 32 else c) = unit '.' := (List.cons.inj hlast).1
      obtain ⟨hlow, hhigh⟩ := hcapital
      rw [if_pos ⟨hlow, hhigh⟩] at hlower'
      have hback : c = unit '.' - 32 := by
        rw [← hlower']
        exact (UInt16.add_sub_cancel c 32).symm
      rw [hback] at hlow
      exact absurd hlow (by decide)
  · rw [getSNIPrefixParts_outside hends]
    exact exists_mem_stemParts hc hcapital

/-- The parts of a name come from the name. -/
theorem mem_of_mem_urlParts {rootDomain hostname part : JsString} {c : UInt16}
    (hpart : part ∈ urlParts rootDomain hostname) (hc : c ∈ part) : c ∈ hostname := by
  rw [urlParts] at hpart
  split at hpart
  · rw [getSNIPrefixParts] at hpart
    by_cases hends : endsWith hostname rootDomain = true
    · simp only [if_pos hends] at hpart
      exact List.mem_of_mem_take (mem_of_mem_stemParts hpart hc)
    · simp only [if_neg hends] at hpart
      exact mem_of_mem_stemParts hpart hc
  · cases hpart

theorem tlsRejects_iff {rootDomain hostname : JsString} :
    TlsRejects rootDomain hostname ↔
      ∃ message, validateEndpointParts (tlsParts rootDomain hostname) = some message := by
  simp only [TlsRejects, handleConnection, validateEndpointParts, tlsParts]
  cases getEndpointConfig
      (getSNIPrefixParts (requestedDomain rootDomain (some hostname)) rootDomain) with
  | error message => simp
  | ok config =>
      simp only
      split_ifs <;> simp

/-- The check of a host validates the parts of its name. -/
theorem hostError_eq (rootDomain hostname : JsString) :
    hostError rootDomain hostname = validateEndpointParts (urlParts rootDomain hostname) := by
  have hnil : validateEndpointParts [] = none := rfl
  rw [hostError, urlParts]
  cases hostnamePrefixOf rootDomain hostname with
  | none => exact hnil.symm
  | some stem =>
      cases stem with
      | nil => exact hnil.symm
      | cons c stem => rfl

theorem routePath_ne_invalidEndpoint (context : HandlerContext) (version : HttpVersion)
    (req : HttpRequest) (url : Url) (message : JsString) :
    routePath context version req url ≠ .ok (.invalidEndpoint message) := by
  simp only [routePath]
  cases context.allowCORS version req with
  | error e => split_ifs <;> simp [bind, Except.bind]
  | ok _ => split_ifs <;> simp [bind, Except.bind, pure, Except.pure]

theorem routeHost_eq_invalidEndpoint_iff {context : HandlerContext} {req : HttpRequest}
    {url : Url} {message : JsString} :
    routeHost context req url = .ok (some (.invalidEndpoint message)) ↔
      hostError context.options.rootDomain url.hostname = some message := by
  rw [routeHost, hostError]
  cases hostnamePrefixOf context.options.rootDomain url.hostname with
  | none => simp
  | some stem =>
      cases stem with
      | nil => simp
      | cons c stem =>
          simp only
          cases validateEndpointParts
              (getSNIPrefixParts url.hostname context.options.rootDomain) with
          | some found => simp
          | none =>
              simp only [bind, Except.bind, pure, Except.pure]
              split
              · simp
              · split_ifs <;> simp

theorem httpRejects_iff {context : HandlerContext} {version : HttpVersion} {req : HttpRequest}
    {url : Url} (h : ReachesHostCheck context version req url) :
    HttpRejects context version req ↔
      ∃ message, hostError context.options.rootDomain url.hostname = some message := by
  have hroute : ∀ message, routeRequest context version req = .ok (.invalidEndpoint message) ↔
      routeHost context req url = .ok (some (.invalidEndpoint message)) := by
    intro message
    have hrequest : routeRequest context version req = routeUrl context version req url := by
      simp only [routeRequest, h.forServer, h.directed, h.parsed, bind, Except.bind,
        Bool.false_eq_true, if_false]
    have hchallenge : ¬ startsWith url.pathname acmePath = true :=
      Bool.eq_false_iff.mp h.noChallenge
    rw [hrequest, routeUrl, if_neg hchallenge]
    simp only [bind, Except.bind, pure, Except.pure]
    cases hhost : routeHost context req url with
    | error e => simp
    | ok route =>
        cases route with
        | some route => simp
        | none =>
            simp only [reduceCtorEq, iff_false, Except.ok.injEq]
            exact routePath_ne_invalidEndpoint context version req url message
  exact exists_congr fun message => (hroute message).trans routeHost_eq_invalidEndpoint_iff

theorem wsRejects_iff {parseUrl : JsString → JsString → Option Url} {rootDomain : JsString}
    {req : UpgradeRequest} {url : Url}
    (h : parseUrl req.url (js "http://" ++ headerText req.host) = some url) :
    WsRejects parseUrl rootDomain req ↔
      ∃ message, hostError rootDomain url.hostname = some message := by
  constructor
  · rintro ⟨url', message, hurl', hmessage, -⟩
    rw [h, Option.some.injEq] at hurl'
    exact ⟨message, hurl' ▸ hmessage⟩
  · rintro ⟨message, hmessage⟩
    refine ⟨url, message, h, hmessage, ?_⟩
    rw [handleWebSocketUpgrade, h]
    simp only [hmessage]

/-- A name in lower case has the same parts for all. -/
theorem tlsParts_eq_urlParts {rootDomain hostname : JsString}
    (hname : IsServerName rootDomain hostname) (hlower : asciiLowerCase hostname = hostname) :
    tlsParts rootDomain hostname = urlParts rootDomain hostname := by
  have hends : endsWith hostname rootDomain = true := by
    rw [IsServerName, hlower] at hname
    rw [endsWith_iff]
    rcases hname with rfl | hdot
    · exact List.suffix_refl _
    · exact (List.suffix_append (js ".") rootDomain).trans hdot
  have hdomain : requestedDomain rootDomain (some hostname) = hostname := by
    rw [requestedDomain]
    split_ifs with hnil
    · subst hnil
      exact List.suffix_nil.mp (endsWith_iff.mp hends)
    · rfl
  rw [tlsParts, hdomain, urlParts, hostnamePrefixOf, if_pos hends]
  split
  · rfl
  · next hcons =>
      have hstem : sliceEnd hostname (rootDomain.length + 1) = [] := by
        cases hslice : sliceEnd hostname (rootDomain.length + 1) with
        | nil => rfl
        | cons c stem => exact absurd (congrArg some hslice) (hcons c stem)
      rw [getSNIPrefixParts]
      simp only [if_pos hends, hstem, if_true]

namespace HostRequests

variable (requests : HostRequests)

/-- The three handlers judge a name alike if and only if it has no capital letter. -/
theorem judgedAlike_iff :
    requests.JudgedAlike ↔ asciiLowerCase requests.hostname = requests.hostname := by
  constructor
  · rintro ⟨-, -, hparts, -⟩
    rw [asciiLowerCase_eq_self_iff]
    intro c hc hcapital
    obtain ⟨part, hpart, hmem⟩ :=
      exists_part_of_isCapital requests.lowerRoot requests.serverName hc hcapital
    have hpart' : part ∈ urlParts requests.rootDomain requests.url.hostname := hparts ▸ hpart
    have hlower := mem_of_mem_urlParts hpart' hmem
    rw [requests.lowerUrl] at hlower
    exact not_isCapital_of_mem_lowerCase hlower hcapital
  · intro hlower
    have hurl : requests.url.hostname = requests.hostname := requests.lowerUrl.trans hlower
    have hupgrade : requests.upgradeUrl.hostname = requests.hostname :=
      requests.lowerUpgrade.trans hlower
    have hparts : tlsParts requests.rootDomain requests.hostname =
        urlParts requests.rootDomain requests.hostname :=
      tlsParts_eq_urlParts requests.serverName hlower
    have hhttp := httpRejects_iff requests.reaches
    have hws : WsRejects requests.context.parseUrl requests.rootDomain requests.upgrade ↔
        ∃ message, hostError requests.rootDomain requests.upgradeUrl.hostname = some message :=
      wsRejects_iff requests.parsedUpgrade
    rw [hurl] at hhttp
    rw [hupgrade] at hws
    refine ⟨?_, hhttp.trans hws.symm, ?_⟩
    · rw [tlsRejects_iff, hparts, ← hostError_eq]
      exact hhttp.symm
    · rw [hurl, hupgrade]
      exact ⟨hparts, rfl⟩

/-- A server for the domain `t` that has the names of URLs in lower case. -/
def lowerContext : HandlerContext :=
  { plainContext with
    parseUrl := fun target base =>
      some ⟨asciiLowerCase (base.drop (js "http://").length), target⟩ }

/-- Requests for an endpoint that is written in capital letters. -/
def capitalRequests : HostRequests where
  context := lowerContext
  hostname := js "EXPIRED.t"
  version := .http1
  req := ⟨js "/ip", js "GET", some (js "EXPIRED.t"), false, none⟩
  url := ⟨js "expired.t", js "/ip"⟩
  upgrade := ⟨js "/ws/echo", some (js "EXPIRED.t"), none⟩
  upgradeUrl := ⟨js "expired.t", js "/ws/echo"⟩
  lowerRoot := by decide
  serverName := .inr (by decide)
  reaches := ⟨rfl, rfl, by decide, by decide⟩
  lowerUrl := by decide
  parsedUpgrade := by decide
  lowerUpgrade := by decide

/-- The handshake for such a name is refused, and a request for it is not. -/
theorem not_judgedAlike_capital : ¬ capitalRequests.JudgedAlike := by
  rintro ⟨-, -, hparts, -⟩
  exact absurd hparts (by decide)

end HostRequests

end TestServer
