import Mathlib.Data.List.TakeWhile
import TestServer.Endpoints.HttpIndex
import TestServer.Endpoints.WsIndex

/-!
# Paths have one endpoint

No two endpoints of a table claim the same path, so the first one that takes it
is the only one, and a chain does not depend on the order of the table. What
tells the endpoints apart is the first two segments of a path.

## Implementation notes

Upper case is a parameter for texts that are not ASCII.
-/

namespace TestServer

open Js Endpoints

section

variable {ε : Type} {chainable : ε → ChainableEndpoint} {endpoints table : List ε}

/-- Whether an endpoint takes a path, or throws for it. -/
def claims (endpoint : ChainableEndpoint) (path : JsString) (hostnamePrefix : Option JsString) :
    Bool :=
  match endpoint.matchPath path hostnamePrefix with
  | .ok taken => taken
  | .error _ => true

/-- The first claim decides a match. -/
theorem findMatch_eq (path : JsString) (hostnamePrefix : Option JsString) :
    findMatch chainable path hostnamePrefix endpoints =
      match endpoints.find? fun e => claims (chainable e) path hostnamePrefix with
      | none => .ok none
      | some e => ((chainable e).matchPath path hostnamePrefix).map fun _ => some e := by
  induction endpoints with
  | nil => rfl
  | cons e rest ih =>
      rw [findMatch, List.find?_cons, claims]
      cases hmatch : (chainable e).matchPath path hostnamePrefix with
      | error thrown =>
          simp only [hmatch]
          rfl
      | ok taken =>
          cases taken with
          | true =>
              simp only [hmatch]
              rfl
          | false => exact ih

/-- The elements of a list that pass a test only one can pass are found in any order. -/
theorem find?_perm {α : Type} {p : α → Bool} {xs ys : List α} (h : xs.Perm ys)
    (hone : ys.countP p ≤ 1) : xs.find? p = ys.find? p := by
  have hperm : (xs.filter p).Perm (ys.filter p) := h.filter p
  rw [List.countP_eq_length_filter] at hone
  rw [← List.head?_filter, ← List.head?_filter]
  match hfilter : ys.filter p, hone with
  | [], _ =>
      rw [hfilter] at hperm
      rw [List.perm_nil.mp hperm]
  | [a], _ =>
      rw [hfilter] at hperm
      rw [List.perm_singleton.mp hperm]

/-- An endpoint that takes a path which only one endpoint claims is the one that is found. -/
theorem findMatch_of_claimedOnce {endpoint : ε} {path : JsString}
    {hostnamePrefix : Option JsString}
    (hone : endpoints.countP (fun e => claims (chainable e) path hostnamePrefix) ≤ 1)
    (hmem : endpoint ∈ endpoints)
    (hmatch : (chainable endpoint).matchPath path hostnamePrefix = .ok true) :
    findMatch chainable path hostnamePrefix endpoints = .ok (some endpoint) := by
  have hclaims : claims (chainable endpoint) path hostnamePrefix = true := by
    rw [claims, hmatch]
  have hfound : endpoint ∈ endpoints.filter fun e => claims (chainable e) path hostnamePrefix :=
    List.mem_filter.mpr ⟨hmem, hclaims⟩
  rw [List.countP_eq_length_filter] at hone
  rw [findMatch_eq, ← List.head?_filter]
  match hfilter : endpoints.filter fun e => claims (chainable e) path hostnamePrefix, hone with
  | [], _ =>
      rw [hfilter] at hfound
      cases hfound
  | [e], _ =>
      rw [hfilter, List.mem_singleton] at hfound
      rw [← hfound, List.head?_cons]
      dsimp only
      rw [hmatch]
      rfl

/-- No path is claimed twice, and no chain depends on the order of the table. -/
structure Unambiguous (chainable : ε → ChainableEndpoint) (endpoints : List ε) : Prop where
  claimedOnce : ∀ path hostnamePrefix,
    endpoints.countP (fun e => claims (chainable e) path hostnamePrefix) ≤ 1
  anyOrder : ∀ table : List ε, table.Perm endpoints → ∀ path hostnamePrefix,
    resolveEndpointChain chainable table path hostnamePrefix =
      resolveEndpointChain chainable endpoints path hostnamePrefix

theorem resolveFrom_perm (hperm : table.Perm endpoints)
    (hone : ∀ path hostnamePrefix,
      endpoints.countP (fun e => claims (chainable e) path hostnamePrefix) ≤ 1)
    (initialPath : JsString) (hostnamePrefix : Option JsString) (turns : Nat)
    (path : Option JsString) :
    resolveFrom chainable table initialPath hostnamePrefix turns path =
      resolveFrom chainable endpoints initialPath hostnamePrefix turns path := by
  induction turns generalizing path with
  | zero =>
      match path with
      | none | some [] | some (c :: rest) => rfl
  | succ turns ih =>
      match path with
      | none | some [] => rfl
      | some (c :: rest) =>
          have hmatch : findMatch chainable (c :: rest) hostnamePrefix table =
              findMatch chainable (c :: rest) hostnamePrefix endpoints := by
            rw [findMatch_eq, findMatch_eq, find?_perm hperm (hone _ _)]
          rw [resolveFrom, resolveFrom, hmatch]
          simp only [ih]

/-- Claims told by the name of one endpoint leave no conflict. -/
theorem unambiguous_of_owner (name : ε → JsString) (owner : JsString → JsString)
    (hnames : (endpoints.map name).Nodup)
    (howner : ∀ e ∈ endpoints, ∀ path hostnamePrefix,
      claims (chainable e) path hostnamePrefix = true → owner path = name e) :
    Unambiguous chainable endpoints := by
  have hone : ∀ path hostnamePrefix,
      endpoints.countP (fun e => claims (chainable e) path hostnamePrefix) ≤ 1 := by
    intro path hostnamePrefix
    rw [List.countP_eq_length_filter]
    have hnodup := hnames.sublist ((endpoints.filter_sublist
      (p := fun e => claims (chainable e) path hostnamePrefix)).map name)
    match hfilter : endpoints.filter fun e => claims (chainable e) path hostnamePrefix with
    | [] => exact Nat.zero_le 1
    | [e] => exact le_rfl
    | e :: f :: rest =>
        have hmem : ∀ g ∈ e :: f :: rest, owner path = name g := by
          rw [← hfilter]
          intro g hg
          obtain ⟨hg, hclaims⟩ := List.mem_filter.mp hg
          exact howner g hg path hostnamePrefix hclaims
        rw [hfilter, List.map_cons, List.map_cons, List.nodup_cons] at hnodup
        exfalso
        apply hnodup.1
        rw [← hmem e (by simp), hmem f (by simp)]
        exact List.mem_cons_self
  exact ⟨hone, fun table hperm path hostnamePrefix => resolveFrom_perm hperm hone _ _ _ _⟩

end

def notSlash (c : UInt16) : Bool := decide (c ≠ unit '/')

def firstSegment (path : JsString) : JsString := (path.drop 1).takeWhile notSlash

def secondSegment (path : JsString) : Option JsString :=
  match (path.drop 1).dropWhile notSlash with
  | [] => none
  | _ :: rest => some (rest.takeWhile notSlash)

def ownerIn {κ : Type} [DecidableEq κ] (owners : List (κ × JsString)) (key : κ) :
    Option JsString :=
  (owners.find? fun entry => decide (entry.1 = key)).map Prod.snd

/-- All that an endpoint claims belongs to it. -/
def Owned (owner : JsString → JsString) (endpoint : ChainableEndpoint) : Prop :=
  ∀ path hostnamePrefix, claims endpoint path hostnamePrefix = true → owner path = endpoint.name

theorem owned_of_eq {owner : JsString → JsString} {endpoint : ChainableEndpoint}
    (only : JsString)
    (hclaims : ∀ path hostnamePrefix, claims endpoint path hostnamePrefix = true → path = only)
    (howner : owner only = endpoint.name) : Owned owner endpoint := by
  intro path hostnamePrefix h
  rw [hclaims path hostnamePrefix h, howner]

theorem owned_of_startsWith {owner : JsString → JsString} {endpoint : ChainableEndpoint}
    (lead : JsString)
    (hclaims : ∀ path hostnamePrefix, claims endpoint path hostnamePrefix = true →
      lead <+: path)
    (howner : ∀ rest, owner (lead ++ rest) = endpoint.name) : Owned owner endpoint := by
  intro path hostnamePrefix h
  obtain ⟨rest, rfl⟩ := hclaims path hostnamePrefix h
  exact howner rest

/-- What is used of `toUpperCase`: its values on ASCII texts, and that a slash stays one. -/
structure UpperCase (toUpperCase : JsString → JsString) : Prop where
  ascii : ∀ s : JsString, (∀ c ∈ s, c < 128) → toUpperCase s = asciiUpperCase s
  slash : ∀ s, unit '/' ∈ s → unit '/' ∈ toUpperCase s

section

variable (toUpperCase : JsString → JsString)

def getMethodEndpointIn : HttpEndpoint :=
  plainEndpoint (js "getMethodEndpoint") fun path =>
    decide (toUpperCase (path.drop 1) = js "GET")

def nonGetMethodEndpointIn : HttpEndpoint :=
  plainEndpoint (js "nonGetMethodEndpoint") fun path =>
    nonGetMethods.any fun method => decide (toUpperCase (path.drop 1) = method)

/-- The table of HTTP endpoints, for any path. -/
def httpEndpointsIn : List HttpEndpoint :=
  [absoluteRedirectN, anything, base64Decode, basicAuth, bearer, brotli, bytesEndpoint, cache,
    cacheWithAge, closeEndpoint, deflate, delayEndpoint, deleteCookies, deny, echo, etag,
    examplePage, getCookies, getMethodEndpointIn toUpperCase, gzip, headers, hiddenBasicAuth,
    html, identity, informational, ip, json, nonGetMethodEndpointIn toUpperCase, redirectN,
    redirectTo, relativeRedirectN, resetEndpoint, responseHeaders, robotsTxt, setCookies, status,
    streamBytesEndpoint, streamEndpoint, tlsCertificates, tlsClientHello, tlsFingerprint,
    trailers, userAgent, utf8Encoding, uuid, versionJson, xml, zstd]

/-- On path names of parsed URLs it is the table of the handler. -/
theorem httpEndpointsIn_ascii : httpEndpointsIn asciiUpperCase = httpEndpoints := rfl

/-- The endpoints of paths with one segment, but for the names of methods. -/
def singleOwners : List (JsString × JsString) :=
  [([], js "examplePage"), (js "anything", js "anything"), (js "bearer", js "bearer"),
    (js "cache", js "cache"), (js "cookies", js "getCookies"), (js "deny", js "deny"),
    (js "echo", js "echo"), (js "headers", js "headers"), (js "html", js "html"),
    (js "ip", js "ip"), (js "json", js "json"), (js "redirect-to", js "redirectTo"),
    (js "response-headers", js "responseHeaders"), (js "robots.txt", js "robotsTxt"),
    (js "trailers", js "trailers"), (js "user-agent", js "userAgent"), (js "uuid", js "uuid"),
    (js "version", js "versionJson"), (js "xml", js "xml")]

/-- The endpoints of paths that are told by two segments. -/
def nestedOwners : List ((JsString × JsString) × JsString) :=
  [((js "cookies", js "set"), js "setCookies"), ((js "cookies", js "delete"), js "deleteCookies"),
    ((js "encoding", js "brotli"), js "brotli"), ((js "encoding", js "deflate"), js "deflate"),
    ((js "encoding", js "gzip"), js "gzip"), ((js "encoding", js "identity"), js "identity"),
    ((js "encoding", js "utf8"), js "utf8Encoding"), ((js "encoding", js "zstd"), js "zstd"),
    ((js "error", js "close"), js "closeEndpoint"), ((js "error", js "reset"), js "resetEndpoint"),
    ((js "tls", js "certs"), js "tlsCertificates"),
    ((js "tls", js "client-hello"), js "tlsClientHello"),
    ((js "tls", js "fingerprint"), js "tlsFingerprint")]

/-- The endpoints of all longer paths with a first segment. -/
def prefixOwners : List (JsString × JsString) :=
  [(js "absolute-redirect", js "absoluteRedirectN"), (js "anything", js "anything"),
    (js "base64", js "base64Decode"), (js "basic-auth", js "basicAuth"),
    (js "bytes", js "bytesEndpoint"), (js "cache", js "cacheWithAge"),
    (js "delay", js "delayEndpoint"), (js "etag", js "etag"),
    (js "hidden-basic-auth", js "hiddenBasicAuth"), (js "info", js "informational"),
    (js "redirect", js "redirectN"), (js "relative-redirect", js "relativeRedirectN"),
    (js "status", js "status"), (js "stream-bytes", js "streamBytesEndpoint"),
    (js "stream", js "streamEndpoint")]

/-- The name of the only endpoint that may claim a path. -/
def httpOwner (path : JsString) : JsString :=
  match secondSegment path with
  | none =>
      match ownerIn singleOwners (firstSegment path) with
      | some name => name
      | none =>
          if toUpperCase (path.drop 1) = js "GET" then js "getMethodEndpoint"
          else js "nonGetMethodEndpoint"
  | some second =>
      match ownerIn nestedOwners (firstSegment path, second) with
      | some name => name
      | none => (ownerIn prefixOwners (firstSegment path)).getD []

variable {toUpperCase}

theorem owned_pathEndpoint {owner : JsString → JsString} {name only : JsString}
    (h : owner only = name) : Owned owner (pathEndpoint name only).toChainableEndpoint :=
  owned_of_eq only (fun _ _ hclaims => of_decide_eq_true hclaims) h

theorem owned_tailEndpoint {owner : JsString → JsString} {name lead : JsString}
    (h : ∀ rest, owner (lead ++ rest) = name) :
    Owned owner (tailEndpoint name lead).toChainableEndpoint := by
  apply owned_of_startsWith _ _ h
  intro path _ hclaims
  exact startsWith_iff.mp (Bool.and_eq_true_iff.mp hclaims).1

theorem owned_countEndpoint {owner : JsString → JsString} {name : JsString} {rule : CountRule}
    (h : ∀ rest, owner (rule.lead ++ rest) = name) :
    Owned owner (countEndpoint name rule).toChainableEndpoint := by
  apply owned_of_startsWith _ _ h
  intro path hostnamePrefix hclaims
  by_cases hcounted : isCounted rule.lead path = true
  · rw [isCounted, Bool.and_eq_true_iff, Bool.and_eq_true_iff] at hcounted
    exact startsWith_iff.mp hcounted.1.1
  · simp only [claims, countEndpoint, if_neg hcounted, Bool.false_eq_true] at hclaims

theorem owned_credentialsEndpoint {owner : JsString → JsString} {name lead : JsString}
    (h : ∀ rest, owner (js "/" ++ lead ++ js "/" ++ rest) = name) :
    Owned owner (credentialsEndpoint name lead).toChainableEndpoint := by
  apply owned_of_startsWith _ _ h
  intro path hostnamePrefix hclaims
  simp only [claims, credentialsEndpoint, plainEndpoint] at hclaims
  split at hclaims
  · next first username password hsplit =>
      obtain ⟨rfl, _⟩ := of_decide_eq_true hclaims
      have hpath : join (js "/") (split path (js "/")) = path := join_split (by decide) path
      rw [hsplit] at hpath
      rw [← hpath]
      refine ⟨username ++ js "/" ++ password, ?_⟩
      simp only [join, List.nil_append, List.append_assoc]
  · cases hclaims

/-- An endpoint that takes nothing outside a leading part. -/
theorem owned_of_outside {owner : JsString → JsString} {endpoint : ChainableEndpoint}
    {lead : JsString}
    (hout : ∀ path hostnamePrefix, ¬ startsWith path lead = true →
      endpoint.matchPath path hostnamePrefix = .ok false)
    (howner : ∀ rest, owner (lead ++ rest) = endpoint.name) : Owned owner endpoint := by
  apply owned_of_startsWith lead _ howner
  intro path hostnamePrefix hclaims
  by_contra hlead
  rw [claims, hout path hostnamePrefix (mt startsWith_iff.mp hlead)] at hclaims
  cases hclaims

/-- An endpoint that takes one path and all that go on after a leading part. -/
theorem owned_of_eq_or_startsWith {owner : JsString → JsString} {endpoint : ChainableEndpoint}
    (only lead : JsString)
    (hclaims : ∀ path hostnamePrefix, claims endpoint path hostnamePrefix = true →
      path = only ∨ lead <+: path)
    (honly : owner only = endpoint.name) (howner : ∀ rest, owner (lead ++ rest) = endpoint.name) :
    Owned owner endpoint := by
  intro path hostnamePrefix h
  obtain rfl | ⟨rest, rfl⟩ := hclaims path hostnamePrefix h
  · exact honly
  · exact howner rest

theorem notSlash_of_notMem {s : JsString} (h : unit '/' ∉ s) : ∀ c ∈ s, notSlash c = true := by
  intro c hc
  apply decide_eq_true
  rintro rfl
  exact h hc

/-- The name of a method has one segment. -/
theorem httpOwner_of_method (hupper : UpperCase toUpperCase) {path : JsString}
    (h : toUpperCase (path.drop 1) ∈ httpMethods) :
    httpOwner toUpperCase path =
      if toUpperCase (path.drop 1) = js "GET" then js "getMethodEndpoint"
      else js "nonGetMethodEndpoint" := by
  have hslash : unit '/' ∉ path.drop 1 := by
    intro hmem
    have htable : httpMethods.all (fun method => decide (unit '/' ∉ method)) = true := by
      decide +kernel
    exact of_decide_eq_true (List.all_eq_true.mp htable _ h) (hupper.slash _ hmem)
  have hsecond : secondSegment path = none := by
    rw [secondSegment, List.dropWhile_eq_nil_iff.mpr (notSlash_of_notMem hslash)]
  have hfirst : firstSegment path = path.drop 1 :=
    List.takeWhile_eq_self_iff.mpr (notSlash_of_notMem hslash)
  have howner : ownerIn singleOwners (path.drop 1) = none := by
    rw [ownerIn, Option.map_eq_none_iff, List.find?_eq_none]
    intro entry hentry heq
    have hword : entry.1 = path.drop 1 := of_decide_eq_true heq
    have hascii : singleOwners.all (fun entry => entry.1.all (fun c => decide (c < 128)) &&
        decide (asciiUpperCase entry.1 ∉ httpMethods)) = true := by
      decide +kernel
    obtain ⟨hsmall, hnot⟩ := Bool.and_eq_true_iff.mp (List.all_eq_true.mp hascii entry hentry)
    have hsmall : ∀ c ∈ entry.1, c < 128 := fun c hc =>
      of_decide_eq_true (List.all_eq_true.mp hsmall c hc)
    rw [← hword, hupper.ascii _ hsmall] at h
    exact of_decide_eq_true hnot h
  rw [httpOwner, hsecond, hfirst, howner]

theorem owned_getMethodEndpointIn (hupper : UpperCase toUpperCase) :
    Owned (httpOwner toUpperCase) (getMethodEndpointIn toUpperCase).toChainableEndpoint := by
  intro path hostnamePrefix hclaims
  have hget : toUpperCase (path.drop 1) = js "GET" := of_decide_eq_true hclaims
  rw [httpOwner_of_method hupper (by rw [hget]; decide), if_pos hget]
  rfl

theorem owned_nonGetMethodEndpointIn (hupper : UpperCase toUpperCase) :
    Owned (httpOwner toUpperCase) (nonGetMethodEndpointIn toUpperCase).toChainableEndpoint := by
  intro path hostnamePrefix hclaims
  obtain ⟨method, hmethod, heq⟩ := List.any_eq_true.mp hclaims
  obtain ⟨hmem, hne⟩ := List.mem_filter.mp hmethod
  rw [← of_decide_eq_true heq] at hmem hne
  rw [httpOwner_of_method hupper hmem, if_neg (of_decide_eq_true hne)]
  rfl

theorem owned_anything : Owned (httpOwner toUpperCase) anything.toChainableEndpoint := by
  apply owned_of_eq_or_startsWith (js "/anything") (js "/anything/")
  · intro path hostnamePrefix hclaims
    rcases Bool.or_eq_true_iff.mp hclaims with h | h
    · exact Or.inl (of_decide_eq_true h)
    · exact Or.inr (startsWith_iff.mp h)
  · rfl
  · exact fun _ => rfl

theorem owned_setCookies : Owned (httpOwner toUpperCase) setCookies.toChainableEndpoint := by
  apply owned_of_eq_or_startsWith (js "/cookies/set") (js "/cookies/set/")
  · intro path hostnamePrefix hclaims
    rcases Bool.or_eq_true_iff.mp hclaims with h | h
    · exact Or.inl (of_decide_eq_true h)
    · exact Or.inr (startsWith_iff.mp (Bool.and_eq_true_iff.mp h).1)
  · rfl
  · exact fun _ => rfl

theorem owned_examplePage : Owned (httpOwner toUpperCase) examplePage.toChainableEndpoint := by
  apply owned_of_eq (js "/")
  · intro path hostnamePrefix hclaims
    exact (of_decide_eq_true hclaims).1
  · rfl

theorem owned_tlsCertificates :
    Owned (httpOwner toUpperCase) tlsCertificates.toChainableEndpoint := by
  apply owned_of_startsWith (js "/tls/certs/")
  · intro path hostnamePrefix hclaims
    exact startsWith_iff.mp (Bool.and_eq_true_iff.mp hclaims).1
  · exact fun _ => rfl

/-- Every HTTP endpoint claims only what belongs to it. -/
theorem owned_httpEndpointsIn (hupper : UpperCase toUpperCase) :
    ∀ endpoint ∈ httpEndpointsIn toUpperCase,
      Owned (httpOwner toUpperCase) endpoint.toChainableEndpoint := by
  simp only [httpEndpointsIn, List.forall_mem_cons]
  and_intros
  all_goals try first
    | exact owned_pathEndpoint rfl
    | exact owned_countEndpoint fun _ => rfl
    | exact owned_tailEndpoint fun _ => rfl
    | exact owned_credentialsEndpoint fun _ => rfl
    | exact owned_of_outside (fun _ _ h => if_pos h) fun _ => rfl
  · exact owned_anything
  · exact owned_examplePage
  · exact owned_getMethodEndpointIn hupper
  · exact owned_nonGetMethodEndpointIn hupper
  · exact owned_setCookies
  · exact owned_tlsCertificates
  · exact List.forall_mem_nil _

end

/-- The WebSocket endpoints, by the second segment of their paths. -/
def wsOwners : List (JsString × JsString) :=
  [(js "close", js "wsCloseEndpoint"), (js "delay", js "wsDelayEndpoint"),
    (js "echo", js "wsEchoEndpoint"), (js "message", js "wsMessageEndpoint"),
    (js "no-subprotocol", js "wsNoSubprotocolEndpoint"), (js "repeat", js "wsRepeatEndpoint"),
    (js "error", js "wsResetEndpoint"), (js "subprotocol", js "wsSubprotocolEndpoint")]

def wsOwner (path : JsString) : JsString :=
  match secondSegment path with
  | none => []
  | some second => (ownerIn wsOwners second).getD []

theorem owned_wsCloseEndpoint : Owned wsOwner wsCloseEndpoint.toChainableEndpoint := by
  apply owned_of_eq_or_startsWith (js "/ws/close") (js "/ws/close/")
  · intro path hostnamePrefix hclaims
    by_contra hnot
    rw [not_or] at hnot
    have hout : wsCloseEndpoint.matchPath path hostnamePrefix = .ok false :=
      if_pos ⟨mt startsWith_iff.mp hnot.2, hnot.1⟩
    rw [claims, hout] at hclaims
    cases hclaims
  · rfl
  · exact fun _ => rfl

theorem owned_wsNoSubprotocolEndpoint :
    Owned wsOwner wsNoSubprotocolEndpoint.toChainableEndpoint := by
  apply owned_of_eq_or_startsWith noSubprotocolPath (noSubprotocolPath ++ js "/")
  · intro path hostnamePrefix hclaims
    rcases Bool.or_eq_true_iff.mp hclaims with h | h
    · exact Or.inl (of_decide_eq_true h)
    · exact Or.inr (startsWith_iff.mp h)
  · rfl
  · exact fun _ => rfl

/-- Every WebSocket endpoint claims only what belongs to it. -/
theorem owned_wsEndpoints :
    ∀ endpoint ∈ wsEndpoints, Owned wsOwner endpoint.toChainableEndpoint := by
  simp only [wsEndpoints, List.forall_mem_cons]
  and_intros
  · exact owned_wsCloseEndpoint
  · exact owned_of_outside (fun _ _ h => if_pos h) fun _ => rfl
  · exact owned_of_eq _ (fun _ _ hclaims => of_decide_eq_true hclaims) rfl
  · exact owned_of_startsWith _ (fun _ _ hclaims => startsWith_iff.mp hclaims) fun _ => rfl
  · exact owned_wsNoSubprotocolEndpoint
  · exact owned_of_outside (fun _ _ h => if_pos h) fun _ => rfl
  · exact owned_of_eq _ (fun _ _ hclaims => of_decide_eq_true hclaims) rfl
  · exact owned_of_startsWith _
      (fun _ _ hclaims => startsWith_iff.mp (Bool.and_eq_true_iff.mp hclaims).1) fun _ => rfl
  · exact List.forall_mem_nil _

theorem nodup_httpEndpointsIn (toUpperCase : JsString → JsString) :
    ((httpEndpointsIn toUpperCase).map fun endpoint => endpoint.name).Nodup := by
  rw [show (httpEndpointsIn toUpperCase).map (fun endpoint => endpoint.name) =
    httpEndpoints.map fun endpoint => endpoint.name from rfl]
  decide +kernel

theorem unambiguous_httpEndpointsIn {toUpperCase : JsString → JsString}
    (hupper : UpperCase toUpperCase) :
    Unambiguous HttpEndpoint.toChainableEndpoint (httpEndpointsIn toUpperCase) := by
  apply unambiguous_of_owner (fun endpoint => endpoint.name) (httpOwner toUpperCase)
  · exact nodup_httpEndpointsIn toUpperCase
  · exact owned_httpEndpointsIn hupper

theorem nodup_wsEndpoints : (wsEndpoints.map fun endpoint => endpoint.name).Nodup := by
  decide

theorem unambiguous_wsEndpoints :
    Unambiguous WebSocketEndpoint.toChainableEndpoint wsEndpoints := by
  apply unambiguous_of_owner (fun endpoint => endpoint.name) wsOwner
  · exact nodup_wsEndpoints
  · exact owned_wsEndpoints

/-- No path is claimed by two endpoints of one table, so no chain depends on the order of the
tables. -/
theorem routing_unambiguous {toUpperCase : JsString → JsString} (hupper : UpperCase toUpperCase) :
    Unambiguous HttpEndpoint.toChainableEndpoint (httpEndpointsIn toUpperCase) ∧
      Unambiguous WebSocketEndpoint.toChainableEndpoint wsEndpoints :=
  ⟨unambiguous_httpEndpointsIn hupper, unambiguous_wsEndpoints⟩

/-- Upper case of ASCII letters only. -/
theorem upperCase_ascii : UpperCase asciiUpperCase where
  ascii _ _ := rfl
  slash _ h := List.mem_map.mpr ⟨unit '/', h, rfl⟩

/-- Nothing depends on the order of the tables when only ASCII letters have upper case. -/
theorem routing_unambiguous_ascii :
    Unambiguous HttpEndpoint.toChainableEndpoint httpEndpoints ∧
      Unambiguous WebSocketEndpoint.toChainableEndpoint wsEndpoints :=
  routing_unambiguous upperCase_ascii

end TestServer
