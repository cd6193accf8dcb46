import TestServer.WsHandler

/-!
# Every upgrade is settled

A WebSocket upgrade is handed over, or gets one error response and loses its
socket, unless its target does not parse as a URL or the one step that selects
a subprotocol by name cannot decode it: then the listener throws and does
nothing with the socket.
-/

namespace TestServer

open Js Library Endpoints

/-- The socket is passed on, or is sent the head of an error response and destroyed, and
nothing is thrown. -/
def Upgrade.Settled (u : Upgrade) : Prop :=
  u.thrown = none ∧
    ((∃ forced header entries, u.actions = [.handleUpgrade forced header entries]) ∨
      ∃ statusCode reason, 400 ≤ statusCode ∧ statusCode < 600 ∧
        u.actions = [.write (errorHead statusCode reason), .destroy])

/-- An error that the response to it can name: it has the status of a client or server error,
if any. -/
def Thrown.HasErrorStatus : Thrown → Prop
  | .statusError statusCode _ => 400 ≤ statusCode ∧ statusCode < 600
  | .error _ => True

/-- The step that alone selects a subprotocol, if by name, has a name that can be decoded. -/
def ProtocolDecodes (entries : List (ChainEntry WebSocketEndpoint)) : Prop :=
  ∀ entry, entries.filter selectsProtocol = [entry] →
    entry.endpoint.name = wsSubprotocolEndpoint.name →
      (decodeURIComponent (subprotocolName entry.path)).isSome

/-- The target parses, and if the host and the path are accepted, so does the subprotocol. -/
def Decodes (parseUrl : JsString → JsString → Option Url) (rootDomain : JsString)
    (req : UpgradeRequest) : Prop :=
  ∃ url, parseUrl req.url (js "http://" ++ headerText req.host) = some url ∧
    (hostError rootDomain url.hostname = none →
      ∀ entries, wsChain rootDomain url = .ok entries → ProtocolDecodes entries)

theorem settled_reject {statusCode : Nat} (reason : JsString)
    (hlow : 400 ≤ statusCode) (hhigh : statusCode < 600) : (reject statusCode reason).Settled :=
  ⟨rfl, Or.inr ⟨statusCode, reason, hlow, hhigh, rfl⟩⟩

theorem settled_rejectChain {e : Thrown} (he : e.HasErrorStatus) : (rejectChain e).Settled := by
  cases e with
  | statusError statusCode message => exact settled_reject _ he.1 he.2
  | error message => exact settled_reject _ (by decide) (by decide)

theorem hasErrorStatus_badRequest (message : JsString) :
    (Thrown.statusError 400 message).HasErrorStatus := ⟨Nat.le_refl 400, by decide⟩

theorem hasErrorStatus_notFound (message : JsString) :
    (Thrown.statusError 404 message).HasErrorStatus := ⟨by decide, by decide⟩

/-- The endpoints name an error status in what they throw. -/
theorem wsEndpoints_hasErrorStatus {hostnamePrefix : Option JsString} :
    ∀ endpoint ∈ wsEndpoints, ∀ path e,
      endpoint.matchPath path hostnamePrefix = .error e → e.HasErrorStatus := by
  have hbad := hasErrorStatus_badRequest
  intro endpoint hmem path e h
  simp only [wsEndpoints, List.mem_cons, List.not_mem_nil, or_false] at hmem
  rcases hmem with rfl | rfl | rfl | rfl | rfl | rfl | rfl | rfl
  case inl =>
    simp only [wsCloseEndpoint] at h
    split at h
    · cases h
    · split at h
      · cases h
        exact hbad _
      · split at h <;> cases h
        exact hbad _
  case inr.inl =>
    simp only [wsDelayEndpoint] at h
    split at h
    · cases h
    · split at h <;> cases h
      exact hbad _
  case inr.inr.inr.inr.inr.inl =>
    simp only [wsRepeatEndpoint] at h
    split at h
    · cases h
    · rcases bind_error_iff.mp h with h | ⟨freqMs, _, h⟩
      · simp only [parseRepeatFrequency] at h
        split at h
        · cases h
        · split at h <;> cases h
          trivial
      · cases freqMs with
        | none =>
            cases h
            exact hbad _
        | some freqMs =>
            simp only at h
            split at h <;> cases h
            exact hbad _
  all_goals cases h

/-- Once the chain is resolved, only a subprotocol that cannot be decoded throws. -/
theorem settled_upgradeChain_iff {req : UpgradeRequest}
    {entries : List (ChainEntry WebSocketEndpoint)}
    (hmem : ∀ entry ∈ entries, entry.endpoint ∈ wsEndpoints) :
    (upgradeChain req entries).Settled ↔ ProtocolDecodes entries := by
  match hfilter : entries.filter selectsProtocol with
  | [] =>
      simp only [upgradeChain, hfilter]
      refine iff_of_true ⟨rfl, Or.inl ⟨_, _, _, rfl⟩⟩ ?_
      intro entry h
      rw [hfilter] at h
      cases h
  | _ :: _ :: _ =>
      simp only [upgradeChain, hfilter]
      refine iff_of_true (settled_reject _ (by decide) (by decide)) ?_
      intro entry h
      rw [hfilter] at h
      cases h
  | [entry] =>
      have hentry : entry ∈ entries.filter selectsProtocol := by
        rw [hfilter]
        exact List.mem_singleton_self entry
      obtain ⟨hin, hselects⟩ := List.mem_filter.mp hentry
      obtain ⟨getProtocol, hget⟩ := Option.isSome_iff_exists.mp hselects
      have hdecodes : ProtocolDecodes entries ↔
          (entry.endpoint.name = wsSubprotocolEndpoint.name →
            (decodeURIComponent (subprotocolName entry.path)).isSome) := by
        simp only [ProtocolDecodes, hfilter, List.cons.injEq, and_true, forall_eq']
      rw [hdecodes]
      simp only [upgradeChain, hfilter, hget]
      rcases getProtocol_cases (hmem entry hin) hget with heq | heq
      · -- The endpoint selects no subprotocol, whatever its path.
        rw [heq] at hget ⊢
        cases hget
        refine iff_of_true ⟨rfl, Or.inl ⟨_, _, _, rfl⟩⟩ ?_
        intro hname
        exact absurd hname (by decide)
      · rw [heq] at hget ⊢
        cases hget
        dsimp only
        cases hdecode : decodeURIComponent (subprotocolName entry.path) with
        | none =>
            refine iff_of_false ?_ ?_
            · rintro ⟨hthrown, _⟩
              cases hthrown
            · intro h
              cases h rfl
        | some protocol =>
            exact iff_of_true ⟨rfl, Or.inl ⟨_, _, _, rfl⟩⟩ fun _ => rfl

/-- An upgrade is settled without an exception if and only if its target parses and the name of
the subprotocol it selects, if any, can be decoded. -/
theorem handleWebSocketUpgrade_settled_iff (parseUrl : JsString → JsString → Option Url)
    (rootDomain : JsString) (req : UpgradeRequest) :
    (handleWebSocketUpgrade parseUrl rootDomain req).Settled ↔ Decodes parseUrl rootDomain req := by
  unfold handleWebSocketUpgrade Decodes
  cases hurl : parseUrl req.url (js "http://" ++ headerText req.host) with
  | none =>
      refine iff_of_false ?_ ?_
      · rintro ⟨hthrown, _⟩
        cases hthrown
      · rintro ⟨url, h, _⟩
        cases h
  | some url =>
      simp only [Option.some.injEq, exists_eq_left']
      cases hhost : hostError rootDomain url.hostname with
      | some message =>
          refine iff_of_true (settled_reject _ (by decide) (by decide)) ?_
          intro hnone
          cases hnone
      | none =>
          cases hchain : wsChain rootDomain url with
          | error e =>
              have hstatus : e.HasErrorStatus :=
                thrown_of_resolve hasErrorStatus_badRequest hasErrorStatus_notFound
                  wsEndpoints_hasErrorStatus hchain
              refine iff_of_true (settled_rejectChain hstatus) ?_
              intro _ entries h
              cases h
          | ok entries =>
              have hmem := endpoint_mem_of_resolve hchain
              simp only [settled_upgradeChain_iff hmem, Except.ok.injEq, forall_eq', forall_const]

/-- A malformed escape in a subprotocol is thrown out of the listener. -/
theorem not_settled_malformed_subprotocol :
    ¬ (handleWebSocketUpgrade plainUrl (js "t")
      ⟨js "/ws/subprotocol/%zz", some (js "t"), none⟩).Settled := by
  have hthrown : (handleWebSocketUpgrade plainUrl (js "t")
      ⟨js "/ws/subprotocol/%zz", some (js "t"), none⟩).thrown = some uriError := by decide
  rintro ⟨hnone, _⟩
  rw [hthrown] at hnone
  cases hnone

end TestServer
