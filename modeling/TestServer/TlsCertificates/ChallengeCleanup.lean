import TestServer.TlsCertificates.RequestCertificate

/-!
# Challenge records after a request

When a request for a certificate has settled, the records it set are gone and
all others are as before, unless the flow for short-lived certificates throws
after it has set a record: it does not remove the record then. The other flow
leaves the removal to `auto`.
-/

namespace TestServer.TlsCertificates

open Js Library

/-- Where a record may be held. -/
inductive Place where
  | memory
  | store

variable {σ : Type} {toLowerCase : JsString → JsString} {challengeStore : ChallengeStore σ}

def ChallengeRecords.Holds (challengeStore : ChallengeStore σ) (records : ChallengeRecords σ)
    (place : Place) (key value : JsString) : Prop :=
  match place with
  | .memory => records.dnsServer.Holds key value
  | .store => ∃ s ∈ records.shared, value ∈ challengeStore.get s key

/-- The records are those held before, without the ones that the request set. -/
def LeavesNothing (challengeStore : ChallengeStore σ) (before : ChallengeRecords σ)
    (r : Request σ) : Prop :=
  ∀ place key value, r.records.Holds challengeStore place key value ↔
    before.Holds challengeStore place key value ∧ (key, value) ∉ r.published

/-- What stops the work on an authorization once its record is set. -/
def FailsPublished (hasStore : Bool) (outcome : ChallengeOutcome) : Prop :=
  (hasStore = true ∧ outcome.setTxtRecord ≠ .resolved) ∨
    outcome.completeChallenge = false ∨ outcome.waitForValidStatus = false

instance (hasStore : Bool) (outcome : ChallengeOutcome) :
    Decidable (FailsPublished hasStore outcome) :=
  inferInstanceAs (Decidable (_ ∨ _))

/-- Of the authorizations that are worked on, the first that fails does so after its record
was set. -/
def StopsPublished (hasStore : Bool) : List (Authorization × ChallengeOutcome) → Prop
  | [] => False
  | (authz, outcome) :: rest =>
      if authz.status = js "valid" then StopsPublished hasStore rest
      else if authz.offers (js "dns-01") = false ∨ outcome.getChallengeKeyAuthorization = none then
        False
      else FailsPublished hasStore outcome ∨ StopsPublished hasStore rest

instance decidableStopsPublished (hasStore : Bool) :
    ∀ authorizations, Decidable (StopsPublished hasStore authorizations)
  | [] => isFalse id
  | (_, _) :: rest => by
      have := decidableStopsPublished hasStore rest
      unfold StopsPublished
      infer_instance

/-- Every record that `auto` creates it removes later. -/
def CreatedRemoved : List AutoCall → Prop
  | [] => True
  | .challengeCreateFn keyAuthorization _ :: rest =>
      .challengeRemoveFn keyAuthorization ∈ rest ∧ CreatedRemoved rest
  | .challengeRemoveFn _ :: rest => CreatedRemoved rest

/-- Every record that `auto` removes it has created before. -/
def RemovedCreated (created : List JsString) : List AutoCall → Prop
  | [] => True
  | .challengeCreateFn keyAuthorization _ :: rest =>
      RemovedCreated (keyAuthorization :: created) rest
  | .challengeRemoveFn keyAuthorization :: rest =>
      keyAuthorization ∈ created ∧ RemovedCreated created rest

namespace Request

variable {r : Request σ} {before : ChallengeRecords σ} {fqdn value : JsString}

theorem holds_of_publish {stored : StoreWrite} {place : Place} {key v : JsString}
    (h : (r.publish toLowerCase challengeStore fqdn value stored).records.Holds
      challengeStore place key v) :
    r.records.Holds challengeStore place key v ∨ (key, v) = (toLowerCase fqdn, value) := by
  cases place with
  | memory => exact DnsServer.holds_addTxtRecord.mp h
  | store =>
      obtain ⟨t, ht, hv⟩ := h
      simp only [publish] at ht
      split_ifs at ht
      · obtain ⟨s, hs, rfl⟩ := Option.map_eq_some_iff.mp ht
        have hset := challengeStore.mem_get_set.mp hv
        exact hset.imp_left fun hv => ⟨s, hs, hv⟩
      · exact Or.inl ⟨t, ht, hv⟩

theorem holds_publish {stored : StoreWrite} {place : Place} {key v : JsString}
    (h : r.records.Holds challengeStore place key v) :
    (r.publish toLowerCase challengeStore fqdn value stored).records.Holds
      challengeStore place key v := by
  cases place with
  | memory => exact DnsServer.holds_addTxtRecord.mpr (Or.inl h)
  | store =>
      obtain ⟨s, hs, hv⟩ := h
      simp only [publish, ChallengeRecords.Holds]
      split_ifs
      · refine ⟨_, Option.map_eq_some_iff.mpr ⟨s, hs, rfl⟩, ?_⟩
        exact challengeStore.mem_get_set.mpr (Or.inl hv)
      · exact ⟨s, hs, hv⟩

theorem holds_removeTxtRecord {place : Place} {key v : JsString} :
    (r.removeTxtRecord toLowerCase challengeStore fqdn value).records.Holds
      challengeStore place key v ↔
    r.records.Holds challengeStore place key v ∧ (key, v) ≠ (toLowerCase fqdn, value) := by
  cases place with
  | memory => exact DnsServer.holds_deleteTxtRecord
  | store =>
      constructor
      · rintro ⟨t, ht, hv⟩
        obtain ⟨s, hs, rfl⟩ := Option.map_eq_some_iff.mp ht
        obtain ⟨hv, hne⟩ := challengeStore.mem_get_remove.mp hv
        exact ⟨⟨s, hs, hv⟩, hne⟩
      · rintro ⟨⟨s, hs, hv⟩, hne⟩
        refine ⟨_, Option.map_eq_some_iff.mpr ⟨s, hs, rfl⟩, ?_⟩
        exact challengeStore.mem_get_remove.mpr ⟨hv, hne⟩

end Request

namespace LeavesNothing

variable {r : Request σ} {before : ChallengeRecords σ} {fqdn value : JsString}

/-- A record that was set is held in memory, whatever the store has made of it. -/
theorem not_publish {stored : StoreWrite} :
    ¬ LeavesNothing challengeStore before
      (r.publish toLowerCase challengeStore fqdn value stored) := by
  intro h
  have hheld : (r.publish toLowerCase challengeStore fqdn value stored).records.Holds
      challengeStore .memory (toLowerCase fqdn) value :=
    DnsServer.holds_addTxtRecord.mpr (Or.inr rfl)
  exact ((h .memory (toLowerCase fqdn) value).mp hheld).2 List.mem_cons_self

/-- A record that was set and removed leaves nothing. -/
theorem publish_remove {stored : StoreWrite}
    (h : LeavesNothing challengeStore before r) :
    LeavesNothing challengeStore before
      ((r.publish toLowerCase challengeStore fqdn value stored).removeTxtRecord
        toLowerCase challengeStore fqdn value) := by
  intro place key v
  have hpublished : (key, v) ∉ ((r.publish toLowerCase challengeStore fqdn value
      stored).removeTxtRecord toLowerCase challengeStore fqdn value).published ↔
      (key, v) ≠ (toLowerCase fqdn, value) ∧ (key, v) ∉ r.published :=
    (not_congr List.mem_cons).trans not_or
  rw [Request.holds_removeTxtRecord, hpublished]
  constructor
  · rintro ⟨hheld, hne⟩
    have hold := (Request.holds_of_publish hheld).resolve_right hne
    obtain ⟨hbefore, hnot⟩ := (h place key v).mp hold
    exact ⟨hbefore, hne, hnot⟩
  · rintro ⟨hbefore, hne, hnot⟩
    exact ⟨Request.holds_publish ((h place key v).mpr ⟨hbefore, hnot⟩), hne⟩

end LeavesNothing

namespace Request

variable {r : Request σ} {before : ChallengeRecords σ} {authz : Authorization}
  {outcome : ChallengeOutcome}

theorem shared_isSome_publish {fqdn value : JsString} {stored : StoreWrite} :
    (r.publish toLowerCase challengeStore fqdn value stored).records.shared.isSome =
      r.records.shared.isSome := by
  simp only [publish]
  split_ifs
  · exact Option.isSome_map
  · rfl

theorem completeDns_without
    (h : authz.offers (js "dns-01") = false ∨ outcome.getChallengeKeyAuthorization = none) :
    r.completeDns toLowerCase challengeStore authz outcome = .error r := by
  simp only [completeDns]
  split_ifs with htype
  · rw [h.resolve_left (Bool.not_eq_false _ ▸ htype)]
  · rfl

theorem completeDns_fails {keyAuthorization : JsString}
    (htype : authz.offers (js "dns-01") = true)
    (hkey : outcome.getChallengeKeyAuthorization = some keyAuthorization)
    (hfails : FailsPublished r.records.shared.isSome outcome) :
    r.completeDns toLowerCase challengeStore authz outcome =
      .error (r.publish toLowerCase challengeStore (challengeName authz.identifier)
        keyAuthorization outcome.setTxtRecord) := by
  simp only [completeDns, if_pos htype, hkey, setTxtRecord, shared_isSome_publish]
  split_ifs with hset
  · rfl
  · have hrest := hfails.resolve_left (by simpa using hset)
    cases hcomplete : outcome.completeChallenge with
    | false => rfl
    | true =>
        have hwait := hrest.resolve_left (by simp [hcomplete])
        rw [hwait]
        rfl

theorem completeDns_resolves {keyAuthorization : JsString}
    (htype : authz.offers (js "dns-01") = true)
    (hkey : outcome.getChallengeKeyAuthorization = some keyAuthorization)
    (hfails : ¬ FailsPublished r.records.shared.isSome outcome) :
    r.completeDns toLowerCase challengeStore authz outcome =
      .ok ((r.publish toLowerCase challengeStore (challengeName authz.identifier)
        keyAuthorization outcome.setTxtRecord).removeTxtRecord toLowerCase challengeStore
          (challengeName authz.identifier) keyAuthorization) := by
  simp only [FailsPublished, not_or, Bool.not_eq_false] at hfails
  obtain ⟨hset, hcomplete, hwait⟩ := hfails
  have hset : ¬ (r.records.shared.isSome && decide (outcome.setTxtRecord ≠ .resolved)) = true := by
    simpa using hset
  simp only [completeDns, if_pos htype, hkey, setTxtRecord, shared_isSome_publish, if_neg hset,
    hcomplete, hwait]
  rfl

theorem settled_awaiting (r : Request σ) (resolves : Bool) : settled (r.awaiting resolves) = r := by
  cases resolves <;> rfl

/-- Steps that touch no record leave a request as they find it. -/
theorem settled_bind_awaiting (x : Flow σ (Request σ)) (resolves : Bool) :
    settled (x >>= fun r => r.awaiting resolves) = settled x := by
  cases x with
  | error r => rfl
  | ok r => exact settled_awaiting r resolves

theorem settled_awaiting_bind (r : Request σ) (resolves : Bool)
    (f : Request σ → Flow σ (Request σ)) :
    settled (r.awaiting resolves >>= f) = if resolves then settled (f r) else r := by
  cases resolves <;> rfl

/-- Without a wildcard a round touches no record. -/
theorem settled_completeAuthorization_http (toLowerCase : JsString → JsString)
    (challengeStore : ChallengeStore σ) (r : Request σ) (authz : Authorization)
    (outcome : ChallengeOutcome) :
    r.completeAuthorization toLowerCase challengeStore false authz outcome = .ok r ∨
      r.completeAuthorization toLowerCase challengeStore false authz outcome = .error r := by
  simp only [completeAuthorization, completeHttp, Bool.false_eq_true, if_false]
  split_ifs
  · exact Or.inl rfl
  · cases outcome.completeChallenge with
    | false => exact Or.inr rfl
    | true =>
        cases outcome.waitForValidStatus with
        | false => exact Or.inr rfl
        | true => exact Or.inl rfl
  · exact Or.inr rfl

theorem settled_authorize_http (authorizations : List (Authorization × ChallengeOutcome)) :
    settled (r.authorize toLowerCase challengeStore false authorizations) = r := by
  induction authorizations with
  | nil => rfl
  | cons a rest ih =>
      obtain ⟨authz, outcome⟩ := a
      have hround := settled_completeAuthorization_http toLowerCase challengeStore r authz outcome
      rw [authorize]
      rcases hround with h | h
      · rw [h]
        exact ih
      · rw [h]
        rfl

/-- The loop leaves nothing when it goes through, or throws before a record is set. -/
theorem authorize_leavesNothing {authorizations : List (Authorization × ChallengeOutcome)}
    (h : LeavesNothing challengeStore before r)
    (hnot : ¬ StopsPublished r.records.shared.isSome authorizations) :
    LeavesNothing challengeStore before
      (settled (r.authorize toLowerCase challengeStore true authorizations)) := by
  induction authorizations generalizing r with
  | nil => exact h
  | cons a rest ih =>
      obtain ⟨authz, outcome⟩ := a
      rw [authorize, completeAuthorization, if_pos rfl]
      rw [StopsPublished] at hnot
      split_ifs at hnot ⊢ with hvalid hwithout
      · exact ih h hnot
      · rw [completeDns_without hwithout]
        exact h
      · obtain ⟨htype, hkey⟩ := not_or.mp hwithout
        obtain ⟨keyAuthorization, hkey⟩ := Option.ne_none_iff_exists'.mp hkey
        obtain ⟨hresolves, hrest⟩ := not_or.mp hnot
        rw [completeDns_resolves (Bool.eq_true_of_not_eq_false htype) hkey hresolves]
        apply ih h.publish_remove
        simpa [removeTxtRecord, shared_isSome_publish] using hrest

/-- The loop leaves a record when it throws after the record was set. -/
theorem authorize_leaves {authorizations : List (Authorization × ChallengeOutcome)}
    (hstops : StopsPublished r.records.shared.isSome authorizations) :
    ¬ LeavesNothing challengeStore before
      (settled (r.authorize toLowerCase challengeStore true authorizations)) := by
  induction authorizations generalizing r with
  | nil => exact hstops.elim
  | cons a rest ih =>
      obtain ⟨authz, outcome⟩ := a
      rw [authorize, completeAuthorization, if_pos rfl]
      rw [StopsPublished] at hstops
      split_ifs at hstops ⊢ with hvalid hwithout
      · exact ih hstops
      · obtain ⟨htype, hkey⟩ := not_or.mp hwithout
        obtain ⟨keyAuthorization, hkey⟩ := Option.ne_none_iff_exists'.mp hkey
        by_cases hfails : FailsPublished r.records.shared.isSome outcome
        · rw [completeDns_fails (Bool.eq_true_of_not_eq_false htype) hkey hfails]
          exact LeavesNothing.not_publish
        · have hrest := hstops.resolve_left hfails
          rw [completeDns_resolves (Bool.eq_true_of_not_eq_false htype) hkey hfails]
          apply ih
          simpa [removeTxtRecord, shared_isSome_publish] using hrest

/-- Where `auto` stands: only records that it still has to remove differ from before. -/
structure AutoLeaves (challengeStore : ChallengeStore σ) (before : ChallengeRecords σ)
    (key : JsString) (created : List JsString) (calls : List AutoCall) (r : Request σ) : Prop where
  other : ∀ place fqdn value, (fqdn, value) ∉ r.published →
    (r.records.Holds challengeStore place fqdn value ↔
      before.Holds challengeStore place fqdn value)
  pending : ∀ place fqdn value, (fqdn, value) ∈ r.published →
    r.records.Holds challengeStore place fqdn value →
      fqdn = key ∧ .challengeRemoveFn value ∈ calls
  published : ∀ value ∈ created, (key, value) ∈ r.published

theorem autoLeaves_start (before : ChallengeRecords σ) (key : JsString) (calls : List AutoCall) :
    AutoLeaves challengeStore before key [] calls ⟨before, []⟩ where
  other := fun _ _ _ _ => Iff.rfl
  pending := fun _ _ _ h => absurd h List.not_mem_nil
  published := fun _ h => absurd h List.not_mem_nil

theorem AutoLeaves.create {rootDomain value : JsString} {stored : StoreWrite}
    {created : List JsString} {rest : List AutoCall}
    (h : AutoLeaves challengeStore before (toLowerCase (challengeName rootDomain)) created
      (.challengeCreateFn value stored :: rest) r)
    (hlater : .challengeRemoveFn value ∈ rest) :
    AutoLeaves challengeStore before (toLowerCase (challengeName rootDomain)) (value :: created)
      rest (r.publish toLowerCase challengeStore (challengeName rootDomain) value stored) where
  other := by
    intro place fqdn v hnot
    obtain ⟨hne, hold⟩ := not_or.mp ((not_congr List.mem_cons).mp hnot)
    rw [← h.other place fqdn v hold]
    exact ⟨fun hheld => (holds_of_publish hheld).resolve_right hne, holds_publish⟩
  pending := by
    intro place fqdn v hmem hheld
    by_cases heq : (fqdn, v) = (toLowerCase (challengeName rootDomain), value)
    · obtain ⟨rfl, rfl⟩ := Prod.mk.inj heq
      exact ⟨rfl, hlater⟩
    · have hold := (List.mem_cons.mp hmem).resolve_left heq
      have hheld := (holds_of_publish hheld).resolve_right heq
      obtain ⟨hkey, hcall⟩ := h.pending place fqdn v hold hheld
      exact ⟨hkey, (List.mem_cons.mp hcall).resolve_left (fun hcreate => by cases hcreate)⟩
  published := by
    intro v hv
    cases hv with
    | head => exact List.mem_cons_self
    | tail _ hv => exact List.mem_cons_of_mem _ (h.published v hv)

theorem AutoLeaves.remove {rootDomain value : JsString} {created : List JsString}
    {rest : List AutoCall}
    (h : AutoLeaves challengeStore before (toLowerCase (challengeName rootDomain)) created
      (.challengeRemoveFn value :: rest) r)
    (hcreated : value ∈ created) :
    AutoLeaves challengeStore before (toLowerCase (challengeName rootDomain)) created rest
      (r.removeTxtRecord toLowerCase challengeStore (challengeName rootDomain) value) where
  other := by
    intro place fqdn v hnot
    rw [holds_removeTxtRecord, h.other place fqdn v hnot]
    refine ⟨fun hheld => hheld.1, fun hheld => ⟨hheld, ?_⟩⟩
    rintro heq
    exact hnot (heq ▸ h.published value hcreated)
  pending := by
    intro place fqdn v hmem hheld
    obtain ⟨hheld, hne⟩ := holds_removeTxtRecord.mp hheld
    obtain ⟨rfl, hcall⟩ := h.pending place fqdn v hmem hheld
    refine ⟨rfl, (List.mem_cons.mp hcall).resolve_left ?_⟩
    rintro heq
    cases heq
    exact hne rfl
  published := h.published

/-- Once `auto` is through, it has left nothing. -/
theorem AutoLeaves.leavesNothing {rootDomain : JsString} {created : List JsString}
    {calls : List AutoCall}
    (h : AutoLeaves challengeStore before (toLowerCase (challengeName rootDomain)) created calls r)
    (hcreated : CreatedRemoved calls) (hremoved : RemovedCreated created calls) :
    LeavesNothing challengeStore before
      (calls.foldl (autoCall toLowerCase challengeStore true rootDomain) r) := by
  induction calls generalizing r created with
  | nil =>
      intro place fqdn value
      by_cases hmem : (fqdn, value) ∈ r.published
      · refine ⟨fun hheld => ?_, fun hheld => absurd hmem hheld.2⟩
        exact absurd (h.pending place fqdn value hmem hheld).2 List.not_mem_nil
      · exact ⟨fun hheld => ⟨(h.other place fqdn value hmem).mp hheld, hmem⟩,
          fun hheld => (h.other place fqdn value hmem).mpr hheld.1⟩
  | cons call rest ih =>
      cases call with
      | challengeCreateFn value stored => exact ih (h.create hcreated.1) hcreated.2 hremoved
      | challengeRemoveFn value => exact ih (h.remove hremoved.1) hcreated hremoved.2

/-- Without a wildcard the challenge functions do nothing. -/
theorem foldl_autoCall_http {rootDomain : JsString} (calls : List AutoCall) :
    calls.foldl (autoCall toLowerCase challengeStore false rootDomain) r = r := by
  induction calls with
  | nil => rfl
  | cons call rest ih => cases call <;> exact ih

theorem leavesNothing_start (before : ChallengeRecords σ) :
    LeavesNothing challengeStore before ⟨before, []⟩ :=
  fun _ _ _ => ⟨fun h => ⟨h, List.not_mem_nil⟩, fun h => h.1⟩

end Request

/-- The request is for a short-lived wildcard certificate and throws after it has set a record. -/
def ThrowsPublished (domain : JsString) (shortLived hasDnsServer : Bool) (client : AcmeClient)
    (hasStore : Bool) : Prop :=
  shortLived = true ∧ isWildcard domain hasDnsServer = true ∧ client.createCsr = true ∧
    client.createAccount = true ∧ client.createOrder = true ∧
    ∃ authorizations ∈ client.getAuthorizations, StopsPublished hasStore authorizations

namespace Request

theorem settled_orderShortLived (isWildcard : Bool) (client : AcmeClient) (r : Request σ) :
    settled (r.orderShortLived toLowerCase challengeStore isWildcard client) =
      if client.createAccount = true ∧ client.createOrder = true then
        match client.getAuthorizations with
        | none => r
        | some authorizations =>
            settled (r.authorize toLowerCase challengeStore isWildcard authorizations)
      else r := by
  rw [orderShortLived, settled_awaiting_bind, settled_awaiting_bind]
  split_ifs with haccount horder hboth hboth hboth
  · cases client.getAuthorizations with
    | none => rfl
    | some authorizations =>
        cases hloop : r.authorize toLowerCase challengeStore isWildcard authorizations with
        | error t => simp only [hloop]; rfl
        | ok t =>
            simp only [hloop]
            exact settled_bind_awaiting (t.awaiting client.finalizeOrder) client.getCertificate
              |>.trans (settled_awaiting t _)
  · exact absurd ⟨haccount, horder⟩ hboth
  · exact absurd hboth.2 horder
  · rfl
  · exact absurd hboth.1 haccount
  · rfl

end Request

section

variable {domain : JsString} {shortLived hasDnsServer : Bool} {client : AcmeClient}
  {before : ChallengeRecords σ}

/-- What a request leaves is what its flow leaves, once it has a key. -/
theorem settled_requestCertificate :
    settled (requestCertificate toLowerCase challengeStore domain shortLived hasDnsServer client
      before) =
      if client.createCsr then
        settled (Request.order toLowerCase challengeStore (isWildcard domain hasDnsServer)
          shortLived (if isWildcard domain hasDnsServer then domain.drop 2 else domain) client
          ⟨before, []⟩)
      else ⟨before, []⟩ := by
  rw [requestCertificate, Request.settled_awaiting_bind]
  split_ifs <;> first | rfl | exact Request.settled_bind_awaiting _ _

theorem order_leavesNothing_iff {wildcard : Bool} {rootDomain : JsString}
    (hcreated : CreatedRemoved client.autoCalls) (hremoved : RemovedCreated [] client.autoCalls) :
    LeavesNothing challengeStore before (settled (Request.order toLowerCase challengeStore
      wildcard shortLived rootDomain client ⟨before, []⟩)) ↔
      ¬ (shortLived = true ∧ wildcard = true ∧ client.createAccount = true ∧
        client.createOrder = true ∧ ∃ authorizations ∈ client.getAuthorizations,
          StopsPublished before.shared.isSome authorizations) := by
  have hstart : LeavesNothing challengeStore before ⟨before, []⟩ :=
    Request.leavesNothing_start before
  cases shortLived with
  | false =>
      have hleaves : LeavesNothing challengeStore before (client.autoCalls.foldl
          (Request.autoCall toLowerCase challengeStore wildcard rootDomain) ⟨before, []⟩) := by
        cases wildcard with
        | false =>
            rw [Request.foldl_autoCall_http]
            exact hstart
        | true => exact (Request.autoLeaves_start before _ _).leavesNothing hcreated hremoved
      simpa [Request.order, Request.orderNormal, Request.settled_awaiting] using hleaves
  | true =>
      simp only [Request.order, if_true, Request.settled_orderShortLived, true_and]
      split_ifs with hboth
      · cases hauthorizations : client.getAuthorizations with
        | none => simpa using hstart
        | some authorizations =>
            cases wildcard with
            | false =>
                simp only [Request.settled_authorize_http]
                simpa using hstart
            | true =>
                simp only [hboth, Option.mem_some_iff, true_and, exists_eq_left']
                refine ⟨fun hleaves hstops => ?_, fun hnot => ?_⟩
                · exact Request.authorize_leaves hstops hleaves
                · exact Request.authorize_leavesNothing hstart hnot
      · refine iff_of_true hstart ?_
        rintro ⟨_, haccount, horder, _⟩
        exact hboth ⟨haccount, horder⟩

end

/-- Whatever the steps of a request come to, it leaves no record behind if and only if it is
not for a short-lived wildcard certificate that throws after a record was set. -/
theorem requestCertificate_leavesNothing_iff {domain : JsString} {shortLived hasDnsServer : Bool}
    {client : AcmeClient} {before : ChallengeRecords σ}
    (hcreated : CreatedRemoved client.autoCalls) (hremoved : RemovedCreated [] client.autoCalls) :
    LeavesNothing challengeStore before (settled (requestCertificate toLowerCase challengeStore
      domain shortLived hasDnsServer client before)) ↔
      ¬ ThrowsPublished domain shortLived hasDnsServer client before.shared.isSome := by
  rw [settled_requestCertificate]
  cases hcsr : client.createCsr with
  | true =>
      rw [if_pos rfl, order_leavesNothing_iff hcreated hremoved]
      simp only [ThrowsPublished, hcsr, true_and]
  | false =>
      refine iff_of_true (Request.leavesNothing_start before) ?_
      rintro ⟨_, _, htrue, _⟩
      rw [hcsr] at htrue
      cases htrue

/-- An `auto` that gives up after it has created its challenge and removed it. -/
def failingAuto : AcmeClient where
  createCsr := true
  createAccount := true
  createOrder := true
  getAuthorizations := none
  finalizeOrder := true
  getCertificate := true
  autoCalls := [.challengeCreateFn (js "key") .resolved, .challengeRemoveFn (js "key")]
  auto := false
  readCertificateInfo := true

theorem requestCertificate_leavesNothing_failingAuto :
    LeavesNothing pairStore ⟨.new, some .empty⟩ (settled (requestCertificate asciiLowerCase
      pairStore (js "*.t") false true failingAuto ⟨.new, some .empty⟩)) := by
  have hcreated : CreatedRemoved failingAuto.autoCalls := ⟨List.mem_singleton_self _, trivial⟩
  have hremoved : RemovedCreated [] failingAuto.autoCalls := ⟨List.mem_singleton_self _, trivial⟩
  apply (requestCertificate_leavesNothing_iff hcreated hremoved).mpr
  rintro ⟨hshort, _⟩
  cases hshort

/-- A certificate authority that does not take the completed challenge. -/
def failingCompletion : AcmeClient :=
  { failingAuto with
    getAuthorizations := some
      [(⟨js "pending", js "t", [js "dns-01"]⟩, ⟨some (js "key"), .resolved, false, true⟩)] }

/-- The flow for short-lived certificates leaves the record it has set. -/
theorem not_leavesNothing_failingCompletion :
    ¬ LeavesNothing pairStore ⟨.new, some .empty⟩ (settled (requestCertificate asciiLowerCase
      pairStore (js "*.t") true true failingCompletion ⟨.new, some .empty⟩)) := by
  intro h
  have hheld : (settled (requestCertificate asciiLowerCase pairStore (js "*.t") true true
      failingCompletion ⟨.new, some .empty⟩)).records.dnsServer.Holds
        (js "_acme-challenge.t") (js "key") := by decide
  have hbefore := ((h .memory (js "_acme-challenge.t") (js "key")).mp hheld).1
  have hnone : ¬ DnsServer.new.Holds (js "_acme-challenge.t") (js "key") := by decide
  exact hnone hbefore

end TestServer.TlsCertificates
