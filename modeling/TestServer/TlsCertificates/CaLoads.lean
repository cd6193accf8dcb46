import TestServer.TlsCertificates.LocalCACalls

/-!
# The loads of the authorities

The first call that uses an authority loads it, and later calls get what that load gave. The end
of what a load gives follows from its clock and from the record that it finds. An observer
remembers the load of each authority.
-/

namespace TestServer.TlsCertificates

open Js Library.Runs

/-- Whether the end that a record gives for itself lies after a time. -/
def StoredCertificate.endsAfter (stored : StoredCertificate) (t : Time) : Bool :=
  match stored.expiry.toNumber with
  | some (some (.finite q)) => decide ((t : ℚ) < q)
  | some (some (.infinite negative)) => !negative
  | _ => false

/-- The record that a load finds: the one that is stored, or that of a server which was faster. -/
def StoreReplies.found (replies : StoreReplies) : Option StoredCertificate :=
  match replies.read with
  | .error _ => none
  | .ok (some stored) => some stored
  | .ok none =>
      match replies.writeIfAbsent, replies.reread with
      | .ok false, .ok winner => winner
      | _, _ => none

/-- The record that a load takes: its end lies further away than the margin. -/
def CallContext.taken (hasStore : Bool) (load : CallContext) : Option StoredCertificate :=
  (if hasStore then load.replies.found else none).filter fun stored =>
    stored.endsAfter (load.now + renewalMargin)

/-- The end of the authority that a load gives: that of the certificate which it takes, or that
of a new one. -/
def loadEnd (x : X509) (hasStore : Bool) (load : CallContext) (managed : ManagedCA) : Time :=
  match (load.taken hasStore).bind (tryParseStoredCA x) with
  | some ca => x.notAfter ca.cert
  | none => x.encodeTime (addYears load.now managed.lifespanYears)

section

variable {x : X509} {stored : StoredCertificate} {now : Time}

theorem isCaUsable_eq_some {usable : Bool} (h : isCaUsable stored now = some usable) :
    usable = stored.endsAfter (now + renewalMargin) := by
  rw [isCaUsable] at h
  rw [StoredCertificate.endsAfter]
  cases hnumber : stored.expiry.toNumber with
  | none =>
      rw [hnumber] at h
      cases h
  | some n =>
      rw [hnumber] at h
      cases n with
      | none =>
          cases h
          rfl
      | some n =>
          cases n with
          | finite q =>
              cases h
              apply decide_eq_decide.mpr
              push_cast
              constructor
              · intro hlast
                linarith
              · intro hlast
                linarith
          | infinite negative =>
              cases h
              rfl

/-- What a read gives is what can be parsed of a record that lasts for the margin. -/
theorem adoptStored_eq_ok {adopted : Option (CaMaterial x)}
    (h : adoptStored x (some stored) now = .ok adopted) :
    adopted = ((some stored).filter fun stored =>
      stored.endsAfter (now + renewalMargin)).bind (tryParseStoredCA x) := by
  rw [Option.filter_some]
  cases husable : isCaUsable stored now with
  | none =>
      simp only [adoptStored, husable] at h
      cases h
  | some usable =>
      simp only [adoptStored, husable] at h
      rw [← isCaUsable_eq_some husable]
      cases usable with
      | false =>
          cases h
          rfl
      | true =>
          cases h
          rfl

/-- A load that does not fail adopts what can be parsed of the record that it takes. -/
theorem StoreReplies.adopted_eq {load : CallContext}
    (h : load.replies.resolve x load.now = true) :
    load.replies.adopted x load.now = (load.taken true).bind (tryParseStoredCA x) := by
  rw [CallContext.taken, if_pos rfl]
  rw [StoreReplies.resolve] at h
  rw [StoreReplies.adopted, StoreReplies.found]
  cases hread : load.replies.read with
  | error message => rfl
  | ok read =>
      rw [hread] at h
      cases read with
      | some stored =>
          dsimp only at h ⊢
          cases hadopt : adoptStored x (some stored) load.now with
          | error message =>
              rw [hadopt] at h
              cases h
          | ok adopted =>
              rw [← adoptStored_eq_ok hadopt]
              cases adopted with
              | none => rfl
              | some parsed => rfl
      | none =>
          have hnone : adoptStored x none load.now = .ok none := rfl
          simp only [hnone] at h ⊢
          cases hwrite : load.replies.writeIfAbsent with
          | error message => rfl
          | ok written =>
              cases written with
              | true => rfl
              | false =>
                  rw [hwrite] at h
                  cases hreread : load.replies.reread with
                  | error message => rfl
                  | ok winner =>
                      rw [hreread] at h
                      cases winner with
                      | none => rfl
                      | some winner =>
                          dsimp only at h ⊢
                          cases hadopt : adoptStored x (some winner) load.now with
                          | error message =>
                              rw [hadopt] at h
                              cases h
                          | ok adopted => exact adoptStored_eq_ok hadopt

end

namespace LocalCAState

variable {x : X509} {setup : LocalCASetup x}

/-- The end of what a load gives is told by its clock and by what it finds. -/
theorem notAfter_loadedCA (hx : x.Lawful) {load : CallContext} (managed : ManagedCA)
    (h : loads setup load = true) :
    x.notAfter (loadedCA setup load managed).cert = loadEnd x setup.hasStore load managed := by
  rw [loads] at h
  rw [loadedCA, loadEnd]
  cases hstore : setup.hasStore with
  | false =>
      exact notAfter_buildManagedCA hx setup.root managed load.seed load.now
  | true =>
      rw [hstore, if_pos rfl] at h
      rw [if_pos rfl, StoreReplies.adopted_eq h]
      cases (load.taken true).bind (tryParseStoredCA x) with
      | none => exact notAfter_buildManagedCA hx setup.root managed load.seed load.now
      | some ca => rfl

/-- The load of each authority, if there was one. -/
abbrev SeenLoads := ManagedCA → Option CallContext

/-- The load that a call gets an authority from: an earlier one, or its own. -/
def loadOf (seen : SeenLoads) (context : CallContext) (managed : ManagedCA) : CallContext :=
  (seen managed).getD context

def observe (s : LocalCAState x) (seen : SeenLoads) (e : CallContext × LocalCACall) : SeenLoads :=
  fun managed =>
    if usedCA s e.2 = some managed then some (loadOf seen e.1 managed) else seen managed

/-- A call under observation. -/
def observedStep (setup : LocalCASetup x) (so : LocalCAState x × SeenLoads)
    (e : CallContext × LocalCACall) : Option (LocalCAState x × SeenLoads) :=
  (step setup so.1 e).map fun t => (t, observe so.1 so.2 e)

/-- Nothing is called yet. -/
def unobserved : LocalCAState x × SeenLoads := (initial, fun _ => none)

/-- An authority is kept as its load has given it. -/
structure KeptAsLoaded (setup : LocalCASetup x) (so : LocalCAState x × SeenLoads) : Prop where
  issued : Issued so.1
  settled : ∀ managed, so.1.settled managed =
    (so.2 managed).map fun load => loadManagedCA setup load managed

variable {so : LocalCAState x × SeenLoads} {e : CallContext × LocalCACall}

theorem keptAsLoaded_unobserved :
    KeptAsLoaded setup (unobserved : LocalCAState x × SeenLoads) where
  issued := issued_initial
  settled _ := rfl

theorem KeptAsLoaded.provided (h : KeptAsLoaded setup so) (context : CallContext)
    (managed : ManagedCA) :
    provided setup so.1 context managed =
      loadManagedCA setup (loadOf so.2 context managed) managed := by
  rw [LocalCAState.provided, h.settled managed, loadOf]
  cases so.2 managed with
  | none => rfl
  | some load => rfl

theorem KeptAsLoaded.step {so' : LocalCAState x × SeenLoads} (h : KeptAsLoaded setup so)
    (hstep : observedStep setup so e = some so') : KeptAsLoaded setup so' := by
  cases hstep
  refine ⟨h.issued.call e.2, fun managed => ?_⟩
  dsimp only
  rw [settled_call h.issued, observe]
  split_ifs with hused
  · rw [h.provided]
    rfl
  · exact h.settled managed

/-- The ends of what a call uses are those that the loads of its authorities have given. -/
theorem KeptAsLoaded.forall_end_iff (hx : x.Lawful) (h : KeptAsLoaded setup so)
    {P : Time → Prop} :
    (∀ handed, (call setup so.1 e.1 e.2).1 = .ok handed →
        ∀ issuer ∈ handed.issuer, P (x.notAfter issuer)) ↔
      ∀ managed, usedCA so.1 e.2 = some managed →
        loads setup (loadOf so.2 e.1 managed) = true →
          P (loadEnd x setup.hasStore (loadOf so.2 e.1 managed) managed) := by
  rw [forall_handed_iff h.issued]
  apply forall_congr'
  intro managed
  apply imp_congr_right
  intro _
  rw [h.provided]
  constructor
  · intro hall hloads
    rw [← notAfter_loadedCA hx managed hloads]
    exact hall _ (loadManagedCA_eq_ok_iff.mpr ⟨hloads, rfl⟩)
  · intro hend ca hca
    obtain ⟨hloads, rfl⟩ := loadManagedCA_eq_ok_iff.mp hca
    rw [notAfter_loadedCA hx managed hloads]
    exact hend hloads

/-- What a guard says of the state alone is said along a run exactly when a guard that agrees
with it is met under observation. -/
theorem guarded_iff_observed {ok : LocalCAState x → CallContext × LocalCACall → Prop}
    {ok' : LocalCAState x × SeenLoads → CallContext × LocalCACall → Prop}
    {Inv : LocalCAState x × SeenLoads → Prop}
    (keep : ∀ so e so', Inv so → observedStep setup so e = some so' → Inv so')
    (agree : ∀ so e, Inv so → (ok so.1 e ↔ ok' so e)) (hinitial : Inv unobserved)
    (calls : List (CallContext × LocalCACall)) :
    Guarded (LocalCAState.step setup) ok initial calls ↔
      Guarded (observedStep setup) ok' unobserved calls :=
  guarded_observed_iff.symm.trans (guarded_congr keep agree hinitial calls)

end LocalCAState

end TestServer.TlsCertificates
