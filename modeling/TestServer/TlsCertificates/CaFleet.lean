import TestServer.Library.Runs
import TestServer.TlsCertificates.PersistedCA
import Mathlib.Logic.Function.Basic

/-!
# Servers that load one authority

Any number of servers run `loadOrCreatePersistedCA` for one key of a shared
store, with the operations of the store as atomic steps.

## Implementation notes

A read comes with the check of what it gives, which does not touch the store.
The clock of a check and the created authority are given by the event.
-/

namespace TestServer.TlsCertificates

open Js Library.Runs

/-- Where a call of `loadOrCreatePersistedCA` stands. -/
inductive LoadPhase (x : X509) where
  /-- The call is not started, or about to read. -/
  | reading
  /-- Nothing was adopted; `replace` tells that something was stored. -/
  | creating (replace : Bool)
  | writing (replace : Bool) (generated : CaMaterial x)
  /-- Another server has stored an authority since the first read. -/
  | rereading (generated : CaMaterial x)
  | returned (ca : CaMaterial x)
  | rejected (message : JsString)

structure CaFleet (x : X509) where
  /-- The text under the key in the shared store. -/
  raw : Option JsString
  phase : Nat → LoadPhase x

namespace CaFleet

inductive Event (x : X509) where
  | read (server : Nat) (now : Time)
  | create (server : Nat) (generated : CaMaterial x)
  | write (server : Nat)
  | reread (server : Nat) (now : Time)

variable {x : X509}

/-- No server has started. -/
def initial (raw : Option JsString) : CaFleet x := ⟨raw, fun _ => .reading⟩

def setPhase (s : CaFleet x) (server : Nat) (phase : LoadPhase x) : CaFleet x :=
  { s with phase := Function.update s.phase server phase }

/-- The part of a call up to the creation. -/
def afterRead (x : X509) (stored : Except JsString (Option StoredCertificate)) (now : Time) :
    LoadPhase x :=
  match stored with
  | .error message => .rejected message
  | .ok stored =>
      match adoptStored x stored now with
      | .error message => .rejected message
      | .ok (some parsed) => .returned parsed
      | .ok none => .creating stored.isSome

/-- The end of a call whose authority was not written. -/
def afterReread (winner : Except JsString (Option StoredCertificate)) (generated : CaMaterial x)
    (now : Time) : LoadPhase x :=
  match winner with
  | .error message => .rejected message
  | .ok winner =>
      match adoptStored x winner now with
      | .error message => .rejected message
      | .ok (some parsed) => .returned parsed
      | .ok none => .returned generated

section

variable (backend : CertStoreBackend) (root : RootCA x) (managed : ManagedCA)

/-- The record that a server stores for an authority. -/
def record (ca : CaMaterial x) : CachedCertificate :=
  caToRecord ca (root.cacheKey managed) managed.cacheDomain

def step (s : CaFleet x) : Event x → Option (CaFleet x)
  | .read i now =>
      match s.phase i with
      | .reading => some (s.setPhase i (afterRead x (backend.read s.raw) now))
      | _ => none
  | .create i generated =>
      match s.phase i with
      | .creating replace => some (s.setPhase i (.writing replace generated))
      | _ => none
  | .write i =>
      match s.phase i with
      | .writing true generated =>
          some { s.setPhase i (.returned generated) with
            raw := some (stringifyCertificate (record root managed generated)) }
      | .writing false generated =>
          let (written, raw) :=
            CertStoreBackend.writeIfAbsent s.raw (record root managed generated)
          some { s.setPhase i (if written then .returned generated else .rereading generated) with
            raw := raw }
      | _ => none
  | .reread i now =>
      match s.phase i with
      | .rereading generated =>
          some (s.setPhase i (afterReread (backend.read s.raw) generated now))
      | _ => none

end

/-- What a call gives, where it has ended. -/
def resultOf (generated : CaMaterial x) : LoadPhase x → Except JsString (CaMaterial x)
  | .returned ca => .ok ca
  | .rejected message => .error message
  | _ => .ok generated

/-- The call goes on from its first read. -/
theorem loadOrCreatePersistedCA_eq (replies : StoreReplies) (generated : CaMaterial x)
    (now now' : Time) :
    loadOrCreatePersistedCA (some replies) generated now now' =
      match afterRead x replies.read now with
      | .creating true => replies.write.map fun _ => generated
      | .creating false => replies.writeIfAbsent.bind fun written =>
          if written then .ok generated
          else resultOf generated (afterReread replies.reread generated now')
      | phase => resultOf generated phase := by
  rw [loadOrCreatePersistedCA]
  cases hread : replies.read with
  | error message => rfl
  | ok stored =>
      simp only [afterRead]
      cases hadopt : adoptStored x stored now with
      | error message =>
          simp only [Bind.bind, Except.bind, hadopt]
          rfl
      | ok adopted =>
          cases adopted with
          | some parsed =>
              simp only [Bind.bind, Except.bind, hadopt]
              rfl
          | none =>
              simp only [Bind.bind, Except.bind, hadopt]
              cases stored with
              | some stored =>
                  cases replies.write with
                  | error message => rfl
                  | ok written => rfl
              | none =>
                  cases replies.writeIfAbsent with
                  | error message => rfl
                  | ok written =>
                      cases written with
                      | true => rfl
                      | false =>
                          cases replies.reread with
                          | error message => rfl
                          | ok winner =>
                              simp only [afterReread]
                              cases adoptStored x winner now' with
                              | error message => rfl
                              | ok adopted =>
                                  cases adopted with
                                  | some parsed => rfl
                                  | none => rfl

theorem afterRead_cases (stored : Except JsString (Option StoredCertificate)) (now : Time) :
    (∃ message, afterRead x stored now = .rejected message) ∨
      (∃ ca, afterRead x stored now = .returned ca) ∨
      ∃ replace, afterRead x stored now = .creating replace := by
  unfold afterRead
  split
  · exact .inl ⟨_, rfl⟩
  · split
    · exact .inl ⟨_, rfl⟩
    · exact .inr (.inl ⟨_, rfl⟩)
    · exact .inr (.inr ⟨_, rfl⟩)

theorem afterReread_cases (winner : Except JsString (Option StoredCertificate))
    (generated : CaMaterial x) (now : Time) :
    (∃ message, afterReread winner generated now = .rejected message) ∨
      ∃ ca, afterReread winner generated now = .returned ca := by
  unfold afterReread
  split
  · exact .inl ⟨_, rfl⟩
  · split
    · exact .inl ⟨_, rfl⟩
    · exact .inr ⟨_, rfl⟩
    · exact .inr ⟨_, rfl⟩

end CaFleet

end TestServer.TlsCertificates
