import TestServer.TlsCertificates.CaFleet

/-!
# Convergence of a fleet on one authority

Servers that load an authority from a store without one all return the one that
is stored. Where the store holds one that has to be renewed, this takes that no
server replaces what another one has stored in its place.
-/

namespace TestServer.TlsCertificates.CaFleet

open Js Library.Runs

variable {x : X509}

/-- Whose event it is. -/
def Event.server : Event x → Nat
  | .read i _ => i
  | .create i _ => i
  | .write i => i
  | .reread i _ => i

/-- The clock of a check. -/
def Event.clock : Event x → Option Time
  | .read _ now => some now
  | .reread _ now => some now
  | _ => none

/-- The authority that is created. -/
def Event.created : Event x → Option (CaMaterial x)
  | .create _ generated => some generated
  | _ => none

/-- The events of its own that a server has ahead of it at most. -/
def rank : LoadPhase x → Nat
  | .reading => 4
  | .creating _ => 3
  | .writing .. => 2
  | .rereading _ => 1
  | .returned _ => 0
  | .rejected _ => 0

section

variable (backend : CertStoreBackend) (root : RootCA x) (managed : ManagedCA)

/-- The text of the record that a server stores for an authority. -/
def recordText (ca : CaMaterial x) : JsString := stringifyCertificate (record root managed ca)

/-- What a text under the key loads as, at a time. -/
def LoadsAs (raw : Option JsString) (now : Time) (ca : Option (CaMaterial x)) : Prop :=
  ∃ stored, backend.read raw = .ok (some stored) ∧ adoptStored x (some stored) now = .ok ca

/-- The record of an authority holds the authority. -/
structure ParsesBack (ca : CaMaterial x) : Prop where
  read : parseStoredCertificate (recordText root managed ca) = .ok (record root managed ca).stored
  parse : tryParseStoredCA x (record root managed ca).stored = some ca

/-- The time is the clock of one of the checks. -/
def Ticks (events : List (Event x)) (now : Time) : Prop := ∃ e ∈ events, now ∈ e.clock

/-- The authority can be read back, and lasts for more than the margin at each check. -/
structure Sound (events : List (Event x)) (ca : CaMaterial x) : Prop where
  parsesBack : ParsesBack root managed ca
  fresh : ∀ now, Ticks events now → renewalMargin < x.notAfter ca.cert - now

def SoundCreations (events : List (Event x)) : Prop :=
  ∀ e ∈ events, ∀ ca ∈ e.created, Sound root managed events ca

/-- The authority that the stored text holds. -/
def StoreHolds (raw : Option JsString) (ca : CaMaterial x) : Prop :=
  ∃ stored, backend.read raw = .ok (some stored) ∧ tryParseStoredCA x stored = some ca

/-- No call fails, and each call that returns gives the authority that the store holds, which is
the same for all. -/
structure Converged (s : CaFleet x) : Prop where
  noFailure : ∀ i message, s.phase i ≠ .rejected message
  stored : ∀ i ca, s.phase i = .returned ca → StoreHolds backend s.raw ca
  agree : ∀ i j ca ca', s.phase i = .returned ca → s.phase j = .returned ca' → ca = ca'

/-- Each server has returned, or can go on and has made less than four steps. -/
def Terminating (events : List (Event x)) (s : CaFleet x) : Prop :=
  ∀ i, (∃ ca, s.phase i = .returned ca) ∨
    events.countP (fun e => decide (e.server = i)) < 4 ∧
      ∃ e : Event x, e.server = i ∧ (step backend root managed s e).isSome = true

/-- What the event of a server makes of the stored text and of where its call stands. -/
inductive Move : Option JsString → LoadPhase x → Event x → Option JsString → LoadPhase x → Prop
  | read {raw i now} :
      Move raw .reading (.read i now) raw (afterRead x (backend.read raw) now)
  | create {raw i replace generated} :
      Move raw (.creating replace) (.create i generated) raw (.writing replace generated)
  | replace {raw i generated} :
      Move raw (.writing true generated) (.write i)
        (some (recordText root managed generated)) (.returned generated)
  | store {i generated} :
      Move none (.writing false generated) (.write i)
        (some (recordText root managed generated)) (.returned generated)
  | lose {text i generated} :
      Move (some text) (.writing false generated) (.write i) (some text) (.rereading generated)
  | reread {raw i generated now} :
      Move raw (.rereading generated) (.reread i now) raw
        (afterReread (backend.read raw) generated now)

end

variable {backend : CertStoreBackend} {root : RootCA x} {managed : ManagedCA} {s t : CaFleet x}
  {e : Event x}

theorem setPhase_phase_self (i : Nat) (phase : LoadPhase x) :
    (s.setPhase i phase).phase i = phase := Function.update_self ..

theorem setPhase_phase_of_ne {i j : Nat} (phase : LoadPhase x) (h : j ≠ i) :
    (s.setPhase i phase).phase j = s.phase j := Function.update_of_ne h ..

/-- A step moves one server. -/
theorem step_move (h : step backend root managed s e = some t) :
    Move backend root managed s.raw (s.phase e.server) e t.raw (t.phase e.server) ∧
      ∀ j, j ≠ e.server → t.phase j = s.phase j := by
  cases e with
  | read i now =>
      simp only [step] at h
      split at h
      · rename_i hphase
        cases h
        simp only [Event.server, setPhase_phase_self, hphase]
        exact ⟨.read, fun j hj => setPhase_phase_of_ne _ hj⟩
      · cases h
  | create i generated =>
      simp only [step] at h
      split at h
      · rename_i replace hphase
        cases h
        simp only [Event.server, setPhase_phase_self, hphase]
        exact ⟨.create, fun j hj => setPhase_phase_of_ne _ hj⟩
      · cases h
  | write i =>
      simp only [step] at h
      split at h
      · rename_i generated hphase
        cases h
        simp only [Event.server, setPhase_phase_self, hphase]
        exact ⟨.replace, fun j hj => setPhase_phase_of_ne _ hj⟩
      · rename_i generated hphase
        cases h
        simp only [Event.server, setPhase_phase_self, hphase]
        refine ⟨?_, fun j hj => setPhase_phase_of_ne _ hj⟩
        cases s.raw with
        | none => exact .store
        | some text => exact .lose
      · cases h
  | reread i now =>
      simp only [step] at h
      split at h
      · rename_i generated hphase
        cases h
        simp only [Event.server, setPhase_phase_self, hphase]
        exact ⟨.reread, fun j hj => setPhase_phase_of_ne _ hj⟩
      · cases h

theorem rank_afterRead (stored : Except JsString (Option StoredCertificate)) (now : Time) :
    rank (afterRead x stored now) ≤ 3 := by
  obtain ⟨message, h⟩ | ⟨ca, h⟩ | ⟨replace, h⟩ := afterRead_cases (x := x) stored now
  · rw [h]
    exact Nat.zero_le 3
  · rw [h]
    exact Nat.zero_le 3
  · rw [h]
    exact Nat.le_refl 3

theorem rank_afterReread (winner : Except JsString (Option StoredCertificate))
    (generated : CaMaterial x) (now : Time) : rank (afterReread winner generated now) = 0 := by
  obtain ⟨message, h⟩ | ⟨ca, h⟩ := afterReread_cases winner generated now
  · rw [h]
    rfl
  · rw [h]
    rfl

/-- A server has less ahead of it after a step of its own. -/
theorem Move.rank_lt {raw raw' : Option JsString} {phase phase' : LoadPhase x}
    (h : Move backend root managed raw phase e raw' phase') : rank phase' < rank phase := by
  cases h with
  | read => exact Nat.lt_succ_of_le (rank_afterRead _ _)
  | create => exact Nat.lt_succ_self 2
  | replace => exact Nat.succ_pos 1
  | store => exact Nat.succ_pos 1
  | lose => exact Nat.lt_succ_self 1
  | reread =>
      rw [rank_afterReread]
      exact Nat.succ_pos 0

theorem step_rank (i : Nat) (h : step backend root managed s e = some t) :
    (if decide (e.server = i) then 1 else 0) + rank (t.phase i) ≤ rank (s.phase i) := by
  obtain ⟨hmove, hother⟩ := step_move h
  by_cases hi : e.server = i
  · subst hi
    have hlt := hmove.rank_lt
    rw [decide_eq_true rfl, if_pos rfl]
    omega
  · rw [decide_eq_false hi, if_neg Bool.false_ne_true, hother i (Ne.symm hi)]
    omega

/-- A server that is not done can go on. -/
theorem exists_step {i : Nat} (hreturned : ∀ ca, s.phase i ≠ .returned ca)
    (hrejected : ∀ message, s.phase i ≠ .rejected message) :
    ∃ e : Event x, e.server = i ∧ (step backend root managed s e).isSome = true := by
  cases hphase : s.phase i with
  | reading =>
      refine ⟨.read i 0, rfl, ?_⟩
      simp only [step, hphase, Option.isSome_some]
  | creating replace =>
      refine ⟨.create i (buildManagedCA root managed 0 0), rfl, ?_⟩
      simp only [step, hphase, Option.isSome_some]
  | writing replace generated =>
      refine ⟨.write i, rfl, ?_⟩
      cases replace with
      | true => simp only [step, hphase, Option.isSome_some]
      | false => simp only [step, hphase, Option.isSome_some]
  | rereading generated =>
      refine ⟨.reread i 0, rfl, ?_⟩
      simp only [step, hphase, Option.isSome_some]
  | returned ca => exact absurd hphase (hreturned ca)
  | rejected message => exact absurd hphase (hrejected message)

/-- Where no call fails, each takes at most four steps. -/
theorem terminating_of_run {raw : Option JsString} {events : List (Event x)}
    (hrun : run (step backend root managed) (initial raw) events = some s)
    (hfailure : ∀ i message, s.phase i ≠ .rejected message) :
    Terminating backend root managed events s := by
  intro i
  by_cases hreturned : ∃ ca, s.phase i = .returned ca
  · exact .inl hreturned
  · have hnot : ∀ ca, s.phase i ≠ .returned ca := fun ca h => hreturned ⟨ca, h⟩
    have hcount : events.countP (fun e => decide (e.server = i)) + rank (s.phase i) ≤ 4 :=
      countP_add_measure_le (fun s e t h => step_rank i h) hrun
    have hrank : 0 < rank (s.phase i) := by
      cases hphase : s.phase i with
      | reading => exact Nat.succ_pos 3
      | creating replace => exact Nat.succ_pos 2
      | writing replace generated => exact Nat.succ_pos 1
      | rereading generated => exact Nat.succ_pos 0
      | returned ca => exact absurd hphase (hnot ca)
      | rejected message => exact absurd hphase (hfailure i message)
    exact .inr ⟨by omega, exists_step hnot (hfailure i)⟩

/-- Where a call can stand while the store holds no created authority yet, or holds one. -/
def Consistent (replace : Bool) (P : CaMaterial x → Prop) (Q : Time → Prop)
    (held : Option (CaMaterial x)) : LoadPhase x → Prop
  | .reading => True
  | .creating r => r = replace ∧ ∃ now, Q now
  | .writing r generated => r = replace ∧ P generated ∧ ∃ now, Q now
  | .rereading _ => replace = false ∧ held.isSome = true
  | .returned ca => held = some ca
  | .rejected _ => False

/-- The text that is stored. -/
def contents (root : RootCA x) (managed : ManagedCA) (raw₀ : Option JsString)
    (held : Option (CaMaterial x)) : Option JsString :=
  match held with
  | none => raw₀
  | some ca => some (recordText root managed ca)

/-- The store holds its first text or one created authority, which every call agrees with. -/
def LoadInv (root : RootCA x) (managed : ManagedCA) (raw₀ : Option JsString)
    (P : CaMaterial x → Prop) (Q : Time → Prop) (s : CaFleet x) : Prop :=
  ∃ held, s.raw = contents root managed raw₀ held ∧ (∀ ca ∈ held, P ca) ∧
    ∀ i, Consistent raw₀.isSome P Q held (s.phase i)

/-- The event creates an authority as described, and its clock is as described. -/
def Allowed (P : CaMaterial x → Prop) (Q : Time → Prop) (e : Event x) : Prop :=
  (∀ ca ∈ e.created, P ca) ∧ ∀ now ∈ e.clock, Q now

/-- Only the first text is replaced. -/
def ReplacesFirst (raw₀ : Option JsString) (s : CaFleet x) : Event x → Prop
  | .write i => ∀ generated, s.phase i = .writing true generated → s.raw = raw₀
  | _ => True

section

variable {raw₀ : Option JsString} {P : CaMaterial x → Prop} {Q : Time → Prop}
  (hstart : ∀ now, Q now → afterRead x (backend.read raw₀) now = .creating raw₀.isSome)
  (hload : ∀ ca now, P ca → Q now →
    LoadsAs backend (some (recordText root managed ca)) now (some ca))

theorem loadInv_initial : LoadInv root managed raw₀ P Q (initial raw₀) :=
  ⟨none, rfl, fun _ h => absurd h (Option.not_mem_none _), fun _ => trivial⟩

theorem LoadsAs.afterRead {raw : Option JsString} {now : Time} {ca : CaMaterial x}
    (h : LoadsAs backend raw now (some ca)) :
    CaFleet.afterRead x (backend.read raw) now = .returned ca := by
  obtain ⟨stored, hread, hadopt⟩ := h
  rw [hread]
  simp only [CaFleet.afterRead, hadopt]

theorem LoadsAs.afterReread {raw : Option JsString} {now : Time} {ca : CaMaterial x}
    (h : LoadsAs backend raw now (some ca)) (generated : CaMaterial x) :
    CaFleet.afterReread (backend.read raw) generated now = .returned ca := by
  obtain ⟨stored, hread, hadopt⟩ := h
  rw [hread]
  simp only [CaFleet.afterReread, hadopt]

/-- The first record of an authority is the first that any call can return. -/
theorem Consistent.first {replace : Bool} {phase : LoadPhase x} (ca : CaMaterial x)
    (h : Consistent replace P Q none phase) : Consistent replace P Q (some ca) phase := by
  cases phase with
  | reading => exact h
  | creating r => exact h
  | writing r generated => exact h
  | rereading generated => exact absurd h.2 Bool.false_ne_true
  | returned ca' => cases h
  | rejected message => exact h

include hstart hload in
/-- The first text is not the record of an authority. -/
theorem held_eq_none {held : Option (CaMaterial x)} {now : Time} (hnow : Q now)
    (hheld : ∀ ca ∈ held, P ca) (hraw : contents root managed raw₀ held = raw₀) : held = none := by
  cases held with
  | none => rfl
  | some ca =>
      have hreturned := (hload ca now (hheld ca rfl) hnow).afterRead
      rw [show some (recordText root managed ca) = raw₀ from hraw, hstart now hnow] at hreturned
      cases hreturned

include hstart hload in
/-- What a read gives agrees with what the store holds. -/
theorem consistent_afterRead {held : Option (CaMaterial x)} {now : Time} (hnow : Q now)
    (hheld : ∀ ca ∈ held, P ca) :
    Consistent raw₀.isSome P Q held
      (afterRead x (backend.read (contents root managed raw₀ held)) now) := by
  cases held with
  | none =>
      rw [contents, hstart now hnow]
      exact ⟨rfl, now, hnow⟩
  | some ca =>
      rw [contents, (hload ca now (hheld ca rfl) hnow).afterRead]
      rfl

include hstart hload in
/-- A move keeps to the authority that the store holds, or is the one that stores it. -/
theorem Move.consistent {raw raw' : Option JsString} {phase phase' : LoadPhase x}
    {held : Option (CaMaterial x)} (h : Move backend root managed raw phase e raw' phase')
    (hraw : raw = contents root managed raw₀ held) (hheld : ∀ ca ∈ held, P ca)
    (hphase : Consistent raw₀.isSome P Q held phase) (hallowed : Allowed P Q e)
    (hfirst : ∀ i generated, e = .write i → phase = .writing true generated → raw = raw₀) :
    ∃ held', raw' = contents root managed raw₀ held' ∧ (∀ ca ∈ held', P ca) ∧
      Consistent raw₀.isSome P Q held' phase' ∧ (held' = held ∨ held = none) := by
  cases h with
  | read =>
      rw [hraw]
      have hnow := hallowed.2 _ rfl
      exact ⟨held, rfl, hheld, consistent_afterRead hstart hload hnow hheld, .inl rfl⟩
  | create => exact ⟨held, hraw, hheld, ⟨hphase.1, hallowed.1 _ rfl, hphase.2⟩, .inl rfl⟩
  | @replace _ i generated =>
      obtain ⟨-, hP, now, hnow⟩ := hphase
      have hnone := held_eq_none hstart hload hnow hheld (hraw.symm.trans (hfirst _ _ rfl rfl))
      refine ⟨some generated, rfl, fun ca hca => ?_, rfl, .inr hnone⟩
      obtain rfl : generated = ca := Option.mem_some.mp hca
      exact hP
  | @store i generated =>
      have hnone : held = none := by
        cases held with
        | none => rfl
        | some ca => cases hraw
      refine ⟨some generated, rfl, fun ca hca => ?_, rfl, .inr hnone⟩
      obtain rfl : generated = ca := Option.mem_some.mp hca
      exact hphase.2.1
  | lose =>
      refine ⟨held, hraw, hheld, ⟨hphase.1.symm, ?_⟩, .inl rfl⟩
      cases held with
      | some ca => rfl
      | none =>
          -- The store had nothing at the start, and a text is in it.
          have hfalse := hphase.1
          rw [show raw₀ = some _ from hraw.symm] at hfalse
          cases hfalse
  | reread =>
      rw [hraw]
      refine ⟨held, rfl, hheld, ?_, .inl rfl⟩
      obtain ⟨ca, rfl⟩ := Option.isSome_iff_exists.mp hphase.2
      rw [contents, (hload ca _ (hheld ca rfl) (hallowed.2 _ rfl)).afterReread]
      rfl

include hstart hload in
theorem LoadInv.step (h : LoadInv root managed raw₀ P Q s) (hallowed : Allowed P Q e)
    (hfirst : ReplacesFirst raw₀ s e) (hstep : CaFleet.step backend root managed s e = some t) :
    LoadInv root managed raw₀ P Q t := by
  obtain ⟨held, hraw, hheld, hall⟩ := h
  obtain ⟨hmove, hother⟩ := step_move hstep
  obtain ⟨held', hraw', hheld', hself, hkept⟩ :=
    hmove.consistent hstart hload hraw hheld (hall e.server) hallowed (by
      rintro i generated rfl hphase
      exact hfirst generated hphase)
  refine ⟨held', hraw', hheld', fun j => ?_⟩
  by_cases hj : j = e.server
  · subst hj
    exact hself
  · rw [hother j hj]
    obtain rfl | rfl := hkept
    · exact hall j
    · cases held' with
      | none => exact hall j
      | some ca => exact (hall j).first ca

/-- Calls that agree with what the store holds have converged. -/
theorem LoadInv.converged (h : LoadInv root managed raw₀ P Q s)
    (hholds : ∀ ca, P ca → StoreHolds backend (some (recordText root managed ca)) ca) :
    Converged backend s := by
  obtain ⟨held, hraw, hheld, hall⟩ := h
  have hreturned : ∀ i ca, s.phase i = .returned ca → held = some ca := by
    intro i ca hi
    have hconsistent := hall i
    rw [hi] at hconsistent
    exact hconsistent
  refine ⟨fun i message hi => ?_, fun i ca hi => ?_, fun i j ca ca' hi hj => ?_⟩
  · have hconsistent := hall i
    rw [hi] at hconsistent
    exact hconsistent
  · obtain rfl := hreturned i ca hi
    rw [hraw]
    exact hholds ca (hheld ca rfl)
  · exact Option.some.inj ((hreturned i ca hi).symm.trans (hreturned j ca' hj))

end

theorem ParsesBack.read_recordText {ca : CaMaterial x} (h : ParsesBack root managed ca)
    (backend : CertStoreBackend) : backend.read (some (recordText root managed ca)) =
      .ok (some (record root managed ca).stored) :=
  read_stringifyCertificate backend h.read

theorem ParsesBack.storeHolds {ca : CaMaterial x} (h : ParsesBack root managed ca) :
    StoreHolds backend (some (recordText root managed ca)) ca :=
  ⟨_, h.read_recordText backend, h.parse⟩

theorem ParsesBack.loadsAs {ca : CaMaterial x} {now : Time} (h : ParsesBack root managed ca)
    (hnow : renewalMargin < x.notAfter ca.cert - now) :
    LoadsAs backend (some (recordText root managed ca)) now (some ca) := by
  refine ⟨_, h.read_recordText backend, ?_⟩
  rw [adoptStored_of_usable, h.parse]
  exact (isCaUsable_caToRecord now).trans (congrArg some (decide_eq_true hnow))

theorem ParsesBack.loadsAs_none {ca : CaMaterial x} {now : Time}
    (h : ParsesBack root managed ca) (hnow : ¬ renewalMargin < x.notAfter ca.cert - now) :
    LoadsAs (x := x) backend (some (recordText root managed ca)) now none := by
  refine ⟨_, h.read_recordText backend, ?_⟩
  have husable : isCaUsable (record root managed ca).stored now = some false :=
    (isCaUsable_caToRecord now).trans (congrArg some (decide_eq_false hnow))
  simp only [adoptStored, husable]

theorem parsesBack_buildManagedCA (hx : x.Lawful) {seed : Nat} {now : Time}
    (hne : x.notAfter (buildManagedCA root managed seed now).cert ≠ 0)
    (hexact : |x.notAfter (buildManagedCA root managed seed now).cert| < 2 ^ 53) :
    ParsesBack root managed (buildManagedCA root managed seed now) where
  read := parse_stringifyCertificate
    (complete_caToRecord hx rfl (root.cacheKey_ne_nil _) managed.cacheDomain_ne_nil hne hexact)
  parse := tryParseStoredCA_caToRecord hx rfl

/-- A fleet converges in every run in which no server replaces what another one has stored. -/
theorem converged_of_guarded {raw₀ : Option JsString} {events : List (Event x)}
    {ok : CaFleet x → Event x → Prop} (hcreations : SoundCreations root managed events)
    (hstart : ∀ now, Ticks events now →
      afterRead x (backend.read raw₀) now = .creating raw₀.isSome)
    (hok : ∀ s e, LoadInv root managed raw₀ (Sound root managed events) (Ticks events) s →
      ok s e → ReplacesFirst raw₀ s e)
    (hguarded : Guarded (step backend root managed) ok (initial raw₀) events)
    (hrun : run (step backend root managed) (initial raw₀) events = some s) :
    Converged backend s := by
  have hload : ∀ ca now, Sound root managed events ca → Ticks events now →
      LoadsAs backend (some (recordText root managed ca)) now (some ca) :=
    fun ca now hca hnow => hca.parsesBack.loadsAs (hca.fresh now hnow)
  have hallowed : ∀ e ∈ events, Allowed (Sound root managed events) (Ticks events) e :=
    fun e he => ⟨hcreations e he, fun now hnow => ⟨e, he, hnow⟩⟩
  have hboth : Guarded (step backend root managed)
      (fun s e => Allowed (Sound root managed events) (Ticks events) e ∧ ok s e)
      (initial raw₀) events := (guarded_of_forall_mem hallowed _).and hguarded
  have hinv : LoadInv root managed raw₀ (Sound root managed events) (Ticks events) s :=
    guarded_invariant
      (fun s e t hs h hstep => hs.step hstart hload h.1 (hok s e hs h.2) hstep)
      loadInv_initial hboth hrun
  exact hinv.converged fun ca hca => hca.parsesBack.storeHolds

/-- From an empty store nothing is ever replaced. -/
theorem LoadInv.replacesFirst_none {P : CaMaterial x → Prop} {Q : Time → Prop}
    (h : LoadInv root managed none P Q s) : ReplacesFirst none s e := by
  cases e with
  | write i =>
      intro generated hphase
      obtain ⟨held, -, -, hall⟩ := h
      have hconsistent := hall i
      rw [hphase] at hconsistent
      cases hconsistent.1
  | read i now => exact trivial
  | create i generated => exact trivial
  | reread i now => exact trivial

theorem Ticks.mono {events part : List (Event x)} {now : Time} (h : Ticks part now)
    (hsub : part ⊆ events) : Ticks events now := by
  obtain ⟨e, he, hnow⟩ := h
  exact ⟨e, hsub he, hnow⟩

/-- What holds for the creations of a run holds for those of a part of it. -/
theorem SoundCreations.mono {events part : List (Event x)}
    (h : SoundCreations root managed events) (hsub : part ⊆ events) :
    SoundCreations root managed part := by
  intro e he ca hca
  have hsound := h e (hsub he) ca hca
  exact ⟨hsound.parsesBack, fun now hnow => hsound.fresh now (hnow.mono hsub)⟩

/-- The client authority that a server of the plain library creates. -/
def plainCA (seed : Nat) (now : Time) : CaMaterial X509.plain :=
  buildManagedCA X509.plainRoot .clientAuth seed now

/-- The time at which an authority of 1970 ends. -/
def plainEnd : Time := 315532800000

/-- Two servers create an authority each, and then write. -/
def overlapping : List (Event X509.plain) :=
  [.read 0 plainEnd, .read 1 plainEnd, .create 0 (plainCA 0 plainEnd),
    .create 1 (plainCA 1 plainEnd), .write 0, .write 1]

theorem ticks_overlapping {t : Time} (h : Ticks overlapping t) : t = plainEnd := by
  obtain ⟨e, he, ht⟩ := h
  simp only [overlapping, List.mem_cons, List.not_mem_nil, or_false] at he
  obtain rfl | rfl | rfl | rfl | rfl | rfl := he
  · exact (Option.mem_some.mp ht).symm
  · exact (Option.mem_some.mp ht).symm
  · cases ht
  · cases ht
  · cases ht
  · cases ht

theorem parsesBack_plainCA_old : ParsesBack X509.plainRoot .clientAuth (plainCA 2 0) := by
  apply parsesBack_buildManagedCA X509.plain_lawful
  · change (315532800000 : Int) ≠ 0
    norm_num
  · change |(315532800000 : Int)| < 2 ^ 53
    norm_num

theorem sound_plainCA (seed : Nat) :
    Sound X509.plainRoot .clientAuth overlapping (plainCA seed plainEnd) where
  parsesBack := by
    apply parsesBack_buildManagedCA X509.plain_lawful
    · change (631152000000 : Int) ≠ 0
      norm_num
    · change |(631152000000 : Int)| < 2 ^ 53
      norm_num
  fresh t ht := by
    rw [ticks_overlapping ht]
    change (2592000000 : Int) < 631152000000 - 315532800000
    norm_num

theorem soundCreations_overlapping :
    SoundCreations X509.plainRoot .clientAuth overlapping := by
  intro e he ca hca
  simp only [overlapping, List.mem_cons, List.not_mem_nil, or_false] at he
  obtain rfl | rfl | rfl | rfl | rfl | rfl := he
  · cases hca
  · cases hca
  · exact Option.mem_some.mp hca ▸ sound_plainCA 0
  · exact Option.mem_some.mp hca ▸ sound_plainCA 1
  · cases hca
  · cases hca

/-- Servers that load an authority from an empty store converge on one. -/
theorem fleet_converges {events : List (Event x)}
    (hcreations : SoundCreations root managed events)
    (hrun : run (step backend root managed) (initial none) events = some s) :
    Converged backend s ∧ Terminating backend root managed events s := by
  have hconverged : Converged backend s :=
    converged_of_guarded hcreations (fun now _ => rfl)
      (fun s e hs _ => hs.replacesFirst_none) (guarded_of_forall_mem (fun e _ => trivial) _) hrun
  exact ⟨hconverged, terminating_of_run hrun hconverged.noFailure⟩

theorem fleet_converges_overlapping : ∃ s,
    run (step .s3 X509.plainRoot .clientAuth) (initial none) overlapping = some s ∧
      s.phase 0 = .returned (plainCA 0 plainEnd) ∧ Converged .s3 s ∧
      Terminating .s3 X509.plainRoot .clientAuth overlapping s :=
  ⟨_, rfl, rfl, fleet_converges soundCreations_overlapping rfl⟩

/-- Where the store holds a record that has to be renewed, the servers converge as long as none
replaces another record than that. -/
theorem renewal_converges {text : JsString} {start : Time} {events : List (Event x)}
    (hstale : LoadsAs (x := x) backend (some text) start none)
    (hclock : ∀ now, Ticks events now → start ≤ now)
    (hcreations : SoundCreations root managed events)
    (hfirst : Guarded (step backend root managed) (ReplacesFirst (some text))
      (initial (some text)) events)
    (hrun : run (step backend root managed) (initial (some text)) events = some s) :
    Converged backend s ∧ Terminating backend root managed events s := by
  have hstart : ∀ now, Ticks events now →
      afterRead x (backend.read (some text)) now = .creating true := by
    intro now hnow
    obtain ⟨stored, hread, hadopt⟩ := hstale
    rw [hread]
    simp only [afterRead, adoptStored_none_mono (hclock now hnow) hadopt, Option.isSome_some]
  have hconverged : Converged backend s :=
    converged_of_guarded hcreations hstart (fun s e _ h => h) hfirst hrun
  exact ⟨hconverged, terminating_of_run hrun hconverged.noFailure⟩

/-- The text of a record of 1970. -/
def oldText : JsString := recordText X509.plainRoot .clientAuth (plainCA 2 0)

theorem loadsAs_oldText : LoadsAs (x := X509.plain) .filesystem (some oldText) plainEnd none := by
  apply parsesBack_plainCA_old.loadsAs_none
  change ¬ (2592000000 : Int) < 315532800000 - 315532800000
  norm_num

theorem step_read_oldText {i : Nat} {phase : Nat → LoadPhase X509.plain}
    (h : phase i = .reading) :
    step .filesystem X509.plainRoot .clientAuth ⟨some oldText, phase⟩ (.read i plainEnd) =
      some ⟨some oldText, Function.update phase i (.creating true)⟩ := by
  obtain ⟨stored, hread, hadopt⟩ := loadsAs_oldText
  simp only [step, h, hread, afterRead, hadopt, setPhase, Option.isSome_some]

theorem step_raw (h : step backend root managed s e = some t) (hwrite : ∀ i, e ≠ .write i) :
    t.raw = s.raw := by
  have hmove := (step_move h).1
  generalize s.raw = raw, t.raw = raw', s.phase e.server = phase, t.phase e.server = phase' at hmove
  cases hmove with
  | read => rfl
  | create => rfl
  | replace => exact absurd rfl (hwrite _)
  | store => exact absurd rfl (hwrite _)
  | lose => rfl
  | reread => rfl

theorem run_overlapping : ∃ s,
    run (step .filesystem X509.plainRoot .clientAuth) (initial (some oldText)) overlapping =
        some s ∧
      s.phase 0 = .returned (plainCA 0 plainEnd) ∧ s.phase 1 = .returned (plainCA 1 plainEnd) :=
  ⟨_, run_cons_eq_some_iff.mpr ⟨_, step_read_oldText rfl,
    run_cons_eq_some_iff.mpr ⟨_, step_read_oldText rfl, rfl⟩⟩, rfl, rfl⟩

theorem run_first_write : ∃ s,
    run (step .filesystem X509.plainRoot .clientAuth) (initial (some oldText))
        (overlapping.take 5) = some s ∧ s.phase 0 = .returned (plainCA 0 plainEnd) :=
  ⟨_, run_cons_eq_some_iff.mpr ⟨_, step_read_oldText rfl,
    run_cons_eq_some_iff.mpr ⟨_, step_read_oldText rfl, rfl⟩⟩, rfl⟩

theorem guarded_first_write : Guarded (step .filesystem X509.plainRoot .clientAuth)
    (ReplacesFirst (some oldText)) (initial (some oldText)) (overlapping.take 5) := by
  refine ⟨trivial, fun s₁ h₁ => ⟨trivial, fun s₂ h₂ => ⟨trivial, fun s₃ h₃ =>
    ⟨trivial, fun s₄ h₄ => ⟨fun _ _ => ?_, fun _ _ => trivial⟩⟩⟩⟩⟩
  calc s₄.raw = s₃.raw := step_raw h₄ (fun i h => by cases h)
    _ = s₂.raw := step_raw h₃ (fun i h => by cases h)
    _ = s₁.raw := step_raw h₂ (fun i h => by cases h)
    _ = some oldText := step_raw h₁ (fun i h => by cases h)

theorem renewal_converges_first_write : ∃ s,
    run (step .filesystem X509.plainRoot .clientAuth) (initial (some oldText))
        (overlapping.take 5) = some s ∧
      s.phase 0 = .returned (plainCA 0 plainEnd) ∧ Converged .filesystem s ∧
      Terminating .filesystem X509.plainRoot .clientAuth (overlapping.take 5) s := by
  obtain ⟨s, hrun, hreturned⟩ := run_first_write
  have hsub : overlapping.take 5 ⊆ overlapping := List.take_subset 5 overlapping
  exact ⟨s, hrun, hreturned, renewal_converges loadsAs_oldText
    (fun now h => (ticks_overlapping (h.mono hsub)).ge)
    (soundCreations_overlapping.mono hsub) guarded_first_write hrun⟩

/-- Two servers that overlap while they renew an authority each keep their own. -/
theorem not_converged_overlapping :
    LoadsAs (x := X509.plain) .filesystem (some oldText) plainEnd none ∧
      (∀ now, Ticks overlapping now → plainEnd ≤ now) ∧
      SoundCreations X509.plainRoot .clientAuth overlapping ∧
      ∃ s, run (step .filesystem X509.plainRoot .clientAuth) (initial (some oldText))
        overlapping = some s ∧ ¬ Converged .filesystem s := by
  obtain ⟨s, hrun, hfirst, hsecond⟩ := run_overlapping
  refine ⟨loadsAs_oldText, fun now h => (ticks_overlapping h).ge, soundCreations_overlapping,
    s, hrun, fun h => ?_⟩
  have hsame : plainCA 0 plainEnd = plainCA 1 plainEnd := h.agree 0 1 _ _ hfirst hsecond
  cases congrArg CaMaterial.key hsame

end TestServer.TlsCertificates.CaFleet
