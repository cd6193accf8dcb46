import TestServer.TlsCertificates.CaConvergence

/-!
# Recovery from stored content

What one server makes of any text under the key of an authority, while the
operations of the store work: it recovers unless the text is no certificate
record, or is one that counts as usable although its certificate is not.
-/

namespace TestServer.TlsCertificates.CaFleet

open Js Library.Runs

variable {x : X509}

/-- The last time that a date can have. -/
def maxTime : Time := 8640000000000000

/-- The clock is not before 1970, and the end of a new authority is a date. -/
structure ClockInRange (managed : ManagedCA) (now : Time) : Prop where
  nonneg : 0 ≤ now
  addYears_le : addYears now managed.lifespanYears ≤ maxTime

section

variable (backend : CertStoreBackend) (root : RootCA x) (managed : ManagedCA)
  (raw : Option JsString) (generated : CaMaterial x) (now : Time)

/-- What the operations of a store that works give, to a server that has it to itself. -/
def replies : StoreReplies where
  read := backend.read raw
  write := .ok ()
  writeIfAbsent := .ok (CertStoreBackend.writeIfAbsent raw (record root managed generated)).1
  reread := backend.read
    (CertStoreBackend.writeIfAbsent raw (record root managed generated)).2

/-- What is stored after the call. -/
def rawAfter : Option JsString :=
  match afterRead x (backend.read raw) now with
  | .creating true => some (recordText root managed generated)
  | .creating false => (CertStoreBackend.writeIfAbsent raw (record root managed generated)).2
  | _ => raw

/-- What the call gives. -/
def loaded : Except JsString (CaMaterial x) :=
  loadOrCreatePersistedCA (some (replies backend root managed raw generated)) generated now now

/-- The call gives an authority that lasts for more than the margin, and leaves a record that
loads as it. -/
def Recovers (seed : Nat) : Prop :=
  ∃ ca, loaded backend root managed raw (buildManagedCA root managed seed now) now = .ok ca ∧
    renewalMargin < x.notAfter ca.cert - now ∧
    LoadsAs backend (rawAfter backend root managed raw (buildManagedCA root managed seed now) now)
      now (some ca)

end

/-- Nothing is stored, or a record with an end that can be compared, whose certificate lasts for
more than the margin if the record counts as usable and can be parsed. -/
def Recoverable (x : X509) (backend : CertStoreBackend) (raw : Option JsString) (now : Time) :
    Prop :=
  raw = none ∨ ∃ stored, backend.read raw = .ok (some stored) ∧
    (isCaUsable stored now).isSome = true ∧
    (isCaUsable stored now = some true → ∀ ca ∈ tryParseStoredCA x stored,
      renewalMargin < x.notAfter ca.cert - now)

variable {backend : CertStoreBackend} {root : RootCA x} {managed : ManagedCA}
  {raw : Option JsString} {generated : CaMaterial x} {now : Time}

/-- Where a call that has ended stands. -/
def outcome : Except JsString (CaMaterial x) → LoadPhase x
  | .ok ca => .returned ca
  | .error message => .rejected message

theorem outcome_afterReread (winner : Except JsString (Option StoredCertificate))
    (generated : CaMaterial x) (now : Time) :
    outcome (resultOf generated (afterReread winner generated now)) =
      afterReread winner generated now := by
  obtain ⟨message, h⟩ | ⟨ca, h⟩ := afterReread_cases winner generated now
  · rw [h]
    rfl
  · rw [h]
    rfl

/-- A server that has the store to itself makes the steps of the fleet. -/
theorem run_loaded (backend : CertStoreBackend) (root : RootCA x) (managed : ManagedCA)
    (raw : Option JsString) (generated : CaMaterial x) (now : Time) :
    ∃ events s, run (step backend root managed) (initial raw) events = some s ∧
      s.raw = rawAfter backend root managed raw generated now ∧
      s.phase 0 = outcome (loaded backend root managed raw generated now) := by
  obtain ⟨message, h⟩ | ⟨ca, h⟩ | ⟨replace, h⟩ := afterRead_cases (x := x) (backend.read raw) now
  · refine ⟨[.read 0 now], _, rfl, ?_, ?_⟩
    · simp only [rawAfter, h, initial, setPhase]
    · simp only [loaded, loadOrCreatePersistedCA_eq, replies, h, resultOf, outcome, initial,
        setPhase, Function.update_self]
  · refine ⟨[.read 0 now], _, rfl, ?_, ?_⟩
    · simp only [rawAfter, h, initial, setPhase]
    · simp only [loaded, loadOrCreatePersistedCA_eq, replies, h, resultOf, outcome, initial,
        setPhase, Function.update_self]
  · have hread : step backend root managed (initial raw) (.read 0 now) =
        some ((initial raw).setPhase 0 (.creating replace)) := by
      simp only [step, initial, h]
    cases replace with
    | true =>
        refine ⟨[.read 0 now, .create 0 generated, .write 0], _,
          run_cons_eq_some_iff.mpr ⟨_, hread, rfl⟩, ?_, ?_⟩
        · simp only [rawAfter, h]
          rfl
        · simp only [loaded, loadOrCreatePersistedCA_eq, replies, h]
          rfl
    | false =>
        cases raw with
        | none =>
            refine ⟨[.read 0 now, .create 0 generated, .write 0], _,
              run_cons_eq_some_iff.mpr ⟨_, hread, rfl⟩, ?_, ?_⟩
            · simp only [rawAfter, h]
              rfl
            · simp only [loaded, loadOrCreatePersistedCA_eq, replies, h]
              rfl
        | some text =>
            refine ⟨[.read 0 now, .create 0 generated, .write 0, .reread 0 now], _,
              run_cons_eq_some_iff.mpr ⟨_, hread, rfl⟩, ?_, ?_⟩
            · simp only [rawAfter, h]
              rfl
            · simp only [loaded, loadOrCreatePersistedCA_eq, replies, h]
              exact (outcome_afterReread _ generated now).symm

theorem parsesBack_created (hx : x.Lawful) (hclock : ClockInRange managed now) (seed : Nat) :
    ParsesBack root managed (buildManagedCA root managed seed now) := by
  have hfresh := buildManagedCA_fresh hx root managed seed now
  have hmargin : (0 : Int) < renewalMargin := by decide
  have hend : x.notAfter (buildManagedCA root managed seed now).cert ≤ maxTime := by
    calc x.notAfter (buildManagedCA root managed seed now).cert
        = x.encodeTime (addYears now managed.lifespanYears) :=
      notAfter_buildManagedCA hx root managed seed now
      _ ≤ addYears now managed.lifespanYears := hx.encodeTime_le _
      _ ≤ maxTime := hclock.addYears_le
  have hnonneg := hclock.nonneg
  have hmax : maxTime < 2 ^ 53 := by decide
  have hpositive : 0 < x.notAfter (buildManagedCA root managed seed now).cert := by
    linarith
  apply parsesBack_buildManagedCA hx
  · exact hpositive.ne'
  · rw [abs_of_pos hpositive]
    exact lt_of_le_of_lt hend hmax

theorem loaded_of_rejected {message : JsString}
    (h : afterRead x (backend.read raw) now = .rejected message) :
    loaded backend root managed raw generated now = .error message := by
  simp only [loaded, loadOrCreatePersistedCA_eq, replies, h, resultOf]

theorem not_recovers_of_rejected {seed : Nat} {message : JsString}
    (h : afterRead x (backend.read raw) now = .rejected message) :
    ¬ Recovers backend root managed raw now seed := by
  rintro ⟨ca, hloaded, -⟩
  rw [loaded_of_rejected h] at hloaded
  cases hloaded

theorem recovers_of_returned_iff {seed : Nat} {ca : CaMaterial x}
    (h : afterRead x (backend.read raw) now = .returned ca) :
    Recovers backend root managed raw now seed ↔
      renewalMargin < x.notAfter ca.cert - now ∧ LoadsAs backend raw now (some ca) := by
  have hloaded : loaded backend root managed raw (buildManagedCA root managed seed now) now =
      .ok ca := by
    simp only [loaded, loadOrCreatePersistedCA_eq, replies, h, resultOf]
  have hraw : rawAfter backend root managed raw (buildManagedCA root managed seed now) now =
      raw := by
    simp only [rawAfter, h]
  rw [Recovers, hloaded, hraw]
  constructor
  · rintro ⟨ca', hca, hrest⟩
    cases hca
    exact hrest
  · intro hrest
    exact ⟨ca, rfl, hrest⟩

/-- A server that returns and stores what it has created recovers. -/
theorem recovers_of_stored (hx : x.Lawful) (hclock : ClockInRange managed now) {seed : Nat}
    (hloaded : loaded backend root managed raw (buildManagedCA root managed seed now) now =
      .ok (buildManagedCA root managed seed now))
    (hraw : rawAfter backend root managed raw (buildManagedCA root managed seed now) now =
      some (recordText root managed (buildManagedCA root managed seed now))) :
    Recovers backend root managed raw now seed := by
  have hfresh := buildManagedCA_fresh hx root managed seed now
  have hback : ParsesBack root managed (buildManagedCA root managed seed now) :=
    parsesBack_created hx hclock seed
  refine ⟨buildManagedCA root managed seed now, hloaded, hfresh, ?_⟩
  rw [hraw]
  exact hback.loadsAs hfresh

theorem recovers_of_replacing (hx : x.Lawful) (hclock : ClockInRange managed now) {seed : Nat}
    (h : afterRead x (backend.read raw) now = .creating true) :
    Recovers backend root managed raw now seed := by
  apply recovers_of_stored hx hclock
  · simp only [loaded, loadOrCreatePersistedCA_eq, replies, h]
    rfl
  · simp only [rawAfter, h]

theorem recovers_of_missing (hx : x.Lawful) (hclock : ClockInRange managed now) {seed : Nat} :
    Recovers backend root managed none now seed := by
  apply recovers_of_stored hx hclock
  · rfl
  · rfl

/-- An object that reads as nothing stays where it is. -/
theorem not_recovers_of_empty {seed : Nat} {text : JsString}
    (hread : backend.read (some text) = .ok none) :
    ¬ Recovers backend root managed (some text) now seed := by
  have hphase : afterRead x (backend.read (some text)) now = .creating false := by
    rw [hread]
    rfl
  have hafter : rawAfter backend root managed (some text) (buildManagedCA root managed seed now)
      now = some text := by
    simp only [rawAfter, hphase, CertStoreBackend.writeIfAbsent]
  rintro ⟨ca, -, -, stored, hstored, -⟩
  rw [hafter, hread] at hstored
  cases hstored

/-- A record that is read, by whether it is usable. -/
theorem recovers_of_read_iff (hx : x.Lawful) (hclock : ClockInRange managed now) {seed : Nat}
    {stored : StoredCertificate} (hread : backend.read raw = .ok (some stored)) :
    Recovers backend root managed raw now seed ↔ (isCaUsable stored now).isSome = true ∧
      (isCaUsable stored now = some true → ∀ ca ∈ tryParseStoredCA x stored,
        renewalMargin < x.notAfter ca.cert - now) := by
  cases husable : isCaUsable stored now with
  | none =>
      have hphase : ∃ message, afterRead x (backend.read raw) now = .rejected message := by
        simp only [hread, afterRead, adoptStored, husable, LoadPhase.rejected.injEq, exists_eq']
      obtain ⟨message, hphase⟩ := hphase
      exact iff_of_false (not_recovers_of_rejected hphase) fun h => Bool.false_ne_true h.1
  | some usable =>
      cases usable with
      | false =>
          have hphase : afterRead x (backend.read raw) now = .creating true := by
            simp only [hread, afterRead, adoptStored, husable, Option.isSome_some]
          refine iff_of_true (recovers_of_replacing hx hclock hphase) ⟨rfl, fun h => ?_⟩
          cases h
      | true =>
          cases hparse : tryParseStoredCA x stored with
          | none =>
              have hphase : afterRead x (backend.read raw) now = .creating true := by
                simp only [hread, afterRead, adoptStored, husable, hparse, Option.isSome_some]
              refine iff_of_true (recovers_of_replacing hx hclock hphase)
                ⟨rfl, fun _ ca hca => ?_⟩
              cases hca
          | some ca =>
              have hadopt : adoptStored x (some stored) now = .ok (some ca) := by
                rw [adoptStored_of_usable husable, hparse]
              have hloads : LoadsAs backend raw now (some ca) := ⟨stored, hread, hadopt⟩
              rw [recovers_of_returned_iff hloads.afterRead]
              constructor
              · rintro ⟨hfresh, -⟩
                refine ⟨rfl, fun _ ca' hca' => ?_⟩
                obtain rfl : ca = ca' := Option.mem_some.mp hca'
                exact hfresh
              · rintro ⟨-, hfresh⟩
                exact ⟨hfresh rfl ca rfl, hloads⟩

/-- A server recovers from a text exactly when nothing is stored or the text is a record that is
not taken for one of a usable authority. -/
theorem recovers_iff (hx : x.Lawful) (hclock : ClockInRange managed now) (seed : Nat) :
    Recovers backend root managed raw now seed ↔ Recoverable x backend raw now := by
  cases raw with
  | none => exact iff_of_true (recovers_of_missing hx hclock) (.inl rfl)
  | some text =>
      have hsome : Recoverable x backend (some text) now ↔ ∃ stored,
          backend.read (some text) = .ok (some stored) ∧ (isCaUsable stored now).isSome = true ∧
            (isCaUsable stored now = some true → ∀ ca ∈ tryParseStoredCA x stored,
              renewalMargin < x.notAfter ca.cert - now) := by
        rw [Recoverable, or_iff_right (Option.some_ne_none text)]
      rw [hsome]
      cases hread : backend.read (some text) with
      | error message =>
          have hphase : afterRead x (backend.read (some text)) now = .rejected message := by
            simp only [hread, afterRead]
          refine iff_of_false (not_recovers_of_rejected hphase) ?_
          rintro ⟨stored, hstored, -⟩
          cases hstored
      | ok stored =>
          cases stored with
          | none =>
              refine iff_of_false (not_recovers_of_empty hread) ?_
              rintro ⟨stored, hstored, -⟩
              cases hstored
          | some stored =>
              rw [recovers_of_read_iff hx hclock hread]
              constructor
              · intro h
                exact ⟨stored, rfl, h⟩
              · rintro ⟨stored', hstored', h⟩
                cases hstored'
                exact h

theorem clockInRange_plain : ClockInRange .intermediate 0 where
  nonneg := le_refl 0
  addYears_le := by decide

/-- A record of an authority that runs out. -/
def endingRecord : CachedCertificate where
  cacheKey := js "intermediate"
  domain := js "intermediate-ca"
  key := js "PRIVATE KEY 0"
  cert := js "CERTIFICATE 1000"
  expiry := 1000

theorem complete_endingRecord : endingRecord.Complete := by
  constructor <;> decide

theorem recovers_iff_ending :
    Recovers .filesystem X509.plainRoot .intermediate (some (stringifyCertificate endingRecord))
      0 0 := by
  apply (recovers_iff X509.plain_lawful clockInRange_plain 0).mpr
  have hread : CertStoreBackend.filesystem.read (some (stringifyCertificate endingRecord)) =
      .ok (some endingRecord.stored) := by
    change (parseStoredCertificate (stringifyCertificate endingRecord)).map some = _
    rw [parse_stringifyCertificate complete_endingRecord]
    rfl
  have hends : isCaUsable endingRecord.stored 0 = some false := by decide +kernel
  refine .inr ⟨endingRecord.stored, hread, by rw [hends]; rfl, fun husable => ?_⟩
  rw [hends] at husable
  cases husable

/-- A record that was cut off makes every load fail. -/
theorem not_recovers_cut :
    ¬ Recovers .filesystem X509.plainRoot .intermediate (some (js "\x7b")) 0 0 :=
  not_recovers_of_rejected (show _ = LoadPhase.rejected (js "SyntaxError") from rfl)

end TestServer.TlsCertificates.CaFleet
