import Mathlib.Data.List.Basic

/-!
# Runs of labelled transition functions

A transition function returns no state when the event is not enabled. An
invariant is proved for one event at a time and then holds along every run,
also when each event has to meet a guard on the state before it.
-/

namespace TestServer.Library.Runs

variable {σ ε : Type*}

/-- The state after a list of events, each of which has to be enabled. -/
def run (step : σ → ε → Option σ) : σ → List ε → Option σ
  | s, [] => some s
  | s, e :: es => (step s e).bind fun t => run step t es

theorem run_cons (step : σ → ε → Option σ) (s : σ) (e : ε) (es : List ε) :
    run step s (e :: es) = (step s e).bind fun t => run step t es := rfl

theorem run_cons_eq_some_iff {step : σ → ε → Option σ} {s t : σ} {e : ε} {es : List ε} :
    run step s (e :: es) = some t ↔ ∃ m, step s e = some m ∧ run step m es = some t := by
  simp [run_cons, Option.bind_eq_some_iff]

/-- The state after one list of events and then another. -/
theorem run_append_of_eq_some {step : σ → ε → Option σ} {s m t : σ} {es fs : List ε}
    (hes : run step s es = some m) (hfs : run step m fs = some t) :
    run step s (es ++ fs) = some t := by
  induction es generalizing s with
  | nil =>
      cases hes
      exact hfs
  | cons e es ih =>
      obtain ⟨u, hu, hm⟩ := run_cons_eq_some_iff.mp hes
      exact run_cons_eq_some_iff.mpr ⟨u, hu, ih hm⟩

/-- A run of two lists of events gets through the first one. -/
theorem exists_run_of_run_append {step : σ → ε → Option σ} {s t : σ} {es fs : List ε}
    (h : run step s (es ++ fs) = some t) :
    ∃ m, run step s es = some m ∧ run step m fs = some t := by
  induction es generalizing s with
  | nil => exact ⟨s, rfl, h⟩
  | cons e es ih =>
      obtain ⟨u, hu, ht⟩ := run_cons_eq_some_iff.mp h
      obtain ⟨m, hm, hfs⟩ := ih ht
      exact ⟨m, run_cons_eq_some_iff.mpr ⟨u, hu, hm⟩, hfs⟩

/-- Where the events of `ok` can raise a measure by one and come back to `P`, they can raise it
by any number. -/
theorem exists_run_raising {step : σ → ε → Option σ} {P : σ → Prop} (ok : ε → Prop)
    (measure : σ → Nat)
    (cycle : ∀ s, P s → ∃ es t, (∀ e ∈ es, ok e) ∧ run step s es = some t ∧ P t ∧
      measure t = measure s + 1)
    (n : Nat) {s : σ} (hs : P s) :
    ∃ es t, (∀ e ∈ es, ok e) ∧ run step s es = some t ∧ P t ∧ measure t = measure s + n := by
  induction n generalizing s with
  | zero => exact ⟨[], s, List.forall_mem_nil ok, rfl, hs, rfl⟩
  | succ n ih =>
      obtain ⟨es, m, hes, hm, hPm, hmeasure⟩ := cycle s hs
      obtain ⟨fs, t, hfs, ht, hPt, hrest⟩ := ih hPm
      refine ⟨es ++ fs, t, ?_, run_append_of_eq_some hm ht, hPt, by omega⟩
      intro e he
      exact (List.mem_append.mp he).elim (hes e) (hfs e)

/-- Where each event is one of another transition function on a view of the state, or leaves the
view as it is, a run is a run of that function on the view. -/
theorem run_view {τ δ : Type*} {step : σ → ε → Option σ} {step' : τ → δ → Option τ} {ok : ε → Prop}
    {view : σ → τ} {project : ε → Option δ}
    (simulate : ∀ s e t, ok e → step s e = some t →
      (project e).elim (view t = view s) fun d => step' (view s) d = some (view t))
    {s t : σ} {es : List ε} (hok : ∀ e ∈ es, ok e) (hrun : run step s es = some t) :
    run step' (view s) (es.filterMap project) = some (view t) := by
  induction es generalizing s with
  | nil =>
      cases hrun
      rfl
  | cons e es ih =>
      obtain ⟨he, hes⟩ := List.forall_mem_cons.mp hok
      obtain ⟨m, hm, ht⟩ := run_cons_eq_some_iff.mp hrun
      have hsimulate := simulate s e m he hm
      have hrest := ih hes ht
      cases hproject : project e with
      | none =>
          rw [hproject, Option.elim_none] at hsimulate
          rw [List.filterMap_cons_none hproject, ← hsimulate]
          exact hrest
      | some d =>
          rw [hproject, Option.elim_some] at hsimulate
          rw [List.filterMap_cons_some hproject]
          exact run_cons_eq_some_iff.mpr ⟨view m, hsimulate, hrest⟩

/-- Every event of the list meets `ok` in the state before it. -/
def Guarded (step : σ → ε → Option σ) (ok : σ → ε → Prop) : σ → List ε → Prop
  | _, [] => True
  | s, e :: es => ok s e ∧ ∀ m, step s e = some m → Guarded step ok m es

instance decidableGuarded (step : σ → ε → Option σ) (ok : σ → ε → Prop)
    [∀ s e, Decidable (ok s e)] : ∀ s es, Decidable (Guarded step ok s es)
  | _, [] => isTrue trivial
  | s, e :: es =>
      match h : step s e with
      | none =>
          decidable_of_iff (ok s e) (by simp [Guarded, h])
      | some m =>
          have := decidableGuarded step ok m es
          decidable_of_iff (ok s e ∧ Guarded step ok m es) (by simp [Guarded, h])

/-- What each event keeps, under its guard, is kept by a run of guarded events. -/
theorem guarded_invariant {step : σ → ε → Option σ} {ok : σ → ε → Prop} {Inv : σ → Prop}
    (keep : ∀ s e t, Inv s → ok s e → step s e = some t → Inv t) {s t : σ} {es : List ε}
    (hs : Inv s) (hok : Guarded step ok s es) (hrun : run step s es = some t) : Inv t := by
  induction es generalizing s with
  | nil =>
      cases hrun
      exact hs
  | cons e es ih =>
      obtain ⟨m, hm, ht⟩ := run_cons_eq_some_iff.mp hrun
      exact ih (keep s e m hs hok.1 hm) (hok.2 m hm) ht

/-- A guard that does not look at the state is met by a run of events that all meet it. -/
theorem guarded_of_forall_mem {step : σ → ε → Option σ} {ok : ε → Prop} {es : List ε}
    (h : ∀ e ∈ es, ok e) (s : σ) : Guarded step (fun _ e => ok e) s es := by
  induction es generalizing s with
  | nil => exact trivial
  | cons e es ih =>
      refine ⟨h e (List.mem_cons_self ..), fun m _ => ih (fun f hf => ?_) m⟩
      exact h f (List.mem_cons_of_mem _ hf)

/-- What each event keeps is kept by a run. -/
theorem run_invariant {step : σ → ε → Option σ} {Inv : σ → Prop}
    (keep : ∀ s e t, Inv s → step s e = some t → Inv t) {s t : σ} {es : List ε}
    (hs : Inv s) (hrun : run step s es = some t) : Inv t :=
  guarded_invariant (fun s e t h _ hstep => keep s e t h hstep) hs
    (guarded_of_forall_mem (fun _ _ => trivial) s) hrun

/-- A run that meets a guard meets a weaker one. -/
theorem Guarded.imp {step : σ → ε → Option σ} {ok ok' : σ → ε → Prop}
    (himp : ∀ s e, ok s e → ok' s e) {s : σ} {es : List ε} (h : Guarded step ok s es) :
    Guarded step ok' s es := by
  induction es generalizing s with
  | nil => exact trivial
  | cons e es ih => exact ⟨himp s e h.1, fun m hm => ih (h.2 m hm)⟩

theorem Guarded.and {step : σ → ε → Option σ} {ok ok' : σ → ε → Prop} {s : σ} {es : List ε}
    (h : Guarded step ok s es) (h' : Guarded step ok' s es) :
    Guarded step (fun s e => ok s e ∧ ok' s e) s es := by
  induction es generalizing s with
  | nil => exact trivial
  | cons e es ih =>
      exact ⟨⟨h.1, h'.1⟩, fun m hm => ih (h.2 m hm) (h'.2 m hm)⟩

/-- Guards that agree where the invariant holds are met by the same runs. -/
theorem guarded_congr {step : σ → ε → Option σ} {ok ok' : σ → ε → Prop} {Inv : σ → Prop}
    (keep : ∀ s e t, Inv s → step s e = some t → Inv t)
    (agree : ∀ s e, Inv s → (ok s e ↔ ok' s e)) {s : σ} (hs : Inv s) (es : List ε) :
    Guarded step ok s es ↔ Guarded step ok' s es := by
  induction es generalizing s with
  | nil => exact Iff.rfl
  | cons e es ih =>
      apply and_congr (agree s e hs)
      apply forall_congr'
      intro m
      apply forall_congr'
      intro hm
      exact ih (keep s e m hs hm)

/-- A guard that does not look at what an observer has seen is met under observation exactly when
it is met without. -/
theorem guarded_observed_iff {ω : Type*} {step : σ → ε → Option σ} {observe : σ → ω → ε → ω}
    {ok : σ → ε → Prop} {s : σ} {o : ω} {es : List ε} :
    Guarded (fun so e => (step so.1 e).map fun t => (t, observe so.1 so.2 e))
        (fun so e => ok so.1 e) (s, o) es ↔ Guarded step ok s es := by
  induction es generalizing s o with
  | nil => exact Iff.rfl
  | cons e es ih =>
      apply and_congr Iff.rfl
      constructor
      · intro h m hm
        exact ih.mp (h (m, observe s o e) (Option.map_eq_some_iff.mpr ⟨m, hm, rfl⟩))
      · intro h so hso
        obtain ⟨m, hm, rfl⟩ := Option.map_eq_some_iff.mp hso
        exact ih.mpr (h m hm)

/-- A run keeps the invariant as long as the guard is met, and is stuck with the damage of the
first event that does not meet it. -/
theorem guarded_or_stuck {step : σ → ε → Option σ} {ok : σ → ε → Prop} {Inv Bad : σ → Prop}
    (keep : ∀ s e t, Inv s → ok s e → step s e = some t → Inv t)
    (broken : ∀ s e t, Inv s → ¬ ok s e → step s e = some t → Bad t)
    (stuck : ∀ s e t, Bad s → step s e = some t → Bad t)
    {s t : σ} {es : List ε} (hs : Inv s) (hrun : run step s es = some t) :
    Guarded step ok s es ∧ Inv t ∨ ¬ Guarded step ok s es ∧ Bad t := by
  induction es generalizing s with
  | nil =>
      cases hrun
      exact .inl ⟨trivial, hs⟩
  | cons e es ih =>
      obtain ⟨m, hm, ht⟩ := run_cons_eq_some_iff.mp hrun
      by_cases hok : ok s e
      · obtain ⟨hguarded, hinv⟩ | ⟨hguarded, hbad⟩ := ih (keep s e m hs hok hm) ht
        · refine .inl ⟨⟨hok, fun m' hm' => ?_⟩, hinv⟩
          obtain rfl : m = m' := Option.some.inj (hm.symm.trans hm')
          exact hguarded
        · exact .inr ⟨fun h => hguarded (h.2 m hm), hbad⟩
      · refine .inr ⟨fun h => hok h.1, ?_⟩
        exact run_invariant stuck (broken s e m hs hok hm) ht

/-- A measure that every counted event lowers bounds how many of them a run has. -/
theorem countP_add_measure_le {step : σ → ε → Option σ} {counted : ε → Bool} {measure : σ → Nat}
    (lower : ∀ s e t, step s e = some t → (if counted e then 1 else 0) + measure t ≤ measure s)
    {s t : σ} {es : List ε} (hrun : run step s es = some t) :
    es.countP counted + measure t ≤ measure s := by
  induction es generalizing s with
  | nil =>
      cases hrun
      simp only [List.countP_nil, Nat.zero_add, Nat.le_refl]
  | cons e es ih =>
      obtain ⟨m, hm, ht⟩ := run_cons_eq_some_iff.mp hrun
      have hrest := ih ht
      have hhead := lower s e m hm
      rw [List.countP_cons]
      omega

/-- A measure that every counted event lowers, where an invariant holds, bounds how many of them a
run has. -/
theorem countP_add_measure_le_of_invariant {step : σ → ε → Option σ} {Inv : σ → Prop}
    {counted : ε → Bool} {measure : σ → Nat}
    (lower : ∀ s e t, Inv s → step s e = some t →
      Inv t ∧ (if counted e then 1 else 0) + measure t ≤ measure s)
    {s t : σ} {es : List ε} (hs : Inv s) (hrun : run step s es = some t) :
    es.countP counted + measure t ≤ measure s := by
  induction es generalizing s with
  | nil =>
      cases hrun
      simp only [List.countP_nil, Nat.zero_add, Nat.le_refl]
  | cons e es ih =>
      obtain ⟨m, hm, ht⟩ := run_cons_eq_some_iff.mp hrun
      obtain ⟨hinv, hhead⟩ := lower s e m hs hm
      have hrest := ih hinv ht
      rw [List.countP_cons]
      omega

/-- A measure that only counted events raise, by one each, is bounded by how many of them a run
has. -/
theorem measure_le_add_countP {step : σ → ε → Option σ} {counted : ε → Bool} {measure : σ → Nat}
    (raise : ∀ s e t, step s e = some t → measure t ≤ measure s + (if counted e then 1 else 0))
    {s t : σ} {es : List ε} (hrun : run step s es = some t) :
    measure t ≤ measure s + es.countP counted := by
  induction es generalizing s with
  | nil =>
      cases hrun
      exact Nat.le_refl _
  | cons e es ih =>
      obtain ⟨m, hm, ht⟩ := run_cons_eq_some_iff.mp hrun
      have hrest := ih ht
      have hhead := raise s e m hm
      rw [List.countP_cons]
      omega

/-- A property holds in every state that a run reaches. -/
def Throughout (step : σ → ε → Option σ) (P : σ → Prop) : σ → List ε → Prop
  | s, [] => P s
  | s, e :: es => P s ∧ ∀ m, step s e = some m → Throughout step P m es

/-- The property holds where the events of a prefix lead. -/
theorem Throughout.of_run {step : σ → ε → Option σ} {P : σ → Prop} {s t : σ} {es fs : List ε}
    (h : Throughout step P s (es ++ fs)) (hrun : run step s es = some t) : P t := by
  induction es generalizing s with
  | nil =>
      cases hrun
      cases fs with
      | nil => exact h
      | cons e fs => exact h.1
  | cons e es ih =>
      obtain ⟨m, hm, ht⟩ := run_cons_eq_some_iff.mp hrun
      exact ih (h.2 m hm) ht

/-- A guard that is needed at every event is met throughout a run exactly when the property
holds throughout. -/
theorem throughout_iff_guarded {step : σ → ε → Option σ} {ok : σ → ε → Prop} {Inv P : σ → Prop}
    (keep : ∀ s e t, Inv s → ok s e → step s e = some t → Inv t)
    (good : ∀ s, Inv s → P s)
    (bad : ∀ s e t, Inv s → step s e = some t → P t → ok s e)
    {s t : σ} {es : List ε} (hs : Inv s) (hrun : run step s es = some t) :
    Throughout step P s es ↔ Guarded step ok s es := by
  induction es generalizing s with
  | nil => exact iff_of_true (good s hs) trivial
  | cons e es ih =>
      obtain ⟨m, hm, ht⟩ := run_cons_eq_some_iff.mp hrun
      constructor
      · rintro ⟨-, hrest⟩
        have hP : Throughout step P m ([] ++ es) := hrest m hm
        have hok : ok s e := bad s e m hs hm (hP.of_run rfl)
        refine ⟨hok, fun m' hm' => ?_⟩
        obtain rfl : m = m' := Option.some.inj (hm.symm.trans hm')
        exact (ih (keep s e m hs hok hm) ht).mp hP
      · rintro ⟨hok, hrest⟩
        refine ⟨good s hs, fun m' hm' => ?_⟩
        obtain rfl : m = m' := Option.some.inj (hm.symm.trans hm')
        exact (ih (keep s e m hs hok hm) ht).mpr (hrest m hm)

end TestServer.Library.Runs
