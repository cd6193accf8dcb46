import TestServer.Library.Runs
import TestServer.TlsCertificates.SecureContextCache

/-!
# Overlapping calls of the secure-context cache

Calls of `SecureContextCache.getOrCreate` whose factories end in any order. The cache
stays within its size, since the oldest key is deleted until there is room, and a
context is served for less than a day after its call, and not once its certificate has
run out.

## Implementation notes

The clock that a call reads is given with the call, and need not go forward. What a
factory returns is given with its end. A context is kept with the time of its call and
the expiry that its factory returned, which only the statements look at.
-/

namespace TestServer.TlsCertificates

open Js Library Library.Runs

namespace SecureContextCache

section Eviction

variable {γ : Type*}

/-- A turn of the loop: the oldest key is deleted, if it counts as true. -/
def evictTurn (m : InsertionMap ContextKey (CacheEntry γ)) :
    InsertionMap ContextKey (CacheEntry γ) :=
  match m.entries with
  | [] => m
  | (oldestKey, _) :: _ => if oldestKey.val ≠ [] then m.delete oldestKey else m

/-- The map after the loop, if it ends within the given number of turns. -/
def evictLoop (maxSize : Nat) :
    Nat → InsertionMap ContextKey (CacheEntry γ) → Option (InsertionMap ContextKey (CacheEntry γ))
  | 0, m => if m.size ≥ maxSize then none else some m
  | turns + 1, m => if m.size ≥ maxSize then evictLoop maxSize turns (evictTurn m) else some m

/-- The oldest entry goes in a turn. -/
theorem evictTurn_entries {m : InsertionMap ContextKey (CacheEntry γ)}
    {e : ContextKey × CacheEntry γ} {es : List (ContextKey × CacheEntry γ)}
    (h : m.entries = e :: es) : (evictTurn m).entries = es := by
  have hnodup := m.nodup
  rw [h, List.map_cons, List.nodup_cons] at hnodup
  have hothers : ∀ other ∈ es, decide (other.1 ≠ e.1) = true := by
    intro other hother
    rw [decide_eq_true_eq]
    rintro hkey
    exact hnodup.1 (hkey ▸ List.mem_map_of_mem hother)
  rw [evictTurn, h]
  simp only [if_pos e.1.property, InsertionMap.delete, h]
  rw [List.filter_cons_of_neg (by simp), List.filter_eq_self.mpr hothers]

/-- The loop ends, and leaves what `evict` leaves. -/
theorem exists_evictLoop {maxSize : Nat} (hpos : 0 < maxSize)
    (m : InsertionMap ContextKey (CacheEntry γ)) :
    ∃ m', evictLoop maxSize m.size m = some m' ∧ m'.entries = evict maxSize m.entries := by
  generalize hsize : m.size = turns
  induction turns generalizing m with
  | zero =>
      have hnil : m.entries = [] := List.length_eq_zero_iff.mp hsize
      refine ⟨m, ?_, by rw [hnil, evict]⟩
      rw [evictLoop, if_neg]
      omega
  | succ turns ih =>
      obtain ⟨e, es, hentries⟩ := List.exists_cons_of_length_eq_add_one hsize
      rw [evictLoop, hentries, evict, ← hentries]
      by_cases hfull : m.size ≥ maxSize
      · have hturn := evictTurn_entries hentries
        have hless : (evictTurn m).size = turns := by
          have hlength : m.size = es.length + 1 := by rw [InsertionMap.size, hentries]; rfl
          rw [InsertionMap.size, hturn]
          omega
        rw [if_pos hfull, if_pos (show m.entries.length ≥ maxSize from hfull), ← hturn]
        exact ih _ hless
      · rw [if_neg hfull, if_neg (show ¬ m.entries.length ≥ maxSize from hfull)]
        exact ⟨m, rfl, rfl⟩

theorem length_evict_lt {maxSize : Nat} (hpos : 0 < maxSize)
    (es : List (ContextKey × CacheEntry γ)) : (evict maxSize es).length < maxSize := by
  induction es with
  | nil => exact hpos
  | cons e es ih =>
      rw [evict]
      split_ifs with hfull
      · exact ih
      · exact not_le.mp hfull

end Eviction

/-- A context with what is known of the call that has built it. -/
structure BuiltContext (γ : Type*) where
  context : γ
  calledAt : Time
  expiry : Time

structure PendingCall where
  key : ContextKey
  calledAt : Time

/-- A cache and the calls that wait for their factories. -/
structure Calls (γ : Type*) where
  cache : SecureContextCache (BuiltContext γ)
  pending : List PendingCall
  /-- The context that the last step has found in the cache, and the time of that call. -/
  hit : Option (BuiltContext γ × Time)

namespace Calls

variable {γ : Type*}

def initial (maxSize : Nat) (hpos : 0 < maxSize) : Calls γ where
  cache := ⟨maxSize, hpos, .empty⟩
  pending := []
  hit := none

inductive Event (γ : Type*) where
  | getOrCreate (key : ContextKey) (now : Time)
  | factoryEnds (n : Nat) (context : γ) (expiry : Time)
  | factoryFails (n : Nat)

def step (s : Calls γ) : Event γ → Option (Calls γ)
  | .getOrCreate key now =>
      match s.cache.lookup key now with
      | (some context, cache) => some { s with cache := cache, hit := some (context, now) }
      | (none, cache) => some ⟨cache, s.pending ++ [⟨key, now⟩], none⟩
  | .factoryEnds n context expiry =>
      s.pending[n]?.map fun call =>
        ⟨s.cache.store call.key call.calledAt ⟨context, call.calledAt, expiry⟩ expiry,
          s.pending.eraseIdx n, none⟩
  | .factoryFails n =>
      s.pending[n]?.map fun _ => { s with pending := s.pending.eraseIdx n, hit := none }

/-- The entry is kept for a day after its call at most, and no longer than its certificate if that
was valid at the call. -/
def KeptFresh (entry : CacheEntry (BuiltContext γ)) : Prop :=
  entry.expiry ≤ entry.context.calledAt + oneDay ∧
    (entry.context.calledAt < entry.context.expiry → entry.expiry ≤ entry.context.expiry)

/-- A context that is served from the cache was built less than a day ago, and has not run out
since. -/
def ServedFresh (context : BuiltContext γ) (now : Time) : Prop :=
  now < context.calledAt + oneDay ∧ (context.calledAt < context.expiry → now < context.expiry)

/-- What holds of a cache at all times. -/
structure Inv (maxSize : Nat) (s : Calls γ) : Prop where
  limit : s.cache.maxSize = maxSize
  size : s.cache.cache.size ≤ maxSize
  kept : ∀ key entry, s.cache.cache.get key = some entry → KeptFresh entry
  served : ∀ hit ∈ s.hit, ServedFresh hit.1 hit.2

variable {maxSize : Nat} {s t : Calls γ}

theorem inv_initial (hpos : 0 < maxSize) : Inv maxSize (initial maxSize hpos : Calls γ) where
  limit := rfl
  size := Nat.zero_le _
  kept key entry hget := by cases hget
  served hit hhit := by cases hhit

theorem keptFresh_store (context : γ) (calledAt expiry : Time) :
    KeptFresh ⟨⟨context, calledAt, expiry⟩, maxExpiry calledAt expiry⟩ := by
  refine ⟨maxExpiry_le _ _, fun hvalid => ?_⟩
  change maxExpiry calledAt expiry ≤ expiry
  rw [maxExpiry, if_neg (not_le.mpr hvalid)]
  exact min_le_left _ _

theorem KeptFresh.served {entry : CacheEntry (BuiltContext γ)} (h : KeptFresh entry) {now : Time}
    (hnow : now < entry.expiry) : ServedFresh entry.context now :=
  ⟨hnow.trans_le h.1, fun hvalid => hnow.trans_le (h.2 hvalid)⟩

/-- A lookup leaves no more entries, and does not look at the limit. -/
theorem lookup_size_le (c : SecureContextCache (BuiltContext γ)) (key : ContextKey) (now : Time) :
    (c.lookup key now).2.cache.size ≤ c.cache.size ∧
      (c.lookup key now).2.maxSize = c.maxSize := by
  rw [lookup]
  cases hget : c.cache.get key with
  | none => exact ⟨le_refl _, rfl⟩
  | some cached =>
      have hdeleted := InsertionMap.size_delete_lt hget
      simp only
      split_ifs
      · refine ⟨?_, rfl⟩
        calc ((c.cache.delete key).set key cached).size
            ≤ (c.cache.delete key).size + 1 := InsertionMap.size_set_le _ _ _
          _ ≤ c.cache.size := hdeleted
      · exact ⟨hdeleted.le, rfl⟩

theorem Inv.getOrCreate (h : Inv maxSize s) {key : ContextKey} {now : Time}
    (hstep : s.step (.getOrCreate key now) = some t) : Inv maxSize t := by
  obtain ⟨hsize, hmax⟩ := lookup_size_le s.cache key now
  have hkept : ∀ k entry, (s.cache.lookup key now).2.cache.get k = some entry →
      KeptFresh entry := fun k entry hget => h.kept k entry (get_of_get_lookup hget)
  simp only [step] at hstep
  cases hlookup : s.cache.lookup key now with
  | mk found cache =>
      rw [hlookup] at hstep hsize hmax hkept
      cases found with
      | some context =>
          cases hstep
          refine ⟨hmax.trans h.limit, hsize.trans h.size, hkept, ?_⟩
          rintro hit ⟨⟩
          obtain ⟨entry, hget, rfl, hnow⟩ := lookup_eq_some (congrArg Prod.fst hlookup)
          exact (h.kept key entry hget).served hnow
      | none =>
          cases hstep
          exact ⟨hmax.trans h.limit, hsize.trans h.size, hkept, fun hit hhit => by cases hhit⟩

theorem Inv.factoryEnds (h : Inv maxSize s) {n : Nat} {context : γ} {expiry : Time}
    (hstep : s.step (.factoryEnds n context expiry) = some t) : Inv maxSize t := by
  obtain ⟨call, -, rfl⟩ := Option.map_eq_some_iff.mp hstep
  refine ⟨h.limit, ?_, ?_, ?_⟩
  · have hroom : s.cache.makeRoom.size < s.cache.maxSize :=
      length_evict_lt s.cache.maxSize_pos _
    calc (s.cache.store call.key call.calledAt ⟨context, call.calledAt, expiry⟩ expiry).cache.size
        ≤ s.cache.makeRoom.size + 1 := InsertionMap.size_set_le _ _ _
      _ ≤ s.cache.maxSize := hroom
      _ = maxSize := h.limit
  · intro key entry hget
    obtain rfl | hold := get_of_get_store hget
    · exact keptFresh_store context call.calledAt expiry
    · exact h.kept key entry hold
  · rintro hit ⟨⟩

theorem Inv.step (h : Inv maxSize s) {e : Event γ} (hstep : s.step e = some t) :
    Inv maxSize t := by
  cases e with
  | getOrCreate key now => exact h.getOrCreate hstep
  | factoryEnds n context expiry => exact h.factoryEnds hstep
  | factoryFails n =>
      obtain ⟨call, -, rfl⟩ := Option.map_eq_some_iff.mp hstep
      refine ⟨h.limit, h.size, h.kept, ?_⟩
      rintro hit ⟨⟩

/-- In every run, the loop that makes room ends, the cache stays within its size, and a hit is
fresh. -/
theorem bounded_of_run {hpos : 0 < maxSize} {es : List (Event γ)}
    (hrun : run Calls.step (initial maxSize hpos) es = some s) :
    (∃ turns, evictLoop maxSize turns s.cache.cache = some s.cache.makeRoom) ∧
      s.cache.cache.size ≤ maxSize ∧ ∀ hit ∈ s.hit, ServedFresh hit.1 hit.2 := by
  have hinv : Inv maxSize s :=
    run_invariant (fun s e t h hstep => h.step hstep) (inv_initial hpos) hrun
  refine ⟨?_, hinv.size, hinv.served⟩
  obtain ⟨m, hloop, hentries⟩ := exists_evictLoop hpos s.cache.cache
  have hroom : m = s.cache.makeRoom := by
    obtain ⟨entries, nodup⟩ := m
    simp only [makeRoom, InsertionMap.mk.injEq, hinv.limit]
    exact hentries
  exact ⟨_, hloop.trans (congrArg some hroom)⟩

/-- Two factories for one key are in flight, and the later context is found. -/
theorem bounded_of_run_overlapping :
    let key : ContextKey := ⟨js "t", by decide⟩
    ∃ s : Calls Nat, run Calls.step (initial 1 Nat.one_pos)
        [.getOrCreate key 0, .getOrCreate key 5, .factoryEnds 1 2 100, .factoryEnds 0 1 50,
          .getOrCreate key 40] = some s ∧
      s.cache.cache.size ≤ 1 ∧ ∃ hit ∈ s.hit, hit.1.context = 1 ∧ ServedFresh hit.1 hit.2 := by
  intro key
  have hrun : ∃ s : Calls Nat, run Calls.step (initial 1 Nat.one_pos)
      [.getOrCreate key 0, .getOrCreate key 5, .factoryEnds 1 2 100, .factoryEnds 0 1 50,
        .getOrCreate key 40] = some s ∧ ∃ hit ∈ s.hit, hit.1.context = 1 :=
    ⟨_, rfl, _, rfl, rfl⟩
  obtain ⟨s, hrun, hit, hhit, hcontext⟩ := hrun
  obtain ⟨-, hsize, hserved⟩ := bounded_of_run hrun
  exact ⟨s, hrun, hsize, hit, hhit, hcontext, hserved hit hhit⟩

end Calls

end SecureContextCache

end TestServer.TlsCertificates
