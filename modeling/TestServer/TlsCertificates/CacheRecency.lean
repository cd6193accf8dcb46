import TestServer.Library.Recency
import TestServer.TlsCertificates.SecureContextCalls

/-!
# What the secure-context cache evicts

The keys of `SecureContextCache` are in the order of their last uses as long as no creation
completes for a key that is there already. Then the loop that makes room removes the key that
was not used for the longest time.

## Implementation notes

An observer counts the uses of each key: the hits, and the completions of creations. It keeps
when each removed key was last used, with the last uses of the keys that were there.
-/

namespace TestServer.TlsCertificates

open Js Library Library.Runs

namespace SecureContextCache

/-- The keys that the loop removes, each with those that are there at its turn. -/
def removals {κ : Type*} (maxSize : Nat) : List κ → List (κ × List κ)
  | [] => []
  | k :: ks => if (k :: ks).length ≥ maxSize then (k, k :: ks) :: removals maxSize ks else []

/-- They are the keys in front of those that `evict` leaves. -/
theorem removals_append {γ : Type*} (maxSize : Nat) (es : List (ContextKey × CacheEntry γ)) :
    (removals maxSize (es.map Prod.fst)).map Prod.fst ++ (evict maxSize es).map Prod.fst =
      es.map Prod.fst := by
  induction es with
  | nil => rfl
  | cons e es ih =>
      rw [List.map_cons, removals, evict, List.length_cons, List.length_cons, List.length_map]
      split_ifs with hfull
      · rw [List.map_cons, List.cons_append, ih]
      · rfl

theorem removals_eq_nil {κ : Type*} {maxSize : Nat} {ks : List κ} (h : ks.length < maxSize) :
    removals maxSize ks = [] := by
  cases ks with
  | nil => rfl
  | cons k ks => exact if_neg (not_le.mpr h)

theorem evict_of_length_lt {γ : Type*} {maxSize : Nat} {es : List (ContextKey × CacheEntry γ)}
    (h : es.length < maxSize) : evict maxSize es = es := by
  cases es with
  | nil => rfl
  | cons e es => exact if_neg (not_le.mpr h)

theorem keys_makeRoom_sublist {γ : Type*} (c : SecureContextCache γ) :
    List.Sublist c.makeRoom.keys c.cache.keys :=
  (evict_suffix c.maxSize c.cache.entries).sublist.map Prod.fst

/-- In a list by recency, a removed key was used before all that are there. -/
theorem le_of_mem_removals {κ : Type*} {r : Recency κ} {maxSize : Nat}
    {ks : List κ} (h : r.Sorted ks) :
    ∀ removal ∈ removals maxSize ks, ∀ k ∈ removal.2, r.lastUse removal.1 ≤ r.lastUse k := by
  induction ks with
  | nil =>
      intro removal hremoval
      cases hremoval
  | cons k ks ih =>
      intro removal hremoval
      rw [removals] at hremoval
      split_ifs at hremoval
      · cases hremoval with
        | head => exact h.head_le
        | tail _ hremoval => exact ih (h.sublist (List.sublist_cons_self k ks)) removal hremoval
      · cases hremoval

namespace Calls

variable {γ : Type*}

/-- What an observer of the calls knows. -/
structure Observer where
  recency : Recency ContextKey
  /-- When each key that the last step has removed to make room was last used, and when those
  were that were there. -/
  evictions : List (Nat × List Nat)
  /-- Whether the last step has completed a creation for a key that was there. -/
  present : Bool

namespace Observer

def initial : Observer := ⟨.initial, [], false⟩

def observe (s : Calls γ) (o : Observer) : Event γ → Observer
  | .getOrCreate key now =>
      if (s.cache.lookup key now).1.isSome then ⟨o.recency.use key, [], false⟩
      else { o with evictions := [], present := false }
  | .factoryEnds n _ _ =>
      match s.pending[n]? with
      | none => o
      | some call =>
          { recency := o.recency.use call.key
            evictions := (removals s.cache.maxSize s.cache.cache.keys).map fun removal =>
              (o.recency.lastUse removal.1, removal.2.map o.recency.lastUse)
            present := decide (call.key ∈ s.cache.cache.keys) }
  | .factoryFails _ => { o with evictions := [], present := false }

end Observer

/-- A step of the calls under observation. -/
def observedStep (so : Calls γ × Observer) (e : Event γ) : Option (Calls γ × Observer) :=
  (so.1.step e).map fun s => (s, so.2.observe so.1 e)

/-- What the last step has removed was not used for the longest time, and it has removed nothing
for a key that was there. -/
def EvictsOldest (so : Calls γ × Observer) : Prop :=
  (∀ eviction ∈ so.2.evictions, ∀ time ∈ eviction.2, eviction.1 ≤ time) ∧
    (so.2.present = true → so.2.evictions = [])

/-- The condition on a step. A creation completes for a key that is not there, or for the key
that was used last while there is room. -/
def CompletesFresh (so : Calls γ × Observer) : Event γ → Prop
  | .factoryEnds n _ _ => ∀ call, so.1.pending[n]? = some call →
      call.key ∉ so.1.cache.cache.keys ∨
        so.1.cache.cache.size < so.1.cache.maxSize ∧
          so.1.cache.cache.keys.getLast? = some call.key
  | _ => True

instance (so : Calls γ × Observer) : ∀ e, Decidable (CompletesFresh so e)
  | .factoryEnds n _ _ =>
      decidable_of_iff (∀ call ∈ so.1.pending[n]?, call.key ∉ so.1.cache.cache.keys ∨
          so.1.cache.cache.size < so.1.cache.maxSize ∧
            so.1.cache.cache.keys.getLast? = some call.key)
        Iff.rfl
  | .getOrCreate _ _ => isTrue trivial
  | .factoryFails _ => isTrue trivial

/-- The keys are in the order of their last uses. -/
structure ByRecency (so : Calls γ × Observer) : Prop where
  sorted : so.2.recency.Sorted so.1.cache.cache.keys
  evictsOldest : EvictsOldest so

theorem byRecency_initial {maxSize : Nat} (hpos : 0 < maxSize) :
    ByRecency ((initial maxSize hpos : Calls γ), Observer.initial) where
  sorted := ⟨List.Pairwise.nil, List.forall_mem_nil _⟩
  evictsOldest := ⟨List.forall_mem_nil _, fun _ => rfl⟩

variable {s t : Calls γ} {o : Observer}

/-- Nothing is removed by a step that only looks up. -/
theorem evictsOldest_nil (s : Calls γ) (recency : Recency ContextKey) :
    EvictsOldest (s, ⟨recency, [], false⟩) :=
  ⟨List.forall_mem_nil _, fun _ => rfl⟩

/-- A hit moves its key to the end, and a lookup that misses may remove its key. -/
theorem ByRecency.getOrCreate (h : ByRecency (s, o)) {key : ContextKey} {now : Time}
    (hstep : s.step (.getOrCreate key now) = some t) :
    ByRecency (t, o.observe s (.getOrCreate key now)) := by
  have hdeleted : o.recency.Sorted (s.cache.cache.delete key).keys := by
    apply h.sorted.sublist
    rw [InsertionMap.keys_delete]
    exact List.filter_sublist
  simp only [step] at hstep
  simp only [Observer.observe]
  rw [lookup] at hstep ⊢
  cases hget : s.cache.cache.get key with
  | none =>
      simp only [hget] at hstep ⊢
      cases hstep
      exact ⟨h.sorted, evictsOldest_nil _ _⟩
  | some cached =>
      by_cases hvalid : cached.expiry > now
      · simp only [hget, if_pos hvalid] at hstep ⊢
        cases hstep
        refine ⟨?_, evictsOldest_nil _ _⟩
        change (o.recency.use key).Sorted ((s.cache.cache.delete key).set key cached).keys
        rw [InsertionMap.keys_set_of_notMem (InsertionMap.notMem_keys_delete _ _)]
        exact hdeleted.use (InsertionMap.notMem_keys_delete _ _)
      · simp only [hget, if_neg hvalid] at hstep ⊢
        cases hstep
        exact ⟨hdeleted, evictsOldest_nil _ _⟩

theorem ByRecency.factoryEnds (h : ByRecency (s, o)) {n : Nat} {context : γ} {expiry : Time}
    (hok : CompletesFresh (s, o) (.factoryEnds n context expiry))
    (hstep : s.step (.factoryEnds n context expiry) = some t) :
    ByRecency (t, o.observe s (.factoryEnds n context expiry)) := by
  obtain ⟨call, hcall, rfl⟩ := Option.map_eq_some_iff.mp hstep
  simp only [Observer.observe, hcall]
  rcases hok call hcall with habsent | ⟨hroom, hlast⟩
  · have hmade : call.key ∉ s.cache.makeRoom.keys :=
      fun hmem => habsent ((keys_makeRoom_sublist s.cache).subset hmem)
    constructor
    · rw [store, InsertionMap.keys_set_of_notMem hmade]
      exact (h.sorted.sublist (keys_makeRoom_sublist s.cache)).use hmade
    · refine ⟨?_, fun hpresent => absurd (of_decide_eq_true hpresent) habsent⟩
      intro eviction heviction time htime
      obtain ⟨removal, hremoval, rfl⟩ := List.mem_map.mp heviction
      obtain ⟨k, hk, rfl⟩ := List.mem_map.mp htime
      exact le_of_mem_removals h.sorted removal hremoval k hk
  · -- The entry is replaced where it is.
    have hlength : s.cache.cache.keys.length < s.cache.maxSize := by
      rw [InsertionMap.keys, List.length_map]
      exact hroom
    have hmade : s.cache.makeRoom = s.cache.cache := by
      simp only [makeRoom, evict_of_length_lt hroom]
    obtain ⟨front, hfront⟩ := List.getLast?_eq_some_iff.mp hlast
    have hmem : call.key ∈ s.cache.cache.keys := List.mem_of_getLast? hlast
    constructor
    · rw [store, hmade, InsertionMap.keys_set_of_mem hmem, hfront]
      apply Recency.Sorted.use_last
      rw [← hfront]
      exact h.sorted
    · rw [removals_eq_nil hlength]
      exact ⟨List.forall_mem_nil _, fun _ => rfl⟩

theorem ByRecency.step {so so' : Calls γ × Observer} (h : ByRecency so) {e : Event γ}
    (hok : CompletesFresh so e) (hstep : observedStep so e = some so') : ByRecency so' := by
  obtain ⟨s, o⟩ := so
  obtain ⟨t, ht, rfl⟩ := Option.map_eq_some_iff.mp hstep
  cases e with
  | getOrCreate key now => exact h.getOrCreate ht
  | factoryEnds n context expiry => exact h.factoryEnds hok ht
  | factoryFails n =>
      obtain ⟨call, -, rfl⟩ := Option.map_eq_some_iff.mp ht
      exact ⟨h.sorted, evictsOldest_nil _ _⟩

/-- In a run whose creations complete for keys that are not there, the loop removes the key that
was not used for the longest time, and nothing for a key that is there. -/
theorem evictsOldest_of_run {maxSize : Nat} {hpos : 0 < maxSize} {es : List (Event γ)}
    {so : Calls γ × Observer}
    (hrun : run observedStep ((initial maxSize hpos : Calls γ), Observer.initial) es = some so)
    (hok : Guarded observedStep CompletesFresh ((initial maxSize hpos : Calls γ), .initial) es) :
    EvictsOldest so := by
  have hinv : ByRecency so :=
    guarded_invariant (fun so e so' h hok hstep => h.step hok hstep) (byRecency_initial hpos)
      hok hrun
  exact hinv.evictsOldest

/-- Two keys fill the cache, the first one is hit, and a third one takes the place of the second
one. -/
def hitRun : List (Event Nat) :=
  let a : ContextKey := ⟨js "a", by decide⟩
  [.getOrCreate a 0, .factoryEnds 0 1 100, .getOrCreate ⟨js "b", by decide⟩ 1,
    .factoryEnds 0 2 100, .getOrCreate a 2, .getOrCreate ⟨js "c", by decide⟩ 3,
    .factoryEnds 0 3 100]

theorem evictsOldest_of_run_hit :
    ∃ so : Calls Nat × Observer,
      run observedStep (initial 2 Nat.two_pos, Observer.initial) hitRun = some so ∧
        so.2.evictions = [(2, [2, 3])] ∧ EvictsOldest so := by
  have hok : Guarded observedStep CompletesFresh
      ((initial 2 Nat.two_pos : Calls Nat), Observer.initial) hitRun := by decide
  have hrun : ∃ so : Calls Nat × Observer,
      run observedStep (initial 2 Nat.two_pos, Observer.initial) hitRun = some so ∧
        so.2.evictions = [(2, [2, 3])] := ⟨_, rfl, rfl⟩
  obtain ⟨so, hrun, hevictions⟩ := hrun
  exact ⟨so, hrun, hevictions, evictsOldest_of_run hrun hok⟩

/-- One key is created, and another one twice. -/
def twiceRun : List (Event Nat) :=
  let a : ContextKey := ⟨js "a", by decide⟩
  [.getOrCreate ⟨js "b", by decide⟩ 0, .factoryEnds 0 1 100, .getOrCreate a 1, .getOrCreate a 1,
    .factoryEnds 0 2 100, .factoryEnds 0 3 100]

/-- The second creation of a key that is there removes the entry of another one. -/
theorem not_evictsOldest_twice :
    ∃ so : Calls Nat × Observer,
      run observedStep (initial 2 Nat.two_pos, Observer.initial) twiceRun = some so ∧
        so.1.cache.cache.keys = [⟨js "a", by decide⟩] ∧ ¬ EvictsOldest so := by
  have hrun : ∃ so : Calls Nat × Observer,
      run observedStep (initial 2 Nat.two_pos, Observer.initial) twiceRun = some so ∧
        so.1.cache.cache.keys = [⟨js "a", by decide⟩] ∧ so.2.present = true ∧
          so.2.evictions ≠ [] := ⟨_, rfl, rfl, rfl, by decide⟩
  obtain ⟨so, hrun, hkeys, hpresent, hevictions⟩ := hrun
  exact ⟨so, hrun, hkeys, fun h => hevictions (h.2 hpresent)⟩

end Calls

end SecureContextCache

end TestServer.TlsCertificates
