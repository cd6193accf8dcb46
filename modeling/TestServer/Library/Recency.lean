import Mathlib.Data.List.Pairwise
import Mathlib.Logic.Function.Basic

/-!
# Recency of use

When each key was last used, and lists of keys in that order. A key that is used goes
to the end of such a list, so the first key is always the one that was not used for
the longest time.
-/

namespace TestServer.Library

/-- The number of the last use of each key, where uses are counted from one. -/
structure Recency (κ : Type*) where
  clock : Nat
  lastUse : κ → Nat

namespace Recency

variable {κ : Type*}

def initial : Recency κ := ⟨0, fun _ => 0⟩

def use [DecidableEq κ] (r : Recency κ) (k : κ) : Recency κ :=
  ⟨r.clock + 1, Function.update r.lastUse k (r.clock + 1)⟩

/-- The keys are listed in the order of their last uses. -/
structure Sorted (r : Recency κ) (ks : List κ) : Prop where
  pairwise : ks.Pairwise fun j k => r.lastUse j < r.lastUse k
  le_clock : ∀ k ∈ ks, r.lastUse k ≤ r.clock

variable {r : Recency κ} {ks js : List κ} {k : κ}

theorem Sorted.sublist (h : r.Sorted ks) (hsub : List.Sublist js ks) : r.Sorted js :=
  ⟨h.pairwise.sublist hsub, fun k hk => h.le_clock k (hsub.subset hk)⟩

/-- No key was used before the first one. -/
theorem Sorted.head_le (h : r.Sorted (k :: ks)) : ∀ j ∈ k :: ks, r.lastUse k ≤ r.lastUse j := by
  intro j hj
  cases hj with
  | head => exact Nat.le_refl _
  | tail _ hj => exact Nat.le_of_lt ((List.pairwise_cons.mp h.pairwise).1 j hj)

variable [DecidableEq κ]

/-- A key that is used goes to the end. -/
theorem Sorted.use (h : r.Sorted ks) (hk : k ∉ ks) : (r.use k).Sorted (ks ++ [k]) := by
  have hlast : ∀ j ∈ ks, (r.use k).lastUse j = r.lastUse j := by
    intro j hj
    apply Function.update_of_ne
    rintro rfl
    exact hk hj
  have hnew : (r.use k).lastUse k = r.clock + 1 := Function.update_self ..
  constructor
  · rw [List.pairwise_append]
    refine ⟨?_, List.pairwise_singleton _ _, ?_⟩
    · apply h.pairwise.imp_of_mem
      intro i j hi hj hij
      rw [hlast i hi, hlast j hj]
      exact hij
    · intro j hj i hi
      rw [List.mem_singleton.mp hi, hlast j hj, hnew]
      exact Nat.lt_succ_of_le (h.le_clock j hj)
  · intro j hj
    rcases List.mem_append.mp hj with hj | hj
    · rw [hlast j hj]
      exact Nat.le_succ_of_le (h.le_clock j hj)
    · rw [List.mem_singleton.mp hj, hnew]
      exact Nat.le_refl _

/-- The last key stays at the end when it is used. -/
theorem Sorted.use_last (h : r.Sorted (ks ++ [k])) : (r.use k).Sorted (ks ++ [k]) := by
  apply (h.sublist (List.sublist_append_left ks [k])).use
  intro hk
  have hself := (List.pairwise_append.mp h.pairwise).2.2 k hk k (List.mem_singleton.mpr rfl)
  exact absurd hself (Nat.lt_irrefl _)

end Recency

end TestServer.Library
