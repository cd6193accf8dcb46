import TestServer.Library.InsertionMap
import Mathlib.Data.Set.Function

/-!
# Maps kept under encoded keys

A partial map whose values are kept as texts under encodings of their keys. As long as no two of
the keys in use share an encoding, each operation on the texts is the operation on the map.
-/

namespace TestServer.Library.EncodedMap

variable {κ κ' ν τ : Type*} [DecidableEq κ] [DecidableEq κ'] {used : Set κ} {encode : κ → κ'}
  {text : ν → τ} {kept : InsertionMap κ' τ} {values : κ → Option ν}

/-- The texts of the keys in use are those of the map. -/
def Keeps (used : Set κ) (encode : κ → κ') (text : ν → τ) (kept : InsertionMap κ' τ)
    (values : κ → Option ν) : Prop :=
  ∀ k ∈ used, kept.get (encode k) = (values k).map text

theorem Keeps.set (h : Keeps used encode text kept values) (hinj : Set.InjOn encode used) {k : κ}
    (hk : k ∈ used) (v : ν) :
    Keeps used encode text (kept.set (encode k) (text v)) (Function.update values k (some v)) := by
  intro j hj
  by_cases hjk : j = k
  · subst hjk
    rw [InsertionMap.get_set_self, Function.update_self, Option.map_some]
  · rw [InsertionMap.get_set_of_ne _ _ (mt (hinj hj hk) hjk), Function.update_of_ne hjk]
    exact h j hj

theorem Keeps.delete (h : Keeps used encode text kept values) (hinj : Set.InjOn encode used) {k : κ}
    (hk : k ∈ used) :
    Keeps used encode text (kept.delete (encode k)) (Function.update values k none) := by
  intro j hj
  by_cases hjk : j = k
  · subst hjk
    rw [InsertionMap.get_delete_self, Function.update_self, Option.map_none]
  · rw [InsertionMap.get_delete_of_ne _ (mt (hinj hj hk) hjk), Function.update_of_ne hjk]
    exact h j hj

omit [DecidableEq κ] in
/-- Texts under other keys are no part of the map. -/
theorem Keeps.of_get_eq (h : Keeps used encode text kept values) {kept' : InsertionMap κ' τ}
    (hget : ∀ k ∈ used, kept'.get (encode k) = kept.get (encode k)) :
    Keeps used encode text kept' values := by
  intro k hk
  rw [hget k hk]
  exact h k hk

end TestServer.Library.EncodedMap
