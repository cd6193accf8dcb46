import Mathlib.Data.List.Infix
import Mathlib.Order.MinMax

/-!
# Sequences that agree

Two sequences agree when one is a prefix of the other: comparing them up to the
shorter length finds no difference.
-/

namespace TestServer.Library

variable {α : Type*}

/-- One of two sequences is a prefix of the other. -/
def Agrees (a b : List α) : Prop := a <+: b ∨ b <+: a

theorem agrees_nil (b : List α) : Agrees [] b := .inl List.nil_prefix

theorem agrees_nil_right (a : List α) : Agrees a [] := .inr List.nil_prefix

theorem agrees_cons {x y : α} {a b : List α} :
    Agrees (x :: a) (y :: b) ↔ x = y ∧ Agrees a b := by
  simp only [Agrees, List.cons_prefix_cons, eq_comm, and_or_left]

/-- The comparison up to the shorter length. -/
theorem take_min_eq_iff {a b : List α} :
    a.take (min a.length b.length) = b.take (min a.length b.length) ↔ Agrees a b := by
  induction a generalizing b with
  | nil => simp [agrees_nil]
  | cons x a ih =>
      cases b with
      | nil => simp [agrees_nil_right]
      | cons y b =>
          rw [agrees_cons, ← ih]
          simp [Nat.succ_min_succ]

/-- A prefix of what agrees with a sequence agrees with it. -/
theorem Agrees.of_isPrefix {a b c : List α} (h : Agrees b c) (hstart : a <+: b) : Agrees a c := by
  rcases h with hbc | hcb
  · exact .inl (hstart.trans hbc)
  · exact List.prefix_or_prefix_of_prefix hstart hcb

/-- What lies beyond the shorter length does not matter. -/
theorem agrees_take_iff {a b : List α} {n : Nat} (h : b.length ≤ n) :
    Agrees (a.take n) b ↔ Agrees a b := by
  constructor
  · rintro (hab | hba)
    · by_cases hlength : a.length ≤ n
      · rw [List.take_of_length_le hlength] at hab
        exact .inl hab
      · have heq : a.take n = b := by
          apply hab.eq_of_length_le
          rw [List.length_take]
          omega
        exact .inr (heq ▸ List.take_prefix n a)
    · exact .inr (hba.trans (List.take_prefix n a))
  · intro hagrees
    exact hagrees.of_isPrefix (List.take_prefix n a)

theorem Agrees.prefix_of_length_le {a b : List α} (h : Agrees a b)
    (hlength : b.length ≤ a.length) : b <+: a := by
  rcases h with hab | hba
  · exact (hab.eq_of_length_le hlength) ▸ List.prefix_rfl
  · exact hba

end TestServer.Library
