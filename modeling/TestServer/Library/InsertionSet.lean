import Mathlib.Data.List.Nodup

/-!
# Sets in insertion order

Finite sets whose elements are iterated in the order of their first insertion,
as a JavaScript `Set` does.
-/

namespace TestServer.Library

/-- A finite set, listed from the oldest element to the newest. -/
structure InsertionSet (α : Type*) where
  elements : List α
  nodup : elements.Nodup
deriving DecidableEq

namespace InsertionSet

variable {α : Type*}

def empty : InsertionSet α := ⟨[], List.nodup_nil⟩

instance : Membership α (InsertionSet α) := ⟨fun s a => a ∈ s.elements⟩

theorem mem_def {s : InsertionSet α} {a : α} : a ∈ s ↔ a ∈ s.elements := Iff.rfl

@[simp] theorem not_mem_empty (a : α) : a ∉ (empty : InsertionSet α) := List.not_mem_nil

def size (s : InsertionSet α) : Nat := s.elements.length

theorem size_eq_zero_iff {s : InsertionSet α} : s.size = 0 ↔ ∀ a, a ∉ s := by
  rw [size, List.length_eq_zero_iff, List.eq_nil_iff_forall_not_mem]
  exact Iff.rfl

variable [DecidableEq α]

instance (s : InsertionSet α) (a : α) : Decidable (a ∈ s) :=
  inferInstanceAs (Decidable (a ∈ s.elements))

/-- Add an element; one that is there already keeps its place. -/
def add (s : InsertionSet α) (a : α) : InsertionSet α :=
  if h : a ∈ s.elements then s
  else ⟨s.elements ++ [a], List.nodup_append.mpr ⟨s.nodup, List.nodup_singleton a, by
    rintro b hb c hc rfl
    exact h (List.mem_singleton.mp hc ▸ hb)⟩⟩

def delete (s : InsertionSet α) (a : α) : InsertionSet α :=
  ⟨s.elements.filter fun b => decide (b ≠ a), s.nodup.filter _⟩

/-- The elements of a list, each at its first place. -/
def ofList (l : List α) : InsertionSet α := l.foldl add empty

@[simp] theorem mem_add {s : InsertionSet α} {a b : α} : b ∈ s.add a ↔ b ∈ s ∨ b = a := by
  simp only [mem_def, add]
  split_ifs with h
  · exact ⟨Or.inl, fun hb => hb.elim id fun heq => heq ▸ h⟩
  · rw [List.mem_append, List.mem_singleton]

@[simp] theorem mem_delete {s : InsertionSet α} {a b : α} :
    b ∈ s.delete a ↔ b ∈ s ∧ b ≠ a := by
  simp [mem_def, delete]

theorem mem_foldl_add {l : List α} {s : InsertionSet α} {b : α} :
    b ∈ l.foldl add s ↔ b ∈ s ∨ b ∈ l := by
  induction l generalizing s with
  | nil => simp
  | cons a l ih =>
      rw [List.foldl_cons, ih, mem_add, List.mem_cons, or_assoc]

@[simp] theorem mem_ofList {l : List α} {b : α} : b ∈ ofList l ↔ b ∈ l := by
  simp [ofList, mem_foldl_add]

end InsertionSet

end TestServer.Library
