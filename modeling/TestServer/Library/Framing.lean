import Mathlib.Data.List.Basic
import Mathlib.Order.Lattice

/-!
# Cutting a sequence into frames

A frame format tells the size of the first frame as soon as its header is
complete. Cutting greedily and carrying the incomplete tail over to the next
piece of input gives the same frames as cutting the whole input at once.
-/

namespace TestServer.Library.Framing

/-- The size of the first frame is read off a prefix and does not change when
more input follows. No frame is empty. -/
structure FrameFormat (α : Type*) where
  size : List α → Option Nat
  size_pos : ∀ {d n}, size d = some n → 0 < n
  size_append : ∀ {d n} (e : List α), size d = some n → size (d ++ e) = some n

namespace FrameFormat

variable {α : Type*} (F : FrameFormat α)

/-- Cut at most `fuel` complete frames off the front of the input. -/
def cut : Nat → List α → List (List α) × List α
  | 0, d => ([], d)
  | fuel + 1, d =>
      match F.size d with
      | none => ([], d)
      | some n =>
          if n ≤ d.length then
            (d.take n :: (cut fuel (d.drop n)).1, (cut fuel (d.drop n)).2)
          else ([], d)

/-- All complete frames at the front of the input, and the tail left over. -/
def frames (d : List α) : List (List α) × List α :=
  F.cut d.length d

/-- Any fuel that covers the input cuts the same frames. -/
theorem cut_congr {k l : Nat} {d : List α} (hk : d.length ≤ k) (hl : d.length ≤ l) :
    F.cut k d = F.cut l d := by
  induction k generalizing l d with
  | zero =>
      have hd : d = [] := List.eq_nil_of_length_eq_zero (by omega)
      subst hd
      cases l with
      | zero => rfl
      | succ l =>
          cases hs : F.size ([] : List α) with
          | none => simp [cut, hs]
          | some n => simp [cut, hs, (F.size_pos hs).ne']
  | succ k ih =>
      cases l with
      | zero =>
          have hd : d = [] := List.eq_nil_of_length_eq_zero (by omega)
          subst hd
          cases hs : F.size ([] : List α) with
          | none => simp [cut, hs]
          | some n => simp [cut, hs, (F.size_pos hs).ne']
      | succ l =>
          cases hs : F.size d with
          | none => simp [cut, hs]
          | some n =>
              have hn := F.size_pos hs
              have hd : F.cut k (d.drop n) = F.cut l (d.drop n) :=
                ih (by simp; omega) (by simp; omega)
              simp only [cut, hs, hd]

theorem cut_eq_frames {k : Nat} {d : List α} (hk : d.length ≤ k) : F.cut k d = F.frames d :=
  F.cut_congr hk le_rfl

@[simp] theorem frames_nil : F.frames [] = ([], []) := rfl

/-- No header yet: nothing is cut. -/
theorem frames_of_size_none {d : List α} (h : F.size d = none) : F.frames d = ([], d) := by
  rw [← F.cut_eq_frames (Nat.le_succ d.length)]
  simp [cut, h]

/-- The first frame is longer than the input: nothing is cut. -/
theorem frames_of_length_lt {d : List α} {n : Nat} (h : F.size d = some n)
    (hn : d.length < n) : F.frames d = ([], d) := by
  rw [← F.cut_eq_frames (Nat.le_succ d.length)]
  simp [cut, h, hn]

/-- The first frame is complete: it is cut, and the rest is cut on its own. -/
theorem frames_of_le_length {d : List α} {n : Nat} (h : F.size d = some n)
    (hn : n ≤ d.length) :
    F.frames d = (d.take n :: (F.frames (d.drop n)).1, (F.frames (d.drop n)).2) := by
  have hpos := F.size_pos h
  have hrest : F.cut d.length (d.drop n) = F.frames (d.drop n) :=
    F.cut_eq_frames (by simp)
  rw [← F.cut_eq_frames (Nat.le_succ d.length)]
  simp only [cut, h, if_pos hn, hrest]

/-- The input by the size of its first frame: an incomplete first frame, or one
complete frame in front of a shorter input. -/
theorem frames_cases (d : List α) :
    F.frames d = ([], d) ∨
      ∃ n, F.size d = some n ∧ 0 < n ∧ n ≤ d.length ∧
        F.frames d = (d.take n :: (F.frames (d.drop n)).1, (F.frames (d.drop n)).2) := by
  cases h : F.size d with
  | none => exact Or.inl (F.frames_of_size_none h)
  | some n =>
      rcases Nat.lt_or_ge d.length n with hlt | hge
      · exact Or.inl (F.frames_of_length_lt h hlt)
      · exact Or.inr ⟨n, rfl, F.size_pos h, hge, F.frames_of_le_length h hge⟩

/-- The frames and the tail give back the input. -/
theorem frames_flatten (d : List α) : (F.frames d).1.flatten ++ (F.frames d).2 = d := by
  induction hlen : d.length using Nat.strong_induction_on generalizing d with
  | _ len ih =>
      rcases F.frames_cases d with h | ⟨n, _, hpos, hle, h⟩
      · simp [h]
      · have hrest := ih (d.drop n).length (by simp; omega) (d.drop n) rfl
        rw [h]
        simp only [List.flatten_cons, List.append_assoc, hrest, List.take_append_drop]

/-- Cutting `d` and then its tail together with the further input `e` gives the
frames of the whole input. -/
theorem frames_append (d e : List α) :
    F.frames (d ++ e) =
      ((F.frames d).1 ++ (F.frames ((F.frames d).2 ++ e)).1,
        (F.frames ((F.frames d).2 ++ e)).2) := by
  induction hlen : d.length using Nat.strong_induction_on generalizing d with
  | _ len ih =>
      rcases F.frames_cases d with h | ⟨n, hsize, hpos, hle, h⟩
      · simp [h]
      · have hrest := ih (d.drop n).length (by simp; omega) (d.drop n) rfl
        have hle' : n ≤ (d ++ e).length := by simp; omega
        rw [F.frames_of_le_length (F.size_append e hsize) hle', h,
          List.take_append_of_le_length hle, List.drop_append_of_le_length hle, hrest]
        simp

/-- Whether a first frame is complete depends on the input's first frame only. -/
theorem frames_fst_eq_nil_iff (d : List α) :
    (F.frames d).1 = [] ↔ F.frames d = ([], d) := by
  constructor
  · intro h
    rcases F.frames_cases d with h' | ⟨n, _, _, _, h'⟩
    · exact h'
    · simp [h'] at h
  · intro h
    rw [h]

end FrameFormat

end TestServer.Library.Framing
