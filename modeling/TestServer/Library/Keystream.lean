import Mathlib.Data.List.Basic

/-!
# Streams of numbered blocks

Blocks of one width, each made from a counter, follow one another. A stream that starts at the
border of a block goes on with the blocks from there.
-/

namespace TestServer.Library

variable {α : Type*} [Inhabited α]

/-- The first elements of the blocks from a counter on. -/
def keystream (block : Nat → List α) (width counter n : Nat) : List α :=
  (List.range n).map fun i => (block (counter + i / width)).getD (i % width) default

variable {block : Nat → List α} {width : Nat}

@[simp] theorem length_keystream (counter n : Nat) :
    (keystream block width counter n).length = n := by
  rw [keystream, List.length_map, List.length_range]

@[simp] theorem keystream_zero (counter : Nat) : keystream block width counter 0 = [] := rfl

theorem getElem?_keystream {counter n i : Nat} (h : i < n) :
    (keystream block width counter n)[i]? =
      some ((block (counter + i / width)).getD (i % width) default) := by
  rw [keystream, List.getElem?_map, List.getElem?_range h, Option.map_some]

/-- Up to the width of a block, the elements are those of one block. -/
theorem keystream_of_le {counter n : Nat} (hlength : (block counter).length = width)
    (h : n ≤ width) : keystream block width counter n = (block counter).take n := by
  apply List.ext_getElem?
  intro i
  by_cases hi : i < n
  · have hwidth : i < width := by omega
    rw [getElem?_keystream hi, List.getElem?_take_of_lt hi, Nat.div_eq_of_lt hwidth,
      Nat.mod_eq_of_lt hwidth, Nat.add_zero, List.getD_eq_getElem?_getD,
      List.getElem?_eq_getElem (by omega), Option.getD_some]
  · rw [List.getElem?_eq_none (by simp; omega), List.getElem?_eq_none (by simp; omega)]

/-- After some blocks, the stream goes on from the next counter. -/
theorem keystream_add (block : Nat → List α) (hwidth : 0 < width) (counter m n : Nat) :
    keystream block width counter (m * width + n) =
      keystream block width counter (m * width) ++ keystream block width (counter + m) n := by
  rw [keystream, List.range_add, List.map_append, List.map_map]
  congr 1
  apply List.map_congr_left
  intro i _
  have hdiv : (m * width + i) / width = m + i / width := by
    rw [Nat.add_comm, Nat.add_mul_div_right _ _ hwidth, Nat.add_comm]
  have hmod : (m * width + i) % width = i % width := Nat.mul_add_mod_self_right ..
  rw [Function.comp_apply, hdiv, hmod, Nat.add_assoc]

/-- The stream starts with a whole block. -/
theorem keystream_step {counter n : Nat} (hwidth : 0 < width)
    (hlength : (block counter).length = width) (h : width ≤ n) :
    keystream block width counter n =
      block counter ++ keystream block width (counter + 1) (n - width) := by
  have hblock : keystream block width counter width = block counter := by
    rw [keystream_of_le hlength (Nat.le_refl width), List.take_of_length_le (by omega)]
  have hsplit := keystream_add block hwidth counter 1 (n - width)
  rwa [Nat.one_mul, hblock, Nat.add_sub_cancel' h] at hsplit

end TestServer.Library
