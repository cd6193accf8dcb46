import Mathlib.Data.List.Sort

/-!
# Picking from a sorted list

Insertion sort keeps the order of what is picked from a list, whether it is picked before the list
is sorted or after. The relation need not tell equal elements apart.
-/

namespace TestServer.Library

variable {α : Type*} {r : α → α → Prop} [DecidableRel r]

/-- An element that is before all others is inserted in front. -/
theorem orderedInsert_of_forall_rel {a : α} {l : List α} (h : ∀ b ∈ l, r a b) :
    l.orderedInsert r a = a :: l := by
  cases l with
  | nil => rfl
  | cons b l => exact List.orderedInsert_cons_of_le r l (h b List.mem_cons_self)

/-- What is left of a sorted list does not depend on when it is picked. -/
theorem filter_orderedInsert [IsTrans α r] (p : α → Bool) (a : α) {l : List α}
    (hl : l.Pairwise r) :
    (l.orderedInsert r a).filter p =
      if p a then (l.filter p).orderedInsert r a else l.filter p := by
  induction l with
  | nil =>
      rw [List.orderedInsert_nil, List.filter_cons]
      rfl
  | cons b l ih =>
      obtain ⟨hb, hl⟩ := List.pairwise_cons.mp hl
      by_cases hab : r a b
      · rw [List.orderedInsert_cons_of_le r l hab, List.filter_cons]
        split_ifs with hp
        · have hall : ∀ c ∈ (b :: l).filter p, r a c := by
            intro c hc
            rcases List.mem_cons.mp (List.mem_filter.mp hc).1 with rfl | hc
            · exact hab
            · exact trans_of r hab (hb c hc)
          rw [orderedInsert_of_forall_rel hall]
        · rfl
      · rw [List.orderedInsert_of_not_le r l hab, List.filter_cons, List.filter_cons, ih hl]
        split_ifs
        · rw [List.orderedInsert_of_not_le r _ hab]
        · rfl
        · rfl
        · rfl

theorem filter_insertionSort [Std.Total r] [IsTrans α r] (p : α → Bool) (l : List α) :
    (l.insertionSort r).filter p = (l.filter p).insertionSort r := by
  induction l with
  | nil => rfl
  | cons a l ih =>
      rw [List.insertionSort_cons, filter_orderedInsert p a (List.pairwise_insertionSort r l), ih,
        List.filter_cons]
      split_ifs
      · rfl
      · rfl

end TestServer.Library
