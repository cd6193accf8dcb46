import Mathlib.Data.List.Basic
import Mathlib.Data.List.Nodup
import Mathlib.Order.Lattice

/-!
# Maps that keep insertion order

A finite map whose keys are listed in the order in which they were first set.
Setting a present key keeps its place; deleting and setting it again moves it
to the end. No key is listed twice.
-/

namespace TestServer.Library

/-- A finite map with its entries in insertion order. -/
structure InsertionMap (κ ν : Type*) where
  entries : List (κ × ν)
  nodup : (entries.map Prod.fst).Nodup
deriving DecidableEq

namespace InsertionMap

variable {κ ν : Type*}

def empty : InsertionMap κ ν := ⟨[], by simp⟩

def keys (m : InsertionMap κ ν) : List κ := m.entries.map Prod.fst

def values (m : InsertionMap κ ν) : List ν := m.entries.map Prod.snd

def size (m : InsertionMap κ ν) : Nat := m.entries.length

variable [DecidableEq κ]

def get (m : InsertionMap κ ν) (k : κ) : Option ν :=
  (m.entries.find? fun e => decide (e.1 = k)).map Prod.snd

/-- Replace the value of a present key, or add the key at the end. -/
def set (m : InsertionMap κ ν) (k : κ) (v : ν) : InsertionMap κ ν :=
  if h : k ∈ m.keys then
    ⟨m.entries.map fun e => if e.1 = k then (k, v) else e, by
      have hkeys : (m.entries.map fun e => if e.1 = k then (k, v) else e).map Prod.fst =
          m.keys := by
        simp only [keys, List.map_map]
        apply List.map_congr_left
        intro e _
        by_cases he : e.1 = k <;> simp [he]
      rw [hkeys]
      exact m.nodup⟩
  else
    ⟨m.entries ++ [(k, v)], by
      rw [List.map_append, List.nodup_append]
      refine ⟨m.nodup, by simp, ?_⟩
      intro a ha b hb hab
      subst hab
      simp only [List.map_cons, List.map_nil, List.mem_singleton] at hb
      subst hb
      exact h ha⟩

def delete (m : InsertionMap κ ν) (k : κ) : InsertionMap κ ν :=
  ⟨m.entries.filter fun e => decide (e.1 ≠ k),
    m.nodup.sublist (List.filter_sublist.map Prod.fst)⟩

@[simp] theorem get_empty (k : κ) : (empty : InsertionMap κ ν).get k = none := rfl

theorem get_eq_some_iff {m : InsertionMap κ ν} {k : κ} {v : ν} :
    m.get k = some v ↔ (k, v) ∈ m.entries := by
  constructor
  · intro h
    obtain ⟨e, he, hv⟩ := Option.map_eq_some_iff.mp h
    have hk : e.1 = k := by simpa using List.find?_some he
    have hmem := List.mem_of_find?_eq_some he
    rw [← hk, ← hv]
    exact hmem
  · intro h
    cases hf : m.entries.find? (fun e => decide (e.1 = k)) with
    | none =>
        have hne := List.find?_eq_none.mp hf (k, v) h
        simp at hne
    | some e =>
        have hk : e.1 = k := by simpa using List.find?_some hf
        have hmem := List.mem_of_find?_eq_some hf
        have he : e = (k, v) := List.inj_on_of_nodup_map m.nodup hmem h hk
        simp [get, hf, he]

theorem get_eq_none_iff {m : InsertionMap κ ν} {k : κ} : m.get k = none ↔ k ∉ m.keys := by
  simp only [get, keys, Option.map_eq_none_iff, List.find?_eq_none, decide_eq_true_eq,
    List.mem_map, not_exists, not_and]

theorem mem_keys_iff {m : InsertionMap κ ν} {k : κ} : k ∈ m.keys ↔ ∃ v, m.get k = some v := by
  rw [← Option.isSome_iff_exists, Option.isSome_iff_ne_none, Ne, get_eq_none_iff, not_not]

/-- The order of the entries does not matter for the values. -/
theorem find?_of_perm {m : InsertionMap κ ν} {entries : List (κ × ν)}
    (h : entries.Perm m.entries) (k : κ) :
    (entries.find? fun e => decide (e.1 = k)).map Prod.snd = m.get k := by
  have hnodup : (entries.map Prod.fst).Nodup := (h.map Prod.fst).nodup_iff.mpr m.nodup
  apply Option.ext
  intro v
  have hentries := @get_eq_some_iff _ _ _ ⟨entries, hnodup⟩ k v
  exact hentries.trans (h.mem_iff.trans get_eq_some_iff.symm)

theorem get_set (m : InsertionMap κ ν) (k j : κ) (v : ν) :
    (m.set k v).get j = if j = k then some v else m.get j := by
  by_cases hmem : k ∈ m.keys
  · simp only [set, dif_pos hmem, get, List.find?_map]
    by_cases hj : j = k
    · subst hj
      obtain ⟨w, hw⟩ := mem_keys_iff.mp hmem
      obtain ⟨e, he, _⟩ := Option.map_eq_some_iff.mp hw
      have hk : e.1 = j := by simpa using List.find?_some he
      have hpred : (fun e : κ × ν => decide (e.1 = j)) ∘
          (fun e => if e.1 = j then (j, v) else e) = fun e => decide (e.1 = j) := by
        funext e
        by_cases he : e.1 = j <;> simp [he]
      rw [hpred, he, Option.map_some, Option.map_some, if_pos hk, if_pos rfl]
    · have hpred : (fun e : κ × ν => decide (e.1 = j)) ∘
          (fun e => if e.1 = k then (k, v) else e) = fun e => decide (e.1 = j) := by
        funext e
        by_cases he : e.1 = k
        · simp [Function.comp, he, Ne.symm hj]
        · simp [Function.comp, if_neg he]
      rw [hpred, if_neg hj, Option.map_map]
      cases hf : m.entries.find? (fun e => decide (e.1 = j)) with
      | none => rfl
      | some e =>
          have hk : e.1 = j := by simpa using List.find?_some hf
          simp [hk, hj]
  · simp only [set, dif_neg hmem, get, List.find?_append]
    by_cases hj : j = k
    · subst hj
      have hnone := get_eq_none_iff.mpr hmem
      simp only [get, Option.map_eq_none_iff] at hnone
      simp [hnone]
    · simp [hj, Ne.symm hj]

@[simp] theorem get_set_self (m : InsertionMap κ ν) (k : κ) (v : ν) :
    (m.set k v).get k = some v := by
  simp [get_set]

theorem get_set_of_ne (m : InsertionMap κ ν) {k j : κ} (v : ν) (h : j ≠ k) :
    (m.set k v).get j = m.get j := by
  simp [get_set, h]

theorem get_delete (m : InsertionMap κ ν) (k j : κ) :
    (m.delete k).get j = if j = k then none else m.get j := by
  by_cases hj : j = k
  · subst hj
    rw [if_pos rfl, get_eq_none_iff]
    simp [keys, delete]
  · simp only [if_neg hj, get, delete, List.find?_filter]
    congr 2
    funext e
    by_cases he : e.1 = j <;> simp [he, hj]

@[simp] theorem get_delete_self (m : InsertionMap κ ν) (k : κ) : (m.delete k).get k = none := by
  simp [get_delete]

theorem get_delete_of_ne (m : InsertionMap κ ν) {k j : κ} (h : j ≠ k) :
    (m.delete k).get j = m.get j := by
  simp [get_delete, h]

/-- Setting a key to the value that it has changes nothing. -/
theorem set_of_get_eq {m : InsertionMap κ ν} {k : κ} {v : ν} (h : m.get k = some v) :
    m.set k v = m := by
  have hentry : ∀ e ∈ m.entries, (if e.1 = k then (k, v) else e) = e := by
    intro e he
    split_ifs with hk
    · have hget : m.get k = some e.2 := by
        rw [get_eq_some_iff, ← hk]
        exact he
      rw [h, Option.some.injEq] at hget
      exact Prod.ext hk.symm hget
    · rfl
  have hentries : (m.entries.map fun e => if e.1 = k then (k, v) else e) = m.entries :=
    (List.map_congr_left hentry).trans (List.map_id' _)
  rw [set, dif_pos (mem_keys_iff.mpr ⟨v, h⟩)]
  obtain ⟨entries, nodup⟩ := m
  simp only [mk.injEq]
  exact hentries

theorem keys_set_of_notMem {m : InsertionMap κ ν} {k : κ} (h : k ∉ m.keys) (v : ν) :
    (m.set k v).keys = m.keys ++ [k] := by
  rw [set, dif_neg h, keys, List.map_append]
  rfl

/-- Setting a present key keeps the order. -/
theorem entries_set_of_mem {m : InsertionMap κ ν} {k : κ} (h : k ∈ m.keys) (v : ν) :
    (m.set k v).entries = m.entries.map fun e => if e.1 = k then (k, v) else e := by
  rw [set, dif_pos h]

theorem entries_set_of_notMem {m : InsertionMap κ ν} {k : κ} (h : k ∉ m.keys) (v : ν) :
    (m.set k v).entries = m.entries ++ [(k, v)] := by
  rw [set, dif_neg h]

theorem keys_set_of_mem {m : InsertionMap κ ν} {k : κ} (h : k ∈ m.keys) (v : ν) :
    (m.set k v).keys = m.keys := by
  rw [set, dif_pos h]
  simp only [keys, List.map_map]
  apply List.map_congr_left
  intro e _
  by_cases he : e.1 = k <;> simp [he]

theorem keys_delete (m : InsertionMap κ ν) (k : κ) :
    (m.delete k).keys = m.keys.filter fun j => decide (j ≠ k) := by
  rw [keys, keys, List.filter_map]
  rfl

theorem notMem_keys_delete (m : InsertionMap κ ν) (k : κ) : k ∉ (m.delete k).keys := by
  rw [keys_delete, List.mem_filter]
  rintro ⟨-, hne⟩
  exact of_decide_eq_true hne rfl

theorem size_set_le (m : InsertionMap κ ν) (k : κ) (v : ν) : (m.set k v).size ≤ m.size + 1 := by
  rw [set]
  split_ifs
  · exact (List.length_map ..).trans_le (Nat.le_succ _)
  · exact (List.length_append ..).le

/-- Deleting a present key makes room. -/
theorem size_delete_lt {m : InsertionMap κ ν} {k : κ} {v : ν} (h : m.get k = some v) :
    (m.delete k).size < m.size := by
  apply List.length_filter_lt_length_iff_exists.mpr
  exact ⟨(k, v), get_eq_some_iff.mp h, by simp⟩

/-- Values that yield nothing but their own key yield no key twice. -/
theorem nodup_filterMap_values {m : InsertionMap κ ν} {f : ν → Option κ}
    (h : ∀ k v c, m.get k = some v → f v = some c → c = k) : (m.values.filterMap f).Nodup := by
  have hsublist : ∀ entries : List (κ × ν), (∀ e ∈ entries, ∀ c, f e.2 = some c → c = e.1) →
      List.Sublist ((entries.map Prod.snd).filterMap f) (entries.map Prod.fst) := by
    intro entries
    induction entries with
    | nil => exact fun _ => List.Sublist.refl _
    | cons e rest ih =>
        intro hentries
        obtain ⟨hfirst, hrest⟩ := List.forall_mem_cons.mp hentries
        cases hf : f e.2 with
        | none =>
            rw [List.map_cons, List.filterMap_cons_none hf]
            exact (ih hrest).cons _
        | some c =>
            rw [List.map_cons, List.filterMap_cons_some hf, hfirst c hf]
            exact (ih hrest).cons_cons _
  apply List.Nodup.sublist _ m.nodup
  apply hsublist
  intro e he c hc
  exact h e.1 e.2 c (get_eq_some_iff.mpr he) hc

theorem mem_filterMap_values_iff {α : Type*} {m : InsertionMap κ ν} {f : ν → Option α} {a : α} :
    a ∈ m.values.filterMap f ↔ ∃ k v, m.get k = some v ∧ f v = some a := by
  simp only [values, List.mem_filterMap, List.mem_map]
  constructor
  · rintro ⟨v, ⟨e, he, rfl⟩, ha⟩
    exact ⟨e.1, e.2, get_eq_some_iff.mpr he, ha⟩
  · rintro ⟨k, v, hget, ha⟩
    exact ⟨v, ⟨(k, v), get_eq_some_iff.mp hget, rfl⟩, ha⟩

/-- The value of a key is the one that was set last. -/
theorem get_foldl_set (assigned : List (κ × ν)) (m : InsertionMap κ ν) (k : κ) :
    (assigned.foldl (fun m e => m.set e.1 e.2) m).get k =
      ((assigned.reverse.find? fun e => decide (e.1 = k)).map Prod.snd).or (m.get k) := by
  induction assigned generalizing m with
  | nil => rfl
  | cons e assigned ih =>
      rw [List.foldl_cons, ih, List.reverse_cons, List.find?_append, get_set]
      cases assigned.reverse.find? fun e => decide (e.1 = k) with
      | some e => rfl
      | none =>
          by_cases hk : e.1 = k
          · rw [List.find?_singleton, if_pos hk.symm, if_pos (decide_eq_true hk)]
            rfl
          · rw [List.find?_singleton, if_neg (Ne.symm hk), if_neg (by simpa using hk)]
            rfl

theorem get_foldl_delete (deleted : List κ) (m : InsertionMap κ ν) (k : κ) :
    (deleted.foldl delete m).get k = if k ∈ deleted then none else m.get k := by
  induction deleted generalizing m with
  | nil => rfl
  | cons first deleted ih =>
      rw [List.foldl_cons, ih, get_delete]
      by_cases hk : k = first
      · rw [if_pos hk, ite_self, if_pos (hk ▸ List.mem_cons_self)]
      · rw [if_neg hk]
        simp [hk]

section

variable {τ : Type*}

omit [DecidableEq κ] in
theorem nodup_mapValues (m : InsertionMap κ ν) (f : ν → τ) :
    ((m.entries.map (Prod.map id f)).map Prod.fst).Nodup := by
  rw [List.map_map]
  exact m.nodup

/-- The same keys with other values. -/
def mapValues (m : InsertionMap κ ν) (f : ν → τ) : InsertionMap κ τ :=
  ⟨m.entries.map (Prod.map id f), m.nodup_mapValues f⟩

omit [DecidableEq κ] in
@[simp] theorem entries_mapValues (m : InsertionMap κ ν) (f : ν → τ) :
    (m.mapValues f).entries = m.entries.map (Prod.map id f) := rfl

omit [DecidableEq κ] in
theorem keys_mapValues (m : InsertionMap κ ν) (f : ν → τ) : (m.mapValues f).keys = m.keys := by
  rw [keys, entries_mapValues, List.map_map]
  rfl

theorem get_mapValues (m : InsertionMap κ ν) (f : ν → τ) (k : κ) :
    (m.mapValues f).get k = (m.get k).map f := by
  rw [get, entries_mapValues, List.find?_map, get, Option.map_map, Option.map_map]
  rfl

omit [DecidableEq κ] in
theorem eq_of_entries_eq {m m' : InsertionMap κ ν} (h : m.entries = m'.entries) : m = m' := by
  cases m
  cases m'
  cases h
  rfl

theorem set_mapValues (m : InsertionMap κ ν) (f : ν → τ) (k : κ) (v : ν) :
    (m.mapValues f).set k (f v) = (m.set k v).mapValues f := by
  apply eq_of_entries_eq
  by_cases hk : k ∈ m.keys
  · have hk' : k ∈ (m.mapValues f).keys := by rwa [keys_mapValues]
    rw [entries_set_of_mem hk', entries_mapValues, entries_mapValues, entries_set_of_mem hk,
      List.map_map, List.map_map]
    apply List.map_congr_left
    intro e _
    by_cases he : e.1 = k <;> simp [he]
  · have hk' : k ∉ (m.mapValues f).keys := by rwa [keys_mapValues]
    rw [entries_set_of_notMem hk', entries_mapValues, entries_mapValues, entries_set_of_notMem hk,
      List.map_append]
    rfl

theorem delete_mapValues (m : InsertionMap κ ν) (f : ν → τ) (k : κ) :
    (m.mapValues f).delete k = (m.delete k).mapValues f := by
  apply eq_of_entries_eq
  exact List.filter_map

end

end InsertionMap

end TestServer.Library
