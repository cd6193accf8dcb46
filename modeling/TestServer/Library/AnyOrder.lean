import TestServer.Library.Fallible
import TestServer.Library.InsertionMap

/-!
# Folds that can fail, in any order

A fold over a list comes to the same when the list is permuted, if any two of its
steps can be swapped. What counts as the same is a relation between states that
need not be reflexive: a state is related to itself if it is well formed. A fold
that updates a map one cell at a time is in any order if every cell is.
-/

namespace TestServer.Library

universe u

variable {σ τ κ ν : Type u} {α ε : Type*}

/-- Both computations fail, or they succeed with related results. -/
def Alike (R : σ → σ → Prop) : Except ε σ → Except ε σ → Prop
  | .ok s, .ok t => R s t
  | .error _, .error _ => True
  | _, _ => False

theorem Alike.trans {R : σ → σ → Prop} (htrans : ∀ s t u, R s t → R t u → R s u)
    {x y z : Except ε σ} (h : Alike R x y) (h' : Alike R y z) : Alike R x z := by
  cases y with
  | error _ =>
      cases x with
      | ok _ => cases h
      | error _ =>
          cases z with
          | ok _ => cases h'
          | error _ => trivial
  | ok t =>
      cases x with
      | error _ => cases h
      | ok s =>
          cases z with
          | error _ => cases h'
          | ok u => exact htrans s t u h h'

/-- What goes on alike from related results is alike. -/
theorem Alike.bind {R : σ → σ → Prop} {S : τ → τ → Prop} {x y : Except ε σ}
    {f g : σ → Except ε τ} (h : Alike R x y) (hnext : ∀ s t, R s t → Alike S (f s) (g t)) :
    Alike S (x >>= f) (y >>= g) := by
  cases x with
  | error _ =>
      cases y with
      | error _ => trivial
      | ok _ => cases h
  | ok s =>
      cases y with
      | error _ => cases h
      | ok t => exact hnext s t h

theorem Alike.exists_ok {R : σ → σ → Prop} {x y : Except ε σ} (h : Alike R x y) {s : σ}
    (hs : x = .ok s) : ∃ t, y = .ok t ∧ R s t := by
  subst hs
  cases y with
  | error _ => cases h
  | ok t => exact ⟨t, rfl, h⟩

/-- Computations are alike if success of either gives a related success of the other. -/
theorem alike_of_exists_ok {R : σ → σ → Prop} {x y : Except ε σ}
    (h : ∀ s, x = .ok s → ∃ t, y = .ok t ∧ R s t) (h' : ∀ t, y = .ok t → ∃ s, x = .ok s) :
    Alike R x y := by
  cases x with
  | error _ =>
      cases y with
      | error _ => trivial
      | ok t =>
          obtain ⟨_, hs⟩ := h' t rfl
          cases hs
  | ok s =>
      obtain ⟨t, rfl, hst⟩ := h s rfl
      exact hst

/-- The steps of a fold respect a relation between states, and any two steps can be swapped. -/
structure AnyOrder (R : σ → σ → Prop) (V : α → Prop) (f : σ → α → Except ε σ) : Prop where
  symm : ∀ s t, R s t → R t s
  trans : ∀ s t u, R s t → R t u → R s u
  congr : ∀ {s t a}, R s t → V a → Alike R (f s a) (f t a)
  swap : ∀ {s a b}, R s s → V a → V b →
    Alike R (f s a >>= fun t => f t b) (f s b >>= fun t => f t a)

namespace AnyOrder

variable {R : σ → σ → Prop} {V : α → Prop} {f : σ → α → Except ε σ}

theorem foldlM_congr (h : AnyOrder R V f) {xs : List α} (hxs : ∀ a ∈ xs, V a) {s t : σ}
    (hst : R s t) : Alike R (xs.foldlM f s) (xs.foldlM f t) := by
  induction xs generalizing s t with
  | nil => exact hst
  | cons a xs ih =>
      obtain ⟨ha, hxs⟩ := List.forall_mem_cons.mp hxs
      rw [List.foldlM_cons, List.foldlM_cons]
      exact (h.congr hst ha).bind fun _ _ hst => ih hxs hst

/-- The order of the list does not matter. -/
theorem foldlM_perm (h : AnyOrder R V f) {xs ys : List α} (hperm : xs.Perm ys)
    (hxs : ∀ a ∈ xs, V a) {s t : σ} (hst : R s t) :
    Alike R (xs.foldlM f s) (ys.foldlM f t) := by
  induction hperm generalizing s t with
  | nil => exact hst
  | cons a _ ih =>
      obtain ⟨ha, hxs⟩ := List.forall_mem_cons.mp hxs
      rw [List.foldlM_cons, List.foldlM_cons]
      exact (h.congr hst ha).bind fun _ _ hst => ih hxs hst
  | swap a b xs =>
      obtain ⟨hb, hxs⟩ := List.forall_mem_cons.mp hxs
      obtain ⟨ha, hxs⟩ := List.forall_mem_cons.mp hxs
      have hs : R s s := h.trans s t s hst (h.symm s t hst)
      have hswap := h.swap hs hb ha
      have hcongr : Alike R (f s a >>= fun u => f u b) (f t a >>= fun u => f u b) :=
        (h.congr hst ha).bind fun _ _ huv => h.congr huv hb
      have hboth := (hswap.trans h.trans hcongr).bind fun _ _ huv => h.foldlM_congr hxs huv
      simp only [List.foldlM_cons]
      rw [bind_assoc, bind_assoc] at hboth
      exact hboth
  | trans hfirst _ ih ih' =>
      have hs : R s s := h.trans s t s hst (h.symm s t hst)
      have hys : ∀ a ∈ _, V a := fun a ha => hxs a (hfirst.mem_iff.mpr ha)
      exact (ih hxs hs).trans h.trans (ih' hys hst)

end AnyOrder

section Lookups

variable {β γ : Type*} {f : β → Option γ}

theorem mapM_cons_eq_some_iff {b : β} {xs : List β} {cs : List γ} :
    (b :: xs).mapM f = some cs ↔ ∃ c rest, f b = some c ∧ xs.mapM f = some rest ∧ cs = c :: rest := by
  simp only [List.mapM_cons, Option.bind_eq_bind, Option.bind_eq_some_iff, Option.pure_def,
    Option.some.injEq]
  constructor
  · rintro ⟨c, hc, rest, hrest, rfl⟩
    exact ⟨c, rest, hc, hrest, rfl⟩
  · rintro ⟨c, rest, hc, hrest, rfl⟩
    exact ⟨c, hc, rest, hrest, rfl⟩

theorem exists_of_mapM_eq_some {xs : List β} {cs : List γ} (h : xs.mapM f = some cs) :
    ∀ b ∈ xs, ∃ c ∈ cs, f b = some c := by
  induction xs generalizing cs with
  | nil =>
      intro b hb
      cases hb
  | cons x xs ih =>
      obtain ⟨c, rest, hc, hrest, rfl⟩ := mapM_cons_eq_some_iff.mp h
      intro b hb
      rcases List.mem_cons.mp hb with rfl | hb
      · exact ⟨c, List.mem_cons_self, hc⟩
      · obtain ⟨d, hd, hbd⟩ := ih hrest b hb
        exact ⟨d, List.mem_cons_of_mem c hd, hbd⟩

theorem length_of_mapM_eq_some {xs : List β} {cs : List γ} (h : xs.mapM f = some cs) :
    cs.length = xs.length := by
  induction xs generalizing cs with
  | nil =>
      cases h
      rfl
  | cons x xs ih =>
      obtain ⟨c, rest, -, hrest, rfl⟩ := mapM_cons_eq_some_iff.mp h
      rw [List.length_cons, List.length_cons, ih hrest]

/-- What is looked up for the elements of a list is permuted with them. -/
theorem mapM_perm {xs ys : List β} (hperm : xs.Perm ys)
    {bs : List γ} (h : xs.mapM f = some bs) : ∃ cs, ys.mapM f = some cs ∧ bs.Perm cs := by
  induction hperm generalizing bs with
  | nil => exact ⟨bs, h, .refl bs⟩
  | cons a _ ih =>
      obtain ⟨c, rest, hc, hrest, rfl⟩ := mapM_cons_eq_some_iff.mp h
      obtain ⟨cs, hcs, hperm⟩ := ih hrest
      exact ⟨c :: cs, mapM_cons_eq_some_iff.mpr ⟨c, cs, hc, hcs, rfl⟩, hperm.cons c⟩
  | swap a b xs =>
      obtain ⟨c, _, hc, htail, rfl⟩ := mapM_cons_eq_some_iff.mp h
      obtain ⟨d, rest, hd, hrest, rfl⟩ := mapM_cons_eq_some_iff.mp htail
      refine ⟨d :: c :: rest, ?_, .swap d c rest⟩
      exact mapM_cons_eq_some_iff.mpr
        ⟨d, c :: rest, hd, mapM_cons_eq_some_iff.mpr ⟨c, rest, hc, hrest, rfl⟩, rfl⟩
  | trans _ _ ih ih' =>
      obtain ⟨cs, hcs, hbc⟩ := ih h
      obtain ⟨ds, hds, hcd⟩ := ih' hcs
      exact ⟨ds, hds, hbc.trans hcd⟩

end Lookups

section Cells

variable [DecidableEq κ]

/-- Update the cell of a key, from what it holds and a new value. -/
def mergeCell (cell : κ → Option ν → ν → Except ε ν) (acc : InsertionMap κ ν) (entry : κ × ν) :
    Except ε (InsertionMap κ ν) := do
  let v ← cell entry.1 (acc.get entry.1) entry.2
  return acc.set entry.1 v

/-- Maps whose cells are related. -/
def CellsRelated (S : κ → Option ν → Option ν → Prop) (s t : InsertionMap κ ν) : Prop :=
  ∀ k, S k (s.get k) (t.get k)

/-- The updates of every cell respect a relation, and any two can be swapped. -/
structure AnyOrderCells (S : κ → Option ν → Option ν → Prop) (V : κ → ν → Prop)
    (cell : κ → Option ν → ν → Except ε ν) : Prop where
  symm : ∀ {k a b}, S k a b → S k b a
  trans : ∀ {k a b c}, S k a b → S k b c → S k a c
  congr : ∀ {k a b v}, S k a b → V k v →
    Alike (fun x y => S k (some x) (some y)) (cell k a v) (cell k b v)
  swap : ∀ {k a v w}, S k a a → V k v → V k w →
    Alike (fun x y => S k (some x) (some y)) (cell k a v >>= fun x => cell k (some x) w)
      (cell k a w >>= fun x => cell k (some x) v)

variable {S : κ → Option ν → Option ν → Prop} {V : κ → ν → Prop}
  {cell : κ → Option ν → ν → Except ε ν}

theorem CellsRelated.set {s t : InsertionMap κ ν} (h : CellsRelated S s t) {k : κ} {v w : ν}
    (hvw : S k (some v) (some w)) : CellsRelated S (s.set k v) (t.set k w) := by
  intro j
  rw [InsertionMap.get_set, InsertionMap.get_set]
  split_ifs with hj
  · rw [hj]
    exact hvw
  · exact h j

theorem CellsRelated.set_set {s : InsertionMap κ ν} (h : CellsRelated S s s) {k : κ}
    {v w x y : ν} (hxy : S k (some x) (some y)) :
    CellsRelated S ((s.set k v).set k x) ((s.set k w).set k y) := by
  intro j
  simp only [InsertionMap.get_set]
  split_ifs with hj
  · rw [hj]
    exact hxy
  · exact h j

/-- Two updates of one cell. -/
theorem AnyOrderCells.swap_same (h : AnyOrderCells S V cell) {s : InsertionMap κ ν} {k : κ}
    {v w : ν} (hs : CellsRelated S s s) (hv : V k v) (hw : V k w) :
    Alike (CellsRelated S) (mergeCell cell s (k, v) >>= fun t => mergeCell cell t (k, w))
      (mergeCell cell s (k, w) >>= fun t => mergeCell cell t (k, v)) := by
  have hcell := h.swap (hs k) hv hw
  simp only [mergeCell]
  cases hx : cell k (s.get k) v with
  | error _ =>
      cases hy : cell k (s.get k) w with
      | error _ => trivial
      | ok y =>
          rw [hx, hy] at hcell
          simp only [bind, Except.bind, pure, Except.pure, InsertionMap.get_set_self] at hcell ⊢
          cases hxy : cell k (some y) v with
          | error _ => trivial
          | ok _ =>
              rw [hxy] at hcell
              cases hcell
  | ok x =>
      cases hy : cell k (s.get k) w with
      | error _ =>
          rw [hx, hy] at hcell
          simp only [bind, Except.bind, pure, Except.pure, InsertionMap.get_set_self] at hcell ⊢
          cases hxy : cell k (some x) w with
          | error _ => trivial
          | ok _ =>
              rw [hxy] at hcell
              cases hcell
      | ok y =>
          rw [hx, hy] at hcell
          simp only [bind, Except.bind, pure, Except.pure, InsertionMap.get_set_self] at hcell ⊢
          exact hcell.bind (f := fun z => Except.ok ((s.set k x).set k z))
            (g := fun z => Except.ok ((s.set k y).set k z)) fun _ _ hz => hs.set_set hz

omit [DecidableEq κ] in
theorem AnyOrderCells.updated (h : AnyOrderCells S V cell) {k : κ} {a : Option ν} {v x : ν}
    (ha : S k a a) (hv : V k v) (hx : cell k a v = .ok x) : S k (some x) (some x) := by
  have hcell := h.congr ha hv
  rw [hx] at hcell
  exact hcell

/-- Updates of two cells. -/
theorem AnyOrderCells.swap_ne (h : AnyOrderCells S V cell) {s : InsertionMap κ ν} {k l : κ}
    {v w : ν} (hs : CellsRelated S s s) (hv : V k v) (hw : V l w) (hkl : k ≠ l) :
    Alike (CellsRelated S) (mergeCell cell s (k, v) >>= fun t => mergeCell cell t (l, w))
      (mergeCell cell s (l, w) >>= fun t => mergeCell cell t (k, v)) := by
  have hl (x : ν) : (s.set k x).get l = s.get l := s.get_set_of_ne x (Ne.symm hkl)
  have hk (y : ν) : (s.set l y).get k = s.get k := s.get_set_of_ne y hkl
  simp only [mergeCell]
  cases hx : cell k (s.get k) v with
  | error _ =>
      cases hy : cell l (s.get l) w with
      | error _ => trivial
      | ok y =>
          simp only [bind, Except.bind, pure, Except.pure, hk, hx]
          trivial
  | ok x =>
      cases hy : cell l (s.get l) w with
      | error _ =>
          simp only [bind, Except.bind, pure, Except.pure, hl, hy]
          trivial
      | ok y =>
          simp only [bind, Except.bind, pure, Except.pure, hl, hk, hx, hy]
          intro j
          simp only [InsertionMap.get_set]
          split_ifs with hjl hjk hjk
          · exact absurd (hjk.symm.trans hjl) hkl
          · rw [hjl]
            exact h.updated (hs l) hw hy
          · rw [hjk]
            exact h.updated (hs k) hv hx
          · exact hs j

/-- A map is updated in any order if every cell is. -/
theorem AnyOrderCells.anyOrder (h : AnyOrderCells S V cell) :
    AnyOrder (CellsRelated S) (fun entry => V entry.1 entry.2) (mergeCell cell) where
  symm s t hst k := h.symm (hst k)
  trans s t u hst htu k := h.trans (hst k) (htu k)
  congr {s t entry} hst hentry := by
    have hcell := h.congr (hst entry.1) hentry
    exact hcell.bind fun v w hvw => hst.set hvw
  swap {s entry other} hs hentry hother := by
    obtain ⟨k, v⟩ := entry
    obtain ⟨l, w⟩ := other
    by_cases hkl : k = l
    · subst hkl
      exact h.swap_same hs hentry hother
    · exact h.swap_ne hs hentry hother hkl

end Cells

end TestServer.Library
