import Mathlib.Data.List.Forall2

/-!
# Computations that can fail

What a computation gives when it goes on with the result of another one. Mapping a function that
can fail over a list succeeds when it does for each element. Two computations are related when
they fail with the same error or their results are related.
-/

namespace TestServer.Library

universe u

section

variable {σ τ : Type u} {ε : Type*} {x : Except ε σ} {f : σ → Except ε τ}

theorem bind_ok_iff {t : τ} : x >>= f = .ok t ↔ ∃ s, x = .ok s ∧ f s = .ok t := by
  cases x with
  | error _ =>
      constructor
      · intro h
        cases h
      · rintro ⟨_, h, _⟩
        cases h
  | ok s =>
      constructor
      · exact fun h => ⟨s, rfl, h⟩
      · rintro ⟨_, ⟨⟩, h⟩
        exact h

theorem bind_error_iff {e : ε} :
    x >>= f = .error e ↔ x = .error e ∨ ∃ s, x = .ok s ∧ f s = .error e := by
  cases x with
  | error _ =>
      constructor
      · exact fun h => Or.inl (by cases h; rfl)
      · rintro (⟨⟨⟩⟩ | ⟨_, h, _⟩)
        · rfl
        · cases h
  | ok s =>
      constructor
      · exact fun h => Or.inr ⟨s, rfl, h⟩
      · rintro (h | ⟨_, ⟨⟩, h⟩)
        · cases h
        · exact h

end

variable {α : Type*} {β ε : Type}

theorem mapM_cons_eq_ok_iff {f : α → Except ε β} {x : α} {xs : List α} {ys : List β} :
    (x :: xs).mapM f = .ok ys ↔
      ∃ y rest, f x = .ok y ∧ xs.mapM f = .ok rest ∧ ys = y :: rest := by
  rw [List.mapM_cons, bind_ok_iff]
  constructor
  · rintro ⟨y, hy, hbind⟩
    obtain ⟨rest, hrest, hys⟩ := bind_ok_iff.mp hbind
    cases hys
    exact ⟨y, rest, hy, hrest, rfl⟩
  · rintro ⟨y, rest, hy, hrest, rfl⟩
    exact ⟨y, hy, bind_ok_iff.mpr ⟨rest, hrest, rfl⟩⟩

/-- The results are those of the elements, in order. -/
theorem mapM_eq_ok_iff {f : α → Except ε β} {xs : List α} {ys : List β} :
    xs.mapM f = .ok ys ↔ List.Forall₂ (fun x y => f x = .ok y) xs ys := by
  induction xs generalizing ys with
  | nil =>
      rw [List.forall₂_nil_left_iff, List.mapM_nil]
      exact ⟨fun h => (Except.ok.inj h).symm, fun h => congrArg Except.ok h.symm⟩
  | cons x xs ih =>
      rw [mapM_cons_eq_ok_iff, List.forall₂_cons_left_iff]
      constructor
      · rintro ⟨y, rest, hy, hrest, rfl⟩
        exact ⟨y, rest, hy, ih.mp hrest, rfl⟩
      · rintro ⟨y, rest, hy, hrest, rfl⟩
        exact ⟨y, rest, hy, ih.mpr hrest, rfl⟩

theorem exists_mem_of_mapM_eq_ok {f : α → Except ε β} {xs : List α} {ys : List β}
    (h : xs.mapM f = .ok ys) : ∀ x ∈ xs, ∃ y ∈ ys, f x = .ok y := by
  induction xs generalizing ys with
  | nil => exact List.forall_mem_nil _
  | cons x xs ih =>
      obtain ⟨y, rest, hy, hrest, rfl⟩ := mapM_cons_eq_ok_iff.mp h
      intro a ha
      cases ha with
      | head => exact ⟨y, List.mem_cons_self, hy⟩
      | tail _ ha =>
          obtain ⟨b, hb, hab⟩ := ih hrest a ha
          exact ⟨b, List.mem_cons_of_mem y hb, hab⟩

/-- Where no element fails, the map has a result. -/
theorem exists_mapM_eq_ok {f : α → Except ε β} {xs : List α}
    (h : ∀ x ∈ xs, ∃ y, f x = .ok y) : ∃ ys, xs.mapM f = .ok ys := by
  induction xs with
  | nil => exact ⟨[], rfl⟩
  | cons x xs ih =>
      obtain ⟨y, hy⟩ := h x List.mem_cons_self
      obtain ⟨rest, hrest⟩ := ih fun a ha => h a (List.mem_cons_of_mem x ha)
      exact ⟨y :: rest, mapM_cons_eq_ok_iff.mpr ⟨y, rest, hy, hrest, rfl⟩⟩

/-- What a map throws is thrown for one of the elements. -/
theorem exists_mem_of_mapM_eq_error {f : α → Except ε β} {xs : List α} {e : ε}
    (h : xs.mapM f = .error e) : ∃ x ∈ xs, f x = .error e := by
  induction xs with
  | nil => cases h
  | cons x xs ih =>
      rw [List.mapM_cons] at h
      rcases bind_error_iff.mp h with hx | ⟨y, -, hrest⟩
      · exact ⟨x, List.mem_cons_self, hx⟩
      · rcases bind_error_iff.mp hrest with hxs | ⟨rest, -, hpure⟩
        · obtain ⟨a, ha, hthrown⟩ := ih hxs
          exact ⟨a, List.mem_cons_of_mem x ha, hthrown⟩
        · cases hpure

/-- The same error, or related results. -/
inductive Related {σ τ ε : Type*} (S : σ → τ → Prop) : Except ε σ → Except ε τ → Prop
  | ok {s : σ} {t : τ} (h : S s t) : Related S (.ok s) (.ok t)
  | error (e : ε) : Related S (.error e) (.error e)

namespace Related

theorem bind {σ σ' τ τ' : Type*} {ε : Type*} {S : σ → σ' → Prop} {T : τ → τ' → Prop}
    {x : Except ε σ} {x' : Except ε σ'} {f : σ → Except ε τ} {f' : σ' → Except ε τ'}
    (h : Related S x x') (hf : ∀ s s', S s s' → Related T (f s) (f' s')) :
    Related T (x.bind f) (x'.bind f') := by
  cases h with
  | ok h => exact hf _ _ h
  | error e => exact Related.error e

theorem mapM {α α' ε β β' : Type} {R : α → α' → Prop} {S : β → β' → Prop} {f : α → Except ε β}
    {f' : α' → Except ε β'} {xs : List α} {xs' : List α'} (h : List.Forall₂ R xs xs')
    (hf : ∀ x x', R x x' → Related S (f x) (f' x')) :
    Related (List.Forall₂ S) (xs.mapM f) (xs'.mapM f') := by
  induction h with
  | nil => exact Related.ok List.Forall₂.nil
  | cons hx _ ih =>
      rw [List.mapM_cons, List.mapM_cons]
      apply (hf _ _ hx).bind
      intro y y' hy
      apply ih.bind
      intro ys ys' hys
      exact Related.ok (List.Forall₂.cons hy hys)

end Related

end TestServer.Library
