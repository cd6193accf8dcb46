import TestServer.Library.InsertionMap

/-!
# Merging keyed contributions

Contributions of values to keys are merged one after another into a map. The
values of a combinable key are folded together; any other key is exclusive and
takes one value only. A merge succeeds exactly when the values of every
exclusive key agree, and then keeps each of them.
-/

namespace TestServer.Library

/-- How values contributed to the same key are put together. -/
structure MergeRule (κ ν ε : Type*) where
  combine : κ → Option (ν → ν → ν)
  same : ν → ν → Bool
  conflict : κ → ν → ν → ε

namespace MergeRule

variable {κ ν ε : Type*} [DecidableEq κ] (R : MergeRule κ ν ε)

def mergeOne (acc : InsertionMap κ ν) (entry : κ × ν) : Except ε (InsertionMap κ ν) :=
  match acc.get entry.1 with
  | none => .ok (acc.set entry.1 entry.2)
  | some existing =>
      match R.combine entry.1 with
      | some combine => .ok (acc.set entry.1 (combine existing entry.2))
      | none =>
          if R.same existing entry.2 then .ok acc
          else .error (R.conflict entry.1 existing entry.2)

def merge (acc : InsertionMap κ ν) (entries : List (κ × ν)) : Except ε (InsertionMap κ ν) :=
  entries.foldlM R.mergeOne acc

/-- Two contributions do not disagree on an exclusive key. -/
def Agrees (e f : κ × ν) : Prop := e.1 = f.1 → R.combine e.1 = none → R.same e.2 f.2 = true

/-- A contribution does not disagree with what was merged before it. -/
def Fits (acc : InsertionMap κ ν) (e : κ × ν) : Prop :=
  R.combine e.1 = none → ∀ v, acc.get e.1 = some v → R.same v e.2 = true

@[simp] theorem merge_nil (acc : InsertionMap κ ν) : R.merge acc [] = .ok acc := rfl

theorem merge_cons (acc : InsertionMap κ ν) (e : κ × ν) (es : List (κ × ν)) :
    R.merge acc (e :: es) = (R.mergeOne acc e).bind fun m => R.merge m es := rfl

theorem merge_append (acc : InsertionMap κ ν) (es fs : List (κ × ν)) :
    R.merge acc (es ++ fs) = (R.merge acc es).bind fun m => R.merge m fs :=
  List.foldlM_append

variable {R}

/-- What one accepted contribution does to the map. -/
theorem mergeOne_cases {acc m : InsertionMap κ ν} {e : κ × ν} (h : R.mergeOne acc e = .ok m) :
    (acc.get e.1 = none ∧ m = acc.set e.1 e.2) ∨
      (∃ v f, acc.get e.1 = some v ∧ R.combine e.1 = some f ∧ m = acc.set e.1 (f v e.2)) ∨
      (∃ v, acc.get e.1 = some v ∧ R.combine e.1 = none ∧ R.same v e.2 = true ∧ m = acc) := by
  simp only [mergeOne] at h
  cases hget : acc.get e.1 with
  | none =>
      rw [hget] at h
      exact Or.inl ⟨rfl, (Except.ok.inj h).symm⟩
  | some v =>
      rw [hget] at h
      cases hcombine : R.combine e.1 with
      | some f =>
          rw [hcombine] at h
          exact Or.inr (Or.inl ⟨v, f, rfl, rfl, (Except.ok.inj h).symm⟩)
      | none =>
          rw [hcombine] at h
          by_cases hsame : R.same v e.2 = true
          · simp only [if_pos hsame, Except.ok.injEq] at h
            exact Or.inr (Or.inr ⟨v, rfl, rfl, hsame, h.symm⟩)
          · simp only [if_neg hsame] at h
            cases h

theorem mergeOne_isOk_iff {acc : InsertionMap κ ν} {e : κ × ν} :
    (∃ m, R.mergeOne acc e = .ok m) ↔ R.Fits acc e := by
  constructor
  · rintro ⟨m, hm⟩ hexclusive v hv
    rcases mergeOne_cases hm with ⟨hnone, _⟩ | ⟨_, f, _, hf, _⟩ | ⟨w, hw, _, hsame, _⟩
    · simp [hv] at hnone
    · simp [hexclusive] at hf
    · rw [hv, Option.some.injEq] at hw
      rw [hw]
      exact hsame
  · intro hfits
    simp only [mergeOne]
    cases hget : acc.get e.1 with
    | none => exact ⟨_, rfl⟩
    | some v =>
        cases hcombine : R.combine e.1 with
        | some f => exact ⟨_, rfl⟩
        | none =>
            have hsame := hfits hcombine v hget
            exact ⟨acc, by simp [hsame]⟩

/-- An exclusive key takes the contributed value and keeps any earlier one. -/
theorem mergeOne_get (hsame : ∀ {v w}, R.same v w = true → v = w) {acc m : InsertionMap κ ν}
    {e : κ × ν} (h : R.mergeOne acc e = .ok m) {k : κ} (hk : R.combine k = none) {v : ν} :
    m.get k = some v ↔ acc.get k = some v ∨ e = (k, v) := by
  obtain ⟨j, w⟩ := e
  by_cases hjk : k = j
  · subst hjk
    rcases mergeOne_cases h with ⟨hnone, rfl⟩ | ⟨_, f, _, hf, _⟩ | ⟨u, hu, _, hs, rfl⟩
    · simp [hnone]
    · simp [hk] at hf
    · have huw : u = w := hsame hs
      simp [hu, huw]
  · have hne : ∀ u, (acc.set j u).get k = acc.get k := fun u => acc.get_set_of_ne u hjk
    rcases mergeOne_cases h with ⟨_, rfl⟩ | ⟨_, _, _, _, rfl⟩ | ⟨_, _, _, _, rfl⟩
    · simp [hne, Ne.symm hjk]
    · simp [hne, Ne.symm hjk]
    · simp [Ne.symm hjk]

/-- After a merge an exclusive key holds exactly what was there or was contributed. -/
theorem merge_get (hsame : ∀ {v w}, R.same v w = true → v = w) {acc m : InsertionMap κ ν}
    {es : List (κ × ν)} (h : R.merge acc es = .ok m) {k : κ} (hk : R.combine k = none) {v : ν} :
    m.get k = some v ↔ acc.get k = some v ∨ (k, v) ∈ es := by
  induction es generalizing acc with
  | nil =>
      rw [merge_nil, Except.ok.injEq] at h
      simp [h]
  | cons e es ih =>
      rw [merge_cons] at h
      cases hone : R.mergeOne acc e with
      | error _ =>
          rw [hone] at h
          cases h
      | ok n =>
          rw [hone] at h
          rw [ih h, mergeOne_get hsame hone hk, List.mem_cons, or_assoc]
          simp only [eq_comm (a := (k, v))]

/-- The values of a key, in order. -/
def valuesAt (k : κ) (es : List (κ × ν)) : List ν :=
  (es.filter fun e => decide (e.1 = k)).map Prod.snd

theorem valuesAt_flatMap {α : Type*} (k : κ) (f : α → List (κ × ν)) (xs : List α) :
    valuesAt k (xs.flatMap f) = xs.flatMap fun x => valuesAt k (f x) := by
  simp only [valuesAt, List.filter_flatMap, List.map_flatMap]

/-- What a combinable key holds after some values. -/
def combined (f : ν → ν → ν) (held : Option ν) (values : List ν) : Option ν :=
  values.foldl (fun held v => some (held.elim v fun w => f w v)) held

theorem mergeOne_get_of_combine {acc m : InsertionMap κ ν} {e : κ × ν}
    (h : R.mergeOne acc e = .ok m) {k : κ} {f : ν → ν → ν} (hk : R.combine k = some f) :
    m.get k = combined f (acc.get k) (valuesAt k [e]) := by
  obtain ⟨j, v⟩ := e
  by_cases hjk : j = k
  · subst hjk
    have hvalues : valuesAt j [(j, v)] = [v] := by simp [valuesAt]
    rcases mergeOne_cases h with ⟨hnone, rfl⟩ | ⟨w, g, hw, hg, rfl⟩ | ⟨_, _, hnone, _⟩
    · rw [InsertionMap.get_set_self, hvalues, hnone]
      rfl
    · obtain rfl : g = f := Option.some.inj (hg.symm.trans hk)
      rw [InsertionMap.get_set_self, hvalues, hw]
      rfl
    · cases hk.symm.trans hnone
  · have hvalues : valuesAt k [(j, v)] = [] := by simp [valuesAt, hjk]
    have hne : ∀ u, (acc.set j u).get k = acc.get k :=
      fun u => acc.get_set_of_ne u (Ne.symm hjk)
    rw [hvalues]
    rcases mergeOne_cases h with ⟨_, rfl⟩ | ⟨_, _, _, _, rfl⟩ | ⟨_, _, _, _, rfl⟩
    · exact hne v
    · exact hne _
    · rfl

/-- After a merge a combinable key holds all that was contributed to it, put together in order. -/
theorem merge_get_of_combine {acc m : InsertionMap κ ν} {es : List (κ × ν)}
    (h : R.merge acc es = .ok m) {k : κ} {f : ν → ν → ν} (hk : R.combine k = some f) :
    m.get k = combined f (acc.get k) (valuesAt k es) := by
  induction es generalizing acc with
  | nil =>
      rw [merge_nil, Except.ok.injEq] at h
      rw [h]
      rfl
  | cons e es ih =>
      rw [merge_cons] at h
      cases hone : R.mergeOne acc e with
      | error _ =>
          rw [hone] at h
          cases h
      | ok n =>
          rw [hone] at h
          have hvalues : valuesAt k (e :: es) = valuesAt k [e] ++ valuesAt k es := by
            rw [valuesAt, valuesAt, valuesAt, ← List.map_append, ← List.filter_append]
            rfl
          rw [ih h, mergeOne_get_of_combine hone hk, hvalues]
          exact (List.foldl_append ..).symm

/-- Fitting after `e` was merged is fitting before and agreeing with `e`. -/
theorem fits_mergeOne_iff (hsame : ∀ {v w}, R.same v w = true → v = w)
    {acc m : InsertionMap κ ν} {e f : κ × ν} (h : R.mergeOne acc e = .ok m) :
    R.Fits m f ↔ R.Agrees e f ∧ R.Fits acc f := by
  constructor
  · intro hfits
    constructor
    · intro hkey hexclusive
      rw [hkey] at hexclusive
      apply hfits hexclusive e.2
      exact (mergeOne_get hsame h hexclusive).mpr (Or.inr (Prod.ext hkey rfl))
    · intro hexclusive v hv
      exact hfits hexclusive v ((mergeOne_get hsame h hexclusive).mpr (Or.inl hv))
  · rintro ⟨hagrees, hfits⟩ hexclusive v hv
    rcases (mergeOne_get hsame h hexclusive).mp hv with hv | he
    · exact hfits hexclusive v hv
    · subst he
      exact hagrees rfl hexclusive

/-- A merge succeeds exactly when every contribution fits what was there and all agree. -/
theorem merge_isOk_iff (hsame : ∀ {v w}, R.same v w = true → v = w) {acc : InsertionMap κ ν}
    {es : List (κ × ν)} :
    (∃ m, R.merge acc es = .ok m) ↔ (∀ e ∈ es, R.Fits acc e) ∧ es.Pairwise R.Agrees := by
  induction es generalizing acc with
  | nil => simp
  | cons e es ih =>
      rw [merge_cons, List.forall_mem_cons, List.pairwise_cons]
      constructor
      · rintro ⟨m, hm⟩
        cases hone : R.mergeOne acc e with
        | error _ =>
            rw [hone] at hm
            cases hm
        | ok n =>
            rw [hone] at hm
            obtain ⟨hfits, hpairs⟩ := ih.mp ⟨m, hm⟩
            refine ⟨⟨mergeOne_isOk_iff.mp ⟨n, hone⟩, fun f hf => ?_⟩, fun f hf => ?_, hpairs⟩
            · exact ((fits_mergeOne_iff hsame hone).mp (hfits f hf)).2
            · exact ((fits_mergeOne_iff hsame hone).mp (hfits f hf)).1
      · rintro ⟨⟨he, hes⟩, hagree, hpairs⟩
        obtain ⟨n, hone⟩ := mergeOne_isOk_iff.mpr he
        rw [hone]
        apply ih.mpr
        refine ⟨fun f hf => ?_, hpairs⟩
        exact (fits_mergeOne_iff hsame hone).mpr ⟨hagree f hf, hes f hf⟩

/-- The same from nothing: only the contributions have to agree. -/
theorem merge_empty_isOk_iff (hsame : ∀ {v w}, R.same v w = true → v = w)
    {es : List (κ × ν)} :
    (∃ m, R.merge .empty es = .ok m) ↔ es.Pairwise R.Agrees := by
  rw [merge_isOk_iff hsame, and_iff_right]
  intro e _ _ v hv
  simp at hv

end MergeRule

end TestServer.Library
