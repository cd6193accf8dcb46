import TestServer.Library.Runs
import TestServer.TlsCertificates.CertCache

/-!
# The certificate cache and its store

The calls of `PersistentCertCache` for one key, and the backend operations that
they start, which complete in any order. In runs in which no read comes back
with a record that a later call has replaced, and no operation takes effect
after that of a later call, the memory and the backend both hold what the last
call intended.

## Implementation notes

A write or a delete takes effect when it completes. What the last call intended
and what other servers have written since is kept for the statements only.
-/

namespace TestServer.TlsCertificates

open Js Library Library.Runs

/-- A write or a delete that has not completed, by the number of its call; a delete has no
record. -/
structure Operation where
  call : Nat
  record : Option CachedCertificate
deriving DecidableEq

/-- Where a call of `fetchCert` that missed the memory stands. -/
inductive FetchPhase where
  | reading
  | answered (stored : Option CachedCertificate)
deriving DecidableEq

structure StoredKey where
  certCache : PersistentCertCache
  stored : Option CachedCertificate
  operations : List Operation
  fetches : List FetchPhase
  /-- The number of calls of `cacheCert` and `clearCache` so far. -/
  calls : Nat
  /-- What the last of these calls intended, if there was one. -/
  intended : Option (Option CachedCertificate)
  /-- What other servers have left in the backend since that call. -/
  others : List (Option CachedCertificate)

namespace StoredKey

/-- Any content of the memory and the backend, and no call so far. -/
def initial (certCache : PersistentCertCache) (stored : Option CachedCertificate) : StoredKey where
  certCache := certCache
  stored := stored
  operations := []
  fetches := []
  calls := 0
  intended := none
  others := []

inductive Event where
  | cacheCert (cert : CachedCertificate)
  | clearCache
  | fetchCert
  | backendRead (n : Nat)
  | backendReadFailed (n : Nat)
  | fetchCertResumes (n : Nat)
  | backendCompleted (n : Nat) (ok : Bool)
  | otherServer (record : Option CachedCertificate)
deriving DecidableEq

variable (cacheKey : JsString)

/-- A call that starts an operation of the backend. -/
def startOperation (s : StoredKey) (certCache : PersistentCertCache)
    (record : Option CachedCertificate) : StoredKey :=
  { s with
    certCache := certCache
    operations := s.operations ++ [⟨s.calls, record⟩]
    calls := s.calls + 1
    intended := some record
    others := [] }

def step (s : StoredKey) : Event → Option StoredKey
  | .cacheCert cert =>
      if cert.cacheKey = cacheKey then
        some (s.startOperation (s.certCache.cacheCert cert) (some cert))
      else none
  | .clearCache => some (s.startOperation (s.certCache.clearCache cacheKey) none)
  | .fetchCert =>
      match s.certCache.getCert cacheKey with
      | some _ => some s
      | none => some { s with fetches := s.fetches ++ [.reading] }
  | .backendRead n =>
      match s.fetches[n]? with
      | some .reading => some { s with fetches := s.fetches.set n (.answered s.stored) }
      | _ => none
  | .backendReadFailed n =>
      match s.fetches[n]? with
      | some .reading => some { s with fetches := s.fetches.eraseIdx n }
      | _ => none
  | .fetchCertResumes n =>
      match s.fetches[n]? with
      | some (.answered stored) =>
          some { s with
            certCache := s.certCache.storeFetched cacheKey stored
            fetches := s.fetches.eraseIdx n }
      | _ => none
  | .backendCompleted n ok =>
      match s.operations[n]? with
      | some operation =>
          some { s with
            stored := if ok then operation.record else s.stored
            operations := s.operations.eraseIdx n }
      | none => none
  | .otherServer record => some { s with stored := record, others := s.others ++ [record] }

/-- A record is what the last call intended, or another server has left it since. -/
def Current (s : StoredKey) (intended record : Option CachedCertificate) : Prop :=
  record = intended ∨ record ∈ s.others

instance (s : StoredKey) (intended record : Option CachedCertificate) :
    Decidable (s.Current intended record) :=
  inferInstanceAs (Decidable (_ ∨ _))

/-- What `getCert` may return after the last call: the certificate that it cached, or, if it
cleared the cache, nothing or a record that another server has left since. -/
def MayReturn (s : StoredKey) (intended record : Option CachedCertificate) : Prop :=
  record = intended ∨ (intended = none ∧ record ∈ s.others)

instance (s : StoredKey) (intended record : Option CachedCertificate) :
    Decidable (s.MayReturn intended record) :=
  inferInstanceAs (Decidable (_ ∨ _))

/-- The memory holds what the last call intended, and so does the backend while no operation is
pending. -/
structure Coherent (s : StoredKey) : Prop where
  memory : ∀ intended, s.intended = some intended →
    s.MayReturn intended (s.certCache.getCert cacheKey)
  backend : ∀ intended, s.intended = some intended → s.operations = [] →
    s.Current intended s.stored

/-- The operation is the one of the last call. -/
def IsLast (s : StoredKey) (operation : Operation) : Prop := operation.call + 1 = s.calls

instance (s : StoredKey) (operation : Operation) : Decidable (s.IsLast operation) :=
  inferInstanceAs (Decidable (_ = _))

/-- The record that a read has found and that `fetchCert` puts into the memory. -/
def answer (s : StoredKey) (n : Nat) : Option CachedCertificate :=
  match s.fetches[n]? with
  | some (.answered stored) => stored
  | _ => none

/-- No fetch comes back with a record that `getCert` may not return, the operation of the last
call succeeds, and no earlier one undoes it after it has completed. -/
def InOrder (s : StoredKey) : Event → Prop
  | .fetchCertResumes n =>
      ∀ intended ∈ s.intended, ∀ record ∈ s.answer n, s.MayReturn intended (some record)
  | .backendCompleted n ok =>
      ∀ intended ∈ s.intended, ∀ operation ∈ s.operations[n]?,
        if s.IsLast operation then ok = true ∨ s.Current intended s.stored
        else (∃ last ∈ s.operations, s.IsLast last) ∨ ok = false ∨
          s.Current intended operation.record
  | _ => True

instance decidableInOrder : ∀ (s : StoredKey) (e : Event), Decidable (InOrder s e)
  | s, .fetchCertResumes n =>
      inferInstanceAs (Decidable (∀ intended ∈ s.intended, ∀ record ∈ s.answer n, _))
  | s, .backendCompleted n ok =>
      inferInstanceAs (Decidable (∀ intended ∈ s.intended, ∀ operation ∈ s.operations[n]?,
        if s.IsLast operation then ok = true ∨ s.Current intended s.stored
        else (∃ last ∈ s.operations, s.IsLast last) ∨ ok = false ∨
          s.Current intended operation.record))
  | _, .cacheCert _ | _, .clearCache | _, .fetchCert | _, .backendRead _
  | _, .backendReadFailed _ | _, .otherServer _ => inferInstanceAs (Decidable True)

/-- What orderly runs keep. -/
structure Inv (s : StoredKey) : Prop where
  memory : ∀ intended, s.intended = some intended →
    s.MayReturn intended (s.certCache.getCert cacheKey)
  backend : ∀ intended, s.intended = some intended →
    (∃ last ∈ s.operations, s.IsLast last) ∨ s.Current intended s.stored
  last : ∀ intended, s.intended = some intended →
    ∀ operation ∈ s.operations, s.IsLast operation → operation.record = intended
  numbered : ∀ operation ∈ s.operations, operation.call < s.calls

theorem inv_initial (certCache : PersistentCertCache) (stored : Option CachedCertificate) :
    Inv cacheKey (initial certCache stored) where
  memory _ h := by cases h
  backend _ h := by cases h
  last _ h := by cases h
  numbered _ h := by cases h

variable {cacheKey} {s t : StoredKey}

theorem Inv.coherent (h : Inv cacheKey s) : Coherent cacheKey s where
  memory := h.memory
  backend intended hintended hnone := by
    obtain ⟨last, hlast, -⟩ | hcurrent := h.backend intended hintended
    · rw [hnone] at hlast
      cases hlast
    · exact hcurrent

/-- A call sets the memory, and its operation is the last one. -/
theorem Inv.startOperation (h : Inv cacheKey s) {certCache : PersistentCertCache}
    {record : Option CachedCertificate} (hmemory : certCache.getCert cacheKey = record) :
    Inv cacheKey (s.startOperation certCache record) where
  memory intended hintended := by
    cases hintended
    exact .inl hmemory
  backend intended hintended := by
    refine .inl ⟨⟨s.calls, record⟩, ?_, rfl⟩
    exact List.mem_append_right _ (List.mem_singleton_self _)
  last intended hintended operation hmem hlast := by
    cases hintended
    rcases List.mem_append.mp hmem with hmem | hmem
    · have hlt : operation.call < s.calls := h.numbered operation hmem
      have heq : operation.call + 1 = s.calls + 1 := hlast
      omega
    · rw [List.mem_singleton.mp hmem]
  numbered operation hmem := by
    rcases List.mem_append.mp hmem with hmem | hmem
    · exact Nat.lt_succ_of_lt (h.numbered operation hmem)
    · rw [List.mem_singleton.mp hmem]
      exact Nat.lt_succ_self s.calls

/-- The invariant does not look at the fetches. -/
theorem Inv.setFetches (h : Inv cacheKey s) (fetches : List FetchPhase) :
    Inv cacheKey { s with fetches := fetches } :=
  ⟨h.memory, h.backend, h.last, h.numbered⟩

theorem Inv.fetchCertResumes (h : Inv cacheKey s) {n : Nat} {stored : Option CachedCertificate}
    (hfetch : s.fetches[n]? = some (.answered stored))
    (hok : InOrder s (.fetchCertResumes n)) :
    Inv cacheKey { s with
      certCache := s.certCache.storeFetched cacheKey stored
      fetches := s.fetches.eraseIdx n } := by
  refine ⟨fun intended hintended => ?_, h.backend, h.last, h.numbered⟩
  cases stored with
  | none => exact h.memory intended hintended
  | some record =>
      have hget : (s.certCache.storeFetched cacheKey (some record)).getCert cacheKey =
          some record := InsertionMap.get_set_self ..
      simp only [hget]
      apply hok intended hintended
      simp only [answer, hfetch, Option.mem_def]

/-- Another element than the one at an index stays when the index is erased. -/
theorem mem_eraseIdx_of_ne {α : Type*} {xs : List α} {n : Nat} {x y : α}
    (hx : xs[n]? = some x) (hy : y ∈ xs) (hne : y ≠ x) : y ∈ xs.eraseIdx n := by
  obtain ⟨m, hm⟩ := List.mem_iff_getElem?.mp hy
  have hmn : m ≠ n := by
    rintro rfl
    exact hne (Option.some.inj (hm.symm.trans hx))
  exact List.mem_eraseIdx_iff_getElem?.mpr ⟨m, hmn, hm⟩

/-- An operation that is completed, of the last call or after it. -/
theorem Inv.backendCompleted (h : Inv cacheKey s) {n : Nat} {ok : Bool} {operation : Operation}
    (hoperation : s.operations[n]? = some operation)
    (hok : InOrder s (.backendCompleted n ok)) :
    Inv cacheKey { s with
      stored := if ok then operation.record else s.stored
      operations := s.operations.eraseIdx n } where
  memory := h.memory
  backend intended hintended := by
    have hcompleted := hok intended hintended operation hoperation
    have hmem : operation ∈ s.operations := List.mem_of_getElem? hoperation
    split_ifs at hcompleted with hlast
    · -- The operation of the last call succeeds, or it is not missed.
      right
      cases ok with
      | true => exact .inl (h.last intended hintended operation hmem hlast)
      | false => exact hcompleted.resolve_left Bool.false_ne_true
    · by_cases hpending : ∃ last ∈ s.operations, s.IsLast last
      · obtain ⟨last, hmem', hlast'⟩ := hpending
        have hne : last ≠ operation := fun heq => hlast (heq ▸ hlast')
        exact .inl ⟨last, mem_eraseIdx_of_ne hoperation hmem' hne, hlast'⟩
      · right
        have hcurrent : s.Current intended s.stored :=
          (h.backend intended hintended).resolve_left hpending
        have hundone := hcompleted.resolve_left hpending
        cases ok with
        | true => exact hundone.resolve_left Bool.true_eq_false.mp
        | false => exact hcurrent
  last intended hintended other hmem :=
    h.last intended hintended other (List.mem_of_mem_eraseIdx hmem)
  numbered other hmem := h.numbered other (List.mem_of_mem_eraseIdx hmem)

theorem Inv.otherServer (h : Inv cacheKey s) (record : Option CachedCertificate) :
    Inv cacheKey { s with stored := record, others := s.others ++ [record] } where
  memory intended hintended := by
    obtain hmemory | ⟨hnone, hmemory⟩ := h.memory intended hintended
    · exact .inl hmemory
    · exact .inr ⟨hnone, List.mem_append_left _ hmemory⟩
  backend intended hintended := by
    right
    right
    exact List.mem_append_right _ (List.mem_singleton_self record)
  last := h.last
  numbered := h.numbered

theorem Inv.step {e : Event} (h : Inv cacheKey s) (hok : InOrder s e)
    (hstep : StoredKey.step cacheKey s e = some t) : Inv cacheKey t := by
  cases e with
  | cacheCert cert =>
      simp only [StoredKey.step] at hstep
      split_ifs at hstep with hkey
      cases hstep
      apply h.startOperation
      rw [← hkey]
      exact InsertionMap.get_set_self ..
  | clearCache =>
      cases hstep
      apply h.startOperation
      exact InsertionMap.get_delete_self ..
  | fetchCert =>
      simp only [StoredKey.step] at hstep
      split at hstep <;> cases hstep
      · exact h
      · exact h.setFetches _
  | backendRead n =>
      simp only [StoredKey.step] at hstep
      split at hstep <;> cases hstep
      exact h.setFetches _
  | backendReadFailed n =>
      simp only [StoredKey.step] at hstep
      split at hstep <;> cases hstep
      exact h.setFetches _
  | fetchCertResumes n =>
      simp only [StoredKey.step] at hstep
      split at hstep
      · next stored hfetch =>
          cases hstep
          exact h.fetchCertResumes hfetch hok
      · cases hstep
  | backendCompleted n ok =>
      simp only [StoredKey.step] at hstep
      split at hstep
      · next operation hoperation =>
          cases hstep
          exact h.backendCompleted hoperation hok
      · cases hstep
  | otherServer record =>
      cases hstep
      exact h.otherServer record

/-- In a run whose reads and operations come back in order, memory and backend are coherent in
every state, whatever they held at first. -/
theorem coherent_of_run {certCache : PersistentCertCache} {stored : Option CachedCertificate}
    {es : List Event}
    (hok : Guarded (step cacheKey) InOrder (initial certCache stored) es)
    (hrun : run (step cacheKey) (initial certCache stored) es = some s) :
    Coherent cacheKey s :=
  Inv.coherent (guarded_invariant (fun _ _ _ hs hok h => hs.step hok h)
    (inv_initial cacheKey certCache stored) hok hrun)

/-- The certificate is issued, cleared when it has run out, and then another server's record
is fetched. -/
theorem coherent_of_run_fetched :
    let key : JsString := [97]
    let cert : CachedCertificate := ⟨key, [116], [49], [50], 10⟩
    let other : CachedCertificate := ⟨key, [116], [51], [52], 20⟩
    ∃ s, run (step key) (initial ⟨.empty⟩ none)
        [.cacheCert cert, .backendCompleted 0 true, .clearCache, .backendCompleted 0 true,
          .otherServer (some other), .fetchCert, .backendRead 0, .fetchCertResumes 0] = some s ∧
      Coherent key s ∧ s.certCache.getCert key = some other := by
  intro key cert other
  refine ⟨_, rfl, ?_, rfl⟩
  have hok : Guarded (step key) InOrder (initial ⟨.empty⟩ none)
      [.cacheCert cert, .backendCompleted 0 true, .clearCache, .backendCompleted 0 true,
        .otherServer (some other), .fetchCert, .backendRead 0, .fetchCertResumes 0] := by
    decide
  exact coherent_of_run hok rfl

/-- A record that was cleared is back after a read that came before the delete. -/
theorem not_coherent_resurrected :
    let key : JsString := [97]
    ¬ ∀ es s, run (step key) (initial ⟨.empty⟩ none) es = some s → Coherent key s := by
  intro key h
  let cert : CachedCertificate := ⟨key, [116], [49], [50], 10⟩
  have hcoherent := h [.cacheCert cert, .backendCompleted 0 true, .clearCache, .fetchCert,
    .backendRead 0, .backendCompleted 0 true, .fetchCertResumes 0] _ rfl
  have hmemory := hcoherent.memory none rfl
  revert hmemory
  decide

end StoredKey

end TestServer.TlsCertificates
