import TestServer.Js.Date
import TestServer.Js.Text
import TestServer.Library.InsertionMap

/-!
# The secure-context cache

`SecureContextCache` of `src/tls-certificates/secure-context-cache.ts`. A call of
`getOrCreate` looks its key up, and on a miss waits for its factory before it
makes room and stores the new context; other calls may run in between.
-/

namespace TestServer.TlsCertificates

open Js Library

/-- Keys of contexts; the caller's keys are never empty. -/
abbrev ContextKey := { key : JsString // key ≠ [] }

structure CacheEntry (γ : Type*) where
  context : γ
  expiry : Time
deriving DecidableEq

structure SecureContextCache (γ : Type*) where
  maxSize : Nat
  maxSize_pos : 0 < maxSize
  cache : InsertionMap ContextKey (CacheEntry γ)

def defaultMaxSize : Nat := 1000

namespace SecureContextCache

variable {γ : Type*}

def new : SecureContextCache γ := ⟨defaultMaxSize, by decide, .empty⟩

/-- The part of `getOrCreate` before the factory is called: a context that is still valid is
moved to the end and returned, one that is not is removed. -/
def lookup (c : SecureContextCache γ) (key : ContextKey) (now : Time) :
    Option γ × SecureContextCache γ :=
  match c.cache.get key with
  | some cached =>
      if cached.expiry > now then
        (some cached.context, { c with cache := (c.cache.delete key).set key cached })
      else (none, { c with cache := c.cache.delete key })
  | none => (none, c)

/-- Capped at a day, and at the expiry of the certificate unless that has passed already. -/
def maxExpiry (now expiry : Time) : Time :=
  if expiry ≤ now then now + oneDay else min expiry (now + oneDay)

/-- Remove the oldest entries until there is room for one more. -/
def evict (maxSize : Nat) : List (ContextKey × CacheEntry γ) → List (ContextKey × CacheEntry γ)
  | [] => []
  | e :: es => if (e :: es).length ≥ maxSize then evict maxSize es else e :: es

theorem evict_suffix (maxSize : Nat) (es : List (ContextKey × CacheEntry γ)) :
    evict maxSize es <:+ es := by
  induction es with
  | nil => exact List.suffix_refl []
  | cons e es ih =>
      simp only [evict]
      split_ifs
      · exact ih.trans (List.suffix_cons e es)
      · exact List.suffix_refl _

def makeRoom (c : SecureContextCache γ) : InsertionMap ContextKey (CacheEntry γ) :=
  ⟨evict c.maxSize c.cache.entries,
    c.cache.nodup.sublist ((evict_suffix c.maxSize c.cache.entries).sublist.map Prod.fst)⟩

/-- The part of `getOrCreate` after the factory has resolved; `now` is the time of the call. -/
def store (c : SecureContextCache γ) (key : ContextKey) (now : Time) (context : γ)
    (expiry : Time) : SecureContextCache γ :=
  { c with cache := c.makeRoom.set key ⟨context, maxExpiry now expiry⟩ }

theorem get_store (c : SecureContextCache γ) (key : ContextKey) (now : Time) (context : γ)
    (expiry : Time) :
    (c.store key now context expiry).cache.get key = some ⟨context, maxExpiry now expiry⟩ :=
  InsertionMap.get_set_self ..

/-- No context is kept for more than a day after the call that it was made for. -/
theorem maxExpiry_le (now expiry : Time) : maxExpiry now expiry ≤ now + oneDay := by
  rw [maxExpiry]
  split_ifs
  · exact le_refl _
  · exact min_le_right _ _

variable {c : SecureContextCache γ} {key k : ContextKey} {now : Time} {entry : CacheEntry γ}

/-- A lookup adds no entry. -/
theorem get_of_get_lookup (h : (c.lookup key now).2.cache.get k = some entry) :
    c.cache.get k = some entry := by
  rw [lookup] at h
  cases hget : c.cache.get key with
  | none =>
      rw [hget] at h
      exact h
  | some cached =>
      simp only [hget] at h
      split_ifs at h
      · rw [InsertionMap.get_set] at h
        split_ifs at h with hk
        · rw [hk, hget]
          exact h
        · rw [InsertionMap.get_delete_of_ne _ hk] at h
          exact h
      · rw [InsertionMap.get_delete] at h
        split_ifs at h
        exact h

/-- A context that a lookup returns is one of an entry that is still valid. -/
theorem lookup_eq_some {context : γ} (h : (c.lookup key now).1 = some context) :
    ∃ entry, c.cache.get key = some entry ∧ entry.context = context ∧ now < entry.expiry := by
  rw [lookup] at h
  cases hget : c.cache.get key with
  | none =>
      rw [hget] at h
      cases h
  | some cached =>
      simp only [hget] at h
      split_ifs at h with hvalid
      exact ⟨cached, rfl, Option.some.inj h, hvalid⟩

/-- Making room adds no entry. -/
theorem get_of_get_makeRoom (h : c.makeRoom.get k = some entry) : c.cache.get k = some entry := by
  rw [InsertionMap.get_eq_some_iff] at h ⊢
  exact (evict_suffix c.maxSize c.cache.entries).subset h

/-- After a store there is the new entry, and no other that was not there before. -/
theorem get_of_get_store {context : γ} {expiry : Time}
    (h : (c.store key now context expiry).cache.get k = some entry) :
    entry = ⟨context, maxExpiry now expiry⟩ ∨ c.cache.get k = some entry := by
  simp only [store, InsertionMap.get_set] at h
  split_ifs at h
  · exact .inl (Option.some.inj h).symm
  · exact .inr (get_of_get_makeRoom h)

end SecureContextCache

end TestServer.TlsCertificates
