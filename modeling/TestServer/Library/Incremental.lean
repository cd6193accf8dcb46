import Mathlib.Data.List.Basic

/-!
# Parsing a growing buffer

An incremental parser either needs more input, or gives a result and the input
that follows what it has parsed. A result does not change when more input
follows. Then it does not matter in which pieces the input is read.
-/

namespace TestServer.Library

/-- A parser whose results are stable under more input. -/
structure IncrementalParser (α β : Type*) where
  parse : List α → Option (β × List α)
  parse_append : ∀ {d b rest} (e : List α), parse d = some (b, rest) →
    parse (d ++ e) = some (b, rest ++ e)

/-- All input of a list of reads, some of which find nothing. -/
def received {α : Type*} (reads : List (Option (List α))) : List α :=
  (reads.map fun read => read.getD []).flatten

namespace IncrementalParser

variable {α β : Type*} (P : IncrementalParser α β)

/-- Parse the buffer after each read, up to the first result. The reads that follow are left. -/
def feed : List α → List (Option (List α)) → Option (β × List α × List (Option (List α)))
  | _, [] => none
  | buffered, read :: reads =>
      match P.parse (buffered ++ read.getD []) with
      | some (b, rest) => some (b, rest, reads)
      | none => feed (buffered ++ read.getD []) reads

/-- The result for the whole input is found whatever the reads, with what follows it. -/
theorem feed_of_parse {buffered rest : List α} {b : β} {reads : List (Option (List α))}
    (hnone : P.parse buffered = none)
    (h : P.parse (buffered ++ received reads) = some (b, rest)) :
    ∃ data unread, P.feed buffered reads = some (b, data, unread) ∧
      data ++ received unread = rest := by
  induction reads generalizing buffered with
  | nil =>
      simp only [received, List.map_nil, List.flatten_nil, List.append_nil] at h
      rw [hnone] at h
      cases h
  | cons read reads ih =>
      have hwhole : P.parse (buffered ++ read.getD [] ++ received reads) = some (b, rest) := by
        rw [List.append_assoc]
        exact h
      simp only [feed]
      cases hread : P.parse (buffered ++ read.getD []) with
      | none => exact ih hread hwhole
      | some result =>
          obtain ⟨b', data⟩ := result
          have hsame := P.parse_append (received reads) hread
          rw [hwhole, Option.some.injEq, Prod.mk.injEq] at hsame
          obtain ⟨rfl, hrest⟩ := hsame
          exact ⟨data, reads, rfl, hrest.symm⟩

end IncrementalParser

end TestServer.Library
