import TestServer.Js.UriEncode

/-!
# Segments of paths

The path of a URL has no segments `.` and `..`: the parser drops the one, and the other with the
segment before it. An escaped dot counts as a dot.
-/

namespace TestServer.Js

/-- The segments that stand for the current directory. -/
def singleDots : List JsString := [js ".", js "%2e", js "%2E"]

/-- The segments that stand for the parent directory. -/
def doubleDots : List JsString := singleDots.flatMap fun first => singleDots.map (first ++ ·)

/-- What a dropped segment leaves: an empty one at the end of the path. -/
def leftover (rest : List JsString) : List JsString := if rest.isEmpty then [[]] else []

/-- The segments of a URL's path, after those that are done. -/
def resolveSegments (done : List JsString) : List JsString → List JsString
  | [] => done
  | segment :: rest =>
      if segment ∈ doubleDots then resolveSegments (done.dropLast ++ leftover rest) rest
      else if segment ∈ singleDots then resolveSegments (done ++ leftover rest) rest
      else resolveSegments (done ++ [segment]) rest

/-- The path name that a rooted path is read as. -/
def resolvePath (path : JsString) : JsString :=
  join (js "/") ([] :: resolveSegments [] (split path (js "/")).tail)

example : resolvePath (js "/a/./b/../c/%2E") = js "/a/c/" := by decide +kernel

/-- A segment that is kept. -/
def Kept (segment : JsString) : Prop := segment ∉ doubleDots ∧ segment ∉ singleDots

instance (segment : JsString) : Decidable (Kept segment) := inferInstanceAs (Decidable (_ ∧ _))

section

variable {done segments : List JsString}

theorem resolveSegments_cons {segment : JsString} (h : Kept segment) (rest : List JsString) :
    resolveSegments done (segment :: rest) = resolveSegments (done ++ [segment]) rest := by
  rw [resolveSegments, if_neg h.1, if_neg h.2]

theorem resolveSegments_append (h : ∀ segment ∈ segments, Kept segment) (rest : List JsString) :
    resolveSegments done (segments ++ rest) = resolveSegments (done ++ segments) rest := by
  induction segments generalizing done with
  | nil => rw [List.nil_append, List.append_nil]
  | cons segment segments ih =>
      obtain ⟨hsegment, hsegments⟩ := List.forall_mem_cons.mp h
      rw [List.cons_append, resolveSegments_cons hsegment, ih hsegments, List.append_assoc]
      rfl

theorem resolveSegments_of_kept (h : ∀ segment ∈ segments, Kept segment) :
    resolveSegments done segments = done ++ segments := by
  have happend : resolveSegments done (segments ++ []) = resolveSegments (done ++ segments) [] :=
    resolveSegments_append h []
  rwa [List.append_nil] at happend

theorem length_leftover_le (rest : List JsString) : (leftover rest).length ≤ 1 := by
  rw [leftover]
  split_ifs <;> simp

/-- No segment is added. -/
theorem length_resolveSegments_le :
    (resolveSegments done segments).length ≤ done.length + segments.length := by
  induction segments generalizing done with
  | nil => exact le_rfl
  | cons segment rest ih =>
      have hleftover := length_leftover_le rest
      rw [resolveSegments]
      split_ifs
      · have hle := @ih (done.dropLast ++ leftover rest)
        simp only [List.length_append, List.length_dropLast, List.length_cons] at hle ⊢
        omega
      · have hle := @ih (done ++ leftover rest)
        simp only [List.length_append, List.length_cons] at hle ⊢
        omega
      · have hle := @ih (done ++ [segment])
        simp only [List.length_append, List.length_cons, List.length_nil] at hle ⊢
        omega

/-- What holds of all segments, and of an empty one, holds of those that are left. -/
theorem forall_mem_resolveSegments {P : JsString → Prop} (hnil : P [])
    (hdone : ∀ s ∈ done, P s) (hsegments : ∀ s ∈ segments, P s) :
    ∀ s ∈ resolveSegments done segments, P s := by
  induction segments generalizing done with
  | nil => exact hdone
  | cons segment rest ih =>
      obtain ⟨hsegment, hrest⟩ := List.forall_mem_cons.mp hsegments
      have hleftover : ∀ s ∈ leftover rest, P s := by
        rw [leftover]
        split_ifs
        · exact List.forall_mem_singleton.mpr hnil
        · exact List.forall_mem_nil P
      rw [resolveSegments]
      split_ifs
      · apply ih _ hrest
        exact List.forall_mem_append.mpr
          ⟨fun s hs => hdone s (List.mem_of_mem_dropLast hs), hleftover⟩
      · exact ih (List.forall_mem_append.mpr ⟨hdone, hleftover⟩) hrest
      · apply ih _ hrest
        exact List.forall_mem_append.mpr ⟨hdone, List.forall_mem_singleton.mpr hsegment⟩

end

/-- The segments of a path name are those that are left of the path. -/
theorem split_resolvePath (path : JsString) :
    split (resolvePath path) (js "/") = [] :: resolveSegments [] (split path (js "/")).tail := by
  apply split_join (js_ne_nil (by decide)) (List.cons_ne_nil _ _)
  have hslash : ∀ segment ∈ [] :: resolveSegments [] (split path (js "/")).tail,
      unit '/' ∉ segment := by
    refine List.forall_mem_cons.mpr ⟨List.not_mem_nil, ?_⟩
    apply forall_mem_resolveSegments (P := fun segment => unit '/' ∉ segment) List.not_mem_nil
      (List.forall_mem_nil _)
    exact fun segment hsegment => notMem_of_mem_split (List.mem_of_mem_tail hsegment)
  exact fun segment hsegment => uncut_of_notMem (hslash segment hsegment)

/-- A path without segments of dots is its own path name. -/
theorem resolvePath_of_kept {path : JsString} {segments : List JsString}
    (hpath : split path (js "/") = [] :: segments) (h : ∀ segment ∈ segments, Kept segment) :
    resolvePath path = path := by
  have htail : resolveSegments [] (split path (js "/")).tail = segments := by
    rw [hpath, List.tail_cons, resolveSegments_of_kept h, List.nil_append]
  rw [resolvePath, htail, ← hpath, join_split (js_ne_nil (by decide))]

namespace Text

/-- Every way of writing some dots is decoded to them. -/
theorem units_of_encoded_mem (t : Text) {dots : JsString} {segments : List JsString}
    (hdecode : ∀ segment ∈ segments, decodeURIComponent segment = some dots)
    (h : t.encoded ∈ segments) : t.units = dots := by
  have hdots := hdecode t.encoded h
  rw [t.decodeURIComponent_encoded] at hdots
  exact Option.some.inj hdots

/-- An encoded text stands for the current directory if it is a dot. -/
theorem encoded_mem_singleDots_iff (t : Text) : t.encoded ∈ singleDots ↔ t.units = js "." := by
  constructor
  · exact t.units_of_encoded_mem (by decide +kernel)
  · intro h
    have hencoded : t.encoded = t.units := t.encoded_eq_units_iff.mpr (by rw [h]; decide)
    rw [hencoded, h]
    decide

theorem encoded_mem_doubleDots_iff (t : Text) : t.encoded ∈ doubleDots ↔ t.units = js ".." := by
  constructor
  · exact t.units_of_encoded_mem (by decide +kernel)
  · intro h
    have hencoded : t.encoded = t.units := t.encoded_eq_units_iff.mpr (by rw [h]; decide)
    rw [hencoded, h]
    decide

end Text

end TestServer.Js
