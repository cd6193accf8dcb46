import TestServer.HttpbinCompat
import TestServer.InterimResponses

/-!
# What a multi-dict keeps

A multi-dict has the values of each key as long as no key is a name that `Object.prototype`
has. The reads of such a key find what it inherits, and `__proto__` is never a property.
-/

namespace TestServer

open Js Library Endpoints

namespace Multidict

/-- The value of a key for all its values in a list. -/
def collected : List JsString → Option DictValue
  | [] => none
  | [value] => some (.one (.text value))
  | values => some (.many (values.map .text))

/-- Each key of the list is a property with its single value, or with the array of its values,
and there are no others. -/
def KeepsValues (entries : List (JsString × JsString)) : Prop :=
  (∀ key, key ∈ (entriesToMultidict entries).own.keys ↔ key ∈ entries.map Prod.fst) ∧
    ∀ key ∈ entries.map Prod.fst,
      (entriesToMultidict entries).own.get key = collected (getAll entries key)

/-- An object groups the values of a list by their keys, each in order. -/
def Groups (entries : List (JsString × JsString)) (result : Multidict) : Prop :=
  (∀ key, key ∈ result.own.keys ↔ key ∈ entries.map Prod.fst) ∧
    ∀ key ∈ entries.map Prod.fst, result.own.get key = collected (getAll entries key)

/-- `Object.prototype` has no member of that name. -/
def IsOrdinary (key : JsString) : Prop := key ≠ protoKey ∧ key ∉ objectMethods

/-- The value of a key after one more text. -/
def extended (value : Option DictValue) (s : JsString) : DictValue :=
  match value with
  | none => .one (.text s)
  | some (.many elements) => .many (elements ++ [.text s])
  | some (.one element) => .many [element, .text s]

theorem collected_concat (values : List JsString) (s : JsString) :
    collected (values ++ [s]) = some (extended (collected values) s) := by
  match values with
  | [] => rfl
  | [_] => rfl
  | _ :: _ :: _ => simp [collected, extended]

theorem add_eq_assign (result : Multidict) (entry : JsString × JsString) :
    result.add entry = result.assign entry.1 (extended (result.read entry.1) entry.2) := by
  rw [add]
  cases result.read entry.1 with
  | none => rfl
  | some value => cases value <;> rfl

theorem assign_of_ne {key : JsString} (h : key ≠ protoKey) (result : Multidict)
    (value : DictValue) :
    result.assign key value = { result with own := result.own.set key value } := if_neg h

/-- Assigning `__proto__` changes no property. -/
theorem get_assign_protoKey (result : Multidict) (value : DictValue) (other : JsString) :
    (result.assign protoKey value).own.get other = result.own.get other := by
  rw [assign.eq_def, if_pos rfl]
  cases value <;> rfl

/-- Assigning a key does not change another property. -/
theorem get_assign_of_ne {key other : JsString} (h : other ≠ key) (result : Multidict)
    (value : DictValue) : (result.assign key value).own.get other = result.own.get other := by
  by_cases hproto : key = protoKey
  · rw [hproto, get_assign_protoKey]
  · rw [assign_of_ne hproto]
    exact InsertionMap.get_set_of_ne _ _ h

theorem entriesToMultidict_concat (entries : List (JsString × JsString))
    (entry : JsString × JsString) :
    entriesToMultidict (entries ++ [entry]) = (entriesToMultidict entries).add entry := by
  rw [entriesToMultidict, List.foldl_concat]
  rfl

theorem getAll_concat (entries : List (JsString × JsString)) (entry : JsString × JsString)
    (key : JsString) :
    getAll (entries ++ [entry]) key =
      getAll entries key ++ if entry.1 = key then [entry.2] else [] := by
  rw [getAll, getAll, List.filter_append, List.map_append]
  by_cases hkey : entry.1 = key
  · simp [hkey]
  · simp [hkey]

theorem getAll_eq_nil_iff {entries : List (JsString × JsString)} {key : JsString} :
    getAll entries key = [] ↔ key ∉ entries.map Prod.fst := by
  rw [getAll, List.map_eq_nil_iff, List.filter_eq_nil_iff]
  constructor
  · intro hnone hmem
    obtain ⟨entry, hentry, hkey⟩ := List.mem_map.mp hmem
    exact hnone entry hentry (decide_eq_true hkey)
  · intro hmem entry hentry hkey
    exact hmem (of_decide_eq_true hkey ▸ List.mem_map_of_mem hentry)

/-- An ordinary key inherits nothing. -/
theorem read_of_isOrdinary {result : Multidict} (hprototype : result.prototype = none)
    {key : JsString} (hkey : IsOrdinary key) : result.read key = result.own.get key := by
  rw [read, hprototype, inherited, if_neg hkey.1, if_neg hkey.2, Option.or_none]

theorem keeps_of_forall_isOrdinary {entries : List (JsString × JsString)}
    (h : ∀ key ∈ entries.map Prod.fst, IsOrdinary key) :
    (entriesToMultidict entries).prototype = none ∧
      ∀ key, (entriesToMultidict entries).own.get key = collected (getAll entries key) := by
  induction entries using List.reverseRecOn with
  | nil => exact ⟨rfl, fun _ => rfl⟩
  | append_singleton entries entry ih =>
      have hentry : IsOrdinary entry.1 := h _ (by simp)
      obtain ⟨hprototype, hget⟩ := ih fun key hkey => h key (by
        rw [List.map_append]
        exact List.mem_append_left _ hkey)
      rw [entriesToMultidict_concat, add_eq_assign, assign_of_ne hentry.1,
        read_of_isOrdinary hprototype hentry]
      refine ⟨hprototype, fun key => ?_⟩
      rw [InsertionMap.get_set, getAll_concat, hget]
      by_cases hkey : key = entry.1
      · rw [if_pos hkey, if_pos hkey.symm, collected_concat, hkey]
      · rw [if_neg hkey, if_neg (Ne.symm hkey), List.append_nil, hget]

/-- `__proto__` is no property of the object. -/
theorem get_protoKey (entries : List (JsString × JsString)) :
    (entriesToMultidict entries).own.get protoKey = none := by
  induction entries using List.reverseRecOn with
  | nil => rfl
  | append_singleton entries entry ih =>
      rw [entriesToMultidict_concat, add_eq_assign]
      by_cases hkey : entry.1 = protoKey
      · rw [hkey, get_assign_protoKey, ih]
      · rw [get_assign_of_ne (Ne.symm hkey), ih]

theorem ne_protoKey_of_mem_objectMethods {key : JsString} (h : key ∈ objectMethods) :
    key ≠ protoKey := by
  intro hkey
  rw [hkey] at h
  exact absurd h (by decide +kernel)

/-- Every object inherits its methods, also when it has an array as its prototype. -/
theorem inherited_of_mem_objectMethods {key : JsString} (h : key ∈ objectMethods)
    (prototype : Option (List DictElement)) : inherited prototype key = some (.one .function) := by
  have hproto := ne_protoKey_of_mem_objectMethods h
  have hlength : key ≠ js "length" := by
    intro hkey
    rw [hkey] at h
    exact absurd h (by decide +kernel)
  cases prototype with
  | none => rw [inherited, if_neg hproto, if_pos h]
  | some elements => rw [inherited, if_neg hproto, if_neg hlength, if_pos (.inl h)]

/-- The array of a method's name starts with the method. -/
theorem get_objectMethod {key : JsString} (h : key ∈ objectMethods)
    (entries : List (JsString × JsString)) :
    if key ∈ entries.map Prod.fst then
      ∃ rest, (entriesToMultidict entries).own.get key = some (.many (.function :: rest))
    else (entriesToMultidict entries).own.get key = none := by
  induction entries using List.reverseRecOn with
  | nil => exact rfl
  | append_singleton entries entry ih =>
      rw [entriesToMultidict_concat, add_eq_assign]
      by_cases hkey : entry.1 = key
      · rw [if_pos (by simp [hkey]), hkey, assign_of_ne (ne_protoKey_of_mem_objectMethods h),
          InsertionMap.get_set_self, read, inherited_of_mem_objectMethods h]
        split_ifs at ih
        · obtain ⟨rest, hrest⟩ := ih
          rw [hrest]
          exact ⟨rest ++ [.text entry.2], rfl⟩
        · rw [ih]
          exact ⟨[.text entry.2], rfl⟩
      · have hmem : key ∈ (entries ++ [entry]).map Prod.fst ↔ key ∈ entries.map Prod.fst := by
          simp [Ne.symm hkey]
        simp only [get_assign_of_ne (Ne.symm hkey), hmem]
        exact ih

theorem collected_ne_method (values : List JsString) (rest : List DictElement) :
    collected values ≠ some (.many (.function :: rest)) := by
  match values with
  | [] => nofun
  | [_] => nofun
  | _ :: _ :: _ => nofun

theorem collected_ne_none {values : List JsString} (h : values ≠ []) :
    collected values ≠ none := by
  match values with
  | [] => exact absurd rfl h
  | [_] => nofun
  | _ :: _ :: _ => nofun

theorem groups_entriesToMultidict_iff {entries : List (JsString × JsString)} :
    Groups entries (entriesToMultidict entries) ↔
      ∀ key ∈ entries.map Prod.fst, IsOrdinary key := by
  constructor
  · rintro ⟨-, hkeeps⟩ key hmem
    have hget := hkeeps key hmem
    constructor
    · intro hkey
      have hvalues : getAll entries key ≠ [] := fun hnil => getAll_eq_nil_iff.mp hnil hmem
      apply collected_ne_none hvalues
      rw [← hget, hkey, get_protoKey]
    · intro hmethod
      have hmany := get_objectMethod hmethod entries
      rw [if_pos hmem] at hmany
      obtain ⟨rest, hrest⟩ := hmany
      exact collected_ne_method _ rest (hget.symm.trans hrest)
  · intro h
    obtain ⟨-, hget⟩ := keeps_of_forall_isOrdinary h
    refine ⟨fun key => ?_, fun key _ => hget key⟩
    rw [← not_iff_not, ← InsertionMap.get_eq_none_iff, hget, ← getAll_eq_nil_iff]
    constructor
    · intro hnone
      by_contra hvalues
      exact collected_ne_none hvalues hnone
    · intro hnil
      rw [hnil]
      rfl

/-- All values are kept, for the keys that are no names of `Object.prototype`. -/
theorem keepsValues_iff (entries : List (JsString × JsString)) :
    KeepsValues entries ↔ ∀ key ∈ entries.map Prod.fst, IsOrdinary key :=
  groups_entriesToMultidict_iff

/-- The query `?toString=1` gives the inherited method before the value. -/
theorem not_keepsValues_method : ¬ KeepsValues [(js "toString", js "1")] := by
  rintro ⟨-, hkeeps⟩
  have hget := hkeeps (js "toString") (by simp)
  exact absurd hget (by decide +kernel)

end Multidict

end TestServer
