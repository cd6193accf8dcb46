import TestServer.Endpoints.OptionRecords

/-!
# The order of endpoint parts

The configuration of a list of endpoint parts does not depend on their order,
apart from its ALPN preferences: for every order it is refused, or for every
order it has equal options.

## Implementation notes

Equal options are equal values under equal keys, where a zero has no sign. While
the options are merged, lists of versions are related by their elements, and
security levels are the same number.
-/

namespace TestServer.Endpoints.OptionRecords

open Js Library

/-- Values that are not told apart. -/
def EqualValues (a b : Option OptionValue) : Prop :=
  a.map OptionValue.unsigned = b.map OptionValue.unsigned

def EqualRecords (s t : Record) : Prop := ∀ key, EqualValues (s.get key) (t.get key)

namespace OptionValue

theorem operand_unsigned (v : OptionValue) : v.unsigned.operand = v.operand := by
  rcases v with _ | _ | (_ | _ | _) | _ | _ | _ | _ | _ <;> rfl

/-- A bitwise operator does not tell equal values apart. -/
theorem operand_congr {v w : OptionValue} (h : v.unsigned = w.unsigned) :
    v.operand = w.operand := by
  rw [← operand_unsigned, h, operand_unsigned]

theorem unsigned_eq_nan_iff {v : OptionValue} : v.unsigned = .number none ↔ v = .number none := by
  rcases v with _ | _ | (_ | _ | _) | _ | _ | _ | _ | _ <;> simp [unsigned]

theorem unsigned_eq_strs_iff {v : OptionValue} {l : List JsString} :
    v.unsigned = .strs l ↔ v = .strs l := by
  rcases v with _ | _ | (_ | _ | _) | _ | _ | _ | _ | _ <;> simp [unsigned]

theorem unsigned_eq_null_iff {v : OptionValue} : v.unsigned = .null ↔ v = .null := by
  rcases v with _ | _ | (_ | _ | _) | _ | _ | _ | _ | _ <;> simp [unsigned]

theorem unsigned_eq_bool_iff {v : OptionValue} {b : Bool} : v.unsigned = .bool b ↔ v = .bool b := by
  rcases v with _ | _ | (_ | _ | _) | _ | _ | _ | _ | _ <;> simp [unsigned]

theorem unsigned_eq_str_iff {v : OptionValue} {c : JsString} : v.unsigned = .str c ↔ v = .str c := by
  rcases v with _ | _ | (_ | _ | _) | _ | _ | _ | _ | _ <;> simp [unsigned]

theorem strictEq_iff {v w : OptionValue} :
    v.strictEq w = true ↔
      v.unsigned ≠ .number none ∧ (∀ l, v.unsigned ≠ .strs l) ∧ v.unsigned = w.unsigned := by
  rw [Ne, unsigned_eq_nan_iff]
  simp only [Ne, unsigned_eq_strs_iff]
  rcases v with _ | _ | (_ | _ | _) | _ | _ | _ | _ | _ <;> simp [strictEq]

/-- Strict equality does not tell equal values apart. -/
theorem strictEq_congr {v w x : OptionValue} (h : v.unsigned = w.unsigned) :
    v.strictEq x = w.strictEq x := by
  rw [Bool.eq_iff_iff, strictEq_iff, strictEq_iff, h]

theorem strictEq_comm (v w : OptionValue) : v.strictEq w = w.strictEq v := by
  rw [Bool.eq_iff_iff, strictEq_iff, strictEq_iff]
  constructor
  · rintro ⟨hnan, hstrs, heq⟩
    rw [heq] at hnan hstrs
    exact ⟨hnan, hstrs, heq.symm⟩
  · rintro ⟨hnan, hstrs, heq⟩
    rw [heq] at hnan hstrs
    exact ⟨hnan, hstrs, heq.symm⟩

end OptionValue

/-- What a field holds after a value has been merged into it. -/
def mergedValue (key : JsString) (own : Option OptionValue) (value : OptionValue) :
    Except Refusal OptionValue :=
  match own.or (inheritedValue key) with
  | none => .ok value
  | some existing =>
      match fieldCombiner key with
      | some combine => combine existing value
      | none =>
          if existing.strictEq value then .ok existing
          else .error (.conflict key existing value)

theorem inheritedValue_of_exclusive {key : JsString} (h : fieldCombiner key = none) :
    inheritedValue key = none := by
  rw [fieldCombiner] at h
  split_ifs at h with hversions hlevel hinherited
  exact if_neg hinherited

/-- A field is merged into its own cell. -/
theorem mergeField_some (acc : Record) (key : JsString) (value : OptionValue) :
    mergeField acc key (some value) = mergeCell mergedValue acc (key, value) := by
  rw [mergeField, mergeCell, mergedValue]
  cases hread : (acc.get key).or (inheritedValue key) with
  | none => rfl
  | some existing =>
      cases hcombine : fieldCombiner key with
      | some combine => rfl
      | none =>
          have hown : acc.get key = some existing := by
            rw [inheritedValue_of_exclusive hcombine, Option.or_none] at hread
            exact hread
          dsimp only
          split_ifs with hsame
          · exact congrArg Except.ok (InsertionMap.set_of_get_eq hown).symm
          · rfl

/-- What is left open about a field while options are merged. -/
def FieldRelated (key : JsString) (a b : Option OptionValue) : Prop :=
  if key = js "enabledVersions" then
    (a = none ∧ b = none) ∨
      ∃ l m, a = some (.strs l) ∧ b = some (.strs m) ∧ ∀ version, version ∈ l ↔ version ∈ m
  else if key = js "securityLevel" then a = b ∧ ∀ v, a = some v → ∃ n, v = .number n
  else EqualValues a b

theorem mergedValue_versions (own : Option OptionValue) (value : OptionValue) :
    mergedValue (js "enabledVersions") own value =
      match own with
      | none => .ok value
      | some existing => concatVersions existing value := by
  cases own <;> rfl

theorem mergedValue_level (own : Option OptionValue) (value : OptionValue) :
    mergedValue (js "securityLevel") own value =
      match own with
      | none => .ok value
      | some existing => minLevel existing value := by
  cases own <;> rfl

theorem fieldRelated_versions {a b : Option OptionValue} :
    FieldRelated (js "enabledVersions") a b ↔ (a = none ∧ b = none) ∨
      ∃ l m, a = some (.strs l) ∧ b = some (.strs m) ∧ ∀ version, version ∈ l ↔ version ∈ m := by
  rw [FieldRelated, if_pos rfl]

theorem fieldRelated_level {a b : Option OptionValue} :
    FieldRelated (js "securityLevel") a b ↔ a = b ∧ ∀ v, a = some v → ∃ n, v = .number n := by
  rw [FieldRelated, if_neg (by decide), if_pos rfl]

theorem fieldRelated_other {key : JsString} (hversions : key ≠ js "enabledVersions")
    (hlevel : key ≠ js "securityLevel") {a b : Option OptionValue} :
    FieldRelated key a b ↔ EqualValues a b := by
  rw [FieldRelated, if_neg hversions, if_neg hlevel]

theorem fieldRelated_none (key : JsString) : FieldRelated key none none := by
  rw [FieldRelated]
  split_ifs
  · exact .inl ⟨rfl, rfl⟩
  · exact ⟨rfl, fun _ h => by cases h⟩
  · exact rfl

/-- Related fields are equal unless they list versions. -/
theorem FieldRelated.equal {key : JsString} {a b : Option OptionValue}
    (h : FieldRelated key a b) (hversions : key ≠ js "enabledVersions") : EqualValues a b := by
  by_cases hlevel : key = js "securityLevel"
  · subst hlevel
    rw [(fieldRelated_level.mp h).1]
    exact rfl
  · exact (fieldRelated_other hversions hlevel).mp h

theorem versions_congr {a b : Option OptionValue} {v : OptionValue}
    (hab : FieldRelated (js "enabledVersions") a b) (hv : TlsField (js "enabledVersions") v) :
    Alike (fun x y => FieldRelated (js "enabledVersions") (some x) (some y))
      (mergedValue (js "enabledVersions") a v) (mergedValue (js "enabledVersions") b v) := by
  obtain ⟨versions, rfl⟩ : ∃ versions, v = .strs versions := by
    rwa [TlsField, if_pos rfl] at hv
  rw [mergedValue_versions, mergedValue_versions]
  rcases fieldRelated_versions.mp hab with ⟨rfl, rfl⟩ | ⟨l, m, rfl, rfl, hlm⟩
  · exact fieldRelated_versions.mpr (.inr ⟨_, _, rfl, rfl, fun _ => Iff.rfl⟩)
  · refine fieldRelated_versions.mpr (.inr ⟨_, _, rfl, rfl, fun version => ?_⟩)
    rw [List.mem_append, List.mem_append, hlm]

theorem versions_swap {a : Option OptionValue} {v w : OptionValue}
    (ha : FieldRelated (js "enabledVersions") a a) (hv : TlsField (js "enabledVersions") v)
    (hw : TlsField (js "enabledVersions") w) :
    Alike (fun x y => FieldRelated (js "enabledVersions") (some x) (some y))
      (mergedValue (js "enabledVersions") a v >>= fun x =>
        mergedValue (js "enabledVersions") (some x) w)
      (mergedValue (js "enabledVersions") a w >>= fun x =>
        mergedValue (js "enabledVersions") (some x) v) := by
  obtain ⟨versions, rfl⟩ : ∃ versions, v = .strs versions := by
    rwa [TlsField, if_pos rfl] at hv
  obtain ⟨others, rfl⟩ : ∃ versions, w = .strs versions := by
    rwa [TlsField, if_pos rfl] at hw
  simp only [mergedValue_versions]
  rcases fieldRelated_versions.mp ha with ⟨rfl, -⟩ | ⟨l, m, rfl, -, -⟩
  · refine fieldRelated_versions.mpr (.inr ⟨_, _, rfl, rfl, fun version => ?_⟩)
    rw [List.mem_append, List.mem_append, or_comm]
  · refine fieldRelated_versions.mpr (.inr ⟨_, _, rfl, rfl, fun version => ?_⟩)
    simp only [List.mem_append]
    rw [or_right_comm]

theorem level_congr {a b : Option OptionValue} {v : OptionValue}
    (hab : FieldRelated (js "securityLevel") a b) (hv : TlsField (js "securityLevel") v) :
    Alike (fun x y => FieldRelated (js "securityLevel") (some x) (some y))
      (mergedValue (js "securityLevel") a v) (mergedValue (js "securityLevel") b v) := by
  obtain ⟨level, rfl⟩ : ∃ level, v = .number level := by
    rwa [TlsField, if_neg (by decide), if_pos rfl] at hv
  obtain ⟨rfl, ha⟩ := fieldRelated_level.mp hab
  rw [mergedValue_level]
  cases a with
  | none => exact fieldRelated_level.mpr ⟨rfl, by rintro _ ⟨⟩; exact ⟨level, rfl⟩⟩
  | some existing =>
      obtain ⟨n, rfl⟩ := ha existing rfl
      exact fieldRelated_level.mpr ⟨rfl, by rintro _ ⟨⟩; exact ⟨_, rfl⟩⟩

theorem level_swap {a : Option OptionValue} {v w : OptionValue}
    (ha : FieldRelated (js "securityLevel") a a) (hv : TlsField (js "securityLevel") v)
    (hw : TlsField (js "securityLevel") w) :
    Alike (fun x y => FieldRelated (js "securityLevel") (some x) (some y))
      (mergedValue (js "securityLevel") a v >>= fun x =>
        mergedValue (js "securityLevel") (some x) w)
      (mergedValue (js "securityLevel") a w >>= fun x =>
        mergedValue (js "securityLevel") (some x) v) := by
  obtain ⟨level, rfl⟩ : ∃ level, v = .number level := by
    rwa [TlsField, if_neg (by decide), if_pos rfl] at hv
  obtain ⟨other, rfl⟩ : ∃ level, w = .number level := by
    rwa [TlsField, if_neg (by decide), if_pos rfl] at hw
  obtain ⟨-, ha⟩ := fieldRelated_level.mp ha
  simp only [mergedValue_level]
  cases a with
  | none =>
      refine fieldRelated_level.mpr ⟨?_, by rintro _ ⟨⟩; exact ⟨_, rfl⟩⟩
      rw [mathMin_comm]
  | some existing =>
      obtain ⟨n, rfl⟩ := ha existing rfl
      refine fieldRelated_level.mpr ⟨?_, by rintro _ ⟨⟩; exact ⟨_, rfl⟩⟩
      rw [mathMin_right_comm]

theorem mergedValue_inherited {key : JsString} (hversions : key ≠ js "enabledVersions")
    (hlevel : key ≠ js "securityLevel") (hkey : key ∈ objectPrototype)
    (own : Option OptionValue) (value : OptionValue) :
    mergedValue key own value = inheritedCombiner key (own.getD (.inherited key)) := by
  have hread : own.or (inheritedValue key) = some (own.getD (.inherited key)) := by
    rw [inheritedValue, if_pos hkey]
    cases own <;> rfl
  have hcombine : fieldCombiner key = some fun existing _ => inheritedCombiner key existing := by
    rw [fieldCombiner, if_neg hversions, if_neg hlevel, if_pos hkey]
  rw [mergedValue, hread]
  dsimp only
  rw [hcombine]

theorem mergedValue_exclusive {key : JsString} (hversions : key ≠ js "enabledVersions")
    (hlevel : key ≠ js "securityLevel") (hkey : key ∉ objectPrototype)
    (own : Option OptionValue) (value : OptionValue) :
    mergedValue key own value =
      match own with
      | none => .ok value
      | some existing =>
          if existing.strictEq value then .ok existing
          else .error (.conflict key existing value) := by
  have hcombine : fieldCombiner key = none := by
    rw [fieldCombiner, if_neg hversions, if_neg hlevel, if_neg hkey]
  rw [mergedValue, inheritedValue, if_neg hkey, Option.or_none]
  cases own with
  | none => rfl
  | some existing =>
      dsimp only
      rw [hcombine]

theorem inheritedCombiner_congr (key : JsString) {v w : OptionValue}
    (h : v.unsigned = w.unsigned) :
    Alike (fun x y => EqualValues (some x) (some y)) (inheritedCombiner key v)
      (inheritedCombiner key w) := by
  rw [inheritedCombiner, inheritedCombiner]
  split_ifs
  · exact rfl
  · exact congrArg some h
  · trivial

theorem EqualValues.cases {a b : Option OptionValue} (h : EqualValues a b) :
    (a = none ∧ b = none) ∨ ∃ v w, a = some v ∧ b = some w ∧ v.unsigned = w.unsigned := by
  cases a with
  | none =>
      cases b with
      | none => exact .inl ⟨rfl, rfl⟩
      | some w => cases h
  | some v =>
      cases b with
      | none => cases h
      | some w => exact .inr ⟨v, w, rfl, rfl, Option.some.inj h⟩

theorem other_congr {key : JsString} {a b : Option OptionValue} (v : OptionValue)
    (hversions : key ≠ js "enabledVersions") (hlevel : key ≠ js "securityLevel")
    (hab : EqualValues a b) :
    Alike (fun x y => EqualValues (some x) (some y)) (mergedValue key a v)
      (mergedValue key b v) := by
  by_cases hkey : key ∈ objectPrototype
  · rw [mergedValue_inherited hversions hlevel hkey, mergedValue_inherited hversions hlevel hkey]
    apply inheritedCombiner_congr
    obtain ⟨rfl, rfl⟩ | ⟨v, w, rfl, rfl, hvw⟩ := hab.cases
    · rfl
    · exact hvw
  · rw [mergedValue_exclusive hversions hlevel hkey, mergedValue_exclusive hversions hlevel hkey]
    obtain ⟨rfl, rfl⟩ | ⟨x, y, rfl, rfl, hxy⟩ := hab.cases
    · exact rfl
    · dsimp only
      rw [OptionValue.strictEq_congr hxy]
      split_ifs
      · exact congrArg some hxy
      · trivial

theorem other_swap {key : JsString} (a : Option OptionValue) (v w : OptionValue)
    (hversions : key ≠ js "enabledVersions") (hlevel : key ≠ js "securityLevel") :
    Alike (fun x y => EqualValues (some x) (some y))
      (mergedValue key a v >>= fun x => mergedValue key (some x) w)
      (mergedValue key a w >>= fun x => mergedValue key (some x) v) := by
  by_cases hkey : key ∈ objectPrototype
  · simp only [mergedValue_inherited hversions hlevel hkey]
    -- The value that is merged plays no part.
    apply (inheritedCombiner_congr key rfl).bind
    intro x y hxy
    exact inheritedCombiner_congr key (Option.some.inj hxy)
  · simp only [mergedValue_exclusive hversions hlevel hkey]
    cases a with
    | none =>
        simp only [bind, Except.bind]
        rw [OptionValue.strictEq_comm w v]
        split_ifs with hsame
        · exact congrArg some (OptionValue.strictEq_iff.mp hsame).2.2
        · trivial
    | some existing =>
        by_cases hv : existing.strictEq v = true
        · by_cases hw : existing.strictEq w = true
          · simp only [bind, Except.bind, if_pos hv, if_pos hw]
            exact rfl
          · simp only [bind, Except.bind, if_pos hv, if_neg hw]
            trivial
        · by_cases hw : existing.strictEq w = true
          · simp only [bind, Except.bind, if_neg hv, if_pos hw]
            trivial
          · simp only [bind, Except.bind, if_neg hv, if_neg hw]
            trivial

theorem FieldRelated.symm {key : JsString} {a b : Option OptionValue}
    (h : FieldRelated key a b) : FieldRelated key b a := by
  by_cases hversions : key = js "enabledVersions"
  · subst hversions
    rw [fieldRelated_versions] at h ⊢
    rcases h with ⟨ha, hb⟩ | ⟨l, m, ha, hb, hlm⟩
    · exact .inl ⟨hb, ha⟩
    · exact .inr ⟨m, l, hb, ha, fun version => (hlm version).symm⟩
  · by_cases hlevel : key = js "securityLevel"
    · subst hlevel
      rw [fieldRelated_level] at h ⊢
      obtain ⟨rfl, hnumber⟩ := h
      exact ⟨rfl, hnumber⟩
    · rw [fieldRelated_other hversions hlevel] at h ⊢
      exact Eq.symm h

theorem FieldRelated.trans {key : JsString} {a b c : Option OptionValue}
    (h : FieldRelated key a b) (h' : FieldRelated key b c) : FieldRelated key a c := by
  by_cases hversions : key = js "enabledVersions"
  · subst hversions
    rw [fieldRelated_versions] at h h' ⊢
    rcases h with ⟨ha, hb⟩ | ⟨l, m, ha, hb, hlm⟩
    · rcases h' with ⟨-, hc⟩ | ⟨_, _, hb', -⟩
      · exact .inl ⟨ha, hc⟩
      · rw [hb] at hb'
        cases hb'
    · rcases h' with ⟨hb', -⟩ | ⟨l', m', hb', hc, hlm'⟩
      · rw [hb] at hb'
        cases hb'
      · rw [hb] at hb'
        cases hb'
        exact .inr ⟨l, m', ha, hc, fun version => (hlm version).trans (hlm' version)⟩
  · by_cases hlevel : key = js "securityLevel"
    · subst hlevel
      rw [fieldRelated_level] at h h' ⊢
      exact ⟨h.1.trans h'.1, h.2⟩
    · rw [fieldRelated_other hversions hlevel] at h h' ⊢
      exact Eq.trans h h'

/-- The TLS options can be merged in any order. -/
theorem anyOrderCells_tls : AnyOrderCells FieldRelated TlsField mergedValue where
  symm := FieldRelated.symm
  trans := FieldRelated.trans
  congr {key a b v} hab hv := by
    by_cases hversions : key = js "enabledVersions"
    · subst hversions
      exact versions_congr hab hv
    · by_cases hlevel : key = js "securityLevel"
      · subst hlevel
        exact level_congr hab hv
      · simp only [fieldRelated_other hversions hlevel] at hab ⊢
        exact other_congr v hversions hlevel hab
  swap {key a v w} ha hv hw := by
    by_cases hversions : key = js "enabledVersions"
    · subst hversions
      exact versions_swap ha hv hw
    · by_cases hlevel : key = js "securityLevel"
      · subst hlevel
        exact level_swap ha hv hw
      · simp only [fieldRelated_other hversions hlevel]
        exact other_swap a v w hversions hlevel

/-- The same of certificate options, which never list versions. -/
def CertRelated (key : JsString) (a b : Option OptionValue) : Prop :=
  (key = js "enabledVersions" → a = none) ∧ FieldRelated key a b

theorem CertRelated.right {key : JsString} {a b : Option OptionValue} (h : CertRelated key a b)
    (hkey : key = js "enabledVersions") : b = none := by
  obtain ⟨ha, hab⟩ := h
  subst hkey
  rw [ha rfl, fieldRelated_versions] at hab
  rcases hab with ⟨-, hb⟩ | ⟨_, _, hnone, -⟩
  · exact hb
  · cases hnone

theorem alike_cert {key : JsString} (hkey : key ≠ js "enabledVersions")
    {x y : Except Refusal OptionValue}
    (h : Alike (fun x y => FieldRelated key (some x) (some y)) x y) :
    Alike (fun x y => CertRelated key (some x) (some y)) x y := by
  cases x <;> cases y
  · trivial
  · cases h
  · cases h
  · exact ⟨fun heq => absurd heq hkey, h⟩

/-- The certificate options can be merged in any order. -/
theorem anyOrderCells_cert : AnyOrderCells CertRelated CertField mergedValue where
  symm h := ⟨h.right, h.2.symm⟩
  trans h h' := ⟨h.1, h.2.trans h'.2⟩
  congr hab hv := alike_cert hv.1 (anyOrderCells_tls.congr hab.2 hv.2)
  swap ha hv hw := alike_cert hv.1 (anyOrderCells_tls.swap ha.2 hv.2 hw.2)

/-- The fields of a contribution that are defined. -/
def definedFields (contribution : Contribution) : List (JsString × OptionValue) :=
  contribution.filterMap fun entry => entry.2.map fun value => (entry.1, value)

theorem mergeContribution_eq (acc : Record) (contribution : Contribution) :
    mergeContribution acc contribution =
      (definedFields contribution).foldlM (mergeCell mergedValue) acc := by
  induction contribution generalizing acc with
  | nil => rfl
  | cons entry contribution ih =>
      obtain ⟨key, value⟩ := entry
      cases value with
      | none => exact ih acc
      | some value =>
          have hfields : definedFields ((key, some value) :: contribution) =
              (key, value) :: definedFields contribution := rfl
          rw [mergeContribution, List.foldlM_cons, mergeField_some, hfields, List.foldlM_cons]
          exact congrArg _ (funext ih)

theorem mem_definedFields {contribution : Contribution} {field : JsString × OptionValue} :
    field ∈ definedFields contribution ↔ (field.1, some field.2) ∈ contribution := by
  simp only [definedFields, List.mem_filterMap, Option.map_eq_some_iff]
  constructor
  · rintro ⟨⟨key, _⟩, hentry, value, rfl, rfl⟩
    exact hentry
  · intro hentry
    exact ⟨_, hentry, field.2, rfl, rfl⟩

/-- Contributions merge in any order. -/
theorem mergeContribution_perm {S : JsString → Option OptionValue → Option OptionValue → Prop}
    {V : JsString → OptionValue → Prop} (hcells : AnyOrderCells S V mergedValue)
    {contribution other : Contribution} (hperm : contribution.Perm other)
    (hfields : ∀ key value, (key, some value) ∈ contribution → V key value) {acc : Record}
    (hacc : CellsRelated S acc acc) :
    Alike (CellsRelated S) (mergeContribution acc contribution) (mergeContribution acc other) := by
  rw [mergeContribution_eq, mergeContribution_eq]
  apply hcells.anyOrder.foldlM_perm (hperm.filterMap _) _ hacc
  intro field hfield
  exact hfields _ _ (mem_definedFields.mp hfield)

section

variable {endpoints : List TlsEndpoint}

def certContributions (es : List TlsEndpoint) : Contribution :=
  es.flatMap TlsEndpoint.configureCertOptions

def tlsContributions (es : List TlsEndpoint) : Contribution :=
  es.flatMap TlsEndpoint.configureTlsOptions

theorem mergeContribution_append (acc : Record) (contribution other : Contribution) :
    mergeContribution acc (contribution ++ other) =
      mergeContribution acc contribution >>= fun m => mergeContribution m other :=
  List.foldlM_append

theorem mergePart_eq_ok_iff {acc m : Merged} {part : JsString} :
    mergePart endpoints acc part = .ok m ↔
      ∃ e, findEndpoint endpoints part = some e ∧
        mergeContribution acc.certOptions e.configureCertOptions = .ok m.certOptions ∧
        mergeContribution acc.tlsOptions e.configureTlsOptions = .ok m.tlsOptions ∧
        m.alpnPreferences = e.configureAlpnPreferences acc.alpnPreferences := by
  obtain ⟨cert, tls, alpn⟩ := m
  rw [mergePart]
  cases hfind : findEndpoint endpoints part with
  | none => simp
  | some e =>
      simp only [bind_ok_iff, Option.some.injEq, exists_eq_left', pure, Except.pure,
        Except.ok.injEq, Merged.mk.injEq]
      constructor
      · rintro ⟨_, hcert, _, htls, rfl, rfl, rfl⟩
        exact ⟨hcert, htls, rfl⟩
      · rintro ⟨hcert, htls, halpn⟩
        exact ⟨_, hcert, _, htls, rfl, rfl, halpn.symm⟩

/-- The loop over the parts merges what the endpoints of all parts contribute. -/
theorem foldlM_mergePart_eq_ok_iff {parts : List JsString} {acc m : Merged} :
    parts.foldlM (mergePart endpoints) acc = .ok m ↔
      ∃ es, parts.mapM (findEndpoint endpoints) = some es ∧
        mergeContribution acc.certOptions (certContributions es) = .ok m.certOptions ∧
        mergeContribution acc.tlsOptions (tlsContributions es) = .ok m.tlsOptions ∧
        m.alpnPreferences =
          es.foldl (fun alpn e => e.configureAlpnPreferences alpn) acc.alpnPreferences := by
  induction parts generalizing acc with
  | nil =>
      obtain ⟨cert, tls, alpn⟩ := m
      obtain ⟨cert', tls', alpn'⟩ := acc
      simp [certContributions, tlsContributions, mergeContribution, pure, Except.pure, eq_comm]
  | cons part parts ih =>
      rw [List.foldlM_cons, bind_ok_iff]
      constructor
      · rintro ⟨n, hone, hrest⟩
        obtain ⟨e, he, hcert, htls, halpn⟩ := mergePart_eq_ok_iff.mp hone
        obtain ⟨es, hes, hcerts, htlss, halpns⟩ := ih.mp hrest
        refine ⟨e :: es, mapM_cons_eq_some_iff.mpr ⟨e, es, he, hes, rfl⟩, ?_, ?_, ?_⟩
        · rw [certContributions, List.flatMap_cons, mergeContribution_append, bind_ok_iff]
          exact ⟨_, hcert, hcerts⟩
        · rw [tlsContributions, List.flatMap_cons, mergeContribution_append, bind_ok_iff]
          exact ⟨_, htls, htlss⟩
        · rw [List.foldl_cons, ← halpn]
          exact halpns
      · rintro ⟨_, hall, hcerts, htlss, halpns⟩
        obtain ⟨e, es, he, hes, rfl⟩ := mapM_cons_eq_some_iff.mp hall
        rw [certContributions, List.flatMap_cons, mergeContribution_append, bind_ok_iff] at hcerts
        rw [tlsContributions, List.flatMap_cons, mergeContribution_append, bind_ok_iff] at htlss
        obtain ⟨cert, hcert, hcerts⟩ := hcerts
        obtain ⟨tls, htls, htlss⟩ := htlss
        refine ⟨⟨cert, tls, e.configureAlpnPreferences acc.alpnPreferences⟩, ?_, ?_⟩
        · exact mergePart_eq_ok_iff.mpr ⟨e, he, hcert, htls, rfl⟩
        · exact ih.mpr ⟨es, hes, hcerts, htlss, halpns⟩

/-- Permuted parts merge alike. -/
theorem foldlM_mergePart_perm {parts other : List JsString} (hperm : parts.Perm other)
    {m : Merged} (h : parts.foldlM (mergePart endpoints) .initial = .ok m) :
    ∃ n, other.foldlM (mergePart endpoints) .initial = .ok n ∧
      CellsRelated CertRelated m.certOptions n.certOptions ∧
      CellsRelated FieldRelated m.tlsOptions n.tlsOptions := by
  obtain ⟨es, hes, hcert, htls, -⟩ := foldlM_mergePart_eq_ok_iff.mp h
  obtain ⟨fs, hfs, hesfs⟩ := mapM_perm hperm hes
  have hcerts : Alike (CellsRelated CertRelated)
      (mergeContribution .empty (certContributions es))
      (mergeContribution .empty (certContributions fs)) := by
    apply mergeContribution_perm anyOrderCells_cert (hesfs.flatMap_right _)
    · intro key value hmem
      obtain ⟨e, -, hfield⟩ := List.mem_flatMap.mp hmem
      exact e.certFields key value hfield
    · intro key
      exact ⟨fun _ => rfl, fieldRelated_none key⟩
  have htlss : Alike (CellsRelated FieldRelated)
      (mergeContribution .empty (tlsContributions es))
      (mergeContribution .empty (tlsContributions fs)) := by
    apply mergeContribution_perm anyOrderCells_tls (hesfs.flatMap_right _)
    · intro key value hmem
      obtain ⟨e, -, hfield⟩ := List.mem_flatMap.mp hmem
      exact e.tlsFields key value hfield
    · exact fieldRelated_none
  obtain ⟨cert, hcert', hrelated⟩ := hcerts.exists_ok hcert
  obtain ⟨tls, htls', hrelated'⟩ := htlss.exists_ok htls
  exact ⟨⟨cert, tls, _⟩, foldlM_mergePart_eq_ok_iff.mpr ⟨fs, hfs, hcert', htls', rfl⟩,
    hrelated, hrelated'⟩

end

theorem EqualValues.set {s t : Record} (h : EqualRecords s t) (key : JsString)
    {v w : OptionValue} (hvw : v.unsigned = w.unsigned) :
    EqualRecords (s.set key v) (t.set key w) := by
  intro other
  rw [InsertionMap.get_set, InsertionMap.get_set]
  split_ifs
  · exact congrArg some hvw
  · exact h other

theorem EqualValues.delete {s t : Record} (h : EqualRecords s t) (key : JsString) :
    EqualRecords (s.delete key) (t.delete key) := by
  intro other
  rw [InsertionMap.get_delete, InsertionMap.get_delete]
  split_ifs
  · exact rfl
  · exact h other

theorem nullish_of_ne {v : OptionValue} (h : v ≠ .null) (default : OptionValue) :
    nullish (some v) default = v := by
  cases v <;> first | rfl | exact absurd rfl h

theorem nullish_congr {a b : Option OptionValue} (h : EqualValues a b) (default : OptionValue) :
    (nullish a default).unsigned = (nullish b default).unsigned := by
  obtain ⟨rfl, rfl⟩ | ⟨v, w, rfl, rfl, hvw⟩ := h.cases
  · rfl
  · by_cases hnull : v = .null
    · have hw : w = .null := by
        rw [← OptionValue.unsigned_eq_null_iff, ← hvw, hnull]
        rfl
      rw [hnull, hw]
    · have hw : w ≠ .null := by
        rwa [Ne, ← OptionValue.unsigned_eq_null_iff, ← hvw, OptionValue.unsigned_eq_null_iff]
      rw [nullish_of_ne hnull, nullish_of_ne hw, hvw]

theorem orFlag_congr {v w : OptionValue} (h : v.unsigned = w.unsigned) (flag : Int) :
    orFlag v flag = orFlag w flag := by
  rw [orFlag, orFlag, OptionValue.operand_congr h]

theorem disableVersions_congr {enabled other : List JsString} {v w : OptionValue}
    (hversions : ∀ version, version ∈ enabled ↔ version ∈ other) (h : v.unsigned = w.unsigned) :
    Alike (fun x y => x.unsigned = y.unsigned) (disableVersions enabled v)
      (disableVersions other w) := by
  rw [disableVersions, disableVersions]
  induction versionOrder generalizing v w with
  | nil => exact h
  | cons version versions ih =>
      rw [List.foldlM_cons, List.foldlM_cons]
      by_cases hmem : version ∈ enabled
      · rw [if_pos hmem, if_pos ((hversions version).mp hmem)]
        exact ih h
      · rw [if_neg hmem, if_neg (mt (hversions version).mpr hmem), orFlag_congr h]
        cases orFlag w (versionDisableFlag version) with
        | error _ => trivial
        | ok flags => exact ih rfl

/-- Records with equal fields and one security level. -/
structure Resolved (s t : Record) : Prop where
  equal : EqualRecords s t
  level : s.get (js "securityLevel") = t.get (js "securityLevel")

theorem Resolved.set {s t : Record} (h : Resolved s t) (key : JsString) (v : OptionValue) :
    Resolved (s.set key v) (t.set key v) where
  equal := EqualValues.set h.equal key rfl
  level := by
    rw [InsertionMap.get_set, InsertionMap.get_set, h.level]

theorem limitVersions_congr {enabled other : List JsString} {s t : Record}
    (hversions : ∀ version, version ∈ enabled ↔ version ∈ other) (h : Resolved s t) :
    Resolved (limitVersions enabled s) (limitVersions other t) := by
  have hfind : (versionOrder.find? fun v => decide (v ∈ enabled)) =
      versionOrder.find? fun v => decide (v ∈ other) := by
    simp only [hversions]
  rw [limitVersions, limitVersions, hfind]
  cases versionOrder.find? fun v => decide (v ∈ other) with
  | none => exact h
  | some lowest =>
      have hlimited := h.set (js "minVersion") (.str lowest)
      dsimp only
      split_ifs
      · rw [hlimited.level]
        exact hlimited.set _ _
      · exact hlimited

theorem CellsRelated.level {s t : Record} (h : CellsRelated FieldRelated s t) :
    s.get (js "securityLevel") = t.get (js "securityLevel") :=
  (fieldRelated_level.mp (h _)).1

theorem resolveEnabledVersions_congr {s t : Record} (h : CellsRelated FieldRelated s t) :
    Alike Resolved (resolveEnabledVersions s) (resolveEnabledVersions t) := by
  rw [resolveEnabledVersions, resolveEnabledVersions]
  rcases fieldRelated_versions.mp (h _) with ⟨hs, ht⟩ | ⟨l, m, hs, ht, hversions⟩
  · rw [hs, ht]
    refine ⟨fun key => ?_, CellsRelated.level h⟩
    by_cases hkey : key = js "enabledVersions"
    · rw [hkey, hs, ht]
      exact rfl
    · exact (h key).equal hkey
  · rw [hs, ht]
    have hrest : Resolved (s.delete (js "enabledVersions")) (t.delete (js "enabledVersions")) := by
      constructor
      · intro key
        rw [InsertionMap.get_delete, InsertionMap.get_delete]
        split_ifs with hkey
        · exact rfl
        · exact (h key).equal hkey
      · rw [InsertionMap.get_delete_of_ne _ (by decide), InsertionMap.get_delete_of_ne _ (by decide),
          CellsRelated.level h]
    apply (disableVersions_congr hversions (nullish_congr (hrest.equal _) .zero)).bind
    intro x y hxy
    apply limitVersions_congr hversions
    constructor
    · exact EqualValues.set hrest.equal _ hxy
    · rw [InsertionMap.get_set, InsertionMap.get_set, if_neg (by decide), if_neg (by decide),
        hrest.level]

theorem resolveSecurityLevel_congr (text : OptionValue → JsString) {s t : Record}
    (h : Resolved s t) :
    Alike EqualRecords (resolveSecurityLevel text s) (resolveSecurityLevel text t) := by
  rw [resolveSecurityLevel, resolveSecurityLevel, h.level]
  cases t.get (js "securityLevel") with
  | none => exact h.equal
  | some level =>
      have hrest := EqualValues.delete h.equal (js "securityLevel")
      have hciphers := nullish_congr (hrest (js "ciphers")) (.str (js "DEFAULT"))
      dsimp only
      generalize nullish ((s.delete (js "securityLevel")).get (js "ciphers"))
        (.str (js "DEFAULT")) = v at hciphers
      generalize nullish ((t.delete (js "securityLevel")).get (js "ciphers"))
        (.str (js "DEFAULT")) = w at hciphers
      by_cases hv : ∃ c, v = .str c
      · obtain ⟨c, rfl⟩ := hv
        have hw : w = .str c := OptionValue.unsigned_eq_str_iff.mp hciphers.symm
        subst hw
        exact EqualValues.set hrest _ rfl
      · have hw : ¬ ∃ c, w = .str c := by
          rintro ⟨c, rfl⟩
          exact hv ⟨c, OptionValue.unsigned_eq_str_iff.mp hciphers⟩
        cases v with
        | str c => exact absurd ⟨c, rfl⟩ hv
        | _ =>
            cases w with
            | str c => exact absurd ⟨c, rfl⟩ hw
            | _ => trivial

/-- Configurations with equal options. -/
structure SameOptions (c d : EndpointConfig) : Prop where
  certOptions : EqualRecords c.certOptions d.certOptions
  tlsOptions : EqualRecords c.tlsOptions d.tlsOptions
  rejectTls : c.rejectTls = d.rejectTls
  requireClientCert : c.requireClientCert = d.requireClientCert

theorem EqualRecords.get_bool {s t : Record} (h : EqualRecords s t) (key : JsString) (b : Bool) :
    s.get key = some (.bool b) ↔ t.get key = some (.bool b) := by
  obtain ⟨hs, ht⟩ | ⟨v, w, hs, ht, hvw⟩ := (h key).cases
  · rw [hs, ht]
  · rw [hs, ht, Option.some.injEq, Option.some.injEq, ← OptionValue.unsigned_eq_bool_iff, hvw,
      OptionValue.unsigned_eq_bool_iff]

theorem pullMarkers_congr {m n : Merged} {s t : Record}
    (hcert : CellsRelated CertRelated m.certOptions n.certOptions) (h : EqualRecords s t) :
    SameOptions (pullMarkers m s) (pullMarkers n t) where
  certOptions key := by
    by_cases hkey : key = js "enabledVersions"
    · change EqualValues (m.certOptions.get key) (n.certOptions.get key)
      rw [(hcert key).1 hkey, (hcert key).right hkey]
      exact rfl
    · exact (hcert key).2.equal hkey
  tlsOptions := EqualValues.delete (EqualValues.delete h _) _
  rejectTls := decide_eq_decide.mpr (h.get_bool _ _)
  requireClientCert := decide_eq_decide.mpr (h.get_bool _ _)

/-- Permuted parts are refused alike, or have equal options. The versions that are enabled are a
field of TLS, which no endpoint gives for the certificate. -/
theorem getEndpointConfig_perm (text : OptionValue → JsString) (endpoints : List TlsEndpoint)
    {parts other : List JsString} (hperm : parts.Perm other) :
    Alike SameOptions (getEndpointConfig text endpoints parts)
      (getEndpointConfig text endpoints other) := by
  have hmerged : Alike (fun m n : Merged => CellsRelated CertRelated m.certOptions n.certOptions ∧
      CellsRelated FieldRelated m.tlsOptions n.tlsOptions)
      (parts.foldlM (mergePart endpoints) .initial)
      (other.foldlM (mergePart endpoints) .initial) := by
    apply alike_of_exists_ok
    · intro m hm
      exact foldlM_mergePart_perm hperm hm
    · intro n hn
      obtain ⟨m, hm, -⟩ := foldlM_mergePart_perm hperm.symm hn
      exact ⟨m, hm⟩
  rw [getEndpointConfig, getEndpointConfig, hperm.length_eq]
  simp only [hperm.nodup_iff]
  split_ifs
  · trivial
  · apply hmerged.bind
    rintro m n ⟨hcert, htls⟩
    apply (resolveEnabledVersions_congr htls).bind
    intro s t hst
    apply (resolveSecurityLevel_congr text hst).bind
    intro s t hst
    have hsame := pullMarkers_congr hcert hst
    rw [hsame.rejectTls]
    split_ifs
    · trivial
    · exact hsame
  · trivial

/-- An endpoint that enables one version. -/
def versionEndpoint (sniPart version : JsString) : TlsEndpoint where
  sniPart := sniPart
  configureTlsOptions := [(js "enabledVersions", some (.strs [version]))]
  certFields _ _ h := by cases h
  tlsFields key value h := by
    cases List.mem_singleton.mp h
    exact ⟨[version], rfl⟩

/-- Two versions are enabled in either order. -/
theorem getEndpointConfig_perm_versions :
    Alike SameOptions
      (getEndpointConfig (fun _ => js "0")
        [versionEndpoint (js "tls-v1") (js "TLSv1"), versionEndpoint (js "tls-v1-2") (js "TLSv1.2")]
        [js "tls-v1", js "tls-v1-2"])
      (getEndpointConfig (fun _ => js "0")
        [versionEndpoint (js "tls-v1") (js "TLSv1"), versionEndpoint (js "tls-v1-2") (js "TLSv1.2")]
        [js "tls-v1-2", js "tls-v1"]) :=
  getEndpointConfig_perm _ _ (List.Perm.swap _ _ _)

end TestServer.Endpoints.OptionRecords
