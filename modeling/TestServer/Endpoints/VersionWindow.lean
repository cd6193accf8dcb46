import TestServer.Endpoints.AcceptedParts

/-!
# The TLS versions of a host name

The versions that the options of accepted parts leave to a connection. Three options decide:
the disable flags and the least version come from the versions that are named, the greatest
version from the cipher and key-size parts, and nothing compares them.
-/

namespace TestServer.Endpoints

open Js Library

/-- Whether some OpenSSL options disable a version. -/
def disables (secureOptions : Int) (version : JsString) : Bool :=
  decide (BitVec.ofInt 32 secureOptions &&& BitVec.ofInt 32 (versionDisableFlag version) ≠ 0#32)

/-- The place of a version among all. -/
def versionRank (version : JsString) : Nat := versionOrder.idxOf version

def textOr (value : Option JsValue) (default : JsString) : JsString :=
  match value with
  | some (.str text) => text
  | _ => default

/-- The versions that a context with these options allows, where Node has TLS 1.2 for the least
version and TLS 1.3 for the greatest if there is none. -/
def allowedVersions (tlsOptions : Record) : List JsString :=
  versionOrder.filter fun version =>
    !disables (numberOr (tlsOptions.get (js "secureOptions")) 0) version &&
      decide (versionRank (textOr (tlsOptions.get (js "minVersion")) (js "TLSv1.2")) ≤
        versionRank version) &&
      decide (versionRank version ≤
        versionRank (textOr (tlsOptions.get (js "maxVersion")) (js "TLSv1.3")))

/-- The version that a part names. -/
def partVersion (part : JsString) : Option JsString :=
  if part = js "tls-v1-0" then some (js "TLSv1")
  else if part = js "tls-v1-1" then some (js "TLSv1.1")
  else if part = js "tls-v1-2" then some (js "TLSv1.2")
  else if part = js "tls-v1-3" then some (js "TLSv1.3")
  else none

def namedVersions (parts : List JsString) : List JsString := parts.filterMap partVersion

/-- The parts that allow no later version than TLS 1.2. -/
def cappingParts : List JsString :=
  [js "static-rsa", js "cbc", js "null-cipher", js "dh1024", js "dh2048", js "rsa512"]

def IsCapped (parts : List JsString) : Prop := ∃ part ∈ parts, part ∈ cappingParts

instance (parts : List JsString) : Decidable (IsCapped parts) :=
  inferInstanceAs (Decidable (∃ part ∈ parts, part ∈ cappingParts))

/-- Some version is allowed, and if any are named, those are allowed that respect the cap. -/
structure UsableVersions (parts : List JsString) (tlsOptions : Record) : Prop where
  usable : allowedVersions tlsOptions ≠ []
  exact : namedVersions parts ≠ [] → ∀ version, version ∈ allowedVersions tlsOptions ↔
    version ∈ namedVersions parts ∧
      (IsCapped parts → versionRank version ≤ versionRank (js "TLSv1.2"))

/-- What the endpoints of the table say about versions: the version that they name, the cap, and
nothing about the options that are derived. -/
theorem tlsEndpoints_versions : ∀ e ∈ tlsEndpoints,
    MergeRule.valuesAt (js "enabledVersions") e.configureTlsOptions =
      ((partVersion e.sniPart).map fun version => JsValue.strs [version]).toList ∧
    ((∃ c ∈ e.configureTlsOptions, c = (js "maxVersion", .str (js "TLSv1.2"))) ↔
      e.sniPart ∈ cappingParts) ∧
    ∀ c ∈ e.configureTlsOptions, c.1 ≠ js "secureOptions" ∧ c.1 ≠ js "minVersion" ∧
      (c.1 = js "maxVersion" → c.2 = .str (js "TLSv1.2")) := by
  decide +kernel

/-- No part sets the derived options, and there is one cap. -/
theorem derived_contributed {parts : List JsString} {es : List TlsEndpoint}
    (hnamed : namedEndpoints tlsEndpoints parts = some es) :
    ∀ c ∈ tlsContributions es, c.1 ≠ js "secureOptions" ∧ c.1 ≠ js "minVersion" ∧
      (c.1 = js "maxVersion" → c.2 = .str (js "TLSv1.2")) :=
  forall_contribution (fun e he => (tlsEndpoints_versions e he).2.2) hnamed

/-- Versions are put one after another. -/
theorem combined_concatVersions (held : List JsString) (versions : List JsString) :
    MergeRule.combined concatVersions (some (.strs held))
        (versions.map fun version => JsValue.strs [version]) =
      some (.strs (held ++ versions)) := by
  induction versions generalizing held with
  | nil => rw [List.append_nil]; rfl
  | cons version rest ih =>
      have hstep : MergeRule.combined concatVersions (some (.strs held))
          ((version :: rest).map fun version => JsValue.strs [version]) =
          MergeRule.combined concatVersions (some (.strs (held ++ [version])))
            (rest.map fun version => JsValue.strs [version]) := rfl
      rw [hstep, ih, List.append_assoc, List.singleton_append]

section

variable {parts : List JsString} {es : List TlsEndpoint} {tlsOptions : Record}

theorem valuesAt_enabledVersions (hnamed : namedEndpoints tlsEndpoints parts = some es) :
    MergeRule.valuesAt (js "enabledVersions") (tlsContributions es) =
      (namedVersions parts).map fun version => JsValue.strs [version] := by
  obtain ⟨hmem, hnames⟩ := namedEndpoints_eq_some hnamed
  calc MergeRule.valuesAt (js "enabledVersions") (tlsContributions es)
      = es.flatMap fun e =>
          ((partVersion e.sniPart).map fun version => JsValue.strs [version]).toList := by
        rw [tlsContributions, MergeRule.valuesAt_flatMap]
        exact List.flatMap_congr fun e he => (tlsEndpoints_versions e (hmem e he)).1
    _ = (namedVersions parts).map fun version => JsValue.strs [version] := by
        rw [namedVersions, ← hnames, List.filterMap_map, List.map_filterMap,
          List.filterMap_eq_flatMap_toList]
        rfl

theorem get_enabledVersions (hnamed : namedEndpoints tlsEndpoints parts = some es)
    (h : mergeContribution .empty (tlsContributions es) = .ok tlsOptions) :
    tlsOptions.get (js "enabledVersions") =
      if namedVersions parts = [] then none else some (.strs (namedVersions parts)) := by
  rw [MergeRule.merge_get_of_combine h (f := concatVersions) rfl, valuesAt_enabledVersions hnamed,
    InsertionMap.get_empty]
  cases namedVersions parts with
  | nil => rfl
  | cons version rest =>
      rw [if_neg (List.cons_ne_nil version rest)]
      exact combined_concatVersions [version] rest

theorem get_derived (hnamed : namedEndpoints tlsEndpoints parts = some es)
    (h : mergeContribution .empty (tlsContributions es) = .ok tlsOptions) :
    tlsOptions.get (js "secureOptions") = none ∧ tlsOptions.get (js "minVersion") = none := by
  have hderived := derived_contributed hnamed
  constructor
  · rw [Option.eq_none_iff_forall_ne_some]
    intro value hvalue
    exact (hderived _ ((mergeContribution_get h (by decide)).mp hvalue)).1 rfl
  · rw [Option.eq_none_iff_forall_ne_some]
    intro value hvalue
    exact (hderived _ ((mergeContribution_get h (by decide)).mp hvalue)).2.1 rfl

theorem get_maxVersion (hnamed : namedEndpoints tlsEndpoints parts = some es)
    (h : mergeContribution .empty (tlsContributions es) = .ok tlsOptions) :
    tlsOptions.get (js "maxVersion") =
      if IsCapped parts then some (.str (js "TLSv1.2")) else none := by
  have hderived := derived_contributed hnamed
  have hcapped := exists_contribution_iff (fun e he => (tlsEndpoints_versions e he).2.1) hnamed
  split
  · next hcap =>
      obtain ⟨c, hc, rfl⟩ := hcapped.mpr hcap
      exact (mergeContribution_get h (by decide)).mpr hc
  · next hcap =>
      rw [Option.eq_none_iff_forall_ne_some]
      intro value hvalue
      have hmem := (mergeContribution_get h (by decide)).mp hvalue
      have heq : value = .str (js "TLSv1.2") := (hderived _ hmem).2.2 rfl
      exact hcap (hcapped.mp ⟨_, hmem, by rw [heq]⟩)

end

theorem disables_zero (version : JsString) : disables 0 version = false := by
  rw [disables, decide_eq_false_iff_not, not_not]
  exact BitVec.zero_and

theorem disables_bitOr (a b : Int) (version : JsString) :
    disables (bitOr a b) version = (disables a version || disables b version) := by
  rw [Bool.eq_iff_iff]
  simp only [disables, bitOr, BitVec.ofInt_toInt, Bool.or_eq_true, decide_eq_true_eq]
  rw [BitVec.and_or_distrib_right, Ne, BitVec.or_eq_zero_iff, not_and_or]

/-- Each version has a flag of its own. -/
theorem disables_versionDisableFlag :
    ∀ flagged ∈ versionOrder, ∀ version ∈ versionOrder,
      disables (versionDisableFlag flagged) version = decide (flagged = version) := by
  decide

/-- The flags of the versions of a list that are not enabled. -/
theorem disables_foldl {enabled versions : List JsString} (hversions : versions ⊆ versionOrder)
    {version : JsString} (hversion : version ∈ versionOrder) (flags : Int) :
    disables (versions.foldl (fun flags v =>
        if v ∈ enabled then flags else bitOr flags (versionDisableFlag v)) flags) version =
      (disables flags version || decide (version ∈ versions ∧ version ∉ enabled)) := by
  induction versions generalizing flags with
  | nil => simp
  | cons v rest ih =>
      have hv := hversions List.mem_cons_self
      have hrest : rest ⊆ versionOrder := fun w hw => hversions (List.mem_cons_of_mem v hw)
      rw [List.foldl_cons, ih hrest, Bool.eq_iff_iff]
      by_cases henabled : v ∈ enabled
      · rw [if_pos henabled]
        simp only [Bool.or_eq_true, decide_eq_true_eq, List.mem_cons]
        grind
      · rw [if_neg henabled, disables_bitOr, disables_versionDisableFlag v hv version hversion]
        simp only [Bool.or_eq_true, decide_eq_true_eq, List.mem_cons]
        grind

theorem idxOf_le_of_find? {versions : List JsString} {p : JsString → Bool}
    {lowest version : JsString} (hlowest : versions.find? p = some lowest) (hversion : p version = true) :
    versions.idxOf lowest ≤ versions.idxOf version := by
  obtain ⟨hp, before, after, rfl, hbefore⟩ := List.find?_eq_some_iff_append.mp hlowest
  have hnot : ∀ w, p w = true → w ∉ before := by
    intro w hw hmem
    have hfalse := hbefore w hmem
    rw [hw] at hfalse
    cases hfalse
  rw [List.idxOf_append_of_notMem (hnot lowest hp), List.idxOf_append_of_notMem (hnot _ hversion),
    List.idxOf_cons_self]
  omega

theorem resolveMerged_get (merged : Merged) {key : JsString} (hreject : key ≠ js "rejectTls")
    (hclient : key ≠ js "requireClientCert") (hlevel : key ≠ js "securityLevel")
    (hciphers : key ≠ js "ciphers") :
    (resolveMerged merged).tlsOptions.get key =
      (resolveEnabledVersions merged.tlsOptions).get key := by
  simp only [resolveMerged]
  rw [InsertionMap.get_delete_of_ne _ hclient, InsertionMap.get_delete_of_ne _ hreject,
    resolveSecurityLevel_get hlevel hciphers]

/-- The enabled versions as disable flags and as the least version. -/
theorem resolveEnabledVersions_versions {options : Record} {enabled : List JsString}
    {lowest : JsString} (henabled : options.get (js "enabledVersions") = some (.strs enabled))
    (hsecure : options.get (js "secureOptions") = none)
    (hlowest : (versionOrder.find? fun v => decide (v ∈ enabled)) = some lowest) :
    (resolveEnabledVersions options).get (js "secureOptions") =
        some (.num (versionOrder.foldl (fun flags v =>
          if v ∈ enabled then flags else bitOr flags (versionDisableFlag v)) 0)) ∧
      (resolveEnabledVersions options).get (js "minVersion") = some (.str lowest) := by
  have hrest : (options.delete (js "enabledVersions")).get (js "secureOptions") = none := by
    rw [InsertionMap.get_delete_of_ne _ (by decide), hsecure]
  simp only [resolveEnabledVersions, henabled, hlowest, hrest, numberOr]
  split_ifs
  · rw [InsertionMap.get_set_of_ne _ _ (by decide), InsertionMap.get_set_of_ne _ _ (by decide),
      InsertionMap.get_set_self, InsertionMap.get_set_of_ne _ _ (by decide),
      InsertionMap.get_set_self]
    exact ⟨rfl, rfl⟩
  · rw [InsertionMap.get_set_of_ne _ _ (by decide), InsertionMap.get_set_self,
      InsertionMap.get_set_self]
    exact ⟨rfl, rfl⟩

theorem mem_versionOrder_of_partVersion {part version : JsString}
    (h : partVersion part = some version) : version ∈ versionOrder := by
  simp only [partVersion] at h
  split_ifs at h <;> cases h <;> decide

theorem namedVersions_subset (parts : List JsString) : namedVersions parts ⊆ versionOrder := by
  intro version hversion
  obtain ⟨part, -, hpart⟩ := List.mem_filterMap.mp hversion
  exact mem_versionOrder_of_partVersion hpart

theorem mem_allowedVersions_iff {tlsOptions : Record} {version : JsString} :
    version ∈ allowedVersions tlsOptions ↔
      version ∈ versionOrder ∧
      disables (numberOr (tlsOptions.get (js "secureOptions")) 0) version = false ∧
      versionRank (textOr (tlsOptions.get (js "minVersion")) (js "TLSv1.2")) ≤
        versionRank version ∧
      versionRank version ≤
        versionRank (textOr (tlsOptions.get (js "maxVersion")) (js "TLSv1.3")) := by
  simp only [allowedVersions, List.mem_filter, Bool.and_eq_true, Bool.not_eq_true',
    decide_eq_true_eq, and_assoc]

theorem versionRank_le_last : ∀ version ∈ versionOrder,
    versionRank version ≤ versionRank (js "TLSv1.3") := by decide

theorem versionRank_le_cap_iff : ∀ version ∈ versionOrder,
    versionRank version ≤ versionRank (js "TLSv1.2") ↔ version ≠ js "TLSv1.3" := by decide

/-- A version is at most the greatest one of the options if the cap does not leave it out. -/
theorem versionRank_le_max_iff {parts : List JsString} {value : Option JsValue}
    (hvalue : value = if IsCapped parts then some (.str (js "TLSv1.2")) else none)
    {version : JsString} (hversion : version ∈ versionOrder) :
    versionRank version ≤ versionRank (textOr value (js "TLSv1.3")) ↔
      (IsCapped parts → versionRank version ≤ versionRank (js "TLSv1.2")) := by
  rw [hvalue]
  split
  · next hcap => exact ⟨fun hle _ => hle, fun hle => hle hcap⟩
  · next hcap =>
      exact ⟨fun _ hcap' => absurd hcap' hcap, fun _ => versionRank_le_last version hversion⟩

section

variable {parts : List JsString} {config : EndpointConfig}

/-- Which versions accepted parts allow, whether or not they name any. -/
theorem mem_allowedVersions_of_accepted (h : getEndpointConfig parts = .ok config)
    {version : JsString} :
    version ∈ allowedVersions config.tlsOptions ↔
      version ∈ versionOrder ∧
      (if namedVersions parts = [] then versionRank (js "TLSv1.2") ≤ versionRank version
        else version ∈ namedVersions parts) ∧
      (IsCapped parts → versionRank version ≤ versionRank (js "TLSv1.2")) := by
  obtain ⟨es, m, haccepted, rfl, -, hmerge, -⟩ := endpointConfigOf_eq_ok h
  have hnamed := haccepted.named
  have henabled := get_enabledVersions hnamed hmerge
  obtain ⟨hsecure, hmin⟩ := get_derived hnamed hmerge
  have hmax : (resolveMerged m).tlsOptions.get (js "maxVersion") =
      if IsCapped parts then some (.str (js "TLSv1.2")) else none := by
    rw [resolveMerged_get m (by decide) (by decide) (by decide) (by decide),
      resolveEnabledVersions_get (by decide) (by decide) (by decide) (by decide),
      get_maxVersion hnamed hmerge]
  rw [mem_allowedVersions_iff, resolveMerged_get m (by decide) (by decide) (by decide) (by decide),
    resolveMerged_get m (by decide) (by decide) (by decide) (by decide)]
  apply and_congr_right
  intro hversion
  rw [versionRank_le_max_iff hmax hversion, ← and_assoc]
  apply and_congr_left
  intro _
  by_cases hnone : namedVersions parts = []
  · rw [if_pos hnone] at henabled
    have hsame : resolveEnabledVersions m.tlsOptions = m.tlsOptions := by
      simp only [resolveEnabledVersions, henabled]
    have hzero : numberOr none 0 = 0 := rfl
    have hdefault : textOr none (js "TLSv1.2") = js "TLSv1.2" := rfl
    rw [if_pos hnone, hsame, hsecure, hmin, hzero, disables_zero, hdefault]
    exact and_iff_right rfl
  · rw [if_neg hnone] at henabled ⊢
    obtain ⟨named, hmem⟩ := List.exists_mem_of_ne_nil _ hnone
    have hfound : (versionOrder.find? fun v => decide (v ∈ namedVersions parts)).isSome = true :=
      List.find?_isSome.mpr ⟨named, namedVersions_subset parts hmem, decide_eq_true hmem⟩
    obtain ⟨lowest, hlowest⟩ := Option.isSome_iff_exists.mp hfound
    obtain ⟨hflags, hleast⟩ := resolveEnabledVersions_versions henabled hsecure hlowest
    rw [hflags, hleast, numberOr, textOr, disables_foldl (List.Subset.refl _) hversion,
      disables_zero, Bool.false_or, decide_eq_false_iff_not]
    constructor
    · rintro ⟨hdisabled, -⟩
      by_contra hnot
      exact hdisabled ⟨hversion, hnot⟩
    · intro hmem'
      exact ⟨fun hdisabled => hdisabled.2 hmem',
        idxOf_le_of_find? hlowest (decide_eq_true hmem')⟩

/-- The parts leave a usable version exactly if a cap does not meet TLS 1.3 alone. -/
theorem usableVersions_of_accepted (h : getEndpointConfig parts = .ok config) :
    UsableVersions parts config.tlsOptions ↔
      (IsCapped parts → namedVersions parts = [] ∨
        ∃ version ∈ namedVersions parts, version ≠ js "TLSv1.3") := by
  have hallowed := fun version => @mem_allowedVersions_of_accepted parts config h version
  constructor
  · intro huse hcap
    by_cases hnone : namedVersions parts = []
    · exact .inl hnone
    · right
      obtain ⟨version, hversion⟩ := List.exists_mem_of_ne_nil _ huse.usable
      obtain ⟨horder, hnamed, hle⟩ := (hallowed version).mp hversion
      rw [if_neg hnone] at hnamed
      exact ⟨version, hnamed, (versionRank_le_cap_iff version horder).mp (hle hcap)⟩
  · intro hcond
    constructor
    · by_cases hnone : namedVersions parts = []
      · apply List.ne_nil_of_mem (a := js "TLSv1.2")
        rw [hallowed, if_pos hnone]
        exact ⟨by decide, Nat.le_refl _, fun _ => Nat.le_refl _⟩
      · by_cases hcap : IsCapped parts
        · rcases hcond hcap with hnil | ⟨version, hnamed, hne⟩
          · exact absurd hnil hnone
          · have horder := namedVersions_subset parts hnamed
            apply List.ne_nil_of_mem (a := version)
            rw [hallowed, if_neg hnone]
            exact ⟨horder, hnamed, fun _ => (versionRank_le_cap_iff version horder).mpr hne⟩
        · obtain ⟨version, hnamed⟩ := List.exists_mem_of_ne_nil _ hnone
          apply List.ne_nil_of_mem (a := version)
          rw [hallowed, if_neg hnone]
          exact ⟨namedVersions_subset parts hnamed, hnamed, fun hcap' => absurd hcap' hcap⟩
    · intro hnone version
      rw [hallowed, if_neg hnone]
      exact ⟨fun hversion => hversion.2,
        fun hversion => ⟨namedVersions_subset parts hversion.1, hversion⟩⟩

end

/-- A host name leaves a usable version exactly if TLS 1.3 is not the only version that its parts
name while one of them caps the versions. -/
theorem usableVersions_iff (servername rootDomain : JsString) {config : EndpointConfig}
    (h : getEndpointConfig (getSNIPrefixParts servername rootDomain) = .ok config) :
    UsableVersions (getSNIPrefixParts servername rootDomain) config.tlsOptions ↔
      (IsCapped (getSNIPrefixParts servername rootDomain) →
        namedVersions (getSNIPrefixParts servername rootDomain) = [] ∨
        ∃ version ∈ namedVersions (getSNIPrefixParts servername rootDomain),
          version ≠ js "TLSv1.3") :=
  usableVersions_of_accepted h

theorem exists_config {parts : List JsString} (h : validateEndpointParts parts = none) :
    ∃ config, getEndpointConfig parts = .ok config := by
  rw [validateEndpointParts] at h
  cases hconfig : getEndpointConfig parts with
  | ok config => exact ⟨config, rfl⟩
  | error message =>
      rw [hconfig] at h
      cases h

/-- TLS 1.2 and 1.3 with a cap. -/
theorem usableVersions_iff_tls12_tls13_cbc :
    ∃ config, getEndpointConfig (getSNIPrefixParts (js "tls-v1-2--tls-v1-3--cbc.testserver.host")
        (js "testserver.host")) = .ok config ∧
      UsableVersions (getSNIPrefixParts (js "tls-v1-2--tls-v1-3--cbc.testserver.host")
        (js "testserver.host")) config.tlsOptions := by
  have hvalid : validateEndpointParts (getSNIPrefixParts
      (js "tls-v1-2--tls-v1-3--cbc.testserver.host") (js "testserver.host")) = none := by
    decide +kernel
  obtain ⟨config, hconfig⟩ := exists_config hvalid
  refine ⟨config, hconfig, (usableVersions_iff _ _ hconfig).mpr fun _ => .inr ?_⟩
  exact ⟨js "TLSv1.2", by decide +kernel, by decide⟩

/-- TLS 1.3 alone with a cap: the host name is accepted, and no version is allowed. -/
theorem allowedVersions_tls13_cbc :
    ∃ config, getEndpointConfig (getSNIPrefixParts (js "tls-v1-3--cbc.testserver.host")
        (js "testserver.host")) = .ok config ∧
      config.rejectTls = false ∧ allowedVersions config.tlsOptions = [] ∧
      ¬ UsableVersions (getSNIPrefixParts (js "tls-v1-3--cbc.testserver.host")
        (js "testserver.host")) config.tlsOptions := by
  have hvalid : validateEndpointParts (getSNIPrefixParts
      (js "tls-v1-3--cbc.testserver.host") (js "testserver.host")) = none := by
    decide +kernel
  obtain ⟨config, hconfig⟩ := exists_config hvalid
  have hnone : (getEndpointConfig (getSNIPrefixParts (js "tls-v1-3--cbc.testserver.host")
      (js "testserver.host"))).map (fun c => (c.rejectTls, allowedVersions c.tlsOptions)) =
      .ok (false, []) := by decide +kernel
  rw [hconfig] at hnone
  obtain ⟨hreject, hallowed⟩ := Prod.mk.inj (Except.ok.inj hnone)
  exact ⟨config, hconfig, hreject, hallowed, fun huse => huse.usable hallowed⟩

end TestServer.Endpoints
