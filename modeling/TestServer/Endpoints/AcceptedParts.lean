import TestServer.Endpoints.EndpointConfig

/-!
# The parts that are accepted

`getEndpointConfig` succeeds exactly on at most four distinct endpoint words
whose contributions do not conflict, with `no-tls` only on its own. The merged
certificate options then hold exactly what the endpoints contributed.
-/

namespace TestServer.Endpoints

open Js Library

section Table

variable {endpoints : List TlsEndpoint}

/-- The endpoints that the parts name, if each part names one. -/
def namedEndpoints (endpoints : List TlsEndpoint) (parts : List JsString) :
    Option (List TlsEndpoint) :=
  parts.mapM (findEndpoint endpoints)

def certContributions (es : List TlsEndpoint) : Contribution :=
  es.flatMap TlsEndpoint.configureCertOptions

def tlsContributions (es : List TlsEndpoint) : Contribution :=
  es.flatMap TlsEndpoint.configureTlsOptions

theorem namedEndpoints_cons_eq_some_iff {part : JsString} {parts : List JsString}
    {es : List TlsEndpoint} :
    namedEndpoints endpoints (part :: parts) = some es ↔
      ∃ e rest, findEndpoint endpoints part = some e ∧
        namedEndpoints endpoints parts = some rest ∧ es = e :: rest := by
  simp only [namedEndpoints, List.mapM_cons, Option.bind_eq_bind, Option.bind_eq_some_iff,
    Option.pure_def, Option.some.injEq]
  constructor
  · rintro ⟨e, he, rest, hrest, rfl⟩
    exact ⟨e, rest, he, hrest, rfl⟩
  · rintro ⟨e, rest, he, hrest, rfl⟩
    exact ⟨e, he, rest, hrest, rfl⟩

theorem findEndpoint_eq_some {part : JsString} {e : TlsEndpoint}
    (h : findEndpoint endpoints part = some e) : e ∈ endpoints ∧ e.sniPart = part :=
  ⟨List.mem_of_find?_eq_some h, by simpa using List.find?_some h⟩

/-- The named endpoints are endpoints of the table, part by part. -/
theorem namedEndpoints_eq_some {parts : List JsString} {es : List TlsEndpoint}
    (h : namedEndpoints endpoints parts = some es) :
    (∀ e ∈ es, e ∈ endpoints) ∧ es.map TlsEndpoint.sniPart = parts := by
  induction parts generalizing es with
  | nil =>
      cases h
      simp
  | cons part parts ih =>
      obtain ⟨e, rest, he, hrest, rfl⟩ := namedEndpoints_cons_eq_some_iff.mp h
      obtain ⟨hmem, hname⟩ := findEndpoint_eq_some he
      obtain ⟨hall, hnames⟩ := ih hrest
      constructor
      · intro f hf
        rcases List.mem_cons.mp hf with rfl | hf
        · exact hmem
        · exact hall f hf
      · rw [List.map_cons, hname, hnames]

/-- What the named endpoints contribute, told from the parts by a look at the table. -/
theorem exists_contribution_iff {contribution : TlsEndpoint → Contribution}
    {P : JsString × JsValue → Prop} {words parts : List JsString} {es : List TlsEndpoint}
    (htable : ∀ e ∈ endpoints, (∃ c ∈ contribution e, P c) ↔ e.sniPart ∈ words)
    (h : namedEndpoints endpoints parts = some es) :
    (∃ c ∈ es.flatMap contribution, P c) ↔ ∃ part ∈ parts, part ∈ words := by
  obtain ⟨hmem, hnames⟩ := namedEndpoints_eq_some h
  rw [← hnames]
  simp only [List.mem_flatMap, List.mem_map]
  constructor
  · rintro ⟨c, ⟨e, he, hc⟩, hP⟩
    exact ⟨e.sniPart, ⟨e, he, rfl⟩, (htable e (hmem e he)).mp ⟨c, hc, hP⟩⟩
  · rintro ⟨_, ⟨e, he, rfl⟩, hword⟩
    obtain ⟨c, hc, hP⟩ := (htable e (hmem e he)).mpr hword
    exact ⟨c, ⟨e, he, hc⟩, hP⟩

theorem forall_contribution {contribution : TlsEndpoint → Contribution}
    {P : JsString × JsValue → Prop} {parts : List JsString} {es : List TlsEndpoint}
    (htable : ∀ e ∈ endpoints, ∀ c ∈ contribution e, P c)
    (h : namedEndpoints endpoints parts = some es) :
    ∀ c ∈ es.flatMap contribution, P c := by
  obtain ⟨hmem, _⟩ := namedEndpoints_eq_some h
  intro c hc
  obtain ⟨e, he, hc⟩ := List.mem_flatMap.mp hc
  exact htable e (hmem e he) c hc

theorem mergePart_eq_ok_iff {acc m : Merged} {part : JsString} :
    mergePart endpoints acc part = .ok m ↔
      ∃ e, findEndpoint endpoints part = some e ∧
        mergeContribution acc.certOptions e.configureCertOptions = .ok m.certOptions ∧
        mergeContribution acc.tlsOptions e.configureTlsOptions = .ok m.tlsOptions ∧
        m.alpnPreferences = e.configureAlpnPreferences acc.alpnPreferences := by
  simp only [mergePart]
  cases hfind : findEndpoint endpoints part with
  | none => simp
  | some e =>
      simp only [Option.some.injEq, exists_eq_left']
      cases hcert : mergeContribution acc.certOptions e.configureCertOptions with
      | error _ => simp [bind, Except.bind]
      | ok cert =>
          cases htls : mergeContribution acc.tlsOptions e.configureTlsOptions with
          | error _ => simp [bind, Except.bind]
          | ok tls =>
              obtain ⟨c, t, a⟩ := m
              simp [bind, Except.bind, pure, Except.pure, eq_comm]

/-- The loop over the parts merges the contributions of all named endpoints. -/
theorem foldlM_mergePart_eq_ok_iff {parts : List JsString} {acc m : Merged} :
    parts.foldlM (mergePart endpoints) acc = .ok m ↔
      ∃ es, namedEndpoints endpoints parts = some es ∧
        mergeContribution acc.certOptions (certContributions es) = .ok m.certOptions ∧
        mergeContribution acc.tlsOptions (tlsContributions es) = .ok m.tlsOptions ∧
        m.alpnPreferences =
          es.foldl (fun alpn e => e.configureAlpnPreferences alpn) acc.alpnPreferences := by
  induction parts generalizing acc with
  | nil =>
      obtain ⟨c, t, a⟩ := m
      obtain ⟨c', t', a'⟩ := acc
      simp [namedEndpoints, certContributions, tlsContributions, mergeContribution, pure,
        Except.pure, eq_comm]
  | cons part parts ih =>
      rw [List.foldlM_cons]
      constructor
      · intro h
        cases hone : mergePart endpoints acc part with
        | error _ =>
            rw [hone] at h
            cases h
        | ok n =>
            rw [hone] at h
            obtain ⟨e, he, hcert, htls, halpn⟩ := mergePart_eq_ok_iff.mp hone
            obtain ⟨es, hes, hcerts, htlss, halpns⟩ := ih.mp h
            refine ⟨e :: es, namedEndpoints_cons_eq_some_iff.mpr ⟨e, es, he, hes, rfl⟩, ?_, ?_, ?_⟩
            · rw [certContributions, List.flatMap_cons, mergeContribution, MergeRule.merge_append]
              rw [mergeContribution] at hcert
              rw [hcert]
              exact hcerts
            · rw [tlsContributions, List.flatMap_cons, mergeContribution, MergeRule.merge_append]
              rw [mergeContribution] at htls
              rw [htls]
              exact htlss
            · rw [List.foldl_cons, ← halpn]
              exact halpns
      · rintro ⟨es', hes', hcerts, htlss, halpns⟩
        obtain ⟨e, es, he, hes, rfl⟩ := namedEndpoints_cons_eq_some_iff.mp hes'
        rw [certContributions, List.flatMap_cons, mergeContribution,
          MergeRule.merge_append] at hcerts
        rw [tlsContributions, List.flatMap_cons, mergeContribution,
          MergeRule.merge_append] at htlss
        cases hcert : fieldRule.merge acc.certOptions e.configureCertOptions with
        | error _ =>
            rw [hcert] at hcerts
            cases hcerts
        | ok cert =>
            cases htls : fieldRule.merge acc.tlsOptions e.configureTlsOptions with
            | error _ =>
                rw [htls] at htlss
                cases htlss
            | ok tls =>
                rw [hcert] at hcerts
                rw [htls] at htlss
                have hone : mergePart endpoints acc part =
                    .ok ⟨cert, tls, e.configureAlpnPreferences acc.alpnPreferences⟩ :=
                  mergePart_eq_ok_iff.mpr ⟨e, he, hcert, htls, rfl⟩
                rw [hone]
                exact ih.mpr ⟨es, hes, hcerts, htlss, halpns⟩

theorem resolveEnabledVersions_get {options : Record} {key : JsString}
    (hversions : key ≠ js "enabledVersions") (hsecure : key ≠ js "secureOptions")
    (hmin : key ≠ js "minVersion") (hlevel : key ≠ js "securityLevel") :
    (resolveEnabledVersions options).get key = options.get key := by
  simp only [resolveEnabledVersions]
  split
  · split
    · rw [InsertionMap.get_set_of_ne _ _ hsecure, InsertionMap.get_delete_of_ne _ hversions]
    · split_ifs
      · rw [InsertionMap.get_set_of_ne _ _ hlevel, InsertionMap.get_set_of_ne _ _ hmin,
          InsertionMap.get_set_of_ne _ _ hsecure, InsertionMap.get_delete_of_ne _ hversions]
      · rw [InsertionMap.get_set_of_ne _ _ hmin, InsertionMap.get_set_of_ne _ _ hsecure,
          InsertionMap.get_delete_of_ne _ hversions]
  · rfl

theorem resolveSecurityLevel_get {options : Record} {key : JsString}
    (hlevel : key ≠ js "securityLevel") (hciphers : key ≠ js "ciphers") :
    (resolveSecurityLevel options).get key = options.get key := by
  simp only [resolveSecurityLevel]
  split
  · rw [InsertionMap.get_set_of_ne _ _ hciphers, InsertionMap.get_delete_of_ne _ hlevel]
  · rfl

/-- A marker of the merged TLS options is set when an endpoint contributes it. -/
theorem resolveMerged_rejectTls {es : List TlsEndpoint} {m : Merged}
    (h : mergeContribution .empty (tlsContributions es) = .ok m.tlsOptions) :
    (resolveMerged m).rejectTls = true ↔
      (js "rejectTls", JsValue.bool true) ∈ tlsContributions es := by
  simp only [resolveMerged, decide_eq_true_eq]
  rw [resolveSecurityLevel_get (by decide) (by decide),
    resolveEnabledVersions_get (by decide) (by decide) (by decide) (by decide),
    mergeContribution_get h (by decide)]

/-- The parts for which a configuration is returned. -/
structure Accepted (endpoints : List TlsEndpoint) (parts : List JsString)
    (es : List TlsEndpoint) : Prop where
  few : parts.length ≤ maxSniParts
  distinct : parts.Nodup
  named : namedEndpoints endpoints parts = some es
  certAgree : (certContributions es).Pairwise Compatible
  tlsAgree : (tlsContributions es).Pairwise Compatible
  noTlsAlone : (js "rejectTls", JsValue.bool true) ∈ tlsContributions es → parts.length ≤ 1

/-- The configuration returned for accepted parts. -/
theorem endpointConfigOf_eq_ok {parts : List JsString} {config : EndpointConfig}
    (h : endpointConfigOf endpoints parts = .ok config) :
    ∃ es m, Accepted endpoints parts es ∧ config = resolveMerged m ∧
      mergeContribution .empty (certContributions es) = .ok m.certOptions ∧
      mergeContribution .empty (tlsContributions es) = .ok m.tlsOptions ∧
      m.alpnPreferences = es.foldl (fun alpn e => e.configureAlpnPreferences alpn) [] := by
  simp only [endpointConfigOf] at h
  split_ifs at h with hfew hdistinct
  cases hfold : parts.foldlM (mergePart endpoints) .initial with
  | error _ =>
      rw [hfold] at h
      cases h
  | ok m =>
      rw [hfold] at h
      simp only at h
      split_ifs at h with hreject
      obtain ⟨es, hnamed, hcert, htls, halpn⟩ := foldlM_mergePart_eq_ok_iff.mp hfold
      refine ⟨es, m, ⟨Nat.not_lt.mp hfew, hdistinct, hnamed, ?_, ?_, ?_⟩, ?_, hcert, htls, halpn⟩
      · exact mergeContribution_isOk_iff.mp ⟨_, hcert⟩
      · exact mergeContribution_isOk_iff.mp ⟨_, htls⟩
      · intro hmem
        by_contra hlen
        exact hreject ⟨(resolveMerged_rejectTls htls).mpr hmem, Nat.not_le.mp hlen⟩
      · exact (Except.ok.inj h).symm

/-- Accepted parts have a configuration. -/
theorem Accepted.isOk {parts : List JsString} {es : List TlsEndpoint}
    (h : Accepted endpoints parts es) :
    ∃ config, endpointConfigOf endpoints parts = .ok config := by
  obtain ⟨cert, hcert⟩ := mergeContribution_isOk_iff.mpr h.certAgree
  obtain ⟨tls, htls⟩ := mergeContribution_isOk_iff.mpr h.tlsAgree
  let m : Merged :=
    ⟨cert, tls, es.foldl (fun alpn e => e.configureAlpnPreferences alpn) []⟩
  have hfold : parts.foldlM (mergePart endpoints) .initial = .ok m :=
    foldlM_mergePart_eq_ok_iff.mpr ⟨es, h.named, hcert, htls, rfl⟩
  have hreject : ¬ ((resolveMerged m).rejectTls = true ∧ parts.length > 1) := by
    rintro ⟨hreject, hlen⟩
    have hmem := (resolveMerged_rejectTls (m := m) htls).mp hreject
    exact absurd (h.noTlsAlone hmem) (Nat.not_le.mpr hlen)
  refine ⟨resolveMerged m, ?_⟩
  simp only [endpointConfigOf, if_neg (Nat.not_lt.mpr h.few), not_not.mpr h.distinct, if_false,
    hfold, if_neg hreject]

end Table

end TestServer.Endpoints
