import TestServer.ContextCacheKey
import TestServer.RedirectHosts
import TestServer.TlsCertificates.OcspIssuers

/-!
# OCSP status and endpoint options

Whether a host asks for a revoked certificate is decided by its endpoint parts,
and whether a response says so by the name in the certificate, which is cut up
again without the root domain. The two agree as long as the parts of the host
are the only pieces of that name that count.
-/

namespace TestServer

open Js Library Endpoints TlsCertificates

/-- The texts between dots and `--`. -/
def namePieces (name : JsString) : List JsString :=
  (split name (js ".")).flatMap fun l => split l (js "--")

theorem isRevokedName_iff {name : JsString} :
    isRevokedName name = true ↔ js "revoked" ∈ namePieces name := by
  simp only [isRevokedName, decide_eq_true_eq, namePieces]
  split_ifs with hdashes
  · exact Iff.rfl
  · have hwhole : ∀ l ∈ split name (js "."), split l (js "--") = [l] := by
      intro l hl
      apply split_of_not_includes
      exact Bool.eq_false_iff.mpr fun h => hdashes (List.any_eq_true.mpr ⟨l, hl, h⟩)
    rw [List.flatMap_congr hwhole, List.flatMap_singleton']

/-- A text without dots before a dot is cut up by itself. -/
theorem namePieces_append_dot {p : JsString} (hdot : unit '.' ∉ p) (t : JsString) :
    namePieces (p ++ (js "." ++ t)) = split p (js "--") ++ namePieces t := by
  have hsplit : split (p ++ (js "." ++ t)) (js ".") = p :: split t (js ".") :=
    split_append_cons hdot t
  rw [namePieces, hsplit, List.flatMap_cons]
  rfl

/-- A text without dots and dashes before dashes is a piece. -/
theorem namePieces_append_dashes {p : JsString} (hdot : unit '.' ∉ p) (huncut : Uncut (js "--") p)
    (t : JsString) : namePieces (p ++ (js "--" ++ t)) = p :: namePieces t := by
  have hdots : unit '.' ∉ p ++ js "--" := by
    rw [List.mem_append, not_or]
    exact ⟨hdot, by decide⟩
  have hsplit : split (p ++ (js "--" ++ t)) (js ".") =
      (p ++ (js "--" ++ (splitPieces (js ".") 0 t).1)) :: (splitPieces (js ".") 0 t).2 := by
    have hwhole := split_append_of_notMem hdots t
    rw [List.append_assoc, List.append_assoc] at hwhole
    exact hwhole
  rw [namePieces, hsplit, List.flatMap_cons, split_append (by decide) huncut, List.cons_append]
  rfl

/-- A text that is neither cut by dots nor by dashes. -/
structure PlainPart (p : JsString) : Prop where
  noDot : unit '.' ∉ p
  noUnderscore : unit '_' ∉ p
  uncut : Uncut (js "--") p

/-- Joined parts are pieces again, but for the last one, which goes on. -/
theorem namePieces_join {sep : JsString} (hsep : sep = js "--" ∨ sep = js ".")
    {parts : List JsString} (hparts : ∀ p ∈ parts, PlainPart p) (t : JsString) :
    namePieces (join sep parts ++ t) =
      parts.dropLast ++ namePieces (parts.getLastD [] ++ t) := by
  induction parts with
  | nil => rfl
  | cons p parts ih =>
      obtain ⟨hp, hparts⟩ := List.forall_mem_cons.mp hparts
      cases parts with
      | nil => rfl
      | cons q parts =>
          have hrest := ih hparts
          have hfirst : ∀ t, namePieces (p ++ (sep ++ t)) = p :: namePieces t := by
            intro t
            obtain rfl | rfl := hsep
            · exact namePieces_append_dashes hp.noDot hp.uncut t
            · rw [namePieces_append_dot hp.noDot, split_uncut hp.uncut, List.singleton_append]
          rw [join_cons sep p (List.cons_ne_nil q parts), List.append_assoc, List.append_assoc,
            hfirst, hrest, List.dropLast_cons_cons, List.cons_append]
          rfl

/-- What a host name ends with after its endpoint parts. -/
def hostEnding (domain rootDomain : JsString) : JsString :=
  if endsWith domain rootDomain then domain.drop (domain.length - (rootDomain.length + 1)) else []

theorem plainPart_sniPart : ∀ e ∈ tlsEndpoints, PlainPart e.sniPart := by
  have hunits : ∀ e ∈ tlsEndpoints, unit '.' ∉ e.sniPart ∧ unit '_' ∉ e.sniPart := by
    decide
  intro e he
  exact ⟨(hunits e he).1, (hunits e he).2, uncut_sniPart e he⟩

theorem plainPart_of_named {parts : List JsString} {es : List TlsEndpoint}
    (h : namedEndpoints tlsEndpoints parts = some es) : ∀ p ∈ parts, PlainPart p := by
  obtain ⟨hmem, hnames⟩ := namedEndpoints_eq_some h
  rw [← hnames]
  intro p hp
  obtain ⟨e, he, rfl⟩ := List.mem_map.mp hp
  exact plainPart_sniPart e (hmem e he)

/-- The host name is its parts and the ending. -/
theorem join_parts_append_hostEnding (domain rootDomain : JsString) :
    ∃ sep, (sep = js "--" ∨ sep = js ".") ∧
      join sep (getSNIPrefixParts domain rootDomain) ++ hostEnding domain rootDomain =
        domain := by
  by_cases hends : endsWith domain rootDomain = true
  · obtain ⟨sep, hsep, hjoin⟩ := join_stemParts (sliceEnd domain (rootDomain.length + 1))
    refine ⟨sep, hsep, ?_⟩
    have hparts : getSNIPrefixParts domain rootDomain =
        stemParts (sliceEnd domain (rootDomain.length + 1)) := by
      simp only [getSNIPrefixParts, if_pos hends, stemParts]
    rw [hparts, hjoin, hostEnding, if_pos hends, sliceEnd]
    exact List.take_append_drop ..
  · obtain ⟨sep, hsep, hjoin⟩ := join_stemParts domain
    refine ⟨sep, hsep, ?_⟩
    have hparts : getSNIPrefixParts domain rootDomain = stemParts domain := by
      simp only [getSNIPrefixParts, if_neg hends, stemParts]
    rw [hparts, hjoin, hostEnding, if_neg hends, List.append_nil]

theorem namePieces_host {domain rootDomain : JsString} {es : List TlsEndpoint}
    (h : namedEndpoints tlsEndpoints (getSNIPrefixParts domain rootDomain) = some es) :
    namePieces domain = (getSNIPrefixParts domain rootDomain).dropLast ++
      namePieces ((getSNIPrefixParts domain rootDomain).getLastD [] ++
        hostEnding domain rootDomain) := by
  obtain ⟨sep, hsep, hdomain⟩ := join_parts_append_hostEnding domain rootDomain
  conv_lhs => rw [← hdomain]
  exact namePieces_join hsep (plainPart_of_named h) _

variable {words : List JsString} {options : Record} {es : List TlsEndpoint}

/-- The name is overridden exactly for `wrong-host`, by `example`. -/
theorem MergedFrom.override_iff (h : MergedFrom words options es) :
    (CertOptions.ofRecord options).override =
      if js "wrong-host" ∈ words then some (js "example") else none := by
  have hwords : (∃ c ∈ certContributions es, c = (js "overridePrefix", .str (js "example"))) ↔
      ∃ w ∈ words, w ∈ [js "wrong-host"] :=
    exists_contribution_iff (by decide) h.named
  simp only [List.mem_singleton, exists_eq_right] at hwords
  have hexample : (CertOptions.ofRecord options).overridePrefix = some (js "example") ↔
      js "wrong-host" ∈ words := by
    rw [← hwords, ← h.get (by decide)]
    simp only [CertOptions.ofRecord]
    cases hget : options.get (js "overridePrefix") with
    | none => simp
    | some v => cases v <;> simp
  rw [h.override_eq]
  split_ifs with hword
  · exact hexample.mpr hword
  · exact h.overridePrefix_cases.resolve_right fun hsome => hword (hexample.mp hsome)

/-- The pieces of the certificate's name that count are the parts of the host: those of the root
domain, where the name is overridden; those after the first label, where that becomes a wildcard;
and otherwise those that the last part makes up with what follows it. -/
def StatusAgrees (rootDomain : JsString) (serverName : Option JsString) : Prop :=
  let domain := requestedDomain rootDomain serverName
  let parts := getSNIPrefixParts domain rootDomain
  if js "wrong-host" ∈ parts then
    js "revoked" ∈ parts ↔ js "revoked" ∈ namePieces rootDomain
  else if unit '_' ∈ domain then
    js "revoked" ∈ parts ↔
      js "revoked" ∈ namePieces (join (js ".") (split domain (js ".")).tail)
  else
    js "revoked" ∈ parts.dropLast ∨
      (parts.getLastD [] = js "revoked" ↔
        js "revoked" ∈ namePieces (parts.getLastD [] ++ hostEnding domain rootDomain))

instance (rootDomain : JsString) (serverName : Option JsString) :
    Decidable (StatusAgrees rootDomain serverName) := by
  unfold StatusAgrees
  infer_instance

theorem coveredDomain_eq_ok {domain covered : JsString} (h : coveredDomain domain = .ok covered) :
    covered = if unit '_' ∈ domain then
        js "*" ++ (js "." ++ join (js ".") (split domain (js ".")).tail)
      else domain := by
  simp only [coveredDomain] at h
  split_ifs at h ⊢ with hunderscore
  · cases h
    rfl
  · exact (Except.ok.inj h).symm

/-- No certificate covers a name under a root domain with an underscore, if that is not in its
first label. -/
theorem underscore_notMem_of_covered {p rootDomain covered : JsString} (hp : unit '.' ∉ p)
    (hunderscore : unit '_' ∉ p) (h : coveredDomain (p ++ js "." ++ rootDomain) = .ok covered) :
    unit '_' ∉ p ++ js "." ++ rootDomain := by
  intro hmem
  have hroot : unit '_' ∈ rootDomain := by
    rw [List.append_assoc, List.mem_append, List.mem_append] at hmem
    obtain hmem | hmem | hmem := hmem
    · exact absurd hmem hunderscore
    · exact absurd hmem (by decide)
    · exact hmem
  have htail : (split (p ++ js "." ++ rootDomain) (js ".")).tail = split rootDomain (js ".") := by
    have hsplit : split (p ++ (js "." ++ rootDomain)) (js ".") = p :: split rootDomain (js ".") :=
      split_append_cons hp rootDomain
    rw [List.append_assoc, hsplit, List.tail_cons]
  have hlabel : ∃ l ∈ split rootDomain (js "."), unit '_' ∈ l := by
    have hjoin : join (js ".") (split rootDomain (js ".")) = rootDomain :=
      join_split (by decide) rootDomain
    rw [← hjoin] at hroot
    exact (mem_join hroot).resolve_right (by decide)
  simp only [coveredDomain, if_pos hmem, htail, if_pos (Or.inr hlabel)] at h
  cases h

theorem or_iff_or_iff {a b c : Prop} : (a ∨ b ↔ a ∨ c) ↔ a ∨ (c ↔ b) := by
  tauto

theorem mem_iff_mem_dropLast (parts : List JsString) {p : JsString} (hp : p ≠ []) :
    p ∈ parts ↔ p ∈ parts.dropLast ∨ parts.getLastD [] = p := by
  obtain rfl | ⟨init, last, rfl⟩ := List.eq_nil_or_concat' parts
  · simp [hp.symm]
  · simp [eq_comm]

/-- The name of the certificate counts as revoked exactly if the option is set, if and only if
the status agrees. -/
theorem statusAgrees_iff {rootDomain : JsString} {serverName : Option JsString} {h : Handshake}
    (haccepted : handleConnection rootDomain serverName = .accepted h) {covered : JsString}
    (hcovered : coveredDomain h.certDomain = .ok covered) :
    (isRevokedName covered = true ↔ h.certOptions.revoked = true) ↔
      StatusAgrees rootDomain serverName := by
  obtain ⟨config, es, rfl, hmerged⟩ := accepted_mergedFrom haccepted
  have hrevoked := hmerged.revoked_iff
  have hoverride := hmerged.override_iff
  simp only [handshakeOf, certDomainOf, hoverride] at hcovered ⊢
  rw [isRevokedName_iff, hrevoked]
  simp only [StatusAgrees]
  generalize requestedDomain rootDomain serverName = domain at hmerged hcovered ⊢
  by_cases hword : js "wrong-host" ∈ getSNIPrefixParts domain rootDomain
  · simp only [if_pos hword] at hcovered ⊢
    have hunderscore := underscore_notMem_of_covered (by decide) (by decide) hcovered
    have hpieces : namePieces covered = js "example" :: namePieces rootDomain := by
      rw [coveredDomain_eq_ok hcovered, if_neg hunderscore, List.append_assoc,
        namePieces_append_dot (by decide)]
      rfl
    rw [hpieces, List.mem_cons, or_iff_right (by decide)]
    exact Iff.comm
  · simp only [if_neg hword] at hcovered ⊢
    by_cases hunderscore : unit '_' ∈ domain
    · have hpieces : namePieces covered =
          js "*" :: namePieces (join (js ".") (split domain (js ".")).tail) := by
        rw [coveredDomain_eq_ok hcovered, if_pos hunderscore, namePieces_append_dot (by decide)]
        rfl
      rw [hpieces, List.mem_cons, or_iff_right (by decide), if_pos hunderscore]
      exact Iff.comm
    · rw [coveredDomain_eq_ok hcovered, if_neg hunderscore, if_neg hunderscore,
        namePieces_host hmerged.named, List.mem_append,
        mem_iff_mem_dropLast (getSNIPrefixParts domain rootDomain) (js_ne_nil (by decide))]
      exact or_iff_or_iff

section

variable {x : X509} {r : x.Reader} (setup : LocalCASetup x) (rootDomain : JsString)

/-- The certificate of a host is issued by the local CA: the leaf that a generation ends with, for
the name that it covers. -/
def LocalLeafOf (h : Handshake) (leaf : LocallyGeneratedCertificate x) : Prop :=
  ∃ (γ : Type) (mode : CertMode) (lookup : JsString → CertOptions → Option γ) (g : Generation γ)
    (domain covered : JsString) (isTemporary : Bool) (s : OcspState x) (context : CallContext),
    generateCertificate mode rootDomain lookup h.certDomain h.certOptions = .ok g ∧
      g.source = .localLeaf domain isTemporary ∧ coveredDomain domain = .ok covered ∧
      s.leafFor setup context covered h.certOptions = some leaf

variable (r)

/-- Whenever the local CA answers for the certificate of the host, the response says that it is
revoked exactly if the options of the host say so. -/
def OcspMatches (h : Handshake) : Prop :=
  ∀ leaf, LocalLeafOf setup rootDomain h leaf →
    ∀ (s : OcspState x) (now : Time) (response : OcspResponse x),
      s.getOcspResponse setup r (r.rawData leaf.certificate) now = .ok (some response) →
        (response.certStatus.isRevoked = true ↔ h.certOptions.revoked = true)

variable {r setup rootDomain}

/-- The local CA is asked for the domain that the handshake asks a certificate for. -/
theorem domain_of_localLeaf {γ : Type} {mode : CertMode} {domain d : JsString}
    {lookup : JsString → CertOptions → Option γ} {certOptions : CertOptions} {g : Generation γ}
    {isTemporary : Bool}
    (hg : generateCertificate mode rootDomain lookup domain certOptions = .ok g)
    (hsource : g.source = .localLeaf d isTemporary) : d = domain := by
  cases mode with
  | localOnly =>
      simp only [generateCertificate] at hg
      split_ifs at hg
      cases hg
      cases hsource
      rfl
  | acme dnsServer =>
      simp only [generateCertificate] at hg
      split at hg
      · cases hg
        cases hsource
        rfl
      · split at hg
        · cases hg
          cases hsource
        · split at hg
          · cases hg
            cases hsource
          · cases hg
            cases hsource
            rfl

/-- A response is about the certificate that was sent, and says what its name says. -/
theorem certStatus_of_getOcspResponse (hr : r.Lawful) {s : OcspState x} {cert : x.Certificate}
    {now : Time} {response : OcspResponse x}
    (h : s.getOcspResponse setup r (r.rawData cert) now = .ok (some response)) :
    response.certStatus.isRevoked = isRevokedCert r cert := by
  simp only [OcspState.getOcspResponse, hr.parse_rawData] at h
  cases hissuer : s.findOcspIssuer setup r cert with
  | error message =>
      rw [hissuer] at h
      cases h
  | ok found =>
      rw [hissuer] at h
      cases found with
      | none => cases h
      | some issuer =>
          cases h
          simp only [createOcspResponse]
          cases isRevokedCert r cert <;> rfl

theorem isRevokedCert_makeLeaf (hr : r.Lawful) (context : CallContext) (domain : JsString)
    (options : CertOptions) (intermediate : Option (CaMaterial x)) :
    isRevokedCert r (LocalCAState.makeLeaf setup context domain options intermediate).certificate =
      isRevokedName domain := by
  simp only [isRevokedCert, LocalCAState.makeLeaf, hr.dnsNames_create, Option.map_some,
    List.any_cons, List.any_nil, Bool.or_false]

theorem isRevokedCert_of_localLeafOf (hr : r.Lawful) {h : Handshake}
    {leaf : LocallyGeneratedCertificate x} (hleaf : LocalLeafOf setup rootDomain h leaf) :
    ∃ covered, coveredDomain h.certDomain = .ok covered ∧
      isRevokedCert r leaf.certificate = isRevokedName covered := by
  obtain ⟨γ, mode, lookup, g, domain, covered, isTemporary, s, context, hg, hsource, hcovered,
    hleaf⟩ := hleaf
  obtain rfl := domain_of_localLeaf hg hsource
  obtain ⟨intermediate, rfl⟩ := OcspState.leafFor_eq_some hleaf
  exact ⟨covered, hcovered, isRevokedCert_makeLeaf hr context covered _ intermediate⟩

/-- A process with a new intermediate. -/
def loadedState (setup : LocalCASetup x) : OcspState x :=
  { OcspState.initial with
    ca := { LocalCAState.initial with
      settled := fun managed => some (.ok (buildManagedCA setup.root managed 0 0)) } }

/-- The context of a call at time zero. -/
def firstContext : CallContext := ⟨0, 0, .empty⟩

/-- A leaf that was just generated is answered for. -/
theorem exists_answer (hr : r.Lawful) (setup : LocalCASetup x) (domain : JsString)
    (options : CertOptions) :
    ∃ leaf, (loadedState setup).leafFor setup firstContext domain options = some leaf ∧
      ∃ s response, OcspState.getOcspResponse setup r s (r.rawData leaf.certificate) 0 =
        .ok (some response) := by
  cases hself : options.selfSigned with
  | true =>
      refine ⟨LocalCAState.makeLeaf setup firstContext domain options none, ?_,
        (loadedState setup).keepLeaf setup r firstContext domain options
          (LocalCAState.makeLeaf setup firstContext domain options none), _,
        OcspState.getOcspResponse_of_held hr (OcspState.held_keepLeaf hself) rfl 0⟩
      simp only [OcspState.leafFor, hself, if_true]
  | false =>
      let ca := buildManagedCA setup.root .intermediate 0 0
      refine ⟨LocalCAState.makeLeaf setup firstContext domain options (some ca), ?_,
        loadedState setup, _, OcspState.getOcspResponse_of_intermediate hr rfl rfl ?_ 0⟩
      · simp only [OcspState.leafFor, hself, Bool.false_eq_true, if_false]
        rfl
      · have hpaired : r.publicKey ca.cert = ca.key :=
          paired_buildManagedCA hr setup.root .intermediate 0 0
        simp only [OcspState.signedBy, Bool.and_eq_true, decide_eq_true_eq]
        refine ⟨hr.issuer_create _ _, ?_⟩
        change r.verify _ (r.publicKey ca.cert) = true
        rw [hpaired]
        exact hr.verify_create _ _

/-- The responses say what the name of the certificate says. -/
theorem ocspMatches_iff_isRevokedName (hr : r.Lawful) (setup : LocalCASetup x)
    {rootDomain : JsString} {serverName : Option JsString} {h : Handshake}
    (haccepted : handleConnection rootDomain serverName = .accepted h) {covered : JsString}
    (hcovered : coveredDomain h.certDomain = .ok covered) :
    OcspMatches r setup rootDomain h ↔
      (isRevokedName covered = true ↔ h.certOptions.revoked = true) := by
  constructor
  · intro hmatches
    obtain ⟨leaf, hleaf, s, response, hresponse⟩ :=
      exists_answer hr setup covered h.certOptions
    have hlocal : LocalLeafOf setup rootDomain h leaf := by
      refine ⟨Unit, .localOnly, fun _ _ => none, ⟨none, .localLeaf h.certDomain false⟩,
        h.certDomain, covered, false, loadedState setup, firstContext, ?_, rfl, hcovered, hleaf⟩
      obtain ⟨config, es, rfl, hmerged⟩ := accepted_mergedFrom haccepted
      have hacme : (handshakeOf rootDomain (requestedDomain rootDomain serverName)
          (getSNIPrefixParts (requestedDomain rootDomain serverName) rootDomain)
            config).certOptions.requiredType ≠ some .acme := by
        simp only [handshakeOf, hmerged.requiredType_eq]
        split_ifs <;> simp
      simp only [generateCertificate, if_neg hacme]
    obtain ⟨covered', hcovered', hcert⟩ := isRevokedCert_of_localLeafOf hr hlocal
    obtain rfl : covered = covered' := Except.ok.inj (hcovered.symm.trans hcovered')
    rw [← hcert, ← certStatus_of_getOcspResponse hr hresponse]
    exact hmatches leaf hlocal s 0 response hresponse
  · intro hstatus leaf hleaf s now response hresponse
    obtain ⟨covered', hcovered', hcert⟩ := isRevokedCert_of_localLeafOf hr hleaf
    obtain rfl : covered = covered' := Except.ok.inj (hcovered.symm.trans hcovered')
    rw [certStatus_of_getOcspResponse hr hresponse, hcert]
    exact hstatus

/-- For a host whose certificate the local CA can issue, the responses say what the options say if
and only if the pieces of the name that count are its parts. -/
theorem ocspMatches_iff (hr : r.Lawful) (setup : LocalCASetup x) {rootDomain : JsString}
    {serverName : Option JsString} {h : Handshake}
    (haccepted : handleConnection rootDomain serverName = .accepted h) {covered : JsString}
    (hcovered : coveredDomain h.certDomain = .ok covered) :
    OcspMatches r setup rootDomain h ↔ StatusAgrees rootDomain serverName :=
  (ocspMatches_iff_isRevokedName hr setup haccepted hcovered).trans
    (statusAgrees_iff haccepted hcovered)

end

open X509

/-- The status of `revoked.testserver.host` is the one of its options. -/
theorem ocspMatches_iff_revoked :
    ∃ h, handleConnection (js "testserver.host") (some (js "revoked.testserver.host")) =
        .accepted h ∧
      OcspMatches recordedReader recordedSetup (js "testserver.host") h := by
  have hserved : ∃ h, handleConnection (js "testserver.host")
      (some (js "revoked.testserver.host")) = .accepted h ∧
        coveredDomain h.certDomain = .ok (js "revoked.testserver.host") := ⟨_, rfl, rfl⟩
  obtain ⟨h, haccepted, hcovered⟩ := hserved
  have hagrees : StatusAgrees (js "testserver.host") (some (js "revoked.testserver.host")) := by
    decide
  refine ⟨h, haccepted, ?_⟩
  exact (ocspMatches_iff recordedReader_lawful recordedSetup haccepted hcovered).mpr hagrees

/-- The certificate of `revoked--wrong-host` is for another name, which is not revoked. -/
theorem not_ocspMatches_wrongHost :
    ∃ h, handleConnection (js "testserver.host")
        (some (js "revoked--wrong-host.testserver.host")) = .accepted h ∧
      ¬ OcspMatches recordedReader recordedSetup (js "testserver.host") h := by
  have hserved : ∃ h, handleConnection (js "testserver.host")
      (some (js "revoked--wrong-host.testserver.host")) = .accepted h ∧
        coveredDomain h.certDomain = .ok (js "example.testserver.host") ∧
        isRevokedName (js "example.testserver.host") = false ∧
        h.certOptions.revoked = true := ⟨_, rfl, rfl, rfl, rfl⟩
  obtain ⟨h, haccepted, hcovered, hgood, hrevoked⟩ := hserved
  refine ⟨h, haccepted, ?_⟩
  rw [ocspMatches_iff_isRevokedName recordedReader_lawful recordedSetup haccepted hcovered, hgood,
    hrevoked]
  decide

end TestServer
