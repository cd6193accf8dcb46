import TestServer.Library.Runs
import TestServer.TlsCertificates.RecordedLibrary

/-!
# OCSP answers name the true issuer

Every certificate that a local CA holds is held with its own private key:
the root by assumption, an authority because it was created or stored with its key,
and a self-signed leaf because it was generated with it. So a response is
signed by the issuer that it names, and that has issued the certificate asked for.
-/

namespace TestServer.TlsCertificates

open Js Library Library.Runs

section

variable {x : X509} (r : x.Reader)

/-- The key is the one of the certificate. -/
def Paired (cert : x.Certificate) (key : x.CryptoKey) : Prop := r.publicKey cert = key

/-- A record that `caToRecord` has written for an authority that some server has created. -/
def WrittenRecord (x : X509) (stored : StoredCertificate) : Prop :=
  ∃ (root : RootCA x) (managed : ManagedCA) (seed : Nat) (now : Time) (cacheKey domain : JsString),
    stored = (caToRecord (buildManagedCA root managed seed now) cacheKey domain).stored

/-- A store that holds nothing but such records. -/
structure StoreReplies.Written (x : X509) (replies : StoreReplies) : Prop where
  read : ∀ stored, replies.read = .ok (some stored) → WrittenRecord x stored
  reread : ∀ stored, replies.reread = .ok (some stored) → WrittenRecord x stored

namespace OcspState

/-- The stores that loads read were written by `caToRecord`. -/
def LoadsWritten : Event → Prop
  | .load _ context => context.replies.Written x
  | _ => True

/-- The response is given by the issuer of the certificate: the certificate that it names has the
issuer's name, and its key verifies the signature, or is the certificate itself, self-signed and
generated here; and the response is signed by the key of the certificate that it names. -/
structure TrulyIssued (s : OcspState x) (cert : x.Certificate) (response : OcspResponse x)
    (issuerCert : x.Certificate) : Prop where
  certs : response.certs = [issuerCert]
  certID : response.certID = createCertId r cert issuerCert
  responderID : response.responderID = r.subject issuerCert
  issued : r.issuer cert = r.subject issuerCert ∧ r.verify cert (r.publicKey issuerCert) = true ∨
    cert = issuerCert ∧ cert ∈ s.generated
  signed : Paired r issuerCert response.signingKey

/-- What is held is held with its key. -/
structure Inv (s : OcspState x) : Prop where
  settled : ∀ managed ca, s.ca.settled managed = some (.ok ca) → Paired r ca.cert ca.key
  selfSigned : ∀ serialNumber held, s.selfSignedCerts.get serialNumber = some held →
    Paired r held.cert held.key ∧ held.cert ∈ s.generated

theorem inv_initial : Inv r (initial : OcspState x) where
  settled managed ca h := by cases h
  selfSigned serialNumber held h := by cases h

end OcspState

variable {r} {setup : LocalCASetup x}

theorem paired_buildManagedCA (hr : r.Lawful) (root : RootCA x) (managed : ManagedCA) (seed : Nat)
    (now : Time) :
    Paired r (buildManagedCA root managed seed now).cert
      (buildManagedCA root managed seed now).key :=
  hr.publicKey_create _ _

/-- A record that was written gives back the authority that it was written for. -/
theorem WrittenRecord.paired (hx : x.Lawful) (hr : r.Lawful) {stored : StoredCertificate}
    (h : WrittenRecord x stored) {ca : CaMaterial x} (hca : tryParseStoredCA x stored = some ca) :
    Paired r ca.cert ca.key := by
  obtain ⟨root, managed, seed, now, cacheKey, domain, rfl⟩ := h
  rw [tryParseStoredCA_caToRecord hx rfl] at hca
  cases hca
  exact paired_buildManagedCA hr root managed seed now

theorem paired_adoptStored (hx : x.Lawful) (hr : r.Lawful) {stored : Option StoredCertificate}
    (h : ∀ record, stored = some record → WrittenRecord x record) {now : Time}
    {ca : CaMaterial x} (hca : adoptStored x stored now = .ok (some ca)) :
    Paired r ca.cert ca.key := by
  cases stored with
  | none => cases hca
  | some record =>
      simp only [adoptStored] at hca
      split at hca
      · cases hca
      · exact (h record rfl).paired hx hr (Except.ok.inj hca)
      · cases hca

/-- An authority that is adopted from a written store comes with its key. -/
theorem StoreReplies.Written.paired_adopted (hx : x.Lawful) (hr : r.Lawful)
    {replies : StoreReplies} (h : replies.Written x) {now : Time} {ca : CaMaterial x}
    (hca : replies.adopted x now = some ca) : Paired r ca.cert ca.key := by
  rw [StoreReplies.adopted] at hca
  cases hread : replies.read with
  | error message =>
      rw [hread] at hca
      cases hca
  | ok stored =>
      rw [hread] at hca
      have hwritten : ∀ record, stored = some record → WrittenRecord x record := by
        rintro record rfl
        exact h.read record hread
      simp only at hca
      split at hca
      · cases hca
      · next parsed hadopted =>
          cases hca
          exact paired_adoptStored hx hr hwritten hadopted
      · split at hca
        · next winner _ hreread _ =>
            have hwinner : ∀ record, winner = some record → WrittenRecord x record := by
              rintro record rfl
              exact h.reread record hreread
            cases hadopted : adoptStored x winner now with
            | error message =>
                rw [hadopted] at hca
                cases hca
            | ok adopted =>
                rw [hadopted] at hca
                obtain rfl : adopted = some ca := hca
                exact paired_adoptStored hx hr hwinner hadopted
        · cases hca

namespace LocalCAState

variable {s : LocalCAState x} {context : CallContext}

/-- A load over a written store gives an authority with its key. -/
theorem paired_loadManagedCA (hx : x.Lawful) (hr : r.Lawful) (h : context.replies.Written x)
    {managed : ManagedCA} {ca : CaMaterial x}
    (hca : loadManagedCA setup context managed = .ok ca) : Paired r ca.cert ca.key := by
  obtain ⟨-, rfl⟩ := loadManagedCA_eq_ok_iff.mp hca
  have hgenerated := paired_buildManagedCA hr setup.root managed context.seed context.now
  rw [loadedCA]
  split_ifs
  · cases hadopted : context.replies.adopted x context.now with
    | none => exact hgenerated
    | some adopted => exact h.paired_adopted hx hr hadopted
  · exact hgenerated

theorem publicKey_makeLeaf (hr : r.Lawful) (setup : LocalCASetup x) (context : CallContext)
    (domain : JsString) (options : CertOptions) (intermediate : Option (CaMaterial x)) :
    Paired r (makeLeaf setup context domain options intermediate).certificate
      (OcspState.leafKeyPair setup context options) :=
  hr.publicKey_create _ _

end LocalCAState

namespace OcspState

open LocalCAState

variable {s t : OcspState x}

theorem Inv.load (hx : x.Lawful) (hr : r.Lawful) (h : Inv r s) {context : CallContext}
    (hwritten : context.replies.Written x) (managed : ManagedCA) :
    Inv r { s with ca := (getManagedCA setup s.ca context managed).2 } where
  settled k ca hca := by
    simp only [getManagedCA_settled] at hca
    split_ifs at hca with hk
    · have hprovided := Option.some.inj hca
      rw [provided] at hprovided
      cases hsettled : s.ca.settled k with
      | some outcome =>
          rw [hsettled] at hprovided
          obtain rfl : outcome = .ok ca := hprovided
          exact h.settled k ca hsettled
      | none =>
          rw [hsettled] at hprovided
          exact paired_loadManagedCA hx hr hwritten hprovided
    · exact h.settled k ca hca
  selfSigned := h.selfSigned

theorem Inv.keepLeaf (h : Inv r s) {context : CallContext} {domain : JsString}
    {options : CertOptions} {leaf : LocallyGeneratedCertificate x}
    (hleaf : Paired r leaf.certificate (leafKeyPair setup context options)) :
    Inv r (s.keepLeaf setup r context domain options leaf) where
  settled := h.settled
  selfSigned serialNumber held hheld := by
    simp only [OcspState.keepLeaf] at hheld ⊢
    split_ifs at hheld ⊢ with hself
    · rw [InsertionMap.get_set] at hheld
      split_ifs at hheld
      · cases hheld
        exact ⟨hleaf, List.mem_append_right _ (List.mem_singleton_self _)⟩
      · obtain ⟨hpaired, hgenerated⟩ := h.selfSigned serialNumber held hheld
        exact ⟨hpaired, List.mem_append_left _ hgenerated⟩
    · exact h.selfSigned serialNumber held hheld

/-- The leaf of a generation is made by `makeLeaf`. -/
theorem leafFor_eq_some {context : CallContext} {domain : JsString} {options : CertOptions}
    {leaf : LocallyGeneratedCertificate x}
    (h : s.leafFor setup context domain options = some leaf) :
    ∃ intermediate, leaf = makeLeaf setup context domain options intermediate := by
  simp only [leafFor] at h
  split_ifs at h
  · exact ⟨none, (Option.some.inj h).symm⟩
  · split at h
    · next intermediate hsettled => exact ⟨some intermediate, (Option.some.inj h).symm⟩
    · cases h

theorem Inv.dropLeaf (h : Inv r s) (timer : LeafTimer) (timers : List LeafTimer) :
    Inv r { s.dropLeaf timer with timers := timers } where
  settled := h.settled
  selfSigned serialNumber held hheld := by
    simp only [OcspState.dropLeaf, InsertionMap.get_delete] at hheld
    split_ifs at hheld
    exact h.selfSigned serialNumber held hheld

theorem Inv.step (hx : x.Lawful) (hr : r.Lawful) (h : Inv r s) {e : Event}
    (hwritten : LoadsWritten (x := x) e) (hstep : OcspState.step setup r s e = some t) :
    Inv r t := by
  cases e with
  | load managed context =>
      cases hstep
      exact h.load hx hr hwritten managed
  | generated domain options context =>
      obtain ⟨leaf, hleaf, rfl⟩ := Option.map_eq_some_iff.mp hstep
      obtain ⟨intermediate, rfl⟩ := leafFor_eq_some hleaf
      exact h.keepLeaf (publicKey_makeLeaf hr setup context domain options intermediate)
  | timer n =>
      obtain ⟨timer, -, rfl⟩ := Option.map_eq_some_iff.mp hstep
      exact h.dropLeaf timer _

theorem ownCert_eq_some (hr : r.Lawful) {cert : x.Certificate} {held : KeyedCertificate x}
    (h : s.ownCert r cert = some held) :
    s.selfSignedCerts.get (r.serialNumber cert) = some held ∧ held.cert = cert := by
  obtain ⟨hget, hequal⟩ := Option.filter_eq_some_iff.mp h
  exact ⟨hget, (hr.equal_iff _ _).mp hequal⟩

/-- Every authority that is asked is held with its key. -/
theorem Inv.candidates (h : Inv r s) (hroot : Paired r setup.root.caCert setup.root.caKey)
    {candidates : List (KeyedCertificate x)} (hcandidates : s.candidates setup = .ok candidates) :
    ∀ candidate ∈ candidates, Paired r candidate.cert candidate.key := by
  simp only [OcspState.candidates] at hcandidates
  have hself : Paired r (rootIssuer setup).cert (rootIssuer setup).key := hroot
  split at hcandidates <;> cases hcandidates
  · next intermediate hsettled =>
      intro candidate hmem
      obtain rfl | hmem := List.mem_cons.mp hmem
      · exact h.settled .intermediate intermediate hsettled
      · rw [List.mem_singleton.mp hmem]
        exact hself
  · intro candidate hmem
    rw [List.mem_singleton.mp hmem]
    exact hself

/-- The issuer that is found has issued the certificate, and is held with its key. -/
theorem Inv.findOcspIssuer (hr : r.Lawful) (h : Inv r s)
    (hroot : Paired r setup.root.caCert setup.root.caKey) {cert : x.Certificate}
    {issuer : KeyedCertificate x} (hfound : s.findOcspIssuer setup r cert = .ok (some issuer)) :
    Paired r issuer.cert issuer.key ∧
      (r.issuer cert = r.subject issuer.cert ∧
          r.verify cert (r.publicKey issuer.cert) = true ∨
        cert = issuer.cert ∧ cert ∈ s.generated) := by
  simp only [OcspState.findOcspIssuer] at hfound
  split at hfound
  · next held hown =>
      cases hfound
      obtain ⟨hget, hcert⟩ := ownCert_eq_some hr hown
      obtain ⟨hpaired, hgenerated⟩ := h.selfSigned _ _ hget
      exact ⟨hpaired, .inr ⟨hcert.symm, hcert ▸ hgenerated⟩⟩
  · cases hcandidates : s.candidates setup with
    | error message =>
        rw [hcandidates] at hfound
        cases hfound
    | ok candidates =>
        rw [hcandidates] at hfound
        have hfind : candidates.find? (signedBy r cert) = some issuer := Except.ok.inj hfound
        have hsigned := List.find?_some hfind
        simp only [signedBy, Bool.and_eq_true, decide_eq_true_eq] at hsigned
        exact ⟨h.candidates hroot hcandidates issuer (List.mem_of_find?_eq_some hfind),
          .inl hsigned⟩

/-- A self-signed certificate that is held is answered for. -/
theorem getOcspResponse_of_held (hr : r.Lawful) {cert : x.Certificate} {held : KeyedCertificate x}
    (hheld : s.selfSignedCerts.get (r.serialNumber cert) = some held) (hcert : held.cert = cert)
    (now : Time) :
    s.getOcspResponse setup r (r.rawData cert) now = .ok (some (createOcspResponse r cert held
      (if isRevokedCert r cert then .revoked now else .good) now)) := by
  have hown : s.ownCert r cert = some held :=
    Option.filter_eq_some_iff.mpr ⟨hheld, (hr.equal_iff _ _).mpr hcert⟩
  simp only [getOcspResponse, hr.parse_rawData, findOcspIssuer, hown, Except.map, Option.map_some]

/-- A self-signed leaf is held once it is generated. -/
theorem held_keepLeaf {context : CallContext} {domain : JsString} {options : CertOptions}
    {leaf : LocallyGeneratedCertificate x} (hself : options.selfSigned = true) :
    (s.keepLeaf setup r context domain options leaf).selfSignedCerts.get
        (r.serialNumber leaf.certificate) =
      some ⟨leaf.certificate, leafKeyPair setup context options⟩ := by
  simp only [keepLeaf, hself, if_true]
  exact InsertionMap.get_set_self ..

/-- A certificate that the intermediate has signed is answered for once that is loaded. -/
theorem getOcspResponse_of_intermediate (hr : r.Lawful) {cert : x.Certificate}
    {ca : CaMaterial x} (hown : s.ownCert r cert = none)
    (hsettled : s.ca.settled .intermediate = some (.ok ca))
    (hsigned : signedBy r cert ⟨ca.cert, ca.key⟩ = true) (now : Time) :
    s.getOcspResponse setup r (r.rawData cert) now = .ok (some (createOcspResponse r cert
      ⟨ca.cert, ca.key⟩ (if isRevokedCert r cert then .revoked now else .good) now)) := by
  have hfind : [⟨ca.cert, ca.key⟩, rootIssuer setup].find? (signedBy r cert) =
      some ⟨ca.cert, ca.key⟩ := List.find?_cons_of_pos hsigned
  simp only [getOcspResponse, hr.parse_rawData, findOcspIssuer, hown, candidates, hsettled,
    Except.map, hfind, Option.map_some]

/-- In every run over a store that was written by `caToRecord`, a response is given by the true
issuer of the certificate asked for, and signed with its key. -/
theorem getOcspResponse_trulyIssued (hx : x.Lawful) (hr : r.Lawful)
    (hroot : Paired r setup.root.caCert setup.root.caKey) {es : List Event}
    (hwritten : ∀ e ∈ es, LoadsWritten (x := x) e) (hrun : run (step setup r) initial es = some s)
    {certDer : List UInt8} {now : Time} {response : OcspResponse x}
    (hresponse : s.getOcspResponse setup r certDer now = .ok (some response)) :
    ∃ cert issuerCert, r.parseDer certDer = some cert ∧
      TrulyIssued r s cert response issuerCert := by
  have hinv : Inv r s := guarded_invariant
    (fun _ _ _ h hok hstep => h.step hx hr hok hstep) (inv_initial r)
    (guarded_of_forall_mem hwritten _) hrun
  simp only [getOcspResponse] at hresponse
  split at hresponse
  · cases hresponse
  · next cert hparse =>
      cases hissuer : s.findOcspIssuer setup r cert with
      | error message =>
          rw [hissuer] at hresponse
          cases hresponse
      | ok found =>
          rw [hissuer] at hresponse
          cases found with
          | none => cases hresponse
          | some issuer =>
              obtain ⟨hpaired, hissued⟩ := hinv.findOcspIssuer hr hroot hissuer
              cases hresponse
              exact ⟨cert, issuer.cert, hparse, rfl, rfl, rfl, hissued, hpaired⟩

/-- A call of `generateCertificate` that nothing interrupts is a run of the events here. -/
theorem exists_run_generateCertificate (r : x.Reader) (s : OcspState x) (context : CallContext)
    (domain : JsString) (options : CertOptions) :
    ∃ es t, run (step setup r) s es = some t ∧
      t.ca = (LocalCAState.generateCertificate setup s.ca context domain options).2 := by
  have hgenerated := generateCertificate_generated setup s.ca context domain options
  generalize LocalCAState.generateCertificate setup s.ca context domain options = result
    at hgenerated ⊢
  cases hgenerated with
  | invalid hdomain => exact ⟨[], s, rfl, rfl⟩
  | cached hdomain hcache => exact ⟨[], s, rfl, rfl⟩
  | @selfSigned covered hdomain hcache hself =>
      refine ⟨[.generated covered options context], s.keepLeaf setup r context covered options
        (makeLeaf setup context covered options none),
        run_cons_eq_some_iff.mpr ⟨_, ?_, rfl⟩, rfl⟩
      simp only [OcspState.step, leafFor, hself, if_true, Option.map_some]
  | failed hdomain hcache hself hprovided =>
      exact ⟨[.load .intermediate context], _, rfl, rfl⟩
  | @issued covered ca hdomain hcache hself hprovided =>
      have hsettled : (getManagedCA setup s.ca context .intermediate).2.settled .intermediate =
          some (.ok ca) := by
        rw [getManagedCA_settled, if_pos rfl, hprovided]
      let loaded : OcspState x :=
        { s with ca := (getManagedCA setup s.ca context .intermediate).2 }
      refine ⟨[.load .intermediate context, .generated covered options context],
        loaded.keepLeaf setup r context covered options
          (makeLeaf setup context covered options (some ca)),
        run_cons_eq_some_iff.mpr ⟨loaded, rfl, run_cons_eq_some_iff.mpr ⟨_, ?_, rfl⟩⟩, rfl⟩
      simp only [OcspState.step, leafFor, hself, Bool.false_eq_true, if_false, loaded, hsettled,
        Option.map_some]

end OcspState

end

namespace OcspState

open X509 LocalCAState

/-- The process generates a self-signed certificate and is asked about it. -/
theorem getOcspResponse_trulyIssued_selfSigned :
    let options : CertOptions := { selfSigned := true }
    let context : CallContext := ⟨1000, 0, .empty⟩
    let cert := (makeLeaf recordedSetup context (js "t") options none).certificate
    ∃ s response issuerCert,
      run (step recordedSetup recordedReader) initial [.generated (js "t") options context] =
        some s ∧
      s.getOcspResponse recordedSetup recordedReader (recordedReader.rawData cert) 2000 =
        .ok (some response) ∧
      TrulyIssued recordedReader s cert response issuerCert := by
  intro options context cert
  let leaf := makeLeaf recordedSetup context (js "t") options none
  let s := initial.keepLeaf recordedSetup recordedReader context (js "t") options leaf
  have hrun : run (step recordedSetup recordedReader) initial
      [.generated (js "t") options context] = some s := rfl
  have hheld : s.selfSignedCerts.get (recordedReader.serialNumber cert) =
      some ⟨cert, leafKeyPair recordedSetup context options⟩ := held_keepLeaf rfl
  have hresponse : s.getOcspResponse recordedSetup recordedReader
      (recordedReader.rawData cert) 2000 = .ok (some (createOcspResponse recordedReader cert
        ⟨cert, leafKeyPair recordedSetup context options⟩
        (if isRevokedCert recordedReader cert then .revoked 2000 else .good) 2000)) :=
    getOcspResponse_of_held recordedReader_lawful hheld rfl 2000
  have hroot : Paired recordedReader recordedSetup.root.caCert recordedSetup.root.caKey := rfl
  have hwritten : ∀ e ∈ [Event.generated (js "t") options context],
      LoadsWritten (x := recorded) e := by
    intro e he
    rw [List.mem_singleton.mp he]
    trivial
  obtain ⟨cert', issuerCert, hparse, hissued⟩ := getOcspResponse_trulyIssued recorded_lawful
    recordedReader_lawful hroot hwritten hrun hresponse
  obtain rfl : cert = cert' :=
    Option.some.inj ((recordedReader_lawful.parse_rawData cert).symm.trans hparse)
  exact ⟨_, _, issuerCert, hrun, hresponse, hissued⟩

end OcspState

end TestServer.TlsCertificates
