import TestServer.OcspStatus
import TestServer.TlsCertificates.SecureContextCache

/-!
# Stapling for self-signed certificates

The TLS handshakes of a process over time: the secure-context cache, the leaves
that the local CA has cached, and the timers that drop a leaf, with its OCSP
key, a day after its generation. A context lasts up to a day from the call that it
was made for, so one that was made from an older leaf outlives the key.

## Implementation notes

Handshakes overlap: a call of `getOrCreate` that misses waits for its leaf and for
the end of its factory, and a timer fires at any time from when it is due. A
generation draws a new number for what is random. What AcmeCA returns is given
with the handshake. When a leaf was generated, and when the call of a context was made, is
kept for the statements only.
-/

namespace TestServer

open Js Library Library.Runs Endpoints TlsCertificates

/-- A secure context, by the leaf of the local CA that it holds, if it does. -/
structure ServedContext (x : X509) where
  leaf : Option (LocallyGeneratedCertificate x)
  calledAt : Time

inductive FactoryPhase (x : X509) where
  /-- `generateCertificate` has found no leaf for the domain that it covers. -/
  | generating (covered : JsString)
  | generated (leaf : Option (LocallyGeneratedCertificate x))

/-- A call of `getOrCreate` that waits for its factory. -/
structure ContextCall (x : X509) where
  key : ContextKey
  calledAt : Time
  certOptions : CertOptions
  isTemporary : Bool
  phase : FactoryPhase x

structure TlsServer (x : X509) where
  now : Time
  ocsp : OcspState x
  secureContextCache : SecureContextCache (ServedContext x)
  calls : List (ContextCall x)
  nextSeed : Nat
  /-- The context that the last step has returned. -/
  returned : Option (ServedContext x)
  /-- The serial numbers of the self-signed leaves, with the time of their generation. -/
  births : List (JsString × Time)

namespace TlsServer

variable {x : X509}

def initial (now : Time) : TlsServer x where
  now := now
  ocsp := .initial
  secureContextCache := .new
  calls := []
  nextSeed := 0
  returned := none
  births := []

variable (setup : LocalCASetup x) (r : x.Reader) (mode : CertMode) (rootDomain : JsString)

def addCall (s : TlsServer x) (key : ContextKey) (certOptions : CertOptions) (isTemporary : Bool)
    (phase : FactoryPhase x) : TlsServer x :=
  { s with calls := s.calls ++ [⟨key, s.now, certOptions, isTemporary, phase⟩] }

/-- The factory of a handshake, up to its first await. -/
def startFactory (s : TlsServer x) (key : ContextKey) (h : Handshake)
    (acmeCert : Option CachedCertificate) : TlsServer x :=
  match generateCertificate mode rootDomain (fun _ _ => acmeCert) h.certDomain h.certOptions with
  | .error _ => s
  | .ok g =>
      match g.source with
      | .localLeaf domain isTemporary =>
          match coveredDomain domain with
          | .error _ => s
          | .ok covered =>
              s.addCall key h.certOptions isTemporary
                (match s.ocsp.ca.certInMemoryCache.get
                    (calculateCacheKey covered h.certOptions) with
                | some leaf => .generated (some leaf)
                | none => .generating covered)
      | _ => s.addCall key h.certOptions false (.generated none)

/-- A call of `getOrCreate`, up to its first await. -/
def getOrCreate (s : TlsServer x) (key : ContextKey) (h : Handshake)
    (acmeCert : Option CachedCertificate) : TlsServer x :=
  match s.secureContextCache.lookup key s.now with
  | (some context, cache) =>
      { s with secureContextCache := cache, returned := some context }
  | (none, cache) =>
      { s with secureContextCache := cache, returned := none }.startFactory mode rootDomain key h
        acmeCert

/-- What a generation finds. -/
def context (s : TlsServer x) (replies : StoreReplies) : CallContext := ⟨s.now, s.nextSeed, replies⟩

/-- The end of the generation of a leaf. -/
def finishLeaf (s : TlsServer x) (n : Nat) (call : ContextCall x) (covered : JsString)
    (replies : StoreReplies) (leaf : LocallyGeneratedCertificate x) : TlsServer x :=
  { s with
    ocsp := s.ocsp.keepLeaf setup r (s.context replies) covered call.certOptions leaf
    calls := s.calls.set n { call with phase := .generated (some leaf) }
    nextSeed := s.nextSeed + 1
    returned := none
    births :=
      if call.certOptions.selfSigned then
        s.births ++ [(r.serialNumber leaf.certificate, s.now)]
      else s.births }

/-- The `expiry` that the factory returns; that of an ACME certificate is given. -/
def contextExpiry (s : TlsServer x) (call : ContextCall x)
    (leaf : Option (LocallyGeneratedCertificate x)) (acmeExpiry : Time) : Time :=
  if call.isTemporary then s.now + 5000
  else
    match leaf with
    | some leaf => x.notAfter leaf.certificate
    | none => acmeExpiry

/-- The rest of a call of `getOrCreate` once its factory has resolved. -/
def finishCall (s : TlsServer x) (n : Nat) (call : ContextCall x)
    (leaf : Option (LocallyGeneratedCertificate x)) (acmeExpiry : Time) : TlsServer x :=
  { s with
    secureContextCache := s.secureContextCache.store call.key call.calledAt
      ⟨leaf, call.calledAt⟩ (s.contextExpiry call leaf acmeExpiry)
    calls := s.calls.eraseIdx n
    returned := some ⟨leaf, call.calledAt⟩ }

inductive Event where
  | handshake (serverName : Option JsString) (acmeCert : Option CachedCertificate)
  /-- A load of an authority ends. -/
  | loaded (managed : ManagedCA) (replies : StoreReplies)
  | leafGenerated (n : Nat) (replies : StoreReplies)
  | factoryEnds (n : Nat) (acmeExpiry : Time)
  | factoryFails (n : Nat)
  | timerFires (n : Nat)
  | tick (now : Time)

def step (s : TlsServer x) : Event → Option (TlsServer x)
  | .handshake serverName acmeCert =>
      match handleConnection rootDomain serverName with
      | .accepted h =>
          if hkey : h.cacheKey ≠ [] then
            some (s.getOrCreate mode rootDomain ⟨h.cacheKey, hkey⟩ h acmeCert)
          else none
      | _ => some { s with returned := none }
  | .loaded managed replies =>
      (s.ocsp.step setup r (.load managed (s.context replies))).map fun ocsp =>
        { s with ocsp := ocsp, nextSeed := s.nextSeed + 1, returned := none }
  | .leafGenerated n replies => do
      let call ← s.calls[n]?
      match call.phase with
      | .generating covered =>
          (s.ocsp.leafFor setup (s.context replies) covered call.certOptions).map
            (s.finishLeaf setup r n call covered replies)
      | _ => none
  | .factoryEnds n acmeExpiry => do
      let call ← s.calls[n]?
      match call.phase with
      | .generated leaf => some (s.finishCall n call leaf acmeExpiry)
      | _ => none
  | .factoryFails n =>
      if n < s.calls.length then some { s with calls := s.calls.eraseIdx n, returned := none }
      else none
  | .timerFires n => do
      let timer ← s.ocsp.timers[n]?
      if timer.due ≤ s.now then
        (s.ocsp.step setup r (.timer n)).map fun ocsp => { s with ocsp := ocsp, returned := none }
      else none
  | .tick now => if s.now ≤ now then some { s with now := now, returned := none } else none

/-- The certificate is self-signed by the local CA. -/
def SelfSigned (leaf : LocallyGeneratedCertificate x) : Prop := leaf.issuer.isNone = true

/-- The key of the certificate is still held. -/
def Held (s : TlsServer x) (cert : x.Certificate) : Prop :=
  ∃ key, s.ocsp.selfSignedCerts.get (r.serialNumber cert) = some ⟨cert, key⟩

/-- A returned context with a self-signed leaf can be stapled. -/
def Stapled (s : TlsServer x) : Prop :=
  ∀ context ∈ s.returned, ∀ leaf ∈ context.leaf, SelfSigned leaf →
    Held r s leaf.certificate ∧
      ∃ response, s.ocsp.getOcspResponse setup r (r.rawData leaf.certificate) s.now =
        .ok (some response)

/-- Less than a day has passed since the certificate was generated. -/
def Young (s : TlsServer x) (cert : x.Certificate) : Prop :=
  ∀ birth ∈ s.births, birth.1 = r.serialNumber cert → s.now < birth.2 + oneDay

/-- The certificate was generated after the call began. -/
def GeneratedSince (s : TlsServer x) (cert : x.Certificate) (calledAt : Time) : Prop :=
  ∀ birth ∈ s.births, birth.1 = r.serialNumber cert → calledAt ≤ birth.2

/-- The context that a handshake finds in the cache. -/
def found (s : TlsServer x) (serverName : Option JsString) : Option (ServedContext x) :=
  match handleConnection rootDomain serverName with
  | .accepted h =>
      if hkey : h.cacheKey ≠ [] then
        (s.secureContextCache.lookup ⟨h.cacheKey, hkey⟩ s.now).1
      else none
  | _ => none

/-- A context from the cache that was made from an older leaf is returned within a day of its
generation, and so is a new one. -/
def InTime (s : TlsServer x) : Event → Prop
  | .handshake serverName _ =>
      ∀ context ∈ s.found rootDomain serverName, ∀ leaf ∈ context.leaf, SelfSigned leaf →
        GeneratedSince r s leaf.certificate context.calledAt ∨ Young r s leaf.certificate
  | .factoryEnds n _ =>
      ∀ call ∈ s.calls[n]?, ∀ leaf, call.phase = .generated (some leaf) → SelfSigned leaf →
        Young r s leaf.certificate
  | _ => True

/-- The certificate was generated here, and its key is held unless that is a day ago. -/
def Born (s : TlsServer x) (cert : x.Certificate) : Prop :=
  ∃ generatedAt, (r.serialNumber cert, generatedAt) ∈ s.births ∧
    (Held r s cert ∨ generatedAt + oneDay ≤ s.now)

/-- The leaf is cached, or waits to be served, or has a context that is cached. -/
inductive Keeps (s : TlsServer x) (leaf : LocallyGeneratedCertificate x) : Prop where
  | cached (cacheKey : JsString)
      (h : s.ocsp.ca.certInMemoryCache.get cacheKey = some leaf)
  | waiting (call : ContextCall x) (hmem : call ∈ s.calls)
      (h : call.phase = .generated (some leaf))
  | served (key : ContextKey) (entry : CacheEntry (ServedContext x))
      (hget : s.secureContextCache.cache.get key = some entry)
      (h : entry.context.leaf = some leaf)

/-- The serial number has been drawn. -/
def Drawn (s : TlsServer x) (serialNumber : JsString) : Prop :=
  ∃ seed < s.nextSeed, serialNumber = r.generateSerialNumber (seed + 1)

/-- A key is dropped a day after the certificate was generated, and not before. -/
structure Dated (s : TlsServer x) : Prop where
  births : ∀ birth ∈ s.births, Drawn r s birth.1
  timers : ∀ timer ∈ s.ocsp.timers, Drawn r s timer.serialNumber
  due : ∀ timer ∈ s.ocsp.timers, ∀ birth ∈ s.births, timer.serialNumber = birth.1 →
    timer.due = birth.2 + oneDay

structure Inv (s : TlsServer x) : Prop where
  dated : Dated r s
  born : ∀ leaf, s.Keeps leaf → SelfSigned leaf → Born r s leaf.certificate
  expiry : ∀ key entry, s.secureContextCache.cache.get key = some entry →
    entry.expiry ≤ entry.context.calledAt + oneDay

variable {r} {s t : TlsServer x}

theorem inv_initial (now : Time) : Inv r (initial now : TlsServer x) where
  dated :=
    { births := fun birth hbirth => by cases hbirth
      timers := fun timer htimer => by cases htimer
      due := fun timer htimer => by cases htimer }
  born leaf hkeeps := by
    cases hkeeps with
    | cached cacheKey h => cases h
    | waiting call hmem h => cases hmem
    | served key entry hget h => cases hget
  expiry key entry hget := by cases hget

/-- What is kept was kept before a step that adds no leaf. -/
theorem Keeps.mono {leaf : LocallyGeneratedCertificate x} (h : t.Keeps leaf)
    (hcached : t.ocsp.ca.certInMemoryCache = s.ocsp.ca.certInMemoryCache)
    (hcalls : t.calls ⊆ s.calls)
    (hcache : ∀ key entry, t.secureContextCache.cache.get key = some entry →
      s.secureContextCache.cache.get key = some entry) : s.Keeps leaf := by
  cases h with
  | cached cacheKey hget => exact .cached cacheKey (hcached ▸ hget)
  | waiting call hmem hphase => exact .waiting call (hcalls hmem) hphase
  | served key entry hget hentry => exact .served key entry (hcache key entry hget) hentry

theorem Drawn.of_le {serialNumber : JsString} (h : Drawn r s serialNumber)
    (hseed : s.nextSeed ≤ t.nextSeed) : Drawn r t serialNumber := by
  obtain ⟨seed, hlt, heq⟩ := h
  exact ⟨seed, hlt.trans_le hseed, heq⟩

/-- What is drawn next has not been drawn. -/
theorem Drawn.ne_next (hr : r.Lawful) {serialNumber : JsString} (h : Drawn r s serialNumber) :
    serialNumber ≠ r.generateSerialNumber (s.nextSeed + 1) := by
  obtain ⟨seed, hlt, rfl⟩ := h
  intro heq
  have hseed : seed + 1 = s.nextSeed + 1 := hr.serial_unique _ _ heq
  omega

/-- No birth is forgotten, no time is undone, and no key is lost before its day. -/
theorem Born.mono {cert : x.Certificate} (h : Born r s cert)
    (hbirths : s.births ⊆ t.births) (hnow : s.now ≤ t.now)
    (hheld : ∀ generatedAt, (r.serialNumber cert, generatedAt) ∈ s.births → Held r s cert →
      Held r t cert ∨ generatedAt + oneDay ≤ t.now) : Born r t cert := by
  obtain ⟨generatedAt, hbirth, hheld' | hday⟩ := h
  · exact ⟨generatedAt, hbirths hbirth, hheld generatedAt hbirth hheld'⟩
  · exact ⟨generatedAt, hbirths hbirth, .inr (hday.trans hnow)⟩

/-- A step that generates nothing keeps the dates. -/
theorem Dated.mono (h : Dated r s) (hbirths : t.births = s.births)
    (htimers : t.ocsp.timers ⊆ s.ocsp.timers) (hseed : s.nextSeed ≤ t.nextSeed) : Dated r t where
  births birth hbirth := (h.births birth (hbirths ▸ hbirth)).of_le hseed
  timers timer htimer := (h.timers timer (htimers htimer)).of_le hseed
  due timer htimer birth hbirth := h.due timer (htimers htimer) birth (hbirths ▸ hbirth)

/-- A step that generates nothing and drops no key keeps the invariant, if it adds no leaf to
those that are kept. -/
theorem Inv.mono (h : Inv r s) (hbirths : t.births = s.births) (hnow : s.now ≤ t.now)
    (htimers : t.ocsp.timers = s.ocsp.timers) (hseed : s.nextSeed ≤ t.nextSeed)
    (hself : t.ocsp.selfSignedCerts = s.ocsp.selfSignedCerts)
    (hkeeps : ∀ leaf, t.Keeps leaf → s.Keeps leaf)
    (hcache : ∀ key entry, t.secureContextCache.cache.get key = some entry →
      s.secureContextCache.cache.get key = some entry ∨
        entry.expiry ≤ entry.context.calledAt + oneDay) : Inv r t where
  dated := h.dated.mono hbirths (htimers ▸ List.Subset.refl _) hseed
  born leaf hkept hleaf := by
    have hborn := h.born leaf (hkeeps leaf hkept) hleaf
    apply hborn.mono (hbirths ▸ List.Subset.refl _) hnow
    intro generatedAt hbirth hheld
    left
    obtain ⟨key, hget⟩ := hheld
    exact ⟨key, hself ▸ hget⟩
  expiry key entry hget := by
    obtain hold | hnew := hcache key entry hget
    · exact h.expiry key entry hold
    · exact hnew

section steps

variable {setup : LocalCASetup x} {mode : CertMode} {rootDomain : JsString}

/-- A call is added whose leaf, if it has one already, is cached. -/
theorem Inv.addCall (h : Inv r s) (key : ContextKey) (certOptions : CertOptions)
    (isTemporary : Bool) {phase : FactoryPhase x}
    (hphase : ∀ leaf, phase = .generated (some leaf) → s.Keeps leaf) :
    Inv r (s.addCall key certOptions isTemporary phase) := by
  refine h.mono rfl (le_refl _) rfl (le_refl _) rfl ?_ ?_
  · intro leaf hkept
    cases hkept with
    | cached cacheKey hget => exact .cached cacheKey hget
    | waiting call hmem hcall =>
        obtain hmem | hmem := List.mem_append.mp hmem
        · exact .waiting call hmem hcall
        · rw [List.mem_singleton.mp hmem] at hcall
          exact hphase leaf hcall
    | served key entry hget hentry => exact .served key entry hget hentry
  · exact fun key entry hget => .inl hget

theorem Inv.startFactory (h : Inv r s) (key : ContextKey) (handshake : Handshake)
    (acmeCert : Option CachedCertificate) :
    Inv r (s.startFactory mode rootDomain key handshake acmeCert) := by
  simp only [TlsServer.startFactory]
  split
  · exact h
  · split
    · split
      · exact h
      · apply h.addCall
        intro leaf hphase
        split at hphase
        · next cached hget =>
            obtain rfl : cached = leaf := by simpa using hphase
            exact .cached _ hget
        · cases hphase
    · apply h.addCall
      intro leaf hphase
      cases hphase

/-- A call finds only what was cached, and keeps no more. -/
theorem Inv.getOrCreate (h : Inv r s) (key : ContextKey) (handshake : Handshake)
    (acmeCert : Option CachedCertificate) :
    Inv r (s.getOrCreate mode rootDomain key handshake acmeCert) := by
  have hlookup : ∀ k entry, (s.secureContextCache.lookup key s.now).2.cache.get k = some entry →
      s.secureContextCache.cache.get k = some entry :=
    fun k entry hget => SecureContextCache.get_of_get_lookup hget
  have hcached : ∀ returned, Inv r { s with
      secureContextCache := (s.secureContextCache.lookup key s.now).2, returned := returned } := by
    intro returned
    exact h.mono rfl (le_refl _) rfl (le_refl _) rfl
      (fun leaf hkept => hkept.mono rfl (List.Subset.refl _) hlookup)
      fun k entry hget => .inl (hlookup k entry hget)
  rw [TlsServer.getOrCreate]
  split
  · next context cache heq =>
      have hstored := hcached (some context)
      rw [heq] at hstored
      exact hstored
  · next cache heq =>
      have hstored := hcached none
      rw [heq] at hstored
      exact hstored.startFactory key handshake acmeCert

/-- The serial number of a leaf is the next one. -/
theorem serialNumber_leafFor (hr : r.Lawful) {replies : StoreReplies} {covered : JsString}
    {certOptions : CertOptions} {leaf : LocallyGeneratedCertificate x}
    (hleaf : s.ocsp.leafFor setup (s.context replies) covered certOptions = some leaf) :
    r.serialNumber leaf.certificate = r.generateSerialNumber (s.nextSeed + 1) := by
  obtain ⟨intermediate, rfl⟩ := OcspState.leafFor_eq_some hleaf
  exact hr.serialNumber_create _ _

/-- A leaf without an issuer was asked for. -/
theorem selfSigned_of_leafFor {replies : StoreReplies} {covered : JsString}
    {certOptions : CertOptions} {leaf : LocallyGeneratedCertificate x}
    (hleaf : s.ocsp.leafFor setup (s.context replies) covered certOptions = some leaf)
    (hself : SelfSigned leaf) : certOptions.selfSigned = true := by
  by_contra hoptions
  simp only [OcspState.leafFor, hoptions, if_false] at hleaf
  split at hleaf
  · cases hleaf
    cases hself
  · cases hleaf

theorem Dated.finishLeaf (hr : r.Lawful) (h : Dated r s) {n : Nat} {call : ContextCall x}
    {covered : JsString} {replies : StoreReplies} {leaf : LocallyGeneratedCertificate x}
    (hleaf : s.ocsp.leafFor setup (s.context replies) covered call.certOptions = some leaf) :
    Dated r (s.finishLeaf setup r n call covered replies leaf) := by
  have hserial := serialNumber_leafFor hr hleaf
  have hnew : Drawn r (s.finishLeaf setup r n call covered replies leaf)
      (r.serialNumber leaf.certificate) := ⟨s.nextSeed, Nat.lt_succ_self _, hserial⟩
  have hold : ∀ serialNumber, Drawn r s serialNumber →
      Drawn r (s.finishLeaf setup r n call covered replies leaf) serialNumber :=
    fun serialNumber hdrawn => hdrawn.of_le (Nat.le_succ _)
  -- The new serial number is that of no timer and no birth yet.
  have hfresh : ∀ serialNumber, Drawn r s serialNumber →
      serialNumber ≠ r.serialNumber leaf.certificate :=
    fun serialNumber hdrawn => hserial ▸ hdrawn.ne_next hr
  have hbirths : ∀ birth ∈ (s.finishLeaf setup r n call covered replies leaf).births,
      birth ∈ s.births ∨ birth = (r.serialNumber leaf.certificate, s.now) := by
    intro birth hbirth
    simp only [TlsServer.finishLeaf] at hbirth
    split_ifs at hbirth
    · exact (List.mem_append.mp hbirth).imp_right List.mem_singleton.mp
    · exact .inl hbirth
  have htimers : ∀ timer ∈ (s.finishLeaf setup r n call covered replies leaf).ocsp.timers,
      timer ∈ s.ocsp.timers ∨ timer.serialNumber = r.serialNumber leaf.certificate ∧
        timer.due = s.now + oneDay := by
    intro timer htimer
    obtain htimer | htimer := List.mem_append.mp htimer
    · exact .inl htimer
    · rw [List.mem_singleton.mp htimer]
      exact .inr ⟨rfl, rfl⟩
  constructor
  · intro birth hbirth
    obtain hbirth | rfl := hbirths birth hbirth
    · exact hold _ (h.births birth hbirth)
    · exact hnew
  · intro timer htimer
    obtain htimer | ⟨hnumber, -⟩ := htimers timer htimer
    · exact hold _ (h.timers timer htimer)
    · exact hnumber ▸ hnew
  · intro timer htimer birth hbirth heq
    obtain htimer | ⟨hnumber, hdue⟩ := htimers timer htimer
    · obtain hbirth | rfl := hbirths birth hbirth
      · exact h.due timer htimer birth hbirth heq
      · exact absurd heq (hfresh _ (h.timers timer htimer))
    · obtain hbirth | rfl := hbirths birth hbirth
      · exact absurd (heq.symm.trans hnumber) (hfresh _ (h.births birth hbirth))
      · exact hdue

/-- The new leaf is the only one that is kept and was not before. -/
theorem keeps_finishLeaf {n : Nat} {call : ContextCall x} {covered : JsString}
    {replies : StoreReplies} {new leaf : LocallyGeneratedCertificate x}
    (hkept : (s.finishLeaf setup r n call covered replies new).Keeps leaf) :
    leaf = new ∨ s.Keeps leaf := by
  cases hkept with
  | cached cacheKey hget =>
      simp only [TlsServer.finishLeaf, OcspState.keepLeaf, LocalCAState.cacheLeaf,
        InsertionMap.get_set] at hget
      split_ifs at hget
      · exact .inl (Option.some.inj hget).symm
      · exact .inr (.cached cacheKey hget)
  | waiting other hmem hphase =>
      obtain hmem | rfl := List.mem_or_eq_of_mem_set hmem
      · exact .inr (.waiting other hmem hphase)
      · have heq : some new = some leaf := FactoryPhase.generated.inj hphase
        exact .inl (Option.some.inj heq).symm
  | served key entry hget hentry => exact .inr (.served key entry hget hentry)

theorem Inv.finishLeaf (hr : r.Lawful) (h : Inv r s) {n : Nat} {call : ContextCall x}
    {covered : JsString} {replies : StoreReplies} {leaf : LocallyGeneratedCertificate x}
    (hleaf : s.ocsp.leafFor setup (s.context replies) covered call.certOptions = some leaf) :
    Inv r (s.finishLeaf setup r n call covered replies leaf) where
  dated := h.dated.finishLeaf hr hleaf
  born kept hkept hself := by
    obtain rfl | hkept := keeps_finishLeaf hkept
    · have hoptions := selfSigned_of_leafFor hleaf hself
      have hheld : Held r (s.finishLeaf setup r n call covered replies kept) kept.certificate :=
        ⟨_, OcspState.held_keepLeaf hoptions⟩
      refine ⟨s.now, ?_, .inl hheld⟩
      simp only [TlsServer.finishLeaf, hoptions, if_true]
      exact List.mem_append_right _ (List.mem_singleton_self _)
    · have hborn := h.born kept hkept hself
      refine hborn.mono ?_ (le_refl _) ?_
      · simp only [TlsServer.finishLeaf]
        split_ifs
        · exact List.subset_append_left _ _
        · exact List.Subset.refl _
      · intro generatedAt hbirth hheld
        left
        obtain ⟨key, hget⟩ := hheld
        refine ⟨key, ?_⟩
        have hne : r.serialNumber kept.certificate ≠ r.serialNumber leaf.certificate := by
          rw [serialNumber_leafFor hr hleaf]
          exact (h.dated.births _ hbirth).ne_next hr
        simp only [TlsServer.finishLeaf, OcspState.keepLeaf]
        split_ifs
        · rw [InsertionMap.get_set_of_ne _ _ hne]
          exact hget
        · exact hget
  expiry := h.expiry

/-- The new context has the leaf that its call has waited with. -/
theorem Inv.finishCall (h : Inv r s) {n : Nat} {call : ContextCall x}
    {leaf : Option (LocallyGeneratedCertificate x)} (hcall : s.calls[n]? = some call)
    (hphase : call.phase = .generated leaf) (acmeExpiry : Time) :
    Inv r (s.finishCall n call leaf acmeExpiry) := by
  refine h.mono rfl (le_refl _) rfl (le_refl _) rfl ?_ ?_
  · intro kept hkept
    cases hkept with
    | cached cacheKey hget => exact .cached cacheKey hget
    | waiting other hmem hother => exact .waiting other (List.mem_of_mem_eraseIdx hmem) hother
    | served key entry hget hentry =>
        obtain rfl | hold := SecureContextCache.get_of_get_store hget
        · apply Keeps.waiting call (List.mem_of_getElem? hcall)
          rw [hphase]
          exact congrArg FactoryPhase.generated hentry
        · exact .served key entry hold hentry
  · intro key entry hget
    obtain rfl | hold := SecureContextCache.get_of_get_store hget
    · exact .inr (SecureContextCache.maxExpiry_le _ _)
    · exact .inl hold

/-- A timer drops the key of a certificate whose day is over. -/
theorem Inv.timerFires (h : Inv r s) {n : Nat} {timer : LeafTimer}
    (htimer : s.ocsp.timers[n]? = some timer) (hdue : timer.due ≤ s.now) :
    Inv r { s with
      ocsp := { s.ocsp.dropLeaf timer with timers := s.ocsp.timers.eraseIdx n }
      returned := none } where
  dated := h.dated.mono rfl (List.eraseIdx_subset ..) (le_refl _)
  born leaf hkept hself := by
    have hkept' : s.Keeps leaf := by
      cases hkept with
      | cached cacheKey hget =>
          simp only [OcspState.dropLeaf, InsertionMap.get_delete] at hget
          split_ifs at hget
          exact .cached cacheKey hget
      | waiting call hmem hphase => exact .waiting call hmem hphase
      | served key entry hget hentry => exact .served key entry hget hentry
    have hborn := h.born leaf hkept' hself
    refine hborn.mono (List.Subset.refl _) (le_refl _) ?_
    intro generatedAt hbirth hheld
    by_cases hserial : timer.serialNumber = r.serialNumber leaf.certificate
    · right
      rw [← h.dated.due timer (List.mem_of_getElem? htimer) _ hbirth hserial]
      exact hdue
    · left
      obtain ⟨key, hget⟩ := hheld
      refine ⟨key, ?_⟩
      simp only [OcspState.dropLeaf]
      rw [InsertionMap.get_delete_of_ne _ (Ne.symm hserial)]
      exact hget
  expiry := h.expiry

theorem Inv.step (hr : r.Lawful) (h : Inv r s) {e : Event}
    (hstep : s.step setup r mode rootDomain e = some t) : Inv r t := by
  cases e with
  | handshake serverName acmeCert =>
      simp only [TlsServer.step] at hstep
      split at hstep
      · split_ifs at hstep
        cases hstep
        exact h.getOrCreate _ _ acmeCert
      · cases hstep
        exact h.mono rfl (le_refl _) rfl (le_refl _) rfl
          (fun leaf hkept => hkept.mono rfl (List.Subset.refl _) fun key entry hget => hget)
          fun key entry hget => .inl hget
  | loaded managed replies =>
      cases hstep
      have hcached := LocalCAState.getManagedCA_cache setup s.ocsp.ca (s.context replies) managed
      exact h.mono rfl (le_refl _) rfl (Nat.le_succ _) rfl
        (fun leaf hkept => hkept.mono hcached (List.Subset.refl _) fun key entry hget => hget)
        fun key entry hget => .inl hget
  | leafGenerated n replies =>
      obtain ⟨call, hcall, hrest⟩ := Option.bind_eq_some_iff.mp hstep
      split at hrest
      · obtain ⟨leaf, hleaf, rfl⟩ := Option.map_eq_some_iff.mp hrest
        exact h.finishLeaf hr hleaf
      · cases hrest
  | factoryEnds n acmeExpiry =>
      obtain ⟨call, hcall, hrest⟩ := Option.bind_eq_some_iff.mp hstep
      split at hrest
      · next leaf hphase =>
          cases hrest
          exact h.finishCall hcall hphase acmeExpiry
      · cases hrest
  | factoryFails n =>
      simp only [TlsServer.step] at hstep
      split_ifs at hstep
      cases hstep
      have hcalls : s.calls.eraseIdx n ⊆ s.calls := List.eraseIdx_subset ..
      exact h.mono rfl (le_refl _) rfl (le_refl _) rfl
        (fun leaf hkept => hkept.mono rfl hcalls fun key entry hget => hget)
        fun key entry hget => .inl hget
  | timerFires n =>
      obtain ⟨timer, htimer, hrest⟩ := Option.bind_eq_some_iff.mp hstep
      split_ifs at hrest with hdue
      simp only [OcspState.step, htimer, Option.map_some] at hrest
      cases hrest
      exact h.timerFires htimer hdue
  | tick now =>
      simp only [TlsServer.step] at hstep
      split_ifs at hstep with hnow
      cases hstep
      exact h.mono rfl hnow rfl (le_refl _) rfl
        (fun leaf hkept => hkept.mono rfl (List.Subset.refl _) fun key entry hget => hget)
        fun key entry hget => .inl hget

theorem Born.held {cert : x.Certificate} (h : Born r s cert) (hyoung : Young r s cert) :
    Held r s cert := by
  obtain ⟨generatedAt, hbirth, hheld | hday⟩ := h
  · exact hheld
  · exact absurd hday (not_le_of_gt (hyoung _ hbirth rfl))

/-- A context that is cached for a leaf generated since its call has a young leaf. -/
theorem Inv.young (h : Inv r s) {key : ContextKey} {entry : CacheEntry (ServedContext x)}
    (hget : s.secureContextCache.cache.get key = some entry) (hvalid : s.now < entry.expiry)
    {cert : x.Certificate} (hsince : GeneratedSince r s cert entry.context.calledAt) :
    Young r s cert := by
  intro birth hbirth hserial
  calc s.now < entry.expiry := hvalid
    _ ≤ entry.context.calledAt + oneDay := h.expiry key entry hget
    _ ≤ birth.2 + oneDay := Int.add_le_add_right (hsince birth hbirth hserial) _

theorem stapled_of_returned_eq_none (hreturned : t.returned = none) : Stapled setup r t := by
  intro context hcontext
  rw [hreturned] at hcontext
  cases hcontext

/-- A context can be stapled whose leaf, if it is self-signed, is held. -/
theorem stapled_of_held (hr : r.Lawful) {returned : ServedContext x}
    (hreturned : t.returned = some returned)
    (hheld : ∀ leaf ∈ returned.leaf, SelfSigned leaf → Held r t leaf.certificate) :
    Stapled setup r t := by
  intro context hcontext leaf hleaf hself
  obtain rfl : returned = context := Option.some.inj (hreturned.symm.trans hcontext)
  have hkey := hheld leaf hleaf hself
  obtain ⟨key, hget⟩ := hkey
  exact ⟨⟨key, hget⟩, _, OcspState.getOcspResponse_of_held hr hget rfl t.now⟩

theorem startFactory_returned (s : TlsServer x) (key : ContextKey) (h : Handshake)
    (acmeCert : Option CachedCertificate) :
    (s.startFactory mode rootDomain key h acmeCert).returned = s.returned := by
  simp only [TlsServer.startFactory]
  split
  · rfl
  · split
    · split <;> rfl
    · rfl

/-- A handshake returns what it finds in the cache, if that holds a key for it. -/
theorem Inv.stapled_getOrCreate (hr : r.Lawful) (h : Inv r s) {key : ContextKey}
    (handshake : Handshake) (acmeCert : Option CachedCertificate)
    (hok : ∀ context ∈ (s.secureContextCache.lookup key s.now).1, ∀ leaf ∈ context.leaf,
      SelfSigned leaf →
        GeneratedSince r s leaf.certificate context.calledAt ∨ Young r s leaf.certificate) :
    Stapled setup r (s.getOrCreate mode rootDomain key handshake acmeCert) := by
  rw [TlsServer.getOrCreate]
  split
  · next context cache heq =>
      have hfound : (s.secureContextCache.lookup key s.now).1 = some context := by rw [heq]
      obtain ⟨entry, hget, rfl, hvalid⟩ := SecureContextCache.lookup_eq_some hfound
      apply stapled_of_held hr rfl
      intro leaf hleaf hself
      have hborn := h.born leaf (.served key entry hget hleaf) hself
      apply hborn.held
      exact (hok _ hfound leaf hleaf hself).elim (h.young hget hvalid) id
  · apply stapled_of_returned_eq_none
    rw [startFactory_returned]

/-- What a step in time returns can be stapled. -/
theorem Inv.stapled_step (hr : r.Lawful) (h : Inv r s) {e : Event} (hok : InTime r rootDomain s e)
    (hstep : s.step setup r mode rootDomain e = some t) : Stapled setup r t := by
  cases e with
  | handshake serverName acmeCert =>
      simp only [InTime, found] at hok
      simp only [TlsServer.step] at hstep
      split at hstep
      · next handshake haccepted =>
          split_ifs at hstep with hkey
          cases hstep
          simp only [haccepted, dif_pos hkey] at hok
          exact h.stapled_getOrCreate hr handshake acmeCert hok
      · cases hstep
        exact stapled_of_returned_eq_none rfl
  | loaded managed replies =>
      cases hstep
      exact stapled_of_returned_eq_none rfl
  | leafGenerated n replies =>
      obtain ⟨call, -, hrest⟩ := Option.bind_eq_some_iff.mp hstep
      split at hrest
      · obtain ⟨leaf, -, rfl⟩ := Option.map_eq_some_iff.mp hrest
        exact stapled_of_returned_eq_none rfl
      · cases hrest
  | factoryEnds n acmeExpiry =>
      obtain ⟨call, hcall, hrest⟩ := Option.bind_eq_some_iff.mp hstep
      split at hrest
      · next waiting hphase =>
          cases hrest
          apply stapled_of_held hr rfl
          intro leaf hleaf hself
          obtain rfl : waiting = some leaf := hleaf
          have hmem := List.mem_of_getElem? hcall
          exact (h.born leaf (.waiting call hmem hphase) hself).held
            (hok call hcall leaf hphase hself)
      · cases hrest
  | factoryFails n =>
      simp only [TlsServer.step] at hstep
      split_ifs at hstep
      cases hstep
      exact stapled_of_returned_eq_none rfl
  | timerFires n =>
      obtain ⟨timer, -, hrest⟩ := Option.bind_eq_some_iff.mp hstep
      split_ifs at hrest
      obtain ⟨ocsp, -, rfl⟩ := Option.map_eq_some_iff.mp hrest
      exact stapled_of_returned_eq_none rfl
  | tick now =>
      simp only [TlsServer.step] at hstep
      split_ifs at hstep
      cases hstep
      exact stapled_of_returned_eq_none rfl

/-- In every run that is in time, a context with a self-signed leaf is returned only while its
key is held, and an OCSP request for it is answered. -/
theorem stapled_of_run (hr : r.Lawful) {now : Time} {es : List Event}
    (hok : Runs.Guarded (TlsServer.step setup r mode rootDomain) (InTime r rootDomain)
      (initial now) es)
    (hrun : run (TlsServer.step setup r mode rootDomain) (initial now) es = some t) :
    Stapled setup r t := by
  have hkeep : ∀ s e t, Inv r s ∧ Stapled setup r s → InTime r rootDomain s e →
      TlsServer.step setup r mode rootDomain s e = some t → Inv r t ∧ Stapled setup r t :=
    fun _ _ _ h hok hstep => ⟨h.1.step hr hstep, h.1.stapled_step hr hok hstep⟩
  have hstart : Inv r (initial now : TlsServer x) ∧ Stapled setup r (initial now) :=
    ⟨inv_initial now, stapled_of_returned_eq_none rfl⟩
  exact (guarded_invariant hkeep hstart hok hrun).2

/-- Nothing is too old while no leaf is a day old. -/
theorem inTime_of_births (hbirths : ∀ birth ∈ s.births, s.now < birth.2 + oneDay) (e : Event) :
    InTime r rootDomain s e := by
  have hyoung : ∀ cert, Young r s cert := fun cert birth hbirth _ => hbirths birth hbirth
  cases e with
  | handshake serverName acmeCert => exact fun context _ leaf _ _ => .inr (hyoung _)
  | factoryEnds n acmeExpiry => exact fun call _ leaf _ _ => hyoung _
  | loaded managed replies => trivial
  | leafGenerated n replies => trivial
  | factoryFails n => trivial
  | timerFires n => trivial
  | tick now => trivial

end steps

open X509

/-- The process of the recording library. -/
def recordedStep : TlsServer recorded → Event → Option (TlsServer recorded) :=
  step recordedSetup recordedReader .localOnly (js "testserver.host")

/-- A host is visited twice on one day. -/
def secondVisit : List Event :=
  [.handshake (some (js "self-signed.testserver.host")) none, .leafGenerated 0 .empty,
    .factoryEnds 0 0, .tick 82800000, .handshake (some (js "self-signed.testserver.host")) none]

/-- The context of the first visit is returned to the second, and its key is held. -/
theorem stapled_of_run_secondVisit :
    ∃ t, run recordedStep (initial 0) secondVisit = some t ∧
      (t.returned.bind ServedContext.leaf).isSome = true ∧
      Stapled recordedSetup recordedReader t := by
  have hrun : ∃ t, run recordedStep (initial 0) secondVisit = some t ∧
      (t.returned.bind ServedContext.leaf).isSome = true := ⟨_, rfl, rfl⟩
  obtain ⟨t, hrun, hreturned⟩ := hrun
  have hyoung : Guarded recordedStep (fun s _ => ∀ birth ∈ s.births, s.now < birth.2 + oneDay)
      (initial 0) secondVisit := by decide +kernel
  have hok : Guarded recordedStep (InTime recordedReader (js "testserver.host")) (initial 0)
      secondVisit := hyoung.imp fun _ e hbirths => inTime_of_births hbirths e
  exact ⟨t, hrun, hreturned, stapled_of_run recordedReader_lawful hok hrun⟩

/-- Two hosts share a certificate that is a day old when the second is visited again. -/
def sharedLeaf : List Event :=
  [.handshake (some (js "self-signed--wrong-host.testserver.host")) none,
    .leafGenerated 0 .empty, .factoryEnds 0 0, .tick 82800000,
    .handshake (some (js "self-signed--wrong-host--tls-v1-2.testserver.host")) none,
    .factoryEnds 0 0, .tick 86400000, .timerFires 0, .tick 90000000,
    .handshake (some (js "self-signed--wrong-host--tls-v1-2.testserver.host")) none]

/-- The context of the second host is still returned, and its key is gone. -/
theorem not_stapled_sharedLeaf :
    ∃ t, run recordedStep (initial 0) sharedLeaf = some t ∧
      ¬ Stapled recordedSetup recordedReader t := by
  have hrun : ∃ t, run recordedStep (initial 0) sharedLeaf = some t ∧
      t.ocsp.selfSignedCerts.entries.length = 0 ∧
      ((t.returned.bind ServedContext.leaf).map fun leaf => leaf.issuer.isNone) = some true :=
    ⟨_, rfl, rfl, rfl⟩
  obtain ⟨t, hrun, hempty, hreturned⟩ := hrun
  refine ⟨t, hrun, fun hstapled => ?_⟩
  obtain ⟨leaf, hleaf, hself⟩ := Option.map_eq_some_iff.mp hreturned
  obtain ⟨context, hcontext, hleaf⟩ := Option.bind_eq_some_iff.mp hleaf
  obtain ⟨⟨key, hget⟩, -⟩ := hstapled context hcontext leaf hleaf hself
  have hmem := InsertionMap.get_eq_some_iff.mp hget
  rw [List.length_eq_zero_iff.mp hempty] at hmem
  cases hmem

end TlsServer

end TestServer
