import TestServer.TlsCertificates.S3CertStore

/-!
# The start from a bucket

A server that starts while others write and delete certificates loads, for each cache key, what
the key has held at some time since the listing. So a key that nobody touches in the meantime is
loaded with exactly the certificate that was last written.
-/

namespace TestServer.TlsCertificates

open Js Library Library.Runs Library.EncodedMap

/-- The certificate that a record holds, if its members have the types of one. -/
def StoredCertificate.certificate (stored : StoredCertificate) : Option CachedCertificate :=
  match stored.cacheKey, stored.domain, stored.key, stored.cert, stored.expiry with
  | .str cacheKey, .str domain, .str key, .str cert, .num (.finite expiry) =>
      if expiry.den = 1 then some ⟨cacheKey, domain, key, cert, expiry.num⟩ else none
  | _, _, _, _, _ => none

theorem certificate_stored (cert : CachedCertificate) : cert.stored.certificate = some cert := by
  obtain ⟨cacheKey, domain, key, cert, expiry⟩ := cert
  simp [CachedCertificate.stored, StoredCertificate.certificate]

namespace S3CertStore

/-- A listed key with what was read for it, once it is. -/
structure Listed where
  key : JsString
  read : Option (Option StoredCertificate)

structure Startup where
  objects : S3Objects
  /-- The certificates that are stored. -/
  stored : JsString → Option CachedCertificate
  listed : Option (List Listed)
  /-- What each key has held since the listing. -/
  since : JsString → List (Option CachedCertificate)

inductive Event where
  | write (cert : CachedCertificate)
  | writeIfAbsent (cert : CachedCertificate)
  | delete (cacheKey : JsString)
  /-- An object that is not the store's is written or deleted. -/
  | outside (key : JsString) (body : Option JsString)
  | list (keys : List JsString)
  | read (key : JsString)
deriving DecidableEq

namespace Startup

def empty : Startup := ⟨.empty, fun _ => none, none, fun _ => [none]⟩

/-- The bucket and the certificates in it have changed. -/
def keep (s : Startup) (objects : S3Objects) (stored : JsString → Option CachedCertificate) :
    Startup :=
  { s with objects := objects, stored := stored, since := fun k => s.since k ++ [stored k] }

variable (store : S3CertStore)

def step (s : Startup) : Event → Option Startup
  | .write cert =>
      some (s.keep (store.put s.objects cert false).2
        (Function.update s.stored cert.cacheKey (some cert)))
  | .writeIfAbsent cert =>
      some (s.keep (store.put s.objects cert true).2
        (if s.stored cert.cacheKey = none then Function.update s.stored cert.cacheKey (some cert)
        else s.stored))
  | .delete cacheKey =>
      some (s.keep (store.delete s.objects cacheKey) (Function.update s.stored cacheKey none))
  | .outside key body =>
      if startsWith key store.bucketPrefix then none
      else
        some (s.keep (body.elim (s.objects.delete key) (s.objects.set key)) s.stored)
  | .list keys =>
      if s.listed.isNone ∧ ListsObjects s.objects store.bucketPrefix keys then
        some { s with
          listed := some (keys.map fun key => ⟨key, none⟩)
          since := fun k => [s.stored k] }
      else none
  | .read key =>
      match s.listed with
      | some entries =>
          if entries.any fun entry => decide (entry.key = key) && entry.read.isNone then
            some { s with
              listed := some (entries.map fun entry =>
                if entry.key = key then ⟨key, some (readListed s.objects key)⟩ else entry) }
          else none
      | none => none

/-- The cache of the server, from what was read. -/
def loaded (entries : List Listed) : PersistentCertCache :=
  PersistentCertCache.loadCache ⟨.empty⟩
    ((entries.filterMap fun entry => entry.read.join).filterMap StoredCertificate.certificate)

end Startup

/-- The certificates of an event, and the keys that it touches. -/
def Event.certs : Event → List CachedCertificate
  | .write cert | .writeIfAbsent cert => [cert]
  | _ => []

def Event.cacheKeys : Event → List JsString
  | .write cert | .writeIfAbsent cert => [cert.cacheKey]
  | .delete cacheKey => [cacheKey]
  | _ => []

/-- An event whose certificates are complete and whose keys are in use. -/
def Uses (used : Set JsString) (e : Event) : Prop :=
  (∀ cert ∈ e.certs, cert.Complete) ∧ ∀ cacheKey ∈ e.cacheKeys, cacheKey ∈ used

/-- A certificate under its own key, if there is one. -/
def Fits (used : Set JsString) (cacheKey : JsString) (record : Option CachedCertificate) : Prop :=
  ∀ cert ∈ record, cert.cacheKey = cacheKey ∧ cert.Complete ∧ cacheKey ∈ used

/-- What the entries of a listing have to do with the certificates. -/
structure ListsCerts (store : S3CertStore) (used : Set JsString)
    (since : JsString → List (Option CachedCertificate)) (entries : List Listed) : Prop where
  nodup : (entries.map Listed.key).Nodup
  read : ∀ entry ∈ entries, ∃ k ∈ used, entry.key = store.objectKey k ∧
    ∀ record, entry.read = some record →
      ∃ v ∈ since k, record = v.map CachedCertificate.stored
  unlisted : ∀ k ∈ used, (∀ entry ∈ entries, entry.key ≠ store.objectKey k) → none ∈ since k

structure Inv (store : S3CertStore) (used : Set JsString) (s : Startup) : Prop where
  keeps : Keeps used store.objectKey stringifyCertificate s.objects s.stored
  only : ∀ key ∈ s.objects.keys, startsWith key store.bucketPrefix = true →
    ∃ k ∈ used, key = store.objectKey k
  fits : ∀ k, Fits used k (s.stored k)
  fitsSince : ∀ k, ∀ v ∈ s.since k, Fits used k v
  last : ∀ k, s.stored k ∈ s.since k
  lists : ∀ entries, s.listed = some entries → ListsCerts store used s.since entries

variable {store : S3CertStore} {used : Set JsString} {s t : Startup}

theorem inv_empty : Inv store used .empty where
  keeps k _ := rfl
  only key hkey := by cases hkey
  fits k cert hcert := by cases hcert
  fitsSince k v hv cert hcert := by
    rw [List.mem_singleton.mp hv] at hcert
    cases hcert
  last k := List.mem_singleton_self none
  lists entries h := by cases h

theorem ListsCerts.mono {since since' : JsString → List (Option CachedCertificate)}
    {entries : List Listed} (h : ListsCerts store used since entries)
    (hsub : ∀ k, since k ⊆ since' k) : ListsCerts store used since' entries where
  nodup := h.nodup
  read entry hentry := by
    obtain ⟨k, hk, hkey, hread⟩ := h.read entry hentry
    refine ⟨k, hk, hkey, fun record hrecord => ?_⟩
    obtain ⟨v, hv, heq⟩ := hread record hrecord
    exact ⟨v, hsub k hv, heq⟩
  unlisted k hk hnone := hsub k (h.unlisted k hk hnone)

/-- A change of the bucket that keeps to the certificates. -/
theorem Inv.keep (h : Inv store used s) {objects : S3Objects}
    {stored : JsString → Option CachedCertificate}
    (hkeeps : Keeps used store.objectKey stringifyCertificate objects stored)
    (honly : ∀ key ∈ objects.keys, startsWith key store.bucketPrefix = true →
      ∃ k ∈ used, key = store.objectKey k)
    (hfits : ∀ k, Fits used k (stored k)) : Inv store used (s.keep objects stored) where
  keeps := hkeeps
  only := honly
  fits := hfits
  fitsSince k v hv := by
    rcases List.mem_append.mp hv with hv | hv
    · exact h.fitsSince k v hv
    · rw [List.mem_singleton.mp hv]
      exact hfits k
  last k := List.mem_append_right _ (List.mem_singleton_self _)
  lists entries hentries := (h.lists entries hentries).mono fun k => List.subset_append_left _ _

theorem mem_keys_set {objects : S3Objects} {key other body : JsString}
    (h : other ∈ (objects.set key body).keys) : other = key ∨ other ∈ objects.keys := by
  rw [InsertionMap.mem_keys_iff] at h ⊢
  rw [InsertionMap.get_set] at h
  split at h
  case isTrue heq => exact .inl heq
  case isFalse => exact .inr h

theorem mem_keys_delete {objects : S3Objects} {key other : JsString}
    (h : other ∈ (objects.delete key).keys) : other ∈ objects.keys := by
  rw [InsertionMap.keys_delete] at h
  exact List.mem_of_mem_filter h

theorem Fits.update {stored : JsString → Option CachedCertificate} (h : ∀ k, Fits used k (stored k))
    {cacheKey : JsString} {record : Option CachedCertificate} (hrecord : Fits used cacheKey record)
    (k : JsString) : Fits used k (Function.update stored cacheKey record k) := by
  by_cases hk : k = cacheKey
  · subst hk
    rw [Function.update_self]
    exact hrecord
  · rw [Function.update_of_ne hk]
    exact h k

theorem injOn_objectKey (h : Set.InjOn store.certObjectId used) :
    Set.InjOn store.objectKey used := by
  intro k hk j hj heq
  simp only [objectKey, List.append_assoc, List.append_cancel_left_eq,
    List.append_cancel_right_eq] at heq
  exact h hk hj heq

theorem startsWith_objectKey (store : S3CertStore) (cacheKey : JsString) :
    startsWith (store.objectKey cacheKey) store.bucketPrefix = true := by
  rw [objectKey, List.append_assoc, startsWith_iff]
  exact ⟨_, rfl⟩

/-- A certificate is written under its key. -/
theorem Inv.set (h : Inv store used s) (hinj : Set.InjOn store.objectKey used)
    {cert : CachedCertificate} (hcomplete : cert.Complete) (hused : cert.cacheKey ∈ used) :
    Inv store used (s.keep
      (s.objects.set (store.objectKey cert.cacheKey) (stringifyCertificate cert))
      (Function.update s.stored cert.cacheKey (some cert))) := by
  apply h.keep (h.keeps.set hinj hused cert)
  · intro key hkey hprefixed
    rcases mem_keys_set hkey with rfl | hkey
    · exact ⟨cert.cacheKey, hused, rfl⟩
    · exact h.only key hkey hprefixed
  · apply Fits.update h.fits
    intro other hother
    cases hother
    exact ⟨rfl, hcomplete, hused⟩

theorem readListed_objectKey (h : Inv store used s) {k : JsString} (hk : k ∈ used) :
    readListed s.objects (store.objectKey k) = (s.stored k).map CachedCertificate.stored := by
  rw [readListed, getObject, h.keeps k hk]
  cases hstored : s.stored k with
  | none => rfl
  | some cert =>
      have hcomplete := (h.fits k cert hstored).2.1
      have hparse := parse_stringifyCertificate hcomplete
      have hne : stringifyCertificate cert ≠ [] := List.cons_ne_nil _ _
      simp only [Option.map_some, parseBody, if_neg hne, hparse]
      rfl

/-- The entries of a listing, before any is read. -/
theorem Inv.list (h : Inv store used s) {keys : List JsString}
    (hlists : ListsObjects s.objects store.bucketPrefix keys) :
    ListsCerts store used (fun k => [s.stored k]) (keys.map fun key => ⟨key, none⟩) where
  nodup := by
    rw [List.map_map]
    apply (List.map_id keys).symm ▸ hlists.nodup_iff.mpr
    exact s.objects.nodup.filter _
  read entry hentry := by
    obtain ⟨key, hkey, rfl⟩ := List.mem_map.mp hentry
    obtain ⟨hmem, hprefixed⟩ := List.mem_filter.mp (hlists.mem_iff.mp hkey)
    obtain ⟨k, hk, rfl⟩ := h.only key hmem hprefixed
    exact ⟨k, hk, rfl, fun record hrecord => by cases hrecord⟩
  unlisted k hk hnone := by
    have hnot : store.objectKey k ∉ s.objects.keys := by
      intro hmem
      have hlisted := hlists.mem_iff.mpr
        (List.mem_filter.mpr ⟨hmem, startsWith_objectKey store k⟩)
      exact hnone _ (List.mem_map_of_mem hlisted) rfl
    have hget := h.keeps k hk
    rw [InsertionMap.get_eq_none_iff.mpr hnot] at hget
    rw [List.mem_singleton, Option.map_eq_none_iff.mp hget.symm]

theorem map_key_read (entries : List Listed) (key : JsString)
    (record : Option StoredCertificate) :
    (entries.map fun entry =>
        if entry.key = key then ⟨key, some record⟩ else entry).map Listed.key =
      entries.map Listed.key := by
  rw [List.map_map]
  apply List.map_congr_left
  intro entry _
  by_cases hkey : entry.key = key <;> simp [hkey]

/-- An entry is read. -/
theorem Inv.read (h : Inv store used s) {entries : List Listed} (hlisted : s.listed = some entries)
    (key : JsString) :
    ListsCerts store used s.since
      (entries.map fun entry =>
        if entry.key = key then ⟨key, some (readListed s.objects key)⟩ else entry) where
  nodup := by
    rw [map_key_read]
    exact (h.lists entries hlisted).nodup
  read entry hentry := by
    obtain ⟨before, hbefore, rfl⟩ := List.mem_map.mp hentry
    obtain ⟨k, hk, hkey, hread⟩ := (h.lists entries hlisted).read before hbefore
    by_cases heq : before.key = key
    · rw [if_pos heq]
      rw [heq] at hkey
      refine ⟨k, hk, hkey, fun record hrecord => ⟨s.stored k, h.last k, ?_⟩⟩
      cases hrecord
      rw [hkey, readListed_objectKey h hk]
    · rw [if_neg heq]
      exact ⟨k, hk, hkey, hread⟩
  unlisted k hk hnone := by
    apply (h.lists entries hlisted).unlisted k hk
    intro entry hentry hkey
    refine hnone _ (List.mem_map_of_mem hentry) ?_
    by_cases heq : entry.key = key
    · rw [if_pos heq, ← heq, hkey]
    · rw [if_neg heq, hkey]

theorem Inv.step (h : Inv store used s) (hinj : Set.InjOn store.objectKey used) {e : Event}
    (he : Uses used e) (hstep : Startup.step store s e = some t) : Inv store used t := by
  cases e with
  | write cert =>
      cases hstep
      rw [put_always]
      exact h.set hinj (he.1 cert (List.mem_singleton_self _)) (he.2 _ (List.mem_singleton_self _))
  | writeIfAbsent cert =>
      have hused : cert.cacheKey ∈ used := he.2 _ (List.mem_singleton_self _)
      have hget := h.keeps cert.cacheKey hused
      cases hstep
      cases hstored : s.stored cert.cacheKey with
      | none =>
          rw [hstored, Option.map_none] at hget
          rw [put_absent store hget, if_pos rfl]
          exact h.set hinj (he.1 cert (List.mem_singleton_self _)) hused
      | some other =>
          rw [hstored, Option.map_some] at hget
          rw [put_present store hget, if_neg (Option.some_ne_none other)]
          exact h.keep h.keeps h.only h.fits
  | delete cacheKey =>
      have hused : cacheKey ∈ used := he.2 _ (List.mem_singleton_self _)
      cases hstep
      apply h.keep (h.keeps.delete hinj hused)
      · exact fun key hkey => h.only key (mem_keys_delete hkey)
      · exact Fits.update h.fits fun cert hcert => by cases hcert
  | outside key body =>
      simp only [Startup.step] at hstep
      split at hstep
      case isTrue => cases hstep
      case isFalse hprefixed =>
          cases hstep
          have hne : ∀ k, store.objectKey k ≠ key := by
            rintro k rfl
            exact hprefixed (startsWith_objectKey store k)
          apply h.keep _ _ h.fits
          · apply h.keeps.of_get_eq
            intro k hk
            cases body with
            | none => exact InsertionMap.get_delete_of_ne _ (hne k)
            | some body => exact InsertionMap.get_set_of_ne _ _ (hne k)
          · intro other hother hstarts
            cases body with
            | none => exact h.only other (mem_keys_delete hother) hstarts
            | some body =>
                rcases mem_keys_set hother with rfl | hother
                · exact absurd hstarts hprefixed
                · exact h.only other hother hstarts
  | list keys =>
      simp only [Startup.step] at hstep
      split at hstep
      case isFalse => cases hstep
      case isTrue hlists =>
          cases hstep
          refine ⟨h.keeps, h.only, h.fits, ?_, fun k => List.mem_singleton_self _, ?_⟩
          · intro k v hv
            rw [List.mem_singleton.mp hv]
            exact h.fits k
          · intro entries hentries
            cases hentries
            exact h.list hlists.2
  | read key =>
      simp only [Startup.step] at hstep
      split at hstep
      case h_2 => cases hstep
      case h_1 entries hlisted =>
          split at hstep
          case isFalse => cases hstep
          case isTrue =>
              cases hstep
              refine ⟨h.keeps, h.only, h.fits, h.fitsSince, h.last, fun entries' hentries => ?_⟩
              cases hentries
              exact h.read hlisted key

theorem getCert_loadCache_of_forall_ne {cache : PersistentCertCache}
    {certs : List CachedCertificate} {k : JsString} (h : ∀ cert ∈ certs, cert.cacheKey ≠ k) :
    (cache.loadCache certs).getCert k = cache.getCert k := by
  induction certs generalizing cache with
  | nil => rfl
  | cons cert certs ih =>
      obtain ⟨hcert, hcerts⟩ := List.forall_mem_cons.mp h
      change ((cache.cacheCert cert).loadCache certs).getCert k = _
      rw [ih hcerts]
      exact InsertionMap.get_set_of_ne _ _ (Ne.symm hcert)

theorem getCert_loadCache_of_mem {cache : PersistentCertCache} {certs : List CachedCertificate}
    {cert : CachedCertificate} (hmem : cert ∈ certs)
    (honly : ∀ other ∈ certs, other.cacheKey = cert.cacheKey → other = cert) :
    (cache.loadCache certs).getCert cert.cacheKey = some cert := by
  induction certs generalizing cache with
  | nil => cases hmem
  | cons head certs ih =>
      obtain ⟨-, hcerts⟩ := List.forall_mem_cons.mp honly
      change ((cache.cacheCert head).loadCache certs).getCert cert.cacheKey = _
      by_cases htail : cert ∈ certs
      · exact ih htail hcerts
      · obtain rfl : cert = head := (List.mem_cons.mp hmem).resolve_right htail
        rw [getCert_loadCache_of_forall_ne]
        · exact InsertionMap.get_set_self _ _ _
        · intro other hother hkey
          exact htail (hcerts other hother hkey ▸ hother)

/-- The certificates of entries that are read. -/
theorem mem_certs_iff {entries : List Listed} {cert : CachedCertificate} :
    cert ∈ ((entries.filterMap fun entry => entry.read.join).filterMap
        StoredCertificate.certificate) ↔
      ∃ entry ∈ entries, ∃ record, entry.read = some (some record) ∧
        record.certificate = some cert := by
  simp only [List.mem_filterMap, Option.join_eq_some_iff]
  constructor
  · rintro ⟨record, ⟨entry, hentry, hread⟩, hcert⟩
    exact ⟨entry, hentry, record, hread, hcert⟩
  · rintro ⟨entry, hentry, record, hread, hcert⟩
    exact ⟨record, ⟨entry, hentry, hread⟩, hcert⟩

/-- An entry was read at a time when its key had the certificate that it has given. -/
theorem Inv.exists_since (h : Inv store used s) {entries : List Listed}
    (hlisted : s.listed = some entries) {entry : Listed} (hentry : entry ∈ entries)
    {record : StoredCertificate} {cert : CachedCertificate}
    (hread : entry.read = some (some record)) (hcert : record.certificate = some cert) :
    entry.key = store.objectKey cert.cacheKey ∧ cert.cacheKey ∈ used ∧
      some cert ∈ s.since cert.cacheKey := by
  obtain ⟨k, hk, hkey, hsince⟩ := (h.lists entries hlisted).read entry hentry
  obtain ⟨v, hv, heq⟩ := hsince _ hread
  obtain ⟨other, rfl, rfl⟩ := Option.map_eq_some_iff.mp heq.symm
  rw [certificate_stored] at hcert
  cases hcert
  obtain ⟨rfl, -, -⟩ := h.fitsSince k _ hv cert rfl
  exact ⟨hkey, hk, hv⟩

/-- What a started server has under a key is what the key has held since the listing. -/
theorem Inv.loaded (h : Inv store used s) (hinj : Set.InjOn store.objectKey used)
    {entries : List Listed}
    (hlisted : s.listed = some entries) (hread : ∀ entry ∈ entries, entry.read ≠ none)
    (k : JsString) : (Startup.loaded entries).getCert k ∈ s.since k := by
  by_cases hcert : ∃ cert ∈ ((entries.filterMap fun entry => entry.read.join).filterMap
      StoredCertificate.certificate), cert.cacheKey = k
  · obtain ⟨cert, hmem, rfl⟩ := hcert
    obtain ⟨entry, hentry, record, hrecord, hof⟩ := mem_certs_iff.mp hmem
    obtain ⟨hkey, -, hsince⟩ := h.exists_since hlisted hentry hrecord hof
    rw [Startup.loaded, getCert_loadCache_of_mem hmem]
    · exact hsince
    · intro other hother hsame
      obtain ⟨entry', hentry', record', hrecord', hof'⟩ := mem_certs_iff.mp hother
      obtain ⟨hkey', -, -⟩ := h.exists_since hlisted hentry' hrecord' hof'
      have heq : entry' = entry := List.inj_on_of_nodup_map (h.lists entries hlisted).nodup hentry'
        hentry (by rw [hkey', hkey, hsame])
      rw [heq, hrecord] at hrecord'
      cases hrecord'
      exact Option.some.inj (hof'.symm.trans hof)
  · have hnot : ∀ cert ∈ ((entries.filterMap fun entry => entry.read.join).filterMap
        StoredCertificate.certificate), cert.cacheKey ≠ k := fun cert hmem hk =>
      hcert ⟨cert, hmem, hk⟩
    rw [Startup.loaded, getCert_loadCache_of_forall_ne hnot]
    change none ∈ s.since k
    by_cases hk : k ∈ used
    · by_cases hlist : ∃ entry ∈ entries, entry.key = store.objectKey k
      · obtain ⟨entry, hentry, hkey⟩ := hlist
        obtain ⟨record, hrecord⟩ := Option.ne_none_iff_exists'.mp (hread entry hentry)
        obtain ⟨k', hk', hkey', hsince⟩ := (h.lists entries hlisted).read entry hentry
        obtain rfl : k' = k := hinj hk' hk (hkey'.symm.trans hkey)
        obtain ⟨v, hv, rfl⟩ := hsince record hrecord
        cases v with
        | none => exact hv
        | some cert =>
            have hmem := mem_certs_iff.mpr ⟨entry, hentry, _, hrecord, certificate_stored cert⟩
            exact absurd (h.fitsSince k' _ hv cert rfl).1 (hnot cert hmem)
      · exact (h.lists entries hlisted).unlisted k hk fun entry hentry hkey =>
          hlist ⟨entry, hentry, hkey⟩
    · have hnone : s.stored k = none := by
        cases hstored : s.stored k with
        | none => rfl
        | some cert => exact absurd (h.fits k cert hstored).2.2 hk
      have hlast := h.last k
      rw [hnone] at hlast
      exact hlast

/-- A certificate of the plainest kind. -/
def plainCert (cert : JsString) : CachedCertificate where
  cacheKey := js "ca"
  domain := js "CA"
  key := js "KEY"
  cert := cert
  expiry := 4102444800000

end S3CertStore

end TestServer.TlsCertificates
