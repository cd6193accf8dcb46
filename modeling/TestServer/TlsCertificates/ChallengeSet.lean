import TestServer.TlsCertificates.S3ChallengeStore
import TestServer.TlsCertificates.StoreKeys

/-!
# A shared set with expiry

What the servers have put and removed is a set of values for each name, where each value has the
expiry of its latest put. A call for a name gives the values that were in the set and had not
expired for as long as it ran, and no value that was not in the set at some moment of it. This
needs that no reaper deletes a record that has been put again since it was read.

## Implementation notes

An observer notes the set and the clock at each moment of a call, from its start to its return.
A put counts from when the bucket performs it, so that a set or a removal that has returned
counts in any case.
-/

namespace TestServer.TlsCertificates.S3ChallengeStore

open Js Library Library.Runs

/-- The expiry of each value for a name, in its lower-case form. -/
abbrev Challenges := JsString → JsString → Option Int

namespace Challenges

def update (challenges : Challenges) (name value : JsString) (expiry : Option Int) : Challenges :=
  fun otherName otherValue =>
    if otherName = name ∧ otherValue = value then expiry else challenges otherName otherValue

theorem update_self (challenges : Challenges) (name value : JsString) (expiry : Option Int) :
    challenges.update name value expiry name value = expiry := if_pos ⟨rfl, rfl⟩

theorem update_of_ne {challenges : Challenges} {name value otherName otherValue : JsString}
    (expiry : Option Int) (h : ¬ (otherName = name ∧ otherValue = value)) :
    challenges.update name value expiry otherName otherValue = challenges otherName otherValue :=
  if_neg h

/-- Only puts of `set` and deletions of `remove` change the set. -/
def after (keys : ChallengeKeys) (s : Store) (challenges : Challenges) : Event → Challenges
  | .put call =>
      match s.calls call with
      | some (.set record) =>
          challenges.update (keys.toLowerCase record.fqdn) record.value (some record.expiry)
      | _ => challenges
  | .delete call _ =>
      match s.calls call with
      | some (.remove fqdn value) => challenges.update (keys.toLowerCase fqdn) value none
      | _ => challenges
  | _ => challenges

end Challenges

structure Moment where
  challenges : Challenges
  clock : Int

/-- The value is in the set, and its expiry is later than the clock. -/
def Moment.Live (m : Moment) (name value : JsString) : Prop :=
  ∃ expiry, m.challenges name value = some expiry ∧ m.clock < expiry

/-- Whether a call has listed or may still list records. -/
def Call.isOpen : Call → Bool
  | .listing .. => true
  | .reading .. => true
  | _ => false

structure Observed where
  store : Store
  challenges : Challenges
  /-- The moments of a call, the last one first. -/
  seen : Nat → List Moment

namespace Observed

def moment (o : Observed) : Moment := ⟨o.challenges, o.store.clock⟩

/-- What is seen of a step: a call sees the moment after it if the step finds or leaves it open. -/
def see (o : Observed) (store : Store) (challenges : Challenges) : Observed where
  store := store
  challenges := challenges
  seen call :=
    if (o.store.calls call).any Call.isOpen ∨ (store.calls call).any Call.isOpen then
      ⟨challenges, store.clock⟩ :: o.seen call
    else o.seen call

def step (keys : ChallengeKeys) (o : Observed) (e : Event) : Option Observed :=
  (S3ChallengeStore.step keys o.store e).map fun store =>
    o.see store (o.challenges.after keys o.store e)

/-- No call, and the set of the records that there are. -/
def start (keys : ChallengeKeys) (objects : Objects) (clock : Int) : Observed where
  store := ⟨clock, objects, fun _ => none⟩
  challenges name value := ((readRecord objects (keys.nameKey name value)).filter fun r =>
    decide (keys.toLowerCase r.fqdn = name ∧ r.value = value)).map (·.expiry)
  seen _ := []

end Observed

/-- The value is in the set and has not expired at any of these moments. -/
def LiveThroughout (seen : List Moment) (name value : JsString) : Prop :=
  ∀ m ∈ seen, m.Live name value

/-- The value was in the set at one of these moments, with an expiry later than a clock. -/
def SeenSet (seen : List Moment) (name value : JsString) (now : Int) : Prop :=
  ∃ m ∈ seen, ∃ expiry, m.challenges name value = some expiry ∧ now < expiry

/-- Calls that have returned gave the values of the set. -/
structure BehavesAsSet (keys : ChallengeKeys) (o : Observed) : Prop where
  returns : ∀ call fqdn now values, o.store.calls call = some (.returned fqdn now values) →
    ∀ value, LiveThroughout (o.seen call) (keys.toLowerCase fqdn) value → value ∈ values
  only : ∀ call fqdn now values, o.store.calls call = some (.returned fqdn now values) →
    ∀ value ∈ values, SeenSet (o.seen call) (keys.toLowerCase fqdn) value now

/-- A reaper that deletes an object does not find a record there that has not expired. -/
def sparesLive (o : Observed) : Event → Bool
  | .delete call key =>
      match o.store.calls call with
      | some (.deleting _) =>
          (readRecord o.store.objects key).all fun r => decide (r.expiry ≤ o.store.clock)
      | _ => true
  | _ => true

/-- The hashes of some texts are apart, and all hashes are hexadecimal. -/
structure HashesApart (hash : JsString → JsString) (texts : Set JsString) : Prop where
  hex : ∀ text, HexText (hash text)
  injOn : Set.InjOn hash texts

/-- The names and values of an event are among some texts. -/
def Within (keys : ChallengeKeys) (texts : Set JsString) : Event → Prop
  | .set _ fqdn value _ => keys.toLowerCase fqdn ∈ texts ∧ value ∈ texts
  | .remove _ fqdn value => keys.toLowerCase fqdn ∈ texts ∧ value ∈ texts
  | .get _ fqdn => keys.toLowerCase fqdn ∈ texts
  | _ => True

/-- Each record is under its own key. -/
def Placed (keys : ChallengeKeys) (texts : Set JsString) (objects : Objects) : Prop :=
  ∀ key r, readRecord objects key = some r →
    key = keys.objectKey r.fqdn r.value ∧ keys.toLowerCase r.fqdn ∈ texts ∧ r.value ∈ texts

section

variable {keys : ChallengeKeys} {texts : Set JsString} {name name' value value' : JsString}

theorem HashesApart.slash_notMem (h : HashesApart keys.hash texts) (text : JsString) :
    unit '/' ∉ keys.hash text := by
  intro hmem
  have hdigit := (h.hex text).digits _ hmem
  exact absurd hdigit (by decide)

theorem nameKey_eq (name value : JsString) : keys.nameKey name value =
    keys.bucketPrefix ++ (keys.hash name ++ unit '/' :: (keys.hash value ++ js ".json")) := by
  simp only [ChallengeKeys.nameKey, ChallengeKeys.namePrefix, List.append_assoc]
  rfl

theorem namePrefix_eq (name : JsString) : keys.namePrefix name =
    keys.bucketPrefix ++ (keys.hash name ++ unit '/' :: []) := by
  simp only [ChallengeKeys.namePrefix, List.append_assoc]
  rfl

theorem startsWith_nameKey (name value : JsString) :
    startsWith (keys.nameKey name value) (keys.namePrefix name) = true := by
  rw [startsWith_iff, ChallengeKeys.nameKey, List.append_assoc]
  exact List.prefix_append _ _

/-- A key is read back as its name and its value. -/
theorem HashesApart.nameKey_inj (h : HashesApart keys.hash texts) (hname : name ∈ texts)
    (hname' : name' ∈ texts) (hvalue : value ∈ texts) (hvalue' : value' ∈ texts)
    (heq : keys.nameKey name value = keys.nameKey name' value') :
    name = name' ∧ value = value' := by
  rw [nameKey_eq, nameKey_eq, List.append_cancel_left_eq] at heq
  obtain ⟨hnames, hvalues⟩ := append_cons_inj (h.slash_notMem name) (h.slash_notMem name') heq
  exact ⟨h.injOn hname hname' hnames,
    h.injOn hvalue hvalue' (List.append_cancel_right_eq _ _ _ ▸ hvalues)⟩

/-- The keys below the prefix of a name are keys of that name. -/
theorem HashesApart.name_eq_of_startsWith (h : HashesApart keys.hash texts) (hname : name ∈ texts)
    (hname' : name' ∈ texts)
    (hstarts : startsWith (keys.nameKey name value) (keys.namePrefix name') = true) :
    name = name' := by
  obtain ⟨rest, hrest⟩ := startsWith_iff.mp hstarts
  rw [nameKey_eq, namePrefix_eq, List.append_assoc, List.append_cancel_left_eq, List.append_assoc]
    at hrest
  obtain ⟨hnames, -⟩ := append_cons_inj (h.slash_notMem name') (h.slash_notMem name) hrest
  exact (h.injOn hname' hname hnames).symm

end

section

variable {seen more : List Moment} {name value : JsString} {now : Int} {m : Moment}

theorem LiveThroughout.mono (h : LiveThroughout more name value) (hsub : seen ⊆ more) :
    LiveThroughout seen name value := fun m hm => h m (hsub hm)

theorem SeenSet.mono (h : SeenSet seen name value now) (hsub : seen ⊆ more) :
    SeenSet more name value now := by
  obtain ⟨m, hm, hset⟩ := h
  exact ⟨m, hsub hm, hset⟩

end

section

variable (keys : ChallengeKeys) (texts : Set JsString)

/-- What is known of the records that a call for a name has read and has yet to read. -/
structure ReadsSet (seen : List Moment) (name : JsString) (now : Int) (entries : List Entry) :
    Prop where
  below : ∀ entry ∈ entries, startsWith entry.key (keys.namePrefix name) = true
  lists : ∀ value, LiveThroughout seen name value → ∃ entry ∈ entries,
    entry.key = keys.nameKey name value ∧ ∀ got, entry.read = some got →
      ∃ r, got = some r ∧ r.value = value ∧ now < r.expiry
  only : ∀ entry ∈ entries, ∀ r, entry.record = some r → now < r.expiry →
    SeenSet seen name r.value now

/-- What is known of a call at a moment, by what it has seen. -/
def CallOk (m : Moment) (seen : List Moment) : Call → Prop
  | .set record => keys.toLowerCase record.fqdn ∈ texts ∧ record.value ∈ texts
  | .remove fqdn value => keys.toLowerCase fqdn ∈ texts ∧ value ∈ texts
  | .listing (.get fqdn) now => keys.toLowerCase fqdn ∈ texts ∧ now ≤ m.clock ∧ m ∈ seen
  | .reading (.get fqdn) now entries =>
      keys.toLowerCase fqdn ∈ texts ∧ now ≤ m.clock ∧ m ∈ seen ∧
        ReadsSet keys seen (keys.toLowerCase fqdn) now entries
  | .returned fqdn now values =>
      (∀ value, LiveThroughout seen (keys.toLowerCase fqdn) value → value ∈ values) ∧
        ∀ value ∈ values, SeenSet seen (keys.toLowerCase fqdn) value now
  | _ => True

/-- The objects hold the set, but for what has expired. -/
structure HoldsSet (objects : Objects) (m : Moment) : Prop where
  placed : Placed keys texts objects
  listed : ∀ key r, readRecord objects key = some r →
    m.challenges (keys.toLowerCase r.fqdn) r.value = some r.expiry
  kept : ∀ name value expiry, m.challenges name value = some expiry → m.clock < expiry →
    name ∈ texts ∧ value ∈ texts ∧ ∃ r, readRecord objects (keys.nameKey name value) = some r ∧
      r.value = value ∧ r.expiry = expiry

structure Invariant (o : Observed) : Prop where
  holds : HoldsSet keys texts o.store.objects o.moment
  calls : ∀ call c, o.store.calls call = some c → CallOk keys texts o.moment (o.seen call) c

end

section

variable {keys : ChallengeKeys} {texts : Set JsString} {seen more : List Moment}
  {name : JsString} {now : Int} {entries : List Entry} {m : Moment}

theorem ReadsSet.mono (h : ReadsSet keys seen name now entries) (hsub : seen ⊆ more) :
    ReadsSet keys more name now entries :=
  ⟨h.below, fun value hlive => h.lists value (hlive.mono hsub),
    fun entry hentry r hr hnow => (h.only entry hentry r hr hnow).mono hsub⟩

/-- A call goes on seeing what it has seen. -/
theorem CallOk.advance {c : Call} (h : CallOk keys texts m seen c) (next : Moment)
    (hclock : m.clock ≤ next.clock) :
    CallOk keys texts next (if c.isOpen then next :: seen else seen) c := by
  cases c with
  | set record => exact h
  | remove fqdn value => exact h
  | listing purpose now =>
      cases purpose with
      | get fqdn => exact ⟨h.1, h.2.1.trans hclock, List.mem_cons_self⟩
      | reapExpired => trivial
  | reading purpose now entries =>
      cases purpose with
      | get fqdn =>
          exact ⟨h.1, h.2.1.trans hclock, List.mem_cons_self,
            h.2.2.2.mono (List.subset_cons_self next seen)⟩
      | reapExpired => trivial
  | returned fqdn now values => exact h
  | deleting pending => trivial
  | done => trivial

/-- The listing of a name has all its values that are in the set. -/
theorem readsSet_of_lists {objects : Objects} {listed : List JsString}
    (h : HoldsSet keys texts objects m) (hseen : m ∈ seen)
    (hlisted : Lists objects (keys.namePrefix name) listed) :
    ReadsSet keys seen name now (listed.map Entry.unread) := by
  refine ⟨?_, ?_, ?_⟩
  · intro entry hentry
    obtain ⟨key, hkey, rfl⟩ := List.mem_map.mp hentry
    exact (List.mem_filter.mp (hlisted.mem_iff.mp hkey)).2
  · intro value hlive
    obtain ⟨expiry, hset, hclock⟩ := hlive m hseen
    obtain ⟨-, -, r, hr, -, -⟩ := h.kept name value expiry hset hclock
    have hkey : keys.nameKey name value ∈ listed := by
      rw [hlisted.mem_iff, List.mem_filter]
      exact ⟨mem_keys_of_readRecord hr, startsWith_nameKey name value⟩
    exact ⟨_, List.mem_map_of_mem hkey, rfl, fun got hgot => (nomatch hgot)⟩
  · intro entry hentry r hr
    obtain ⟨key, -, rfl⟩ := List.mem_map.mp hentry
    cases hr

/-- An object that is read has the record of its value, if that is in the set. -/
theorem ReadsSet.read {objects : Objects} {key : JsString}
    (hhash : HashesApart keys.hash texts) (hname : name ∈ texts)
    (hset : HoldsSet keys texts objects m) (hseen : m ∈ seen) (hnow : now ≤ m.clock)
    (hkey : .unread key ∈ entries) (h : ReadsSet keys seen name now entries) :
    ReadsSet keys seen name now (entries.map fun entry =>
      if entry = .unread key then ⟨key, some (readRecord objects key)⟩ else entry) := by
  refine ⟨?_, ?_, ?_⟩
  · intro entry hentry
    obtain ⟨before, hbefore, rfl⟩ := List.mem_map.mp hentry
    split_ifs with heq
    · exact h.below (.unread key) hkey
    · exact h.below before hbefore
  · intro value hlive
    obtain ⟨before, hbefore, hvalue, hread⟩ := h.lists value hlive
    refine ⟨_, List.mem_map_of_mem hbefore, ?_⟩
    split_ifs with heq
    · obtain rfl : key = keys.nameKey name value := by
        rw [heq] at hvalue
        exact hvalue
      obtain ⟨expiry, hlisted, hclock⟩ := hlive m hseen
      obtain ⟨-, -, r, hr, hvalue, rfl⟩ := hset.kept name value expiry hlisted hclock
      refine ⟨rfl, fun got hgot => ⟨r, ?_, hvalue, hnow.trans_lt hclock⟩⟩
      exact (Option.some.inj hgot).symm.trans hr
    · exact ⟨hvalue, hread⟩
  · intro entry hentry r hr hexpiry
    obtain ⟨before, hbefore, rfl⟩ := List.mem_map.mp hentry
    split_ifs at hr with heq
    · have hrecord : readRecord objects key = some r := hr
      obtain ⟨hplace, hfqdn, -⟩ := hset.placed key r hrecord
      have hbelow := h.below _ hkey
      rw [Entry.unread, hplace] at hbelow
      obtain rfl := hhash.name_eq_of_startsWith hfqdn hname hbelow
      exact ⟨m, hseen, r.expiry, hset.listed key r hrecord, hexpiry⟩
    · exact h.only before hbefore r hr hexpiry

/-- Once all is read, the values are those of the set. -/
theorem ReadsSet.values (h : ReadsSet keys seen name now entries)
    (hread : ∀ entry ∈ entries, entry.read.isSome = true) :
    (∀ value, LiveThroughout seen name value → value ∈ liveValues now entries) ∧
      ∀ value ∈ liveValues now entries, SeenSet seen name value now := by
  have hmem : ∀ value, value ∈ liveValues now entries ↔
      ∃ entry ∈ entries, ∃ r, entry.record = some r ∧ now < r.expiry ∧ r.value = value := by
    intro value
    simp only [liveValues, List.mem_map, List.mem_filter, List.mem_filterMap, decide_eq_true_eq]
    constructor
    · rintro ⟨r, ⟨⟨entry, hentry, hr⟩, hexpiry⟩, hvalue⟩
      exact ⟨entry, hentry, r, hr, hexpiry, hvalue⟩
    · rintro ⟨entry, hentry, r, hr, hexpiry, hvalue⟩
      exact ⟨r, ⟨⟨entry, hentry, hr⟩, hexpiry⟩, hvalue⟩
  constructor
  · intro value hlive
    obtain ⟨entry, hentry, -, hgot⟩ := h.lists value hlive
    obtain ⟨got, hsome⟩ := Option.isSome_iff_exists.mp (hread entry hentry)
    obtain ⟨r, rfl, hvalue, hexpiry⟩ := hgot got hsome
    exact (hmem value).mpr ⟨entry, hentry, r, by rw [Entry.record, hsome]; rfl, hexpiry, hvalue⟩
  · intro value hvalue
    obtain ⟨entry, hentry, r, hr, hexpiry, rfl⟩ := (hmem value).mp hvalue
    exact h.only entry hentry r hr hexpiry

variable {objects : Objects}

theorem HoldsSet.advance (h : HoldsSet keys texts objects m) {clock : Int}
    (hclock : m.clock ≤ clock) :
    HoldsSet keys texts objects ⟨m.challenges, clock⟩ :=
  ⟨h.placed, h.listed, fun name value expiry hset hlive =>
    h.kept name value expiry hset (hclock.trans_lt hlive)⟩

/-- An object whose key is that of another one has another name or value. -/
theorem ne_of_nameKey_ne {name value fqdn other : JsString}
    (h : keys.objectKey fqdn other ≠ keys.nameKey name value) :
    ¬ (keys.toLowerCase fqdn = name ∧ other = value) := by
  rintro ⟨rfl, rfl⟩
  exact h rfl

theorem HoldsSet.put (hhash : HashesApart keys.hash texts) (h : HoldsSet keys texts objects m)
    {r : StoredChallenge} (hname : keys.toLowerCase r.fqdn ∈ texts) (hvalue : r.value ∈ texts) :
    HoldsSet keys texts (objects.set (keys.objectKey r.fqdn r.value) (some r))
      ⟨m.challenges.update (keys.toLowerCase r.fqdn) r.value (some r.expiry), m.clock⟩ := by
  refine ⟨?_, ?_, ?_⟩
  · intro key other hother
    by_cases hkey : key = keys.objectKey r.fqdn r.value
    · rw [hkey, readRecord_set_self] at hother
      cases hother
      exact ⟨hkey, hname, hvalue⟩
    · rw [readRecord_set_of_ne _ _ hkey] at hother
      exact h.placed key other hother
  · intro key other hother
    by_cases hkey : key = keys.objectKey r.fqdn r.value
    · rw [hkey, readRecord_set_self] at hother
      cases hother
      exact Challenges.update_self ..
    · rw [readRecord_set_of_ne _ _ hkey] at hother
      obtain ⟨rfl, -, -⟩ := h.placed key other hother
      exact (Challenges.update_of_ne _ (ne_of_nameKey_ne hkey)).trans (h.listed _ other hother)
  · intro name value expiry hset hlive
    by_cases heq : name = keys.toLowerCase r.fqdn ∧ value = r.value
    · obtain ⟨rfl, rfl⟩ := heq
      have hexpiry : some r.expiry = some expiry := (Challenges.update_self ..).symm.trans hset
      exact ⟨hname, hvalue, r, readRecord_set_self .., rfl, Option.some.inj hexpiry⟩
    · have hbefore : m.challenges name value = some expiry :=
        (Challenges.update_of_ne _ heq).symm.trans hset
      obtain ⟨hmem, hmem', other, hother, hkept⟩ := h.kept name value expiry hbefore hlive
      have hkey : keys.nameKey name value ≠ keys.objectKey r.fqdn r.value :=
        fun hkey => heq (hhash.nameKey_inj hmem hname hmem' hvalue hkey)
      refine ⟨hmem, hmem', other, ?_, hkept⟩
      rw [readRecord_set_of_ne _ _ hkey]
      exact hother

theorem HoldsSet.remove (hhash : HashesApart keys.hash texts) (h : HoldsSet keys texts objects m)
    {fqdn value : JsString} (hname : keys.toLowerCase fqdn ∈ texts) (hvalue : value ∈ texts) :
    HoldsSet keys texts (objects.delete (keys.objectKey fqdn value))
      ⟨m.challenges.update (keys.toLowerCase fqdn) value none, m.clock⟩ := by
  refine ⟨?_, ?_, ?_⟩
  · intro key other hother
    by_cases hkey : key = keys.objectKey fqdn value
    · rw [hkey, readRecord_delete_self] at hother
      cases hother
    · rw [readRecord_delete_of_ne _ hkey] at hother
      exact h.placed key other hother
  · intro key other hother
    by_cases hkey : key = keys.objectKey fqdn value
    · rw [hkey, readRecord_delete_self] at hother
      cases hother
    · rw [readRecord_delete_of_ne _ hkey] at hother
      obtain ⟨rfl, -, -⟩ := h.placed key other hother
      exact (Challenges.update_of_ne _ (ne_of_nameKey_ne hkey)).trans (h.listed _ other hother)
  · intro name value' expiry hset hlive
    by_cases heq : name = keys.toLowerCase fqdn ∧ value' = value
    · obtain ⟨rfl, rfl⟩ := heq
      cases (Challenges.update_self ..).symm.trans hset
    · have hbefore : m.challenges name value' = some expiry :=
        (Challenges.update_of_ne _ heq).symm.trans hset
      obtain ⟨hmem, hmem', other, hother, hkept⟩ := h.kept name value' expiry hbefore hlive
      have hkey : keys.nameKey name value' ≠ keys.objectKey fqdn value :=
        fun hkey => heq (hhash.nameKey_inj hmem hname hmem' hvalue hkey)
      refine ⟨hmem, hmem', other, ?_, hkept⟩
      rw [readRecord_delete_of_ne _ hkey]
      exact hother

/-- An object that is reaped was nothing that has not expired. -/
theorem HoldsSet.reap (h : HoldsSet keys texts objects m) {key : JsString}
    (hspared : (readRecord objects key).all (fun r => decide (r.expiry ≤ m.clock)) = true) :
    HoldsSet keys texts (objects.delete key) m := by
  have hstays : ∀ other r, readRecord (objects.delete key) other = some r →
      readRecord objects other = some r := by
    intro other r hr
    by_cases hkey : other = key
    · rw [hkey, readRecord_delete_self] at hr
      cases hr
    · rw [readRecord_delete_of_ne _ hkey] at hr
      exact hr
  refine ⟨fun other r hr => h.placed other r (hstays other r hr),
    fun other r hr => h.listed other r (hstays other r hr), ?_⟩
  intro name value expiry hset hlive
  obtain ⟨hmem, hmem', r, hr, hvalue, hexpiry⟩ := h.kept name value expiry hset hlive
  refine ⟨hmem, hmem', r, ?_, hvalue, hexpiry⟩
  rw [readRecord_delete_of_ne]
  · exact hr
  · rintro rfl
    rw [hr] at hspared
    have hexpired : r.expiry ≤ m.clock := of_decide_eq_true hspared
    omega

variable {o : Observed} {store : Store} {challenges : Challenges} {call : Nat} {c : Call}

/-- A step that moves one call keeps the invariant if it does for that call and for the objects. -/
theorem Invariant.see (h : Invariant keys texts o)
    (hcalls : store.calls = Function.update o.store.calls call (some c))
    (hclock : o.store.clock ≤ store.clock)
    (hholds : HoldsSet keys texts store.objects ⟨challenges, store.clock⟩)
    (hcall : CallOk keys texts ⟨challenges, store.clock⟩
      (if (o.store.calls call).any Call.isOpen ∨ c.isOpen then
        ⟨challenges, store.clock⟩ :: o.seen call else o.seen call) c) :
    Invariant keys texts (o.see store challenges) := by
  refine ⟨hholds, fun other d hother => ?_⟩
  have hat : store.calls other = some d := hother
  by_cases heq : other = call
  · subst heq
    have hself : store.calls other = some c := by rw [hcalls, Function.update_self]
    obtain rfl : c = d := Option.some.inj (hself.symm.trans hat)
    simp only [Observed.see, hself, Option.any_some]
    exact hcall
  · have hbefore : o.store.calls other = some d := by
      rw [hcalls, Function.update_of_ne heq] at hat
      exact hat
    have hadvance := (h.calls other d hbefore).advance ⟨challenges, store.clock⟩ hclock
    simp only [Observed.see, hat, hbefore, Option.any_some, or_self]
    exact hadvance

/-- A step that only moves a call leaves the set as it is. -/
theorem Invariant.setCall (h : Invariant keys texts o)
    (hcall : CallOk keys texts o.moment
      (if (o.store.calls call).any Call.isOpen ∨ c.isOpen then
        o.moment :: o.seen call else o.seen call) c) :
    Invariant keys texts (o.see (o.store.setCall call c) o.challenges) :=
  h.see rfl le_rfl h.holds hcall

theorem Invariant.tick (h : Invariant keys texts o) (elapsed : Nat) :
    Invariant keys texts
      (o.see { o.store with clock := o.store.clock + elapsed } o.challenges) := by
  have hclock : o.store.clock ≤ o.store.clock + elapsed := by omega
  refine ⟨h.holds.advance hclock, fun other d hother => ?_⟩
  have hat : o.store.calls other = some d := hother
  have hadvance := (h.calls other d hat).advance
    ⟨o.challenges, o.store.clock + elapsed⟩ hclock
  simp only [Observed.see, hat, Option.any_some, or_self]
  exact hadvance

theorem Invariant.start {e : Event} {t : Store} (h : Invariant keys texts o)
    (hstart : o.store.start call c = some t)
    (hcall : CallOk keys texts o.moment (if c.isOpen then o.moment :: o.seen call else o.seen call)
      c) (hsame : o.challenges.after keys o.store e = o.challenges) :
    Invariant keys texts (o.see t (o.challenges.after keys o.store e)) := by
  obtain ⟨hfree, rfl⟩ := start_eq_some_iff.mp hstart
  rw [hsame]
  apply h.setCall
  simp only [hfree, Option.any_none, Bool.false_eq_true, false_or]
  exact hcall

/-- An object that is put, removed or reaped. -/
theorem Invariant.finish {objects : Objects} (h : Invariant keys texts o)
    (hopen : (o.store.calls call).any Call.isOpen = false) (hc : c.isOpen = false)
    (hholds : HoldsSet keys texts objects ⟨challenges, o.store.clock⟩)
    (hcall : CallOk keys texts ⟨challenges, o.store.clock⟩ (o.seen call) c) :
    Invariant keys texts
      (o.see { o.store.setCall call c with objects := objects } challenges) := by
  refine @Invariant.see keys texts o { o.store.setCall call c with objects := objects } challenges
    call c h rfl le_rfl hholds ?_
  simp only [hopen, hc, Bool.false_eq_true, or_self, if_false]
  exact hcall

theorem Invariant.list {listed : List JsString} {purpose : Purpose}
    (h : Invariant keys texts o) (hcall : o.store.calls call = some (.listing purpose now))
    (hlisted : Lists o.store.objects (purpose.listPrefix keys) listed) :
    Invariant keys texts (o.see
      (o.store.setCall call (.reading purpose now (listed.map Entry.unread))) o.challenges) := by
  apply h.setCall
  have hbefore := h.calls call _ hcall
  simp only [hcall, Option.any_some, Call.isOpen, true_or, if_true]
  cases purpose with
  | get fqdn =>
      obtain ⟨hname, hnow, hseen⟩ := hbefore
      exact ⟨hname, hnow, List.mem_cons_self,
        readsSet_of_lists h.holds List.mem_cons_self hlisted⟩
  | reapExpired => trivial

theorem Invariant.read {key : JsString} {purpose : Purpose}
    (hhash : HashesApart keys.hash texts) (h : Invariant keys texts o)
    (hcall : o.store.calls call = some (.reading purpose now entries))
    (hkey : .unread key ∈ entries) :
    Invariant keys texts (o.see (o.store.setCall call (.reading purpose now
      (entries.map fun entry => if entry = .unread key then
        ⟨key, some (readRecord o.store.objects key)⟩ else entry))) o.challenges) := by
  apply h.setCall
  have hbefore := h.calls call _ hcall
  simp only [hcall, Option.any_some, Call.isOpen, true_or, if_true]
  cases purpose with
  | get fqdn =>
      obtain ⟨hname, hnow, hseen, hreads⟩ := hbefore
      exact ⟨hname, hnow, List.mem_cons_self, (hreads.mono (List.subset_cons_self _ _)).read hhash
        hname h.holds List.mem_cons_self hnow hkey⟩
  | reapExpired => trivial

theorem Invariant.proceed {purpose : Purpose} (h : Invariant keys texts o)
    (hcall : o.store.calls call = some (.reading purpose now entries))
    (hread : ∀ entry ∈ entries, entry.read.isSome = true) :
    Invariant keys texts
      (o.see (o.store.setCall call (purpose.continue now entries)) o.challenges) := by
  apply h.setCall
  have hbefore := h.calls call _ hcall
  simp only [hcall, Option.any_some, Call.isOpen, true_or, if_true]
  cases purpose with
  | get fqdn =>
      obtain ⟨-, -, -, hreads⟩ := hbefore
      exact (hreads.mono (List.subset_cons_self _ _)).values hread
  | reapExpired => trivial

theorem Invariant.delete {key : JsString} {o' : Observed} (hhash : HashesApart keys.hash texts)
    (h : Invariant keys texts o) (hspares : sparesLive o (.delete call key) = true)
    (hstep : o.step keys (.delete call key) = some o') : Invariant keys texts o' := by
  obtain ⟨t, ht, rfl⟩ := Option.map_eq_some_iff.mp hstep
  simp only [S3ChallengeStore.step] at ht
  split at ht
  · next fqdn value hcall =>
      split_ifs at ht with hkey
      cases ht
      obtain ⟨hname, hvalue⟩ := h.calls call _ hcall
      simp only [Challenges.after, hcall, hkey]
      exact h.finish (by rw [hcall]; rfl) rfl (h.holds.remove hhash hname hvalue) trivial
  · next pending hcall =>
      split_ifs at ht with hkey
      cases ht
      simp only [sparesLive, hcall] at hspares
      simp only [Challenges.after, hcall]
      exact h.finish (by rw [hcall]; rfl) rfl (h.holds.reap hspares) trivial
  · cases ht

/-- What each step keeps. -/
theorem Invariant.step {e : Event} {o' : Observed} (hhash : HashesApart keys.hash texts)
    (h : Invariant keys texts o) (hwithin : Within keys texts e) (hspares : sparesLive o e = true)
    (hstep : o.step keys e = some o') : Invariant keys texts o' := by
  cases e with
  | delete call key => exact h.delete hhash hspares hstep
  | tick elapsed =>
      cases hstep
      exact h.tick elapsed
  | set call fqdn value ttlMs =>
      obtain ⟨t, ht, rfl⟩ := Option.map_eq_some_iff.mp hstep
      exact h.start ht hwithin rfl
  | remove call fqdn value =>
      obtain ⟨t, ht, rfl⟩ := Option.map_eq_some_iff.mp hstep
      exact h.start ht hwithin rfl
  | get call fqdn =>
      obtain ⟨t, ht, rfl⟩ := Option.map_eq_some_iff.mp hstep
      exact h.start ht ⟨hwithin, le_rfl, List.mem_cons_self⟩ rfl
  | reapExpired call =>
      obtain ⟨t, ht, rfl⟩ := Option.map_eq_some_iff.mp hstep
      exact h.start ht trivial rfl
  | put call =>
      obtain ⟨t, ht, rfl⟩ := Option.map_eq_some_iff.mp hstep
      simp only [S3ChallengeStore.step] at ht
      split at ht
      · next record hcall =>
          cases ht
          obtain ⟨hname, hvalue⟩ := h.calls call _ hcall
          simp only [Challenges.after, hcall]
          exact h.finish (by rw [hcall]; rfl) rfl (h.holds.put hhash hname hvalue) trivial
      · cases ht
  | list call listed =>
      obtain ⟨t, ht, rfl⟩ := Option.map_eq_some_iff.mp hstep
      simp only [S3ChallengeStore.step] at ht
      split at ht
      · next purpose now hcall =>
          split_ifs at ht with hlisted
          cases ht
          exact h.list hcall hlisted
      · cases ht
  | read call key =>
      obtain ⟨t, ht, rfl⟩ := Option.map_eq_some_iff.mp hstep
      simp only [S3ChallengeStore.step] at ht
      split at ht
      · next purpose now entries hcall =>
          split_ifs at ht with hkey
          cases ht
          exact h.read hhash hcall hkey
      · cases ht
  | proceed call =>
      obtain ⟨t, ht, rfl⟩ := Option.map_eq_some_iff.mp hstep
      simp only [S3ChallengeStore.step] at ht
      split at ht
      · next purpose now entries hcall =>
          split_ifs at ht with hread
          cases ht
          exact h.proceed hcall hread
      · cases ht

/-- The set that the observer starts with is that of the objects. -/
theorem invariant_start (hplaced : Placed keys texts objects) (clock : Int) :
    Invariant keys texts (.start keys objects clock) := by
  refine ⟨⟨hplaced, ?_, ?_⟩, fun call c hcall => (nomatch hcall)⟩
  · intro key r hr
    obtain ⟨rfl, -, -⟩ := hplaced key r hr
    apply Option.map_eq_some_iff.mpr
    exact ⟨r, Option.filter_eq_some_iff.mpr ⟨hr, decide_eq_true ⟨rfl, rfl⟩⟩, rfl⟩
  · intro name value expiry hset hlive
    obtain ⟨r, hr, rfl⟩ := Option.map_eq_some_iff.mp hset
    obtain ⟨hread, hown⟩ := Option.filter_eq_some_iff.mp hr
    obtain ⟨rfl, rfl⟩ := of_decide_eq_true hown
    obtain ⟨-, hname, hvalue⟩ := hplaced _ r hread
    exact ⟨hname, hvalue, r, hread, rfl, rfl⟩

theorem Invariant.behavesAsSet (h : Invariant keys texts o) : BehavesAsSet keys o :=
  ⟨fun call fqdn now values hcall => (h.calls call (.returned fqdn now values) hcall).1,
    fun call fqdn now values hcall => (h.calls call (.returned fqdn now values) hcall).2⟩

/-- In a run whose reapers delete no record that has not expired, the store behaves as the set of
what was put and removed. -/
theorem behavesAsSet_of_run {clock : Int} {events : List Event}
    (hhash : HashesApart keys.hash texts) (hplaced : Placed keys texts objects)
    (hwithin : ∀ e ∈ events, Within keys texts e)
    (hspares : Guarded (Observed.step keys) (fun o e => sparesLive o e = true)
      (.start keys objects clock) events)
    (hrun : run (Observed.step keys) (.start keys objects clock) events = some o) :
    BehavesAsSet keys o := by
  have hguard := hspares.and (guarded_of_forall_mem hwithin _)
  have hinvariant : Invariant keys texts o :=
    guarded_invariant (fun _ _ _ hinv hok hstep => hinv.step hhash hok.2 hok.1 hstep)
      (invariant_start hplaced clock) hguard hrun
  exact hinvariant.behavesAsSet

end

def sampleName : JsString := js "_acme-challenge.example.com"

def sampleValue : JsString := js "token-1"

/-- The hashes of the texts below. -/
def sampleKeys : ChallengeKeys where
  bucketPrefix := js "acme-challenges/"
  toLowerCase := asciiLowerCase
  hash text :=
    if text = sampleName then js "d61c5dab906f33d5c1152c117a388201"
    else if text = sampleValue then js "3f08aace122ee2368432c1ca23a049bc"
    else js "e3b0c44298fc1c149afbf4c8996fb924"

theorem hashesApart_sample : HashesApart sampleKeys.hash {sampleName, sampleValue} := by
  refine ⟨fun text => ?_, ?_⟩
  · simp only [sampleKeys]
    split_ifs <;> decide +kernel
  · rintro text htext other hother heq
    simp only [Set.mem_insert_iff, Set.mem_singleton_iff] at htext hother
    rcases htext with rfl | rfl <;> rcases hother with rfl | rfl
    · rfl
    · exact absurd heq (by decide +kernel)
    · exact absurd heq (by decide +kernel)
    · rfl

theorem placed_empty (keys : ChallengeKeys) (texts : Set JsString) :
    Placed keys texts InsertionMap.empty := fun _ _ h => nomatch h

def sampleKey : JsString := sampleKeys.objectKey sampleName sampleValue

/-- A value is set, and a call in capital letters gets it. -/
def getEvents : List Event :=
  [.set 0 sampleName sampleValue 600000, .put 0, .tick 5,
    .get 1 (js "_ACME-CHALLENGE.example.com"), .list 1 [sampleKey], .read 1 sampleKey, .proceed 1]

theorem behavesAsSet_of_run_get :
    ∃ o, run (Observed.step sampleKeys) (.start sampleKeys .empty 0) getEvents = some o ∧
      o.store.calls 1 = some (.returned (js "_ACME-CHALLENGE.example.com") 5 [sampleValue]) ∧
      BehavesAsSet sampleKeys o := by
  have hreturned : (run (Observed.step sampleKeys) (.start sampleKeys .empty 0) getEvents).any
      (fun o => decide (o.store.calls 1 =
        some (.returned (js "_ACME-CHALLENGE.example.com") 5 [sampleValue]))) = true := by
    decide +kernel
  obtain ⟨o, ho, hcall⟩ := (Option.any_eq_true _ _).mp hreturned
  refine ⟨o, ho, of_decide_eq_true hcall, ?_⟩
  have hlower : asciiLowerCase sampleName = sampleName := by decide +kernel
  have hcapital : asciiLowerCase (js "_ACME-CHALLENGE.example.com") = sampleName := by
    decide +kernel
  apply behavesAsSet_of_run hashesApart_sample (placed_empty _ _) _ (by decide +kernel) ho
  simp only [getEvents, List.forall_mem_cons, Within, sampleKeys, hlower, hcapital]
  simp

/-- A value expires, a reaper reads its record, and the value is set again before the reaper
deletes it. -/
def reapEvents : List Event :=
  [.set 0 sampleName sampleValue 1, .put 0, .tick 1, .reapExpired 1, .list 1 [sampleKey],
    .read 1 sampleKey, .proceed 1, .set 2 sampleName sampleValue 600000, .put 2,
    .delete 1 sampleKey, .get 3 sampleName, .list 3 [], .proceed 3]

/-- The reaper deletes the new record, and a later call does not get the value. -/
theorem not_behavesAsSet_reaped :
    ¬ ∀ keys texts objects clock events o, HashesApart keys.hash texts → Placed keys texts objects →
      (∀ e ∈ events, Within keys texts e) →
      run (Observed.step keys) (.start keys objects clock) events = some o →
      BehavesAsSet keys o := by
  intro hall
  have hmissed : (run (Observed.step sampleKeys) (.start sampleKeys .empty 0) reapEvents).any
      (fun o => decide (o.store.calls 3 = some (.returned sampleName 1 [])) &&
        (o.seen 3).all fun m => (m.challenges sampleName sampleValue).any (m.clock < ·)) =
          true := by
    decide +kernel
  obtain ⟨o, ho, hcheck⟩ := (Option.any_eq_true _ _).mp hmissed
  obtain ⟨hcall, hlive⟩ := Bool.and_eq_true_iff.mp hcheck
  have hlower : asciiLowerCase sampleName = sampleName := by decide +kernel
  have hset : BehavesAsSet sampleKeys o := by
    apply hall sampleKeys _ .empty 0 reapEvents o hashesApart_sample (placed_empty _ _) _ ho
    simp only [reapEvents, List.forall_mem_cons, Within, sampleKeys, hlower]
    simp
  have hmem := hset.returns 3 sampleName 1 [] (of_decide_eq_true hcall) sampleValue ?_
  · cases hmem
  · intro m hm
    have hany := List.all_eq_true.mp hlive m hm
    obtain ⟨expiry, hexpiry, hclock⟩ := (Option.any_eq_true _ _).mp hany
    refine ⟨expiry, ?_, of_decide_eq_true hclock⟩
    have hname : sampleKeys.toLowerCase sampleName = sampleName := hlower
    rw [hname]
    exact hexpiry

end TestServer.TlsCertificates.S3ChallengeStore
