import TestServer.Js.Text
import TestServer.Library.InsertionMap
import TestServer.Library.Runs

/-!
# Challenges in a shared store

`src/tls-certificates/s3-challenge-store.ts`: any number of servers keep their pending challenges
as objects of one bucket, with one object for a name and a value.

## Implementation notes

The calls of all servers are told apart by numbers. Each operation of the bucket is one event, and
so is the start of a call, where it reads the clock, which is one for all servers. The objects
that a call has listed are read in any order, and so are those deleted that it reaps. An object
without a record is one that is empty or no JSON.
-/

namespace TestServer.TlsCertificates.S3ChallengeStore

open Js Library

structure StoredChallenge where
  fqdn : JsString
  value : JsString
  expiry : Int
deriving DecidableEq

/-- What the keys of objects are made of. -/
structure ChallengeKeys where
  bucketPrefix : JsString
  toLowerCase : JsString → JsString
  /-- The first 32 digits of a SHA-256 hash. -/
  hash : JsString → JsString

namespace ChallengeKeys

variable (keys : ChallengeKeys)

/-- The keys of a name start with this, which only its lower-case form counts for. -/
def namePrefix (name : JsString) : JsString := keys.bucketPrefix ++ keys.hash name ++ js "/"

def fqdnPrefix (fqdn : JsString) : JsString := keys.namePrefix (keys.toLowerCase fqdn)

def nameKey (name value : JsString) : JsString :=
  keys.namePrefix name ++ keys.hash value ++ js ".json"

def objectKey (fqdn value : JsString) : JsString := keys.nameKey (keys.toLowerCase fqdn) value

end ChallengeKeys

abbrev Objects := InsertionMap JsString (Option StoredChallenge)

def readRecord (objects : Objects) (key : JsString) : Option StoredChallenge :=
  (objects.get key).join

/-- What records are listed for. -/
inductive Purpose where
  | get (fqdn : JsString)
  | reapExpired
deriving DecidableEq

def Purpose.listPrefix (keys : ChallengeKeys) : Purpose → JsString
  | get fqdn => keys.fqdnPrefix fqdn
  | reapExpired => keys.bucketPrefix

/-- A key of `listRecords` with what was read for it, once it is. -/
structure Entry where
  key : JsString
  read : Option (Option StoredChallenge)
deriving DecidableEq

namespace Entry

def unread (key : JsString) : Entry := ⟨key, none⟩

def record (entry : Entry) : Option StoredChallenge := entry.read.join

end Entry

/-- Where a call is. -/
inductive Call where
  | set (record : StoredChallenge)
  | remove (fqdn value : JsString)
  | listing (purpose : Purpose) (now : Int)
  | reading (purpose : Purpose) (now : Int) (entries : List Entry)
  | returned (fqdn : JsString) (now : Int) (values : List JsString)
  | deleting (pending : List JsString)
  | done
deriving DecidableEq

/-- The filter and the map at the end of `get`. -/
def liveValues (now : Int) (entries : List Entry) : List JsString :=
  ((entries.filterMap Entry.record).filter fun r => decide (now < r.expiry)).map (·.value)

/-- The filter of `reapExpired`. -/
def expiredKeys (now : Int) (entries : List Entry) : List JsString :=
  (entries.filter fun entry => decide (∀ r ∈ entry.record, r.expiry ≤ now)).map Entry.key

/-- What a call goes on with once all that it has listed is read. -/
def Purpose.continue (now : Int) (entries : List Entry) : Purpose → Call
  | get fqdn => .returned fqdn now (liveValues now entries)
  | reapExpired => .deleting (expiredKeys now entries)

structure Store where
  clock : Int
  objects : Objects
  calls : Nat → Option Call

inductive Event where
  | tick (elapsed : Nat)
  | set (call : Nat) (fqdn value : JsString) (ttlMs : Int)
  | remove (call : Nat) (fqdn value : JsString)
  | get (call : Nat) (fqdn : JsString)
  | reapExpired (call : Nat)
  /-- `PutObjectCommand` -/
  | put (call : Nat)
  /-- `DeleteObjectCommand` -/
  | delete (call : Nat) (key : JsString)
  /-- `paginateListObjectsV2` -/
  | list (call : Nat) (listed : List JsString)
  /-- `GetObjectCommand` -/
  | read (call : Nat) (key : JsString)
  | proceed (call : Nat)

namespace Store

def setCall (s : Store) (call : Nat) (c : Call) : Store :=
  { s with calls := Function.update s.calls call (some c) }

/-- Start a call under a number that is not used. -/
def start (s : Store) (call : Nat) (c : Call) : Option Store :=
  if s.calls call = none then some (s.setCall call c) else none

end Store

section

variable (keys : ChallengeKeys)

/-- What a listing may give: the keys with a leading part, in any order. -/
def Lists (objects : Objects) (lead : JsString) (listed : List JsString) : Prop :=
  listed.Perm (objects.keys.filter (startsWith · lead))

instance (objects : Objects) (lead : JsString) (listed : List JsString) :
    Decidable (Lists objects lead listed) := inferInstanceAs (Decidable (List.Perm _ _))

def step (s : Store) : Event → Option Store
  | .tick elapsed => some { s with clock := s.clock + elapsed }
  | .set call fqdn value ttlMs => s.start call (.set ⟨fqdn, value, s.clock + ttlMs⟩)
  | .remove call fqdn value => s.start call (.remove fqdn value)
  | .get call fqdn => s.start call (.listing (.get fqdn) s.clock)
  | .reapExpired call => s.start call (.listing .reapExpired s.clock)
  | .put call =>
      match s.calls call with
      | some (.set record) =>
          some { s.setCall call .done with
            objects := s.objects.set (keys.objectKey record.fqdn record.value) (some record) }
      | _ => none
  | .delete call key =>
      match s.calls call with
      | some (.remove fqdn value) =>
          if key = keys.objectKey fqdn value then
            some { s.setCall call .done with objects := s.objects.delete key }
          else none
      | some (.deleting pending) =>
          if key ∈ pending then
            some { s.setCall call (.deleting (pending.erase key)) with
              objects := s.objects.delete key }
          else none
      | _ => none
  | .list call listed =>
      match s.calls call with
      | some (.listing purpose now) =>
          if Lists s.objects (purpose.listPrefix keys) listed then
            some (s.setCall call (.reading purpose now (listed.map Entry.unread)))
          else none
      | _ => none
  | .read call key =>
      match s.calls call with
      | some (.reading purpose now entries) =>
          if .unread key ∈ entries then
            some (s.setCall call (.reading purpose now (entries.map fun entry =>
              if entry = .unread key then ⟨key, some (readRecord s.objects key)⟩ else entry)))
          else none
      | _ => none
  | .proceed call =>
      match s.calls call with
      | some (.reading purpose now entries) =>
          if ∀ entry ∈ entries, entry.read.isSome then
            some (s.setCall call (purpose.continue now entries))
          else none
      | _ => none

end

theorem readRecord_set_self (objects : Objects) (key : JsString) (r : StoredChallenge) :
    readRecord (objects.set key (some r)) key = some r := by
  rw [readRecord, InsertionMap.get_set_self, Option.join_some]

theorem readRecord_set_of_ne (objects : Objects) {key other : JsString} (r : StoredChallenge)
    (h : other ≠ key) : readRecord (objects.set key (some r)) other = readRecord objects other := by
  rw [readRecord, InsertionMap.get_set_of_ne _ _ h, readRecord]

theorem readRecord_delete_self (objects : Objects) (key : JsString) :
    readRecord (objects.delete key) key = none := by
  rw [readRecord, InsertionMap.get_delete_self]
  rfl

theorem readRecord_delete_of_ne (objects : Objects) {key other : JsString} (h : other ≠ key) :
    readRecord (objects.delete key) other = readRecord objects other := by
  rw [readRecord, InsertionMap.get_delete_of_ne _ h, readRecord]

theorem mem_keys_of_readRecord {objects : Objects} {key : JsString} {r : StoredChallenge}
    (h : readRecord objects key = some r) : key ∈ objects.keys := by
  rw [InsertionMap.mem_keys_iff]
  exact ⟨some r, Option.join_eq_some_iff.mp h⟩

section

variable {s : Store} {call other : Nat}

@[simp] theorem setCall_calls_self (c : Call) : (s.setCall call c).calls call = some c :=
  Function.update_self ..

theorem setCall_calls_of_ne (c : Call) (h : other ≠ call) :
    (s.setCall call c).calls other = s.calls other := Function.update_of_ne h ..

theorem start_eq_some_iff {c : Call} {t : Store} :
    s.start call c = some t ↔ s.calls call = none ∧ t = s.setCall call c := by
  rw [Store.start]
  split_ifs with h
  · exact ⟨fun ht => ⟨h, (Option.some.inj ht).symm⟩, fun ht => congrArg some ht.2.symm⟩
  · exact ⟨fun ht => (nomatch ht), fun ht => absurd ht.1 h⟩

end

end TestServer.TlsCertificates.S3ChallengeStore
