import TestServer.Js.Text
import TestServer.Library.InsertionMap
import TestServer.Library.InsertionSet

/-!
# The DNS servers of a fleet

`DnsServer` of `src/dns-server.ts`, and a fleet of them over one shared
`ChallengeStore`. An event is what runs between two awaits, or the moment at
which the store performs an operation that was asked of it.

## Implementation notes

The case mapping of names is a parameter, and nothing is assumed of it. A
message is given by the first question that decoding it yields, a response by
the answers that are encoded in it.
-/

namespace TestServer

open Js Library

def acmeChallengePrefix : JsString := js "_acme-challenge."

/-- A store of challenge records, each of whose operations happens at one moment. It is a set
of names and values. -/
structure ChallengeStore (σ : Type) where
  set : σ → JsString → JsString → σ
  remove : σ → JsString → JsString → σ
  get : σ → JsString → List JsString
  mem_get_set : ∀ {s key value fqdn v},
    v ∈ get (set s key value) fqdn ↔ v ∈ get s fqdn ∨ (fqdn, v) = (key, value)
  mem_get_remove : ∀ {s key value fqdn v},
    v ∈ get (remove s key value) fqdn ↔ v ∈ get s fqdn ∧ (fqdn, v) ≠ (key, value)

/-- The values paired with a name. -/
def pairedWith (s : InsertionSet (JsString × JsString)) (fqdn : JsString) : List JsString :=
  (s.elements.filter fun record => decide (record.1 = fqdn)).map Prod.snd

theorem mem_pairedWith {s : InsertionSet (JsString × JsString)} {fqdn value : JsString} :
    value ∈ pairedWith s fqdn ↔ (fqdn, value) ∈ s := by
  simp [pairedWith, InsertionSet.mem_def]

/-- A store that keeps the pairs that were set. -/
def pairStore : ChallengeStore (InsertionSet (JsString × JsString)) where
  set s fqdn value := s.add (fqdn, value)
  remove s fqdn value := s.delete (fqdn, value)
  get := pairedWith
  mem_get_set := by simp only [mem_pairedWith, InsertionSet.mem_add, implies_true]
  mem_get_remove := by simp only [mem_pairedWith, InsertionSet.mem_delete, implies_true]

structure Question where
  type : JsString
  name : JsString
deriving DecidableEq

/-- The records that one server holds itself. -/
structure DnsServer where
  txtRecords : InsertionMap JsString (InsertionSet JsString)
deriving DecidableEq

namespace DnsServer

def new : DnsServer := ⟨.empty⟩

/-- What `setTxtRecord` does before it asks the store. -/
def addTxtRecord (d : DnsServer) (key value : JsString) : DnsServer :=
  ⟨d.txtRecords.set key (((d.txtRecords.get key).getD .empty).add value)⟩

/-- What `removeTxtRecord` does before it asks the store. -/
def deleteTxtRecord (d : DnsServer) (key value : JsString) : DnsServer :=
  match d.txtRecords.get key with
  | none => d
  | some values =>
      let rest := values.delete value
      if rest.size = 0 then ⟨d.txtRecords.delete key⟩ else ⟨d.txtRecords.set key rest⟩

/-- Whether the server itself holds the record. -/
def Holds (d : DnsServer) (key value : JsString) : Prop :=
  value ∈ (d.txtRecords.get key).getD .empty

instance (d : DnsServer) (key value : JsString) : Decidable (d.Holds key value) :=
  inferInstanceAs (Decidable (_ ∈ _))

theorem holds_addTxtRecord {d : DnsServer} {key value fqdn v : JsString} :
    (d.addTxtRecord key value).Holds fqdn v ↔ d.Holds fqdn v ∨ (fqdn, v) = (key, value) := by
  simp only [Holds, addTxtRecord, InsertionMap.get_set, Prod.mk.injEq]
  split_ifs with hfqdn
  · simp [hfqdn]
  · simp [hfqdn]

theorem holds_deleteTxtRecord {d : DnsServer} {key value fqdn v : JsString} :
    (d.deleteTxtRecord key value).Holds fqdn v ↔ d.Holds fqdn v ∧ (fqdn, v) ≠ (key, value) := by
  simp only [deleteTxtRecord, ne_eq, Prod.mk.injEq]
  split
  · next hnone =>
      refine ⟨fun h => ⟨h, ?_⟩, fun h => h.1⟩
      rintro ⟨rfl, rfl⟩
      simp [Holds, hnone] at h
  · next values hsome =>
      by_cases hfqdn : fqdn = key
      · -- An emptied set is taken out of the map, and holds nothing either way.
        subst hfqdn
        split_ifs with hempty
        · have hnone := InsertionSet.size_eq_zero_iff.mp hempty v
          simpa [Holds, hsome] using hnone
        · simp [Holds, hsome]
      · split_ifs
        · simp [Holds, hfqdn, InsertionMap.get_delete]
        · simp [Holds, hfqdn, InsertionMap.get_set]

end DnsServer

/-- The TXT answers that `handleQuery` gives once it has its values. -/
def txtAnswers (question : Question) (values : Option (InsertionSet JsString)) : List JsString :=
  if question.type = js "TXT" then (values.getD .empty).elements else []

/-- The values that the store's answer leaves, a read that failed giving none. -/
def sharedValues (shared : Option (List JsString)) : Option (InsertionSet JsString) :=
  match shared with
  | some (value :: values) => some (.ofList (value :: values))
  | _ => none

inductive StoreOperation where
  | set
  | remove
deriving DecidableEq

/-- A call of `setTxtRecord` or `removeTxtRecord` that waits for the store. -/
structure RecordCall where
  operation : StoreOperation
  key : JsString
  value : JsString
  /-- Whether the store has performed the operation. -/
  performed : Bool
deriving DecidableEq

/-- Where a query that fell back to the store stands. -/
inductive QueryPhase where
  | reading
  /-- The read has settled; one that failed gives no values. -/
  | settled (shared : Option (List JsString))
deriving DecidableEq

structure PendingQuery where
  question : Question
  phase : QueryPhase
deriving DecidableEq

/-- A response, with the number of its query. -/
structure Response where
  query : Nat
  question : Question
  answers : List JsString
deriving DecidableEq

structure Fleet (σ : Type) where
  machines : Nat → DnsServer
  store : σ
  calls : InsertionMap Nat RecordCall
  queries : InsertionMap Nat PendingQuery
  responses : List Response
  nextId : Nat

namespace Fleet

inductive Event where
  | setTxtRecord (machine : Nat) (fqdn value : JsString)
  | removeTxtRecord (machine : Nat) (fqdn value : JsString)
  | storePerforms (call : Nat)
  | callResolves (call : Nat)
  | callRejects (call : Nat)
  | handleQuery (machine : Nat) (question : Option Question)
  | storeReads (query : Nat)
  | storeReadFails (query : Nat)
  | queryResumes (query : Nat)
deriving DecidableEq

variable {σ : Type}

/-- Freshly started servers over any content of the store. -/
def initial (store : σ) : Fleet σ where
  machines := fun _ => .new
  store := store
  calls := .empty
  queries := .empty
  responses := []
  nextId := 0

def setMachine (s : Fleet σ) (machine : Nat) (d : DnsServer) : Fleet σ :=
  { s with machines := fun m => if m = machine then d else s.machines m }

/-- Leave a call waiting for the store. -/
def startCall (s : Fleet σ) (operation : StoreOperation) (key value : JsString) : Fleet σ :=
  { s with
    calls := s.calls.set s.nextId ⟨operation, key, value, false⟩
    nextId := s.nextId + 1 }

variable (toLowerCase : JsString → JsString)

def setTxtRecord (s : Fleet σ) (machine : Nat) (fqdn value : JsString) : Fleet σ :=
  let key := toLowerCase fqdn
  (s.setMachine machine ((s.machines machine).addTxtRecord key value)).startCall .set key value

def removeTxtRecord (s : Fleet σ) (machine : Nat) (fqdn value : JsString) : Fleet σ :=
  let key := toLowerCase fqdn
  (s.setMachine machine ((s.machines machine).deleteTxtRecord key value)).startCall
    .remove key value

/-- Whether `handleQuery` asks the store: a TXT query for a challenge name with no local value. -/
def asksStore (question : Question) (name : JsString)
    (values : Option (InsertionSet JsString)) : Bool :=
  decide (question.type = js "TXT") && decide ((values.getD .empty).size = 0) &&
    startsWith name acmeChallengePrefix

def handleQuery (s : Fleet σ) (machine : Nat) (question : Question) : Fleet σ :=
  let name := toLowerCase question.name
  let values := (s.machines machine).txtRecords.get name
  if asksStore question name values then
    { s with
      queries := s.queries.set s.nextId ⟨question, .reading⟩
      nextId := s.nextId + 1 }
  else
    { s with
      responses := s.responses ++ [⟨s.nextId, question, txtAnswers question values⟩]
      nextId := s.nextId + 1 }

variable (challengeStore : ChallengeStore σ)

def step (s : Fleet σ) : Event → Option (Fleet σ)
  | .setTxtRecord machine fqdn value => some (s.setTxtRecord toLowerCase machine fqdn value)
  | .removeTxtRecord machine fqdn value =>
      some (s.removeTxtRecord toLowerCase machine fqdn value)
  | .storePerforms id => do
      let call ← s.calls.get id
      if call.performed then none
      else
        let store := match call.operation with
          | .set => challengeStore.set s.store call.key call.value
          | .remove => challengeStore.remove s.store call.key call.value
        some { s with store := store, calls := s.calls.set id { call with performed := true } }
  | .callResolves id => do
      let call ← s.calls.get id
      if call.performed then some { s with calls := s.calls.delete id } else none
  | .callRejects id => do
      let _ ← s.calls.get id
      some { s with calls := s.calls.delete id }
  | .handleQuery machine (some question) => some (s.handleQuery toLowerCase machine question)
  | .handleQuery _ none => some s
  | .storeReads id => do
      let query ← s.queries.get id
      match query.phase with
      | .reading =>
          let shared := challengeStore.get s.store (toLowerCase query.question.name)
          some { s with queries := s.queries.set id { query with phase := .settled (some shared) } }
      | .settled _ => none
  | .storeReadFails id => do
      let query ← s.queries.get id
      match query.phase with
      | .reading =>
          some { s with queries := s.queries.set id { query with phase := .settled none } }
      | .settled _ => none
  | .queryResumes id => do
      let query ← s.queries.get id
      match query.phase with
      | .settled shared =>
          some { s with
            queries := s.queries.delete id
            responses := s.responses ++
              [⟨id, query.question, txtAnswers query.question (sharedValues shared)⟩] }
      | .reading => none

end Fleet

end TestServer
