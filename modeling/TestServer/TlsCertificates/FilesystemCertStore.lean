import TestServer.Js.Utf8Text
import TestServer.Library.Runs
import TestServer.TlsCertificates.CertStore

/-!
# Certificates in files

`src/tls-certificates/fs-cert-store.ts` on the file of one key, for any number of processes. A
file is written in two steps: it is opened, which creates it or cuts it off, and then its content
is written from its start on. A read between the two finds no record. Where each read finds a
file whose content is written, over no longer one, it gives a record that was written, and there
is one since a write was refused.

## Implementation notes

The directory of the file is there. A file that is unlinked stays for those that have opened it.
The calls of all processes are told apart by numbers.
-/

namespace TestServer.TlsCertificates.FilesystemCertStore

open Js Library.Runs

/-- The octets of a file of its own number, wherever it is linked. -/
abbrev Files := Nat → List UInt8

/-- Where the call of a process is. -/
inductive Call where
  /-- The file is open, and the content has yet to be written. -/
  | opened (file : Nat) (cert : CachedCertificate)
  /-- `put` has returned. -/
  | stored (written : Bool)
  | read (result : Except JsString (Option StoredCertificate))
  | deleted

structure Directory where
  /-- The file under the path of the key. -/
  linked : Option Nat
  files : Files
  /-- All files have a lower number. -/
  nextFile : Nat
  calls : Nat → Option Call

inductive Event where
  /-- `fs.writeFile` opens the file. -/
  | open (call : Nat) (cert : CachedCertificate) (onlyIfAbsent : Bool)
  /-- `fs.writeFile` writes the content. -/
  | fill (call : Nat)
  /-- `fs.unlink` -/
  | unlink (call : Nat)
  /-- `fs.readFile` -/
  | readFile (call : Nat)

def certData (cert : CachedCertificate) : List UInt8 := encodeUtf8 (stringifyCertificate cert)

/-- Write some octets over the first ones. -/
def overwrite (content data : List UInt8) : List UInt8 := data ++ content.drop data.length

namespace Directory

def empty : Directory := ⟨none, fun _ => [], 0, fun _ => none⟩

def setCall (d : Directory) (call : Nat) (c : Call) : Directory :=
  { d with calls := Function.update d.calls call (some c) }

def setFile (d : Directory) (file : Nat) (content : List UInt8) : Directory :=
  { d with files := Function.update d.files file content }

/-- The file as it is opened: a new one, or the present one cut off. -/
def opened (d : Directory) : Nat × Directory :=
  match d.linked with
  | some file => (file, d.setFile file [])
  | none => (d.nextFile, { d.setFile d.nextFile [] with
      linked := some d.nextFile, nextFile := d.nextFile + 1 })

/-- `read` -/
def read (d : Directory) : Except JsString (Option StoredCertificate) :=
  CertStoreBackend.filesystem.read (d.linked.map fun file => decodeUtf8 (d.files file))

/-- One step of a call. A call starts with its first one. -/
def step (d : Directory) : Event → Option Directory
  | .open call cert onlyIfAbsent =>
      if d.calls call ≠ none then none
      else if onlyIfAbsent && d.linked.isSome then some (d.setCall call (.stored false))
      else some (d.opened.2.setCall call (.opened d.opened.1 cert))
  | .fill call =>
      match d.calls call with
      | some (.opened file cert) =>
          some ((d.setFile file (overwrite (d.files file) (certData cert))).setCall call
            (.stored true))
      | _ => none
  | .unlink call =>
      if d.calls call ≠ none then none
      else some ({ d with linked := none }.setCall call .deleted)
  | .readFile call =>
      if d.calls call ≠ none then none else some (d.setCall call (.read d.read))

end Directory

/-- What is known when a call reads: the records that were passed to a write by then and not
refused, and whether a write that was only for an absent file was refused since the last
deletion. -/
structure Observed where
  directory : Directory
  passed : List CachedCertificate
  refused : Bool
  reads : List (Except JsString (Option StoredCertificate) × List CachedCertificate × Bool)

namespace Observed

def start : Observed := ⟨.empty, [], false, []⟩

def step (o : Observed) (e : Event) : Option Observed :=
  (o.directory.step e).map fun directory =>
    match e with
    | .open _ cert onlyIfAbsent =>
        if onlyIfAbsent && o.directory.linked.isSome then
          { o with directory := directory, refused := true }
        else { o with directory := directory, passed := cert :: o.passed }
    | .fill _ => { o with directory := directory }
    | .unlink _ => { o with directory := directory, refused := false }
    | .readFile _ =>
        { o with
          directory := directory
          reads := (o.directory.read, o.passed, o.refused) :: o.reads }

end Observed

/-- The result is that there is no file, which a process that was refused is not told, or a whole
record that was passed to a write that was not refused. -/
def WholeRecord (result : Except JsString (Option StoredCertificate))
    (passed : List CachedCertificate) (refused : Bool) : Prop :=
  (refused = false ∧ result = .ok none) ∨ ∃ cert ∈ passed, result = .ok (some cert.stored)

/-- All reads so far are as those of an atomic store. -/
def ReadsAtomically (o : Observed) : Prop :=
  ∀ read ∈ o.reads, WholeRecord read.1 read.2.1 read.2.2

/-- All records that are passed have their members. -/
def Passes : Event → Prop
  | .open _ cert _ => cert.Complete
  | _ => True

/-- Content is written over no longer content, and no file is read that is open without any. -/
def writesWhole (o : Observed) : Event → Bool
  | .fill call =>
      match o.directory.calls call with
      | some (.opened file cert) =>
          decide ((o.directory.files file).length ≤ (certData cert).length)
      | _ => true
  | .readFile _ => o.directory.linked.all fun file => decide (o.directory.files file ≠ [])
  | _ => true

section

variable {d : Directory} {call other file : Nat}

@[simp] theorem setCall_calls_self (c : Call) : (d.setCall call c).calls call = some c :=
  Function.update_self ..

theorem setCall_calls_of_ne (c : Call) (h : other ≠ call) :
    (d.setCall call c).calls other = d.calls other := Function.update_of_ne h ..

@[simp] theorem setFile_files_self (content : List UInt8) :
    (d.setFile file content).files file = content := Function.update_self ..

theorem setFile_files_of_ne (content : List UInt8) (h : other ≠ file) :
    (d.setFile file content).files other = d.files other := Function.update_of_ne h ..

end

theorem overwrite_of_length_le {content data : List UInt8} (h : content.length ≤ data.length) :
    overwrite content data = data := by
  rw [overwrite, List.drop_eq_nil_of_le h, List.append_nil]

/-- What is written for a record is read as the record. -/
theorem read_certData {cert : CachedCertificate} (h : cert.Complete) :
    CertStoreBackend.filesystem.read (some (decodeUtf8 (certData cert))) =
      .ok (some cert.stored) := by
  rw [certData, stringifyCertificate, decodeUtf8_encodeUtf8 (isWellFormed_stringifyObject _)]
  exact read_stringifyCertificate .filesystem (parse_stringifyCertificate h)

/-- Each file is empty or has one of the records. -/
structure HoldsRecords (d : Directory) (passed : List CachedCertificate) : Prop where
  complete : ∀ cert ∈ passed, cert.Complete
  whole : ∀ file, d.files file = [] ∨ ∃ cert ∈ passed, d.files file = certData cert
  opened : ∀ call file cert, d.calls call = some (.opened file cert) → cert ∈ passed

structure Invariant (o : Observed) : Prop where
  holds : HoldsRecords o.directory o.passed
  linked : o.refused = true → o.directory.linked.isSome = true
  reads : ReadsAtomically o

section

variable {d : Directory} {passed more : List CachedCertificate} {o : Observed} {call : Nat}

theorem HoldsRecords.mono (h : HoldsRecords d passed) (hsub : passed ⊆ more)
    (hcomplete : ∀ cert ∈ more, cert.Complete) : HoldsRecords d more := by
  refine ⟨hcomplete, fun file => ?_,
    fun call file cert hcall => hsub (h.opened call file cert hcall)⟩
  rcases h.whole file with hempty | ⟨cert, hcert, hdata⟩
  · exact Or.inl hempty
  · exact Or.inr ⟨cert, hsub hcert, hdata⟩

/-- A call that is put elsewhere. -/
theorem HoldsRecords.setCall (h : HoldsRecords d passed) {c : Call}
    (hc : ∀ file cert, c = .opened file cert → cert ∈ passed) :
    HoldsRecords (d.setCall call c) passed := by
  refine ⟨h.complete, h.whole, fun other file cert hother => ?_⟩
  by_cases heq : other = call
  · rw [heq, setCall_calls_self] at hother
    exact hc file cert (Option.some.inj hother)
  · rw [setCall_calls_of_ne c heq] at hother
    exact h.opened other file cert hother

theorem HoldsRecords.setFile (h : HoldsRecords d passed) (file : Nat) {content : List UInt8}
    (hcontent : content = [] ∨ ∃ cert ∈ passed, content = certData cert) :
    HoldsRecords (d.setFile file content) passed := by
  refine ⟨h.complete, fun other => ?_, h.opened⟩
  by_cases heq : other = file
  · rw [heq, setFile_files_self]
    exact hcontent
  · rw [setFile_files_of_ne content heq]
    exact h.whole other

/-- Opening a file leaves it empty. -/
theorem HoldsRecords.opens (h : HoldsRecords d passed) : HoldsRecords d.opened.2 passed := by
  rw [Directory.opened]
  cases d.linked with
  | some file => exact h.setFile file (.inl rfl)
  | none =>
      have hfile := h.setFile d.nextFile (.inl rfl)
      exact ⟨hfile.complete, hfile.whole, hfile.opened⟩

theorem isSome_linked_opened (d : Directory) : d.opened.2.linked.isSome = true := by
  rw [Directory.opened]
  cases hlinked : d.linked with
  | some file => exact congrArg Option.isSome hlinked
  | none => rfl

/-- A file that has content is read as one of the records. -/
theorem wholeRecord_read {refused : Bool} (h : HoldsRecords d passed)
    (hrefused : refused = true → d.linked.isSome = true)
    (hfilled : d.linked.all (fun file => decide (d.files file ≠ [])) = true) :
    WholeRecord d.read passed refused := by
  cases hlinked : d.linked with
  | none =>
      refine Or.inl ⟨?_, by rw [Directory.read, hlinked]; rfl⟩
      apply Bool.eq_false_iff.mpr
      intro hwas
      have hsome := hrefused hwas
      rw [hlinked] at hsome
      cases hsome
  | some file =>
      rw [hlinked] at hfilled
      rcases h.whole file with hempty | ⟨cert, hcert, hdata⟩
      · exact absurd hempty (of_decide_eq_true hfilled)
      · refine Or.inr ⟨cert, hcert, ?_⟩
        rw [Directory.read, hlinked, Option.map_some, hdata]
        exact read_certData (h.complete cert hcert)

theorem Invariant.open {cert : CachedCertificate} {onlyIfAbsent : Bool} {o' : Observed}
    (h : Invariant o) (hcert : cert.Complete)
    (hstep : o.step (.open call cert onlyIfAbsent) = some o') : Invariant o' := by
  obtain ⟨d, hd, rfl⟩ := Option.map_eq_some_iff.mp hstep
  simp only [Directory.step] at hd
  split_ifs at hd with hused hlost
  · cases hd
    dsimp only
    rw [if_pos hlost]
    refine ⟨h.holds.setCall (fun _ _ hc => nomatch hc), fun _ => ?_, h.reads⟩
    exact (Bool.and_eq_true_iff.mp hlost).2
  · cases hd
    have hmore : HoldsRecords o.directory (cert :: o.passed) := by
      apply h.holds.mono (List.subset_cons_self cert o.passed)
      exact List.forall_mem_cons.mpr ⟨hcert, h.holds.complete⟩
    dsimp only
    rw [if_neg hlost]
    refine ⟨hmore.opens.setCall ?_, fun _ => isSome_linked_opened o.directory, h.reads⟩
    intro file other hc
    cases hc
    exact List.mem_cons_self

theorem Invariant.fill {o' : Observed} (h : Invariant o)
    (hwhole : writesWhole o (.fill call) = true) (hstep : o.step (.fill call) = some o') :
    Invariant o' := by
  obtain ⟨d, hd, rfl⟩ := Option.map_eq_some_iff.mp hstep
  simp only [Directory.step] at hd
  split at hd
  · next file cert hcall =>
      cases hd
      simp only [writesWhole, hcall] at hwhole
      have hcert := h.holds.opened call file cert hcall
      have hfile := h.holds.setFile file
        (.inr ⟨cert, hcert, overwrite_of_length_le (of_decide_eq_true hwhole)⟩)
      exact ⟨hfile.setCall (fun _ _ hc => nomatch hc), h.linked, h.reads⟩
  · cases hd

theorem Invariant.unlink {o' : Observed} (h : Invariant o)
    (hstep : o.step (.unlink call) = some o') : Invariant o' := by
  obtain ⟨d, hd, rfl⟩ := Option.map_eq_some_iff.mp hstep
  simp only [Directory.step] at hd
  split_ifs at hd
  cases hd
  have hunlinked : HoldsRecords { o.directory with linked := none } o.passed :=
    ⟨h.holds.complete, h.holds.whole, h.holds.opened⟩
  exact ⟨hunlinked.setCall (fun _ _ hc => nomatch hc), fun hrefused => (nomatch hrefused), h.reads⟩

theorem Invariant.readFile {o' : Observed} (h : Invariant o)
    (hwhole : writesWhole o (.readFile call) = true)
    (hstep : o.step (.readFile call) = some o') : Invariant o' := by
  obtain ⟨d, hd, rfl⟩ := Option.map_eq_some_iff.mp hstep
  simp only [Directory.step] at hd
  split_ifs at hd
  cases hd
  refine ⟨h.holds.setCall (fun _ _ hc => nomatch hc), h.linked, ?_⟩
  exact List.forall_mem_cons.mpr ⟨wholeRecord_read h.holds h.linked hwhole, h.reads⟩

/-- What each step keeps. -/
theorem Invariant.step {e : Event} {o' : Observed} (h : Invariant o) (hpasses : Passes e)
    (hwhole : writesWhole o e = true) (hstep : o.step e = some o') : Invariant o' := by
  cases e with
  | «open» call cert onlyIfAbsent => exact h.open hpasses hstep
  | fill call => exact h.fill hwhole hstep
  | unlink call => exact h.unlink hstep
  | readFile call => exact h.readFile hwhole hstep

end

theorem invariant_start : Invariant .start :=
  ⟨⟨List.forall_mem_nil _, fun _ => .inl rfl, fun _ _ _ hcall => nomatch hcall⟩,
    fun hrefused => (nomatch hrefused), List.forall_mem_nil _⟩

/-- In a run whose steps write and read whole content, the store reads as an atomic one. -/
theorem readsAtomically_of_run {events : List Event} {o : Observed}
    (hpasses : ∀ e ∈ events, Passes e)
    (hwhole : Guarded Observed.step (fun o e => writesWhole o e = true) .start events)
    (hrun : run Observed.step .start events = some o) : ReadsAtomically o := by
  apply Invariant.reads
  have hguard := hwhole.and (guarded_of_forall_mem hpasses _)
  exact guarded_invariant (fun _ _ _ hinv hok hstep => hinv.step hok.2 hok.1 hstep)
    invariant_start hguard hrun

def sampleCert : CachedCertificate where
  cacheKey := js "ca"
  domain := js "CA"
  key := js "KEY"
  cert := js "CERT"
  expiry := 4102444800000

/-- The record of another process. -/
def otherCert : CachedCertificate := { sampleCert with key := js "KEY2", cert := js "CERT2" }

theorem complete_sampleCert : sampleCert.Complete := by
  constructor <;> decide

theorem complete_otherCert : otherCert.Complete := by
  constructor <;> decide

/-- A process that was refused reads the winner's record once it is written. -/
theorem readsAtomically_of_run_winner :
    ∃ o, run Observed.step .start
      [.open 0 sampleCert true, .open 1 otherCert true, .fill 0, .readFile 2] = some o ∧
      (o.reads.length = 1 ∧ o.passed = [sampleCert]) ∧ ReadsAtomically o := by
  have hread : (run Observed.step .start
      [.open 0 sampleCert true, .open 1 otherCert true, .fill 0, .readFile 2]).any
        (fun o => decide (o.reads.length = 1 ∧ o.passed = [sampleCert])) = true := by
    decide +kernel
  obtain ⟨o, ho, hwinner⟩ := (Option.any_eq_true _ _).mp hread
  refine ⟨o, ho, of_decide_eq_true hwinner, ?_⟩
  apply readsAtomically_of_run _ (by decide +kernel) ho
  simp only [List.forall_mem_cons, Passes, complete_sampleCert, complete_otherCert, true_and]
  exact List.forall_mem_nil _

/-- A process that was refused reads before the content is written. -/
theorem not_readsAtomically_empty :
    ¬ ∀ events o, (∀ e ∈ events, Passes e) → run Observed.step .start events = some o →
      ReadsAtomically o := by
  intro hall
  have hread : (run Observed.step .start
      [.open 0 sampleCert true, .open 1 sampleCert true, .readFile 2]).any
        (fun o => o.reads.any fun read =>
          match read.1 with
          | .error _ => true
          | .ok _ => false) = true := by
    decide +kernel
  obtain ⟨o, ho, hany⟩ := (Option.any_eq_true _ _).mp hread
  obtain ⟨read, hmem, hthrown⟩ := List.any_eq_true.mp hany
  have hatomic : ReadsAtomically o := by
    apply hall _ o _ ho
    simp only [List.forall_mem_cons, Passes, complete_sampleCert, true_and]
    exact List.forall_mem_nil _
  rcases hatomic read hmem with ⟨-, hresult⟩ | ⟨cert, -, hresult⟩
  · rw [hresult] at hthrown
    cases hthrown
  · rw [hresult] at hthrown
    cases hthrown

end TestServer.TlsCertificates.FilesystemCertStore
