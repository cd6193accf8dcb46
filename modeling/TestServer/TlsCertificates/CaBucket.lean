import TestServer.TlsCertificates.CaConvergence
import TestServer.TlsCertificates.StoreStartup

/-!
# Authorities in a shared bucket

The servers of a fleet load both of their authorities from one bucket, in which they also keep
leaf certificates and pending challenges. What happens under the key of one authority is a run of
the servers that load it, so that they converge whatever is done under the other keys.
-/

namespace TestServer.TlsCertificates

open Js Library Library.Runs

structure CaBucket (x : X509) where
  objects : S3Objects
  phase : Nat → LoadPhase x

namespace CaBucket

variable {x : X509}

inductive Event (x : X509) where
  /-- A step of `loadOrCreatePersistedCA`. -/
  | call (e : CaFleet.Event x)
  | write (cert : CachedCertificate)
  | delete (cacheKey : JsString)
  /-- An object that is not the store's is written or deleted. -/
  | outside (key : JsString) (body : Option JsString)

def initial (objects : S3Objects) : CaBucket x := ⟨objects, fun _ => .reading⟩

def setPhase (s : CaBucket x) (server : Nat) (phase : LoadPhase x) : CaBucket x :=
  { s with phase := Function.update s.phase server phase }

/-- The end of a call that has written its authority, or has found another one. -/
def afterPut (generated : CaMaterial x) : Except JsString Bool → LoadPhase x
  | .ok true => .returned generated
  | .ok false => .rereading generated
  | .error message => .rejected message

section

variable (store : S3CertStore) (root : RootCA x) (managed : Nat → ManagedCA)

/-- The key that the call of a server is for. -/
def keyOf (server : Nat) : JsString := root.cacheKey (managed server)

def stepCall (s : CaBucket x) : CaFleet.Event x → Option (CaBucket x)
  | .read i now =>
      match s.phase i with
      | .reading =>
          some (s.setPhase i
            (CaFleet.afterRead x (store.read s.objects (keyOf root managed i)) now))
      | _ => none
  | .create i generated =>
      match s.phase i with
      | .creating replace => some (s.setPhase i (.writing replace generated))
      | _ => none
  | .write i =>
      match s.phase i with
      | .writing replace generated =>
          let (written, objects) :=
            store.put s.objects (CaFleet.record root (managed i) generated) (!replace)
          some { s.setPhase i (afterPut generated written) with objects := objects }
      | _ => none
  | .reread i now =>
      match s.phase i with
      | .rereading generated =>
          some (s.setPhase i
            (CaFleet.afterReread (store.read s.objects (keyOf root managed i)) generated now))
      | _ => none

def step (s : CaBucket x) : Event x → Option (CaBucket x)
  | .call e => s.stepCall store root managed e
  | .write cert => some { s with objects := (store.put s.objects cert false).2 }
  | .delete cacheKey => some { s with objects := store.delete s.objects cacheKey }
  | .outside key body =>
      if startsWith key store.bucketPrefix then none
      else some { s with objects := body.elim (s.objects.delete key) (s.objects.set key) }

/-- The servers that load an authority, and the text that is stored for it. -/
def view (authority : ManagedCA) (s : CaBucket x) : CaFleet x where
  raw := s.objects.get (store.objectKey (root.cacheKey authority))
  phase i := if managed i = authority then s.phase i else .reading

/-- The steps of these servers. -/
def project (authority : ManagedCA) : Event x → Option (CaFleet.Event x)
  | .call e => if managed e.server = authority then some e else none
  | _ => none

/-- An event under other keys than those of the authorities. -/
def Apart : Event x → Prop
  | .write cert => ∀ authority,
      store.certObjectId cert.cacheKey ≠ store.certObjectId (root.cacheKey authority)
  | .delete cacheKey => ∀ authority,
      store.certObjectId cacheKey ≠ store.certObjectId (root.cacheKey authority)
  | _ => True

end

variable {store : S3CertStore} {root : RootCA x} {managed : Nat → ManagedCA} {s t : CaBucket x}
  {authority : ManagedCA}

theorem objectKey_ne {cacheKey other : JsString}
    (h : store.certObjectId cacheKey ≠ store.certObjectId other) :
    store.objectKey other ≠ store.objectKey cacheKey := by
  intro heq
  simp only [S3CertStore.objectKey, List.append_assoc, List.append_cancel_left_eq,
    List.append_cancel_right_eq] at heq
  exact h heq.symm

theorem get_put_of_ne {objects : S3Objects} {cert : CachedCertificate} {onlyIfAbsent : Bool}
    {cacheKey : JsString} (h : store.certObjectId cert.cacheKey ≠ store.certObjectId cacheKey) :
    (store.put objects cert onlyIfAbsent).2.get (store.objectKey cacheKey) =
      objects.get (store.objectKey cacheKey) := by
  rw [S3CertStore.put, putObject]
  split
  case h_1 written hput =>
      split at hput <;> cases hput
      exact InsertionMap.get_set_of_ne _ _ (objectKey_ne h)
  case h_2 => rfl

/-- Another object is no part of the view. -/
theorem view_of_get_eq {objects : S3Objects}
    (h : objects.get (store.objectKey (root.cacheKey authority)) =
      s.objects.get (store.objectKey (root.cacheKey authority))) :
    view store root managed authority { s with objects := objects } =
      view store root managed authority s := by
  rw [view, view, h]

/-- A step of a server that loads the authority. -/
theorem view_of_managed {i : Nat} (hi : managed i = authority) (phase : LoadPhase x)
    (objects : S3Objects) :
    view store root managed authority { s.setPhase i phase with objects := objects } =
      { (view store root managed authority s).setPhase i phase with
        raw := objects.get (store.objectKey (root.cacheKey authority)) } := by
  simp only [view, CaFleet.setPhase, CaFleet.mk.injEq, true_and]
  funext j
  by_cases hj : j = i
  · subst hj
    simp [setPhase, hi]
  · simp [setPhase, hj]

/-- A step of a server that loads the other one. -/
theorem view_setPhase_of_ne {i : Nat} (hi : managed i ≠ authority) (phase : LoadPhase x) :
    view store root managed authority (s.setPhase i phase) =
      view store root managed authority s := by
  rw [view, view]
  congr 1
  funext j
  by_cases hj : j = i
  · subst hj
    rw [if_neg hi, if_neg hi]
  · simp only [setPhase, Function.update_of_ne hj]

theorem phase_view {i : Nat} (hi : managed i = authority) :
    (view store root managed authority s).phase i = s.phase i := if_pos hi

/-- A read of a call is the read of the text that the view has. -/
theorem read_view {i : Nat} (hi : managed i = authority) :
    store.read s.objects (keyOf root managed i) =
      CertStoreBackend.s3.read (view store root managed authority s).raw := by
  rw [S3CertStore.read_eq, keyOf, hi]
  rfl

theorem stepCall_managed {e : CaFleet.Event x} (he : managed e.server = authority)
    (hstep : s.stepCall store root managed e = some t) :
    CaFleet.step .s3 root authority (view store root managed authority s) e =
      some (view store root managed authority t) := by
  cases e with
  | read i now =>
      simp only [stepCall] at hstep
      split at hstep
      case h_2 => cases hstep
      case h_1 hphase =>
          obtain rfl : managed i = authority := he
          cases hstep
          simp only [CaFleet.step, phase_view, hphase]
          rw [read_view rfl]
          exact congrArg some (view_of_managed rfl _ s.objects).symm
  | create i generated =>
      simp only [stepCall] at hstep
      split at hstep
      case h_2 => cases hstep
      case h_1 replace hphase =>
          obtain rfl : managed i = authority := he
          cases hstep
          simp only [CaFleet.step, phase_view, hphase]
          exact congrArg some (view_of_managed rfl _ s.objects).symm
  | reread i now =>
      simp only [stepCall] at hstep
      split at hstep
      case h_2 => cases hstep
      case h_1 generated hphase =>
          obtain rfl : managed i = authority := he
          cases hstep
          simp only [CaFleet.step, phase_view, hphase]
          rw [read_view rfl]
          exact congrArg some (view_of_managed rfl _ s.objects).symm
  | write i =>
      simp only [stepCall] at hstep
      split at hstep
      case h_2 => cases hstep
      case h_1 replace generated hphase =>
          obtain rfl : managed i = authority := he
          cases hstep
          have hkey : (CaFleet.record root (managed i) generated).cacheKey =
              root.cacheKey (managed i) := rfl
          cases replace with
          | true =>
              simp only [CaFleet.step, phase_view, hphase, Bool.not_true, S3CertStore.put_always]
              rw [view_of_managed rfl, hkey, InsertionMap.get_set_self]
              rfl
          | false =>
              simp only [CaFleet.step, phase_view, hphase, Bool.not_false]
              cases hget : s.objects.get (store.objectKey (root.cacheKey (managed i))) with
              | none =>
                  rw [S3CertStore.put_absent store hget, view_of_managed rfl, hkey,
                    InsertionMap.get_set_self]
                  simp only [view, hget]
                  rfl
              | some body =>
                  rw [S3CertStore.put_present store hget, view_of_managed rfl, hget]
                  simp only [view, hget]
                  rfl

/-- Keys of other authorities are other keys. -/
theorem stepCall_other {e : CaFleet.Event x} (he : managed e.server ≠ authority)
    (hids : store.certObjectId (root.cacheKey (managed e.server)) ≠
      store.certObjectId (root.cacheKey authority))
    (hstep : s.stepCall store root managed e = some t) :
    view store root managed authority t = view store root managed authority s := by
  cases e with
  | read i now =>
      simp only [stepCall] at hstep
      split at hstep <;> cases hstep
      exact view_setPhase_of_ne he _
  | create i generated =>
      simp only [stepCall] at hstep
      split at hstep <;> cases hstep
      exact view_setPhase_of_ne he _
  | reread i now =>
      simp only [stepCall] at hstep
      split at hstep <;> cases hstep
      exact view_setPhase_of_ne he _
  | write i =>
      simp only [stepCall] at hstep
      split at hstep
      case h_2 => cases hstep
      case h_1 replace generated hphase =>
          cases hstep
          have hi : managed i ≠ authority := he
          refine Eq.trans ?_ (view_setPhase_of_ne hi (afterPut generated
            (store.put s.objects (CaFleet.record root (managed i) generated) (!replace)).1))
          apply view_of_get_eq
          exact get_put_of_ne hids

/-- Any step is one of the servers that load the authority, or leaves its view as it is. -/
theorem step_view {e : Event x}
    (hids : ∀ authority authority' : ManagedCA, authority ≠ authority' →
      store.certObjectId (root.cacheKey authority) ≠ store.certObjectId (root.cacheKey authority'))
    (hapart : Apart store root e) (hstep : step store root managed s e = some t) :
    (project managed authority e).elim
      (view store root managed authority t = view store root managed authority s)
      fun d => CaFleet.step .s3 root authority (view store root managed authority s) d =
        some (view store root managed authority t) := by
  cases e with
  | call e =>
      by_cases he : managed e.server = authority
      · rw [project, if_pos he]
        exact stepCall_managed he hstep
      · rw [project, if_neg he]
        exact stepCall_other he (hids _ _ he) hstep
  | write cert =>
      cases hstep
      exact view_of_get_eq (get_put_of_ne (hapart authority))
  | delete cacheKey =>
      cases hstep
      exact view_of_get_eq
        (InsertionMap.get_delete_of_ne _ (objectKey_ne (hapart authority)))
  | outside key body =>
      simp only [step] at hstep
      split at hstep
      case isTrue hkey => cases hstep
      case isFalse hkey =>
          cases hstep
          have hne : store.objectKey (root.cacheKey authority) ≠ key := by
            rintro rfl
            exact hkey (S3CertStore.startsWith_objectKey store _)
          cases body with
          | none => exact view_of_get_eq (InsertionMap.get_delete_of_ne _ hne)
          | some body => exact view_of_get_eq (InsertionMap.get_set_of_ne _ _ hne)

/-- A run in the bucket is a run of the servers that load an authority. -/
theorem run_fleet {objects : S3Objects} {es : List (Event x)}
    (hids : ∀ authority authority' : ManagedCA, authority ≠ authority' →
      store.certObjectId (root.cacheKey authority) ≠ store.certObjectId (root.cacheKey authority'))
    (hapart : ∀ e ∈ es, Apart store root e)
    (hrun : run (step store root managed) (initial objects) es = some s) (authority : ManagedCA) :
    run (CaFleet.step .s3 root authority)
        (CaFleet.initial (objects.get (store.objectKey (root.cacheKey authority))))
        (es.filterMap (project managed authority)) =
      some (view store root managed authority s) := by
  have hinitial : view store root managed authority (initial objects) =
      CaFleet.initial (objects.get (store.objectKey (root.cacheKey authority))) := by
    simp only [view, initial, CaFleet.initial, ite_self]
  rw [← hinitial]
  exact run_view (fun _ _ _ => step_view hids) hapart hrun

/-- A challenge is published while two servers create an authority each. -/
def overlappingCalls : List (Event X509.plain) :=
  .outside (js "acme-challenges/1.json") (some (js "{}")) :: CaFleet.overlapping.map .call

end CaBucket

end TestServer.TlsCertificates
