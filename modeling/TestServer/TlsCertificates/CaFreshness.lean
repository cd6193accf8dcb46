import TestServer.TlsCertificates.CaLoads

/-!
# How long an authority is used

An authority is checked against the renewal margin when it is loaded, and is kept from then on.
What is handed out is fresh as long as the clock has not come within the margin of the end that
the authority got at its load.
-/

namespace TestServer.TlsCertificates.LocalCAState

open Js Library.Runs

variable {x : X509}

/-- What the call hands out comes from an authority that lasts for more than the margin. -/
def HandsFresh (setup : LocalCASetup x) (s : LocalCAState x) (e : CallContext × LocalCACall) :
    Prop :=
  ∀ handed, (call setup s e.1 e.2).1 = .ok handed → ∀ issuer ∈ handed.issuer,
    renewalMargin < x.notAfter issuer - e.1.now

/-- The clock of the call is more than the margin before the end that the authority which it uses
got at its load. -/
def InTime (setup : LocalCASetup x) (so : LocalCAState x × SeenLoads)
    (e : CallContext × LocalCACall) : Prop :=
  ∀ managed, usedCA so.1 e.2 = some managed →
    loads setup (loadOf so.2 e.1 managed) = true →
      e.1.now + renewalMargin < loadEnd x setup.hasStore (loadOf so.2 e.1 managed) managed

variable {setup : LocalCASetup x} {so : LocalCAState x × SeenLoads}
  {e : CallContext × LocalCACall}

theorem handsFresh_iff (hx : x.Lawful) (h : KeptAsLoaded setup so) :
    HandsFresh setup so.1 e ↔ InTime setup so e := by
  have hmargin : ∀ t : Time, renewalMargin < t - e.1.now ↔ e.1.now + renewalMargin < t := by
    intro t
    rw [lt_sub_iff_add_lt, add_comm]
  simp only [HandsFresh, hmargin]
  exact h.forall_end_iff hx

/-- In a run everything that is handed out is fresh exactly when each call comes more than the
margin before the end of what the load of its authority has given. -/
theorem handsFresh_throughout_iff (hx : x.Lawful) (calls : List (CallContext × LocalCACall)) :
    Guarded (step setup) (HandsFresh setup) initial calls ↔
      Guarded (observedStep setup) (InTime setup) unobserved calls :=
  guarded_iff_observed (fun _ _ _ h hstep => h.step hstep) (fun _ _ h => handsFresh_iff hx h)
    keptAsLoaded_unobserved calls

/-- The intermediate is asked for twice in 1970. -/
def downloadsOfOneYear : List (CallContext × LocalCACall) :=
  [(⟨0, 0, .empty⟩, .getIntermediateCertificatePem),
    (⟨31449600000, 1, .empty⟩, .getIntermediateCertificatePem)]

theorem handsFresh_throughout_iff_oneYear :
    Guarded (step X509.plainSetup) (HandsFresh X509.plainSetup) initial downloadsOfOneYear := by
  apply (handsFresh_throughout_iff X509.plain_lawful downloadsOfOneYear).mpr
  refine ⟨?_, fun so hso => ⟨?_, fun _ _ => trivial⟩⟩
  · rintro _ ⟨⟩ _
    decide
  · cases hso
    rintro _ ⟨⟩ _
    decide

/-- The intermediate is asked for in 1970, and when the one of 1970 ends. -/
def twoDownloads : List (CallContext × LocalCACall) :=
  [(⟨0, 0, .empty⟩, .getIntermediateCertificatePem),
    (⟨189302400000, 1, .empty⟩, .getIntermediateCertificatePem)]

/-- An intermediate that has ended is still handed out. -/
theorem not_handsFresh_twoDownloads :
    ¬ Guarded (step X509.plainSetup) (HandsFresh X509.plainSetup) initial twoDownloads := by
  intro h
  have hfresh : renewalMargin < X509.plain.notAfter _ - 189302400000 :=
    (h.2 _ rfl).1 _ rfl _ rfl
  have hlate : ¬ (2592000000 : Int) < 189302400000 - 189302400000 := by decide
  exact hlate hfresh

end TestServer.TlsCertificates.LocalCAState
