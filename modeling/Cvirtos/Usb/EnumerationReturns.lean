import Cvirtos.Usb.EnumerationAddresses

/-!
# Runs of the tree walk that return

The recursion ends by itself.  What a run makes on its way need not: a driver's probe opens its
camera, warm-up capture included, and transfers and drivers may panic.

* `WalkEvent.Returns` — a transfer or a probe comes back on the bus as it finds it;
* `returned_rules` — the walk is stuck with the first that does not;
* `enumerateBus_ends_iff` — **a run ends exactly when everything it makes comes back**.
-/

set_option autoImplicit false

namespace Cvirtos.Usb

open Cvirtos.Lib

section

variable {σ α β : Type} (bus : Bus σ)

/-- The bus answers the request. -/
def Bus.Returns (ep : ControlEp) (req : Request) (b : σ) : Prop :=
  match req.readLen with
  | some n => (bus.read ep req n b).1 ≠ none
  | none => (bus.writeNoData ep req b).1 ≠ none

/-- The transfer or the probe comes back. -/
def WalkEvent.Returns : WalkEvent σ → Prop
  | .request ep req before _ _ => bus.Returns ep req before
  | .probed driver dev before => (bus.probe driver dev before).1 ≠ none
  | _ => True

/-- All transfers and probes have come back. -/
def Returned (s : St σ) : Prop := ∀ e ∈ s.log, e.Returns bus

/-- A part that is stuck is so with a transfer or a probe that does not come back. -/
def Left (e : Halt) (s : St σ) : Prop := e = .stuck ↔ ¬ Returned bus s

variable {bus}

theorem returned_concat {s s' : St σ} {e : WalkEvent σ} (hs : Returned bus s)
    (hlog : s'.log = s.log ++ [e]) : Returned bus s' ↔ e.Returns bus := by
  unfold Returned
  rw [hlog]
  refine ⟨fun h => h e (List.mem_append_right _ (List.mem_singleton_self e)), fun h x hx => ?_⟩
  rcases List.mem_append.mp hx with hx | hx
  · exact hs x hx
  · rw [List.mem_singleton.mp hx]
    exact h

theorem left_error (e : UsbError) (s : St σ) : Left bus (.error e) s ↔ Returned bus s := by
  refine ⟨fun h => ?_, fun h => ⟨fun he => (nomatch he), fun hnot => absurd h hnot⟩⟩
  by_contra hnot
  cases h.mpr hnot

theorem left_stuck (s : St σ) : Left bus .stuck s ↔ ¬ Returned bus s :=
  ⟨fun h => h.mp rfl, fun h => ⟨fun _ => h, fun _ => rfl⟩⟩

/-- A request either comes back or leaves the walk stuck. -/
theorem transfer_returned {ep : ControlEp} {req : Request} {answer : σ → Answer α × σ}
    (hreturns : ∀ b, bus.Returns ep req b ↔ (answer b).1 ≠ none) :
    Triple (Returned bus) (transfer ep req answer) (fun _ => Returned bus) (Left bus) := by
  have hafter : ∀ (s : St σ) (b : σ) (failed : Bool), Returned bus s →
      (Returned bus (s.after ep req b failed) ↔ (answer s.bus).1 ≠ none) :=
    fun s b failed hs =>
      (returned_concat (e := .request ep req s.bus b failed) hs rfl).trans (hreturns s.bus)
  refine triple_transfer (fun s a b hs ha => ?_) (fun s e b hs ha => ?_) fun s b hs ha => ?_
  · refine (hafter s b false hs).mpr ?_
    rw [ha]
    exact fun h => nomatch h
  · refine (left_error e _).mpr ((hafter s b true hs).mpr ?_)
    rw [ha]
    exact fun h => nomatch h
  · refine (left_stuck _).mpr fun h => (hafter s b true hs).mp h ?_
    rw [ha]

theorem read_returned (ep : ControlEp) {req : Request} {n : Nat} (hreq : req.readLen = some n) :
    Triple (Returned bus) (ep.read bus req n) (fun _ => Returned bus) (Left bus) := by
  refine transfer_returned fun b => ?_
  unfold Bus.Returns
  rw [hreq]

theorem writeNoData_returned (ep : ControlEp) {req : Request} (hreq : req.readLen = none) :
    Triple (Returned bus) (ep.writeNoData bus req) (fun _ => Returned bus) (Left bus) := by
  refine transfer_returned fun b => ?_
  unfold Bus.Returns
  rw [hreq]

theorem probe_returned (driver : DeviceDriver) (dev : UsbDevice) :
    Triple (Returned bus) (driver.probe bus dev) (fun _ => Returned bus) (Left bus) := by
  have hafter : ∀ (s : St σ) (b : σ), Returned bus s →
      (Returned bus (s.probed driver dev b) ↔ (bus.probe driver dev s.bus).1 ≠ none) :=
    fun s b hs => returned_concat (e := .probed driver dev s.bus) hs rfl
  refine triple_probe (fun s b hs ha => ?_) (fun s e b hs ha => ?_) fun s b hs ha => ?_
  · refine (hafter s b hs).mpr ?_
    rw [ha]
    exact fun h => nomatch h
  · refine (left_error e _).mpr ((hafter s b hs).mpr ?_)
    rw [ha]
    exact fun h => nomatch h
  · refine (left_stuck _).mpr fun h => (hafter s b hs).mp h ?_
    rw [ha]

theorem logEvent_returned {e : WalkEvent σ} (he : e.Returns bus) :
    Triple (Returned bus) (logEvent e) (fun _ => Returned bus) (Left bus) :=
  fun _ hs => (returned_concat hs rfl).mpr he

theorem returned_calm : Calm bus (Returned bus) (Left bus) where
  error := left_error
  access _ _ hs := hs
  read ep _ _ hreq := read_returned ep hreq
  writeNoData ep _ hreq _ := writeNoData_returned ep hreq
  dispatched s dev hs := logEvent_returned (e := .dispatched dev) trivial s hs
  probe := probe_returned

theorem enumerate_returned (speed : PortSpeed) :
    Triple (Returned bus) (UsbDevice.enumerate bus speed) (fun _ => Returned bus) (Left bus) := by
  have hcalm : Calm bus (Returned bus) (Left bus) := returned_calm
  have htake : Triple (Returned bus) takeAddr (fun _ => Returned bus) (Left bus) := by
    intro s hs
    rw [takeAddr_run]
    by_cases hfull : s.nextAddr ≥ MAX_USB_ADDR
    · rw [if_pos hfull]
      exact (left_error _ s).mpr hs
    · rw [if_neg hfull]
      exact hs
  unfold UsbDevice.enumerate
  refine triple_bind (quiet_probeDefaultAddr bus _ _ hcalm) fun id => ?_
  refine triple_bind htake fun addr => ?_
  refine triple_bind (Q := fun _ => Returned bus) ?_ fun ep => ?_
  · refine triple_ite (fun _ => quiet_fail bus _ _ _ hcalm) fun _ => ?_
    exact triple_bind (writeNoData_returned _ rfl) fun _ => triple_pure fun _ hs => hs
  refine triple_bind (writeNoData_returned _ rfl) fun _ => ?_
  refine triple_bind (quiet_tryOp (quiet_firstInterfaceClass bus ep) _ _ hcalm) fun class? => ?_
  exact triple_bind (logEvent_returned trivial) fun _ => triple_pure fun _ hs => hs

/-- A walk that is stuck is so with a transfer or a probe that does not come back. -/
def LeftOff (bus : Bus σ) (e : Stop) (s : St σ) : Prop := e = .halt .stuck ↔ ¬ Returned bus s

theorem returned_rules : WalkRules bus (fun _ => Returned bus) (fun _ => Left bus) (LeftOff bus) where
  calm _ := returned_calm
  mono _ _ hs := hs
  halt _ e s h := ⟨fun he => h.mp (by cases he; rfl), fun hnot => by rw [h.mpr hnot]⟩
  fuel _ hs := ⟨fun he => (nomatch he), fun hnot => absurd hs hnot⟩
  enumerate _ speed := enumerate_returned speed

/-- The run comes to an end, with a result or an error. -/
def Terminates (r : EStateM.Result Stop (St σ) Unit) : Prop :=
  (∀ s, r ≠ .error .fuel s) ∧ ∀ s, r ≠ .error (.halt .stuck) s

/-- What a run of `enumerate_bus` is to come to. -/
structure Ends (r : EStateM.Result Stop (St σ) Unit) : Prop extends Distinct r where
  ends : Terminates r

/-- **A run ends exactly when all its transfers and probes come back.** -/
theorem enumerateBus_ends_iff (bus : Bus σ) {fuel : Nat} (hfuel : 126 ≤ fuel) (b : σ) :
    Ends (enumerateBus bus fuel b) ↔ ∀ e ∈ (endState (enumerateBus bus fuel b)).log, e.Returns bus := by
  have hrules : WalkRules bus _ _ _ := returned_rules
  have hwalk := hrules.enumerateBusFrom fuel ⟨1, b, []⟩ fun _ he => nomatch he
  have hfuelled := enumerateBus_fuelled bus hfuel b
  have hdistinct := enumerateBus_addresses bus hfuel b
  refine Iff.trans ⟨fun h => h.ends.2, fun h => ⟨hdistinct, hfuelled, h⟩⟩ ?_
  unfold enumerateBus at hfuelled ⊢
  cases hr : (enumerateBusFrom bus fuel).run ⟨1, b, []⟩ with
  | ok u s =>
    rw [hr] at hwalk
    exact ⟨fun _ => hwalk, fun _ s' hs => nomatch hs⟩
  | error e s =>
    rw [hr] at hwalk
    constructor
    · intro hstuck
      by_contra hnot
      rw [hwalk.mpr hnot] at hstuck
      exact hstuck s rfl
    · rintro hall s' hs
      cases hs
      exact hwalk.mp rfl hall

end

end Cvirtos.Usb
