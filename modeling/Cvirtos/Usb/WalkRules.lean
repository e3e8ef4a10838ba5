import Cvirtos.Usb.Hub

/-!
# What the tree walk keeps

The walk moves its counter at few places.  An invariant is followed through all others once and for
all, and through the recursion by one induction on the fuel.

* `Calm` — what an invariant must survive: every access, request and note but those that give a device
  its address;
* `Quiet` — a part of the walk that keeps every such invariant;
* `WalkRules` — an invariant of the recursion, given what it does over one enumeration;
* `WalkRules.dispatch`, `WalkRules.enumerateBusFrom` — **the invariant holds of the whole walk**.
-/

set_option autoImplicit false

namespace Cvirtos.Usb

open Cvirtos.Lib

/-- The invariant `I` outlives whatever gives no device its address; a part that ends early leaves
`E`, which is `I` again unless the part is stuck. -/
structure Calm {σ : Type} (bus : Bus σ) (I : St σ → Prop) (E : Halt → St σ → Prop) : Prop where
  error : ∀ e s, E (.error e) s ↔ I s
  access : ∀ (s : St σ) (b : σ), I s → I { s with bus := b }
  read : ∀ (ep : ControlEp) {req : Request} {n : Nat}, req.readLen = some n →
    Triple I (ep.read bus req n) (fun _ => I) E
  writeNoData : ∀ (ep : ControlEp) {req : Request}, req.readLen = none →
    (∀ addr, req ≠ .setAddress addr) → Triple I (ep.writeNoData bus req) (fun _ => I) E
  dispatched : ∀ (s : St σ) (dev : UsbDevice), I s → I { s with log := s.log ++ [.dispatched dev] }
  probe : ∀ (driver : DeviceDriver) (dev : UsbDevice),
    Triple I (driver.probe bus dev) (fun _ => I) E

section Quiet

variable {σ α β : Type} (bus : Bus σ)

/-- The program keeps what is calm, however it ends. -/
def Quiet (x : Op σ α) : Prop :=
  ∀ (I : St σ → Prop) (E : Halt → St σ → Prop), Calm bus I E → Triple I x (fun _ => I) E

theorem quiet_pure (a : α) : Quiet bus (pure a) := fun _ _ _ => triple_pure fun _ h => h

theorem quiet_fail (e : UsbError) : Quiet bus (failWith e : Op σ α) :=
  fun _ _ hI => triple_throw fun s h => (hI.error e s).mpr h

variable {bus}

theorem quiet_bind {x : Op σ α} {f : α → Op σ β} (hx : Quiet bus x) (hf : ∀ a, Quiet bus (f a)) :
    Quiet bus (x >>= f) := fun I E hI => triple_bind (hx I E hI) fun a => hf a I E hI

theorem quiet_tryOp {x : Op σ α} (hx : Quiet bus x) : Quiet bus (tryOp x) := by
  intro I E hI
  refine triple_post (triple_tryOp (hx I E hI) fun _ h => h) ?_
  intro r s h
  cases r with
  | ok a => exact h
  | error e => exact (hI.error e s).mp h

variable (bus)

theorem quiet_access (f : σ → α × σ) : Quiet bus (access f) :=
  fun _ _ hI s hs => hI.access s _ hs

theorem quiet_read (ep : ControlEp) {req : Request} {n : Nat} (hreq : req.readLen = some n) :
    Quiet bus (ep.read bus req n) := fun _ _ hI => hI.read ep hreq

theorem quiet_writeNoData (ep : ControlEp) {req : Request} (hreq : req.readLen = none)
    (haddr : ∀ addr, req ≠ .setAddress addr) : Quiet bus (ep.writeNoData bus req) :=
  fun _ _ hI => hI.writeNoData ep hreq haddr

theorem quiet_probeDefaultAddr : Quiet bus (probeDefaultAddr bus) :=
  quiet_bind (quiet_read bus _ rfl) fun _ => quiet_pure bus _

theorem quiet_firstInterfaceClass (ep : ControlEp) : Quiet bus (ep.firstInterfaceClass bus) :=
  quiet_bind (quiet_read bus _ rfl) fun _ => quiet_pure bus _

theorem quiet_deviceHub (ep : ControlEp) : Quiet bus (DeviceHub.new bus ep) := by
  refine quiet_bind (quiet_read bus _ rfl) fun buf => ?_
  split
  · exact quiet_fail bus _
  · exact quiet_pure bus _

theorem quiet_portStatusW0 (hub : Hub) (port : Nat) : Quiet bus (hub.portStatusW0 bus port) := by
  cases hub with
  | root =>
    exact quiet_bind (quiet_access bus _) fun _ => quiet_bind (quiet_access bus _) fun _ =>
      quiet_bind (quiet_access bus _) fun _ => quiet_bind (quiet_access bus _) fun _ =>
        quiet_pure bus _
  | device hub => exact quiet_bind (quiet_read bus _ rfl) fun _ => quiet_pure bus _

theorem quiet_portPower (hub : Hub) (port : Nat) : Quiet bus (hub.portPower bus port) := by
  cases hub with
  | root => exact quiet_access bus fun b => ((), bus.hprt0Power b)
  | device hub => exact quiet_writeNoData bus _ rfl (by simp)

theorem quiet_connectResetSequence (hub : Hub) (port : Nat) :
    Quiet bus (hub.connectResetSequence bus port) := by
  refine quiet_bind ?_ fun _ => quiet_bind ?_ fun _ => ?_
  · cases hub with
    | root =>
      refine quiet_bind (quiet_access bus _) fun p => ?_
      split
      · exact quiet_access bus _
      · exact quiet_pure bus _
    | device hub => exact quiet_writeNoData bus _ rfl (by simp)
  · cases hub with
    | root => exact quiet_access bus fun b => ((), bus.portResetPulse b)
    | device hub => exact quiet_writeNoData bus _ rfl (by simp)
  · cases hub with
    | root => exact quiet_pure bus _
    | device hub => exact quiet_writeNoData bus _ rfl (by simp)

theorem quiet_waitConnect (hub : Hub) (port polls : Nat) :
    Quiet bus (hub.waitConnect bus port polls) := by
  induction polls with
  | zero =>
      refine quiet_bind (quiet_tryOp (quiet_portStatusW0 bus hub port)) fun w0 => ?_
      cases w0 <;> exact quiet_pure bus _
  | succ polls ih =>
      refine quiet_bind (quiet_tryOp (quiet_portStatusW0 bus hub port)) fun w0 => ?_
      cases w0 with
      | error e => exact ih
      | ok w0 =>
          show Quiet bus (if w0 &&& W0_CONNECTION ≠ 0 then _ else _)
          split
          · exact quiet_pure bus _
          · exact ih

theorem quiet_powerPort (hub : Hub) (port : Nat) : Quiet bus (hub.powerPort bus port) := by
  have hpower : Quiet bus (do
      let _ ← tryOp (hub.portPower bus port)
      return ()) :=
    quiet_bind (quiet_tryOp (quiet_portPower bus hub port)) fun _ => quiet_pure bus _
  refine quiet_bind (quiet_tryOp (quiet_portStatusW0 bus hub port)) fun w0 => ?_
  cases w0 with
  | error e => exact hpower
  | ok w0 =>
    show Quiet bus (if w0 &&& W0_CONNECTION ≠ 0 then _ else _)
    split
    · exact quiet_pure bus _
    · exact hpower

end Quiet

/-! ## The recursion -/

/-- An invariant of the walk that may depend on the fuel left: an enumeration that succeeds takes one
unit, and with none left the walk has either never got there or may end so. -/
structure WalkRules {σ : Type} (bus : Bus σ) (I : Nat → St σ → Prop) (E : Nat → Halt → St σ → Prop)
    (T : Stop → St σ → Prop) : Prop where
  calm : ∀ k, Calm bus (I k) (E k)
  mono : ∀ k s, I k s → I (k + 1) s
  halt : ∀ k e s, E k e s → T (.halt e) s
  fuel : ∀ s, I 0 s → T .fuel s
  enumerate : ∀ k speed,
    Triple (I (k + 1)) (UsbDevice.enumerate bus speed) (fun _ => I k) (E (k + 1))

namespace WalkRules

variable {σ : Type} {bus : Bus σ} {I : Nat → St σ → Prop} {E : Nat → Halt → St σ → Prop}
  {T : Stop → St σ → Prop}

theorem enumerateChild (h : WalkRules bus I E T) (k : Nat) (hub : Hub) (port : Nat) :
    Triple (I (k + 1)) (hub.enumerateChild bus port) (fun _ => I k) (E (k + 1)) := by
  have hcalm := h.calm (k + 1)
  have hnone : Triple (I (k + 1)) (failWith .notPresent : Op σ UsbDevice) (fun _ => I k)
      (E (k + 1)) := triple_throw fun s hs => (hcalm.error _ s).mpr hs
  refine triple_bind (quiet_tryOp (quiet_portStatusW0 bus hub port) _ _ hcalm) fun w0 => ?_
  cases w0 with
  | error e => exact hnone
  | ok w0 =>
    refine triple_ite (fun _ => hnone) fun _ => ?_
    refine triple_bind (quiet_tryOp (quiet_connectResetSequence bus hub port) _ _ hcalm)
      fun reset => ?_
    cases reset with
    | error e => exact hnone
    | ok _ =>
      refine triple_bind (quiet_tryOp (quiet_portStatusW0 bus hub port) _ _ hcalm) fun after => ?_
      cases after with
      | error e => exact hnone
      | ok after => exact triple_ite (fun _ => hnone) fun _ => h.enumerate k _

theorem lift (h : WalkRules bus I E T) {k : Nat} {α : Type} {x : Op σ α} (hx : Quiet bus x) :
    Triple (I k) (mapError Stop.halt x) (fun _ => I k) T :=
  triple_mapError (hx _ _ (h.calm k)) fun e s hs => h.halt k e s hs

theorem walkSubtree (h : WalkRules bus I E T) (k : Nat) (hub : Hub)
    {dispatch : UsbDevice → Walk σ Unit}
    (hdispatch : ∀ dev, Triple (I k) (dispatch dev) (fun _ => I k) T) :
    Triple (I (k + 1)) (hub.walkSubtree bus dispatch) (fun _ => I (k + 1)) T := by
  have hpower : Triple (I (k + 1)) (forCount 1 hub.nports (hub.powerPort bus)) (fun _ => I (k + 1))
      (E (k + 1)) := triple_forCount (fun port => quiet_powerPort bus hub port _ _ (h.calm _)) _ _
  refine triple_bind (triple_mapError hpower fun e s hs => h.halt _ e s hs) fun _ =>
    triple_forCount (fun port => ?_) _ _
  refine triple_bind (triple_attempt (h.enumerateChild k hub port)) fun child => ?_
  cases child with
  | ok child => exact triple_post (hdispatch child) fun _ s hs => h.mono k s hs
  | error e =>
    have hhard : ∀ e, Triple (E (k + 1) e) (throw (.halt e) : Walk σ Unit) (fun _ => I (k + 1)) T :=
      fun e => triple_throw fun s hs => h.halt _ e s hs
    cases e with
    | stuck => exact hhard _
    | error e =>
      cases e with
      | notPresent => exact triple_pure fun s hs => ((h.calm (k + 1)).error _ s).mp hs
      | _ => exact hhard _

/-- **The invariant of a dispatch**, by induction on the fuel. -/
theorem dispatch (h : WalkRules bus I E T) (k : Nat) (dev : UsbDevice) :
    Triple (I k) (UsbDevice.dispatch bus k dev) (fun _ => I k) T := by
  induction k generalizing dev with
  | zero => exact triple_throw fun s hs => h.fuel s hs
  | succ k ih =>
      have hlog : Quiet bus (logEvent (.dispatched dev)) := fun _ _ hI s hs => hI.dispatched s dev hs
      refine triple_bind (h.lift hlog) fun _ => triple_ite (fun _ => ?_) fun _ => ?_
      · exact triple_bind (h.lift (quiet_deviceHub bus dev.controlEp)) fun hub =>
          h.walkSubtree k (.device hub) ih
      · split
        · exact h.lift fun _ _ hI => hI.probe _ dev
        · exact triple_pure fun _ hs => hs

/-- **The invariant of the whole walk.** -/
theorem enumerateBusFrom (h : WalkRules bus I E T) (k : Nat) :
    Triple (I (k + 1)) (Usb.enumerateBusFrom bus k) (fun _ => I k) T := by
  refine triple_bind (h.lift (quiet_portPower bus .root 1)) fun _ => ?_
  refine triple_bind (h.lift (quiet_waitConnect bus .root 1 bus.polls)) fun connected => ?_
  have hnone : ∀ msg, Triple (I (k + 1)) (throw (.halt (.error (.hardware msg))) : Walk σ Unit)
      (fun _ => I k) T := fun msg =>
    triple_throw fun s hs => h.halt _ _ s (((h.calm (k + 1)).error _ s).mpr hs)
  refine triple_ite (fun _ => ?_) fun _ => hnone _
  refine triple_bind (Q := fun _ => I k) ?_ fun child =>
    h.dispatch k child
  refine triple_mapError (h.enumerateChild k .root 1) fun e s hs => ?_
  cases e with
  | stuck => exact h.halt _ _ s hs
  | error e =>
    have hI : I (k + 1) s := ((h.calm (k + 1)).error e s).mp hs
    cases e with
    | notPresent => exact h.halt _ _ s (((h.calm (k + 1)).error _ s).mpr hI)
    | _ => exact h.halt _ _ s hs

end WalkRules

end Cvirtos.Usb
