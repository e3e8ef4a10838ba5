import Cvirtos.Usb.EnumerationReturns
import Cvirtos.Usb.TreeBus
import Cvirtos.Usb.Uvc.CaptureBudget

/-!
# The tree walk on a bus without faults

* `Numbered` — distinct addresses below the counter, nobody at the default address;
* `enumerateChild_occupied`, `enumerateChild_vacant` — what is behind a port;
* `dispatch_tree` — a device and those behind it, in order, by induction over the tree;
* `enumerateBus_tree` — the run on a tree without faults;
* `enumerateBus_enumerates` — **every device is enumerated, dispatched and probed once, a hub before
  the devices behind it**;
* `warmUp_never_ends` — a camera whose warm-up capture does not come back, and the run with it.
-/

set_option autoImplicit false

namespace Cvirtos.Usb

open Cvirtos.Lib

/-- A driver's probe is called for the device. -/
def UsbDevice.probes (dev : UsbDevice) : Bool :=
  !dev.isHub && (DRIVERS.find? fun d => d.isMatch dev).isSome

def WalkEvent.probed? {σ : Type} : WalkEvent σ → Option UsbDevice
  | .probed _ dev _ => some dev
  | _ => none

/-- The devices whose driver has probed them, in order. -/
def probedDevices {σ : Type} (log : List (WalkEvent σ)) : List UsbDevice :=
  log.filterMap WalkEvent.probed?

@[simp] theorem probedDevices_concat {σ : Type} (log : List (WalkEvent σ)) (e : WalkEvent σ) :
    probedDevices (log ++ [e]) = probedDevices log ++ e.probed?.toList := by
  rw [probedDevices, List.filterMap_append]
  cases h : e.probed? <;> simp [probedDevices, h]

def WalkEvent.dispatched? {σ : Type} : WalkEvent σ → Option UsbDevice
  | .dispatched dev => some dev
  | _ => none

/-- The devices dispatched, in order. -/
def dispatchedDevices {σ : Type} (log : List (WalkEvent σ)) : List UsbDevice :=
  log.filterMap WalkEvent.dispatched?

@[simp] theorem dispatchedDevices_concat {σ : Type} (log : List (WalkEvent σ)) (e : WalkEvent σ) :
    dispatchedDevices (log ++ [e]) = dispatchedDevices log ++ e.dispatched?.toList := by
  rw [dispatchedDevices, List.filterMap_append]
  cases h : e.dispatched? <;> simp [dispatchedDevices, h]

/-- The devices of a list as they are enumerated from address `n` on. -/
def devicesFrom : Nat → List (Path × Dev) → List UsbDevice
  | _, [] => []
  | n, x :: l => x.2.desc.at n :: devicesFrom (n + 1) l

/-- The states once the devices of a list have got their addresses from `n` on. -/
def assignFrom : Nat → List (Path × Dev) → (Path → DevState) → Path → DevState
  | _, [], st => st
  | n, x :: l, st => assignFrom (n + 1) l (Function.update st x.1 (.addressed n))

theorem devicesFrom_append (n : Nat) (l l' : List (Path × Dev)) :
    devicesFrom n (l ++ l') = devicesFrom n l ++ devicesFrom (n + l.length) l' := by
  induction l generalizing n with
  | nil => rfl
  | cons x l ih =>
      show _ :: devicesFrom (n + 1) (l ++ l') = _ :: (_ ++ _)
      rw [ih, List.length_cons, Nat.add_assoc, Nat.add_comm 1]

theorem assignFrom_append (n : Nat) (l l' : List (Path × Dev)) (st : Path → DevState) :
    assignFrom n (l ++ l') st = assignFrom (n + l.length) l' (assignFrom n l st) := by
  induction l generalizing n st with
  | nil => rfl
  | cons x l ih =>
      show assignFrom (n + 1) (l ++ l') _ = _
      rw [ih, List.length_cons, Nat.add_assoc, Nat.add_comm 1]
      rfl

theorem assignFrom_other {n : Nat} {l : List (Path × Dev)} {st : Path → DevState} {p : Path}
    (h : ∀ x ∈ l, x.1 ≠ p) : assignFrom n l st p = st p := by
  induction l generalizing n st with
  | nil => rfl
  | cons x l ih =>
      show assignFrom (n + 1) l _ p = _
      rw [ih fun y hy => h y (List.mem_cons_of_mem _ hy)]
      exact Function.update_of_ne (h x (List.mem_cons_self ..)).symm _ _

/-- Each device of a list has the address of its place in it. -/
theorem assignFrom_get {n : Nat} {l : List (Path × Dev)} {st : Path → DevState}
    (h : l.Pairwise fun x y => ¬ y.1 <+: x.1) (i : Nat) (hi : i < l.length) :
    assignFrom n l st l[i].1 = .addressed (n + i) := by
  induction l generalizing n st i with
  | nil => exact absurd hi (Nat.not_lt_zero i)
  | cons x l ih =>
      obtain ⟨hx, hl⟩ := List.pairwise_cons.mp h
      cases i with
      | zero =>
          show assignFrom (n + 1) l (Function.update st x.1 (.addressed n)) x.1 = .addressed n
          rw [assignFrom_other, Function.update_self]
          intro y hy heq
          exact hx y hy (heq ▸ List.prefix_rfl)
      | succ i =>
          have hi' : i < l.length := Nat.lt_of_succ_lt_succ hi
          show assignFrom (n + 1) l _ l[i].1 = .addressed (n + (i + 1))
          rw [ih hl i hi', Nat.add_assoc, Nat.add_comm 1]

/-- **Distinct addresses below the counter**, and nobody at the default address. -/
structure Numbered (n : Nat) (st : Path → DevState) : Prop where
  pos : 1 ≤ n
  noDefault : ∀ p, st p ≠ .default
  range : ∀ p a, st p = .addressed a → 1 ≤ a ∧ a < n
  inj : ∀ p q a, st p = .addressed a → st q = .addressed a → p = q

theorem numbered_update {n : Nat} {st : Path → DevState} (h : Numbered n st) (q : Path) :
    Numbered (n + 1) (Function.update st q (.addressed n)) := by
  have hpos := h.pos
  have hcases : ∀ p a, Function.update st q (.addressed n) p = .addressed a →
      (p = q ∧ a = n) ∨ (p ≠ q ∧ st p = .addressed a) := by
    intro p a hp
    by_cases hpq : p = q
    · subst hpq
      rw [Function.update_self] at hp
      cases hp
      exact Or.inl ⟨rfl, rfl⟩
    · rw [Function.update_of_ne hpq] at hp
      exact Or.inr ⟨hpq, hp⟩
  constructor
  · omega
  · intro p hp
    by_cases hpq : p = q
    · subst hpq
      rw [Function.update_self] at hp
      cases hp
    · rw [Function.update_of_ne hpq] at hp
      exact h.noDefault p hp
  · intro p a hp
    rcases hcases p a hp with ⟨-, rfl⟩ | ⟨-, hp⟩
    · exact ⟨hpos, Nat.lt_succ_self _⟩
    · obtain ⟨h1, h2⟩ := h.range p a hp
      exact ⟨h1, by omega⟩
  · intro p p' a hp hp'
    rcases hcases p a hp with ⟨rfl, rfl⟩ | ⟨-, hold⟩
    · rcases hcases p' a hp' with ⟨rfl, -⟩ | ⟨-, hold'⟩
      · rfl
      · have := (h.range p' a hold').2
        omega
    · rcases hcases p' a hp' with ⟨-, rfl⟩ | ⟨-, hold'⟩
      · have := (h.range p a hold).2
        omega
      · exact h.inj p p' a hold hold'

theorem numbered_assign {n : Nat} {l : List (Path × Dev)} {st : Path → DevState}
    (h : Numbered n st) : Numbered (n + l.length) (assignFrom n l st) := by
  induction l generalizing n st with
  | nil => exact h
  | cons x l ih =>
      have := ih (numbered_update h x.1)
      rw [List.length_cons, Nat.add_comm l.length 1, ← Nat.add_assoc]
      exact this

/-! ## Requests without faults -/

section Requests

/-- The bus without faults; what the ports' status words say besides is given. -/
def goodBus (t : Topology) (extra : Nat → Vector UInt8 4) : Bus World :=
  treeBus t fun k => Fault.none (extra k)

variable {t : Topology} {extra : Nat → Vector UInt8 4}

/-- Counter, states, and the devices in the log.  Of the devices dispatched, those with a driver have
been probed. -/
structure Stands (n : Nat) (st : Path → DevState) (en di : List UsbDevice) (s : St World) :
    Prop where
  nextAddr : s.nextAddr = n
  state : s.bus.state = st
  enumerated : enumeratedDevices s.log = en
  dispatched : dispatchedDevices s.log = di
  probed : probedDevices s.log = di.filter UsbDevice.probes

variable {n : Nat} {st : Path → DevState} {en di : List UsbDevice}

theorem stands_after {s : St World} (h : Stands n st en di s) (ep : ControlEp) (req : Request)
    {b : World} {st' : Path → DevState} (hb : b.state = st') (failed : Bool) :
    Stands n st' en di (s.after ep req b failed) := by
  refine ⟨h.nextAddr, hb, ?_, ?_, ?_⟩
  · simpa [St.after, WalkEvent.enumerated?] using h.enumerated
  · simpa [St.after, WalkEvent.dispatched?] using h.dispatched
  · simpa [St.after, WalkEvent.probed?] using h.probed

theorem read_stands {ep : ControlEp} {path : Path} {d : Dev} {req : Request} {m : Nat}
    {v : Fault → Vector UInt8 m} (hresp : t.responder st ep.dev = some (path, d))
    (hans : ∀ f, d.answer path f st m req = .ok (v f)) :
    Triple (Stands n st en di) (ep.read (goodBus t extra) req m)
      (fun buf s => (∃ f, buf = v f) ∧ Stands n st en di s) Never := by
  have hread : ∀ s : St World, Stands n st en di s → (goodBus t extra).read ep req m s.bus =
      (some (.ok (v (.none (extra s.bus.clock)))), s.bus.tick) := by
    intro s h
    have hr : t.read (.none (extra s.bus.clock)) ep req m s.bus =
        .ok (v (.none (extra s.bus.clock))) := by
      unfold Topology.read
      rw [h.state, hresp]
      exact hans _
    show (some (t.read (.none (extra s.bus.clock)) ep req m s.bus), s.bus.tick) = _
    rw [hr]
  refine triple_transfer (fun s buf b h ha => ?_) (fun s e b h ha => ?_) fun s b h ha => ?_
  · rw [hread s h] at ha
    cases ha
    exact ⟨⟨_, rfl⟩, stands_after h ep req (b := s.bus.tick) h.state false⟩
  · rw [hread s h] at ha
    cases ha
  · rw [hread s h] at ha
    cases ha

theorem write_stands {ep : ControlEp} {path : Path} {d : Dev} {req : Request}
    {st' : Path → DevState} (hresp : t.responder st ep.dev = some (path, d))
    (heff : ∀ x (w : World), w.state = st → (d.effect path (.none x) w req).state = st') :
    Triple (Stands n st en di) (ep.writeNoData (goodBus t extra) req)
      (fun _ => Stands n st' en di) Never := by
  have hwrite : ∀ s : St World, Stands n st en di s → (goodBus t extra).writeNoData ep req s.bus =
      (some (.ok ()), (d.effect path (.none (extra s.bus.clock)) s.bus req).tick) := by
    intro s h
    have hw : t.write (.none (extra s.bus.clock)) ep req s.bus =
        (.ok (), d.effect path (.none (extra s.bus.clock)) s.bus req) := by
      unfold Topology.write
      rw [h.state, hresp]
      rfl
    show (some (t.write (.none (extra s.bus.clock)) ep req s.bus).1,
      (t.write (.none (extra s.bus.clock)) ep req s.bus).2.tick) = _
    rw [hw]
  refine triple_transfer (fun s a b h ha => ?_) (fun s e b h ha => ?_) fun s b h ha => ?_
  · rw [hwrite s h] at ha
    cases ha
    exact stands_after h ep req (b := (d.effect path _ s.bus req).tick) (heff _ s.bus h.state) false
  · rw [hwrite s h] at ha
    cases ha
  · rw [hwrite s h] at ha
    cases ha

/-! ## Ports without faults -/

variable {hub : Hub} {port : Nat} {q : Path}

theorem status_stands (h : Serves t st hub port q) :
    Triple (Stands n st en di) (hub.portStatusW0 (goodBus t extra) port)
      (fun w0 s => Reports w0 (st q) (t.at q) ∧ Stands n st en di s) Never := by
  cases h with
  | root =>
    intro s hs
    have hrun : (Hub.root.portStatusW0 (goodBus t extra) port).run s =
        .ok (hprt0Word (t.hprt0 s.bus)) s := rfl
    have hrep := reports_hprt0 (t := t) s.bus
    rw [hs.state] at hrep
    rw [hrun]
    exact ⟨hrep, hs⟩
  | @device hub path d _ hresp =>
    refine triple_bind (read_stands hresp fun _ => rfl) fun buf => triple_fact fun hbuf => ?_
    obtain ⟨f, rfl⟩ := hbuf
    refine triple_pure fun s hs => ⟨?_, hs⟩
    rw [t.at_child (responder_at hresp)]
    exact reports_portStatus _ _ _

theorem power_stands (h : Serves t st hub port q) :
    Triple (Stands n st en di) (hub.portPower (goodBus t extra) port) (fun _ => Stands n st en di)
      Never := by
  cases h with
  | root => exact fun s hs => hs
  | device _ hresp => exact write_stands hresp fun _ w hw => hw

theorem reset_stands (h : Serves t st hub port q) {c : Dev} (hat : t.at q = some c) :
    Triple (Stands n st en di) (hub.resetPort (goodBus t extra) port)
      (fun _ => Stands n (Function.update st q .default) en di) Never := by
  cases h with
  | root =>
    intro s hs
    cases t with
    | none => cases hat
    | some root =>
      have hset := s.bus.set_state [] .default
      rw [hs.state] at hset
      exact ⟨hs.nextAddr, hset, hs.enumerated, hs.dispatched, hs.probed⟩
  | @device hub path d _ hresp =>
    rw [t.at_child (responder_at hresp)] at hat
    refine write_stands hresp fun _ w hw => ?_
    unfold Dev.effect
    simp only [hat]
    rw [← hw]
    exact w.set_state _ _

theorem clearConnection_stands (h : Serves t st hub port q) :
    Triple (Stands n st en di) (hub.clearConnectionChange (goodBus t extra) port)
      (fun _ => Stands n st en di) Never := by
  cases h with
  | root =>
    intro s hs
    cases t <;> exact hs
  | device _ hresp => exact write_stands hresp fun _ w hw => hw

theorem clearReset_stands (h : Serves t st hub port q) :
    Triple (Stands n st en di) (hub.clearResetChange (goodBus t extra) port)
      (fun _ => Stands n st en di) Never := by
  cases h with
  | root => exact triple_pure fun _ hs => hs
  | device _ hresp => exact write_stands hresp fun _ w hw => hw

end Requests

/-! ## The device behind a port -/

section Child

variable {t : Topology} {extra : Nat → Vector UInt8 4} {n : Nat} {st : Path → DevState}
  {en di : List UsbDevice} {q : Path} {c : Dev}

/-- The device just reset is the one at the default address. -/
theorem responder_default (hn : Numbered n st) (hat : t.at q = some c) :
    t.responder (Function.update st q .default) 0 = some (q, c) := by
  refine responder_eq hat (by rw [Function.update_self]; rfl) fun p hp => ?_
  by_contra hpq
  rw [Function.update_of_ne hpq] at hp
  cases hst : st p with
  | attached => simp [hst, DevState.answers] at hp
  | default => exact hn.noDefault p hst
  | addressed a =>
    have ha := (hn.range p a hst).1
    have : 0 = a := by simpa [hst, DevState.answers] using hp
    omega

/-- A device answers at its address. -/
theorem responder_addressed (hn : Numbered n st) (hat : t.at q = some c) {a : Nat}
    (hst : st q = .addressed a) : t.responder st a = some (q, c) := by
  refine responder_eq hat (by simp [hst, DevState.answers]) fun p hp => ?_
  cases hp' : st p with
  | attached => simp [hp', DevState.answers] at hp
  | default => exact absurd hp' (hn.noDefault p)
  | addressed b =>
    have hab : a = b := by simpa [hp', DevState.answers] using hp
    exact hn.inj p q a (hab ▸ hp') hst

/-- `SET_ADDRESS` reaches the device just reset, and no other. -/
theorem setAddress_effect (hn : Numbered n st) (x : Vector UInt8 4) (w : World)
    (hw : w.state = Function.update st q .default) :
    (c.effect q (.none x) w (.setAddress n)).state = Function.update st q (.addressed n) := by
  funext p
  show (if w.state p = .default then DevState.addressed n else w.state p) = _
  rw [hw]
  by_cases hpq : p = q
  · subst hpq
    rw [Function.update_self, Function.update_self, if_pos rfl]
  · rw [Function.update_of_ne hpq, Function.update_of_ne hpq, if_neg (hn.noDefault p)]

theorem takeAddr_stands (hlt : n < 127) :
    Triple (Stands n st en di) takeAddr (fun addr s => addr = n ∧ Stands (n + 1) st en di s)
      Never := by
  intro s hs
  have hnext := hs.nextAddr
  have hmax : ¬ s.nextAddr ≥ MAX_USB_ADDR := by
    unfold MAX_USB_ADDR
    omega
  rw [takeAddr_run, if_neg hmax]
  refine ⟨hnext, ?_, hs.state, hs.enumerated, hs.dispatched, hs.probed⟩
  show min (s.nextAddr + 1) 255 = n + 1
  omega

/-- **The device just reset gets the next address.** -/
theorem enumerate_stands (hn : Numbered n st) (hat : t.at q = some c) (hlt : n < 127) :
    Triple (Stands n (Function.update st q .default) en di)
      (UsbDevice.enumerate (goodBus t extra) c.desc.speed)
      (fun dev s => dev = c.desc.at n ∧
        Stands (n + 1) (Function.update st q (.addressed n)) (en ++ [c.desc.at n]) di s) Never := by
  have hdef := responder_default hn hat
  have hnew : t.responder (Function.update st q (.addressed n)) n = some (q, c) :=
    responder_addressed (numbered_update hn q) hat (Function.update_self ..)
  unfold UsbDevice.enumerate
  refine triple_bind (Q := fun id s => id = Identity.ofDescriptor c.desc.device ∧
    Stands n (Function.update st q .default) en di s) ?_ fun id => triple_fact fun hid => ?_
  · refine triple_bind (read_stands hdef fun _ => rfl) fun buf => triple_fact fun hbuf => ?_
    obtain ⟨f, rfl⟩ := hbuf
    refine triple_pure fun s hs => ⟨?_, hs⟩
    rw [bytes_self]
  refine triple_bind (takeAddr_stands hlt) fun addr => triple_fact fun haddr => ?_
  subst haddr
  refine triple_bind (Q := fun ep s => ep = ⟨addr, id.mps⟩ ∧
    Stands (addr + 1) (Function.update st q (.addressed addr)) en di s) ?_
    fun ep => triple_fact fun hep => ?_
  · unfold ControlEp.setAddress
    rw [if_neg (by simp [ControlEp.new])]
    refine triple_bind (write_stands hdef (setAddress_effect hn)) fun _ => ?_
    exact triple_pure fun s hs => ⟨rfl, hs⟩
  subst hep
  refine triple_bind (write_stands hnew fun _ w hw => hw) fun _ => ?_
  have hclass : Triple (Stands (addr + 1) (Function.update st q (.addressed addr)) en di)
      ((⟨addr, id.mps⟩ : ControlEp).firstInterfaceClass (goodBus t extra))
      (fun a s => a = interfaceClass c.desc.config ∧
        Stands (addr + 1) (Function.update st q (.addressed addr)) en di s) Never := by
    refine triple_bind (read_stands hnew fun _ => rfl) fun buf => triple_fact fun hbuf => ?_
    obtain ⟨f, rfl⟩ := hbuf
    exact triple_pure fun s hs => ⟨by rw [bytes_self], hs⟩
  refine triple_tryOp_never hclass fun a => triple_fact fun ha => ?_
  subst ha hid
  refine triple_bind (Q := fun _ => Stands (addr + 1) (Function.update st q (.addressed addr))
    (en ++ [c.desc.at addr]) di) ?_ fun _ => triple_pure fun s hs => ⟨rfl, hs⟩
  intro s hs
  refine ⟨hs.nextAddr, hs.state, ?_, ?_, ?_⟩
  · show enumeratedDevices (s.log ++ [.enumerated _]) = _
    rw [enumeratedDevices_concat, hs.enumerated]
    rfl
  · show dispatchedDevices (s.log ++ [.enumerated _]) = _
    rw [dispatchedDevices_concat, hs.dispatched]
    exact List.append_nil _
  · show probedDevices (s.log ++ [.enumerated _]) = _
    rw [probedDevices_concat, hs.probed]
    exact List.append_nil _

variable {hub : Hub} {port : Nat}

theorem enumerateChild_occupied (hserves : Serves t st hub port q) (haddr : hub.Addressed)
    (hn : Numbered n st) (hat : t.at q = some c) (hlt : n < 127) :
    Triple (Stands n st en di) (hub.enumerateChild (goodBus t extra) port)
      (fun dev s => dev = c.desc.at n ∧
        Stands (n + 1) (Function.update st q (.addressed n)) (en ++ [c.desc.at n]) di s) Never := by
  have hserves' : Serves t (Function.update st q .default) hub port q :=
    serves_reset hserves haddr fun addr ha => by simpa [DevState.answers] using ha
  refine triple_tryOp_never (status_stands hserves) fun w0 => triple_fact fun hrep => ?_
  rw [hat] at hrep
  have hconn : ¬ w0 &&& W0_CONNECTION = 0 := fun h => nomatch hrep.connection.mp h
  show Triple _ (if w0 &&& W0_CONNECTION = 0 then _ else _) _ _
  rw [if_neg hconn]
  refine triple_tryOp_never (triple_bind (clearConnection_stands hserves) fun _ =>
    triple_bind (reset_stands hserves hat) fun _ => clearReset_stands hserves') fun _ => ?_
  refine triple_tryOp_never (status_stands hserves') fun after => triple_fact fun hafter => ?_
  rw [Function.update_self, hat] at hafter
  have hena : ¬ after &&& W0_ENABLE = 0 := by
    intro h
    rcases hafter.enable.mp h with h | h <;> cases h
  show Triple _ (if after &&& W0_ENABLE = 0 then _ else _) _ _
  rw [if_neg hena, hafter.speed c rfl]
  exact enumerate_stands hn hat hlt

theorem enumerateChild_vacant (hserves : Serves t st hub port q) (hat : t.at q = none) :
    Triple (Stands n st en di) (hub.enumerateChild (goodBus t extra) port) (fun _ _ => False)
      (fun e s => e = .error .notPresent ∧ Stands n st en di s) := by
  refine triple_tryOp_never (status_stands hserves) fun w0 => triple_fact fun hrep => ?_
  rw [hat] at hrep
  show Triple _ (if w0 &&& W0_CONNECTION = 0 then _ else _) _ _
  rw [if_pos (hrep.connection.mpr rfl)]
  exact triple_throw fun s hs => ⟨rfl, hs⟩

theorem powerPort_stands (hserves : Serves t st hub port q) :
    Triple (Stands n st en di) (hub.powerPort (goodBus t extra) port) (fun _ => Stands n st en di)
      Never := by
  have hpower : Triple (Stands n st en di) (do
      let _ ← tryOp (hub.portPower (goodBus t extra) port)
      return ()) (fun _ => Stands n st en di) Never := by
    exact triple_tryOp_never (power_stands hserves) fun _ => triple_pure fun _ hs => hs
  refine triple_tryOp_never (status_stands hserves) fun w0 => triple_fact fun _ => ?_
  show Triple _ (if w0 &&& W0_CONNECTION ≠ 0 then _ else _) _ _
  exact triple_ite (fun _ => triple_pure fun _ hs => hs) fun _ => hpower

/-- The hub descriptor gives the hub its ports. -/
theorem deviceHub_stands {path : Path} {desc : Desc} {h : desc.isHub = true}
    {hubDesc : Vector UInt8 64}
    {ports : Ports} {ep : ControlEp}
    (hresp : t.responder st ep.dev = some (path, .hub desc h hubDesc ports))
    (hports : ports.length ≤ 16) :
    Triple (Stands n st en di) (DeviceHub.new (goodBus t extra) ep)
      (fun hub s => hub = ⟨ep, ports.length, hubDesc[5].toNat * 2⟩ ∧ Stands n st en di s) Never := by
  refine triple_bind (read_stands hresp fun _ => rfl) fun buf => triple_fact fun hbuf => ?_
  have hbuf : buf = hubDescriptor ports.length hubDesc := by
    obtain ⟨f, rfl⟩ := hbuf
    exact bytes_self _
  have h0 : ¬ buf[0] < 7 := by
    have hlength : buf[0] = if hubDesc[0] < 7 then (7 : UInt8) else hubDesc[0] := by
      simp [hbuf, hubDescriptor]
    rw [hlength]
    split
    · decide
    · assumption
  have h1 : buf[1] = USB_DT_HUB := by simp [hbuf, hubDescriptor]
  have h2 : buf[2] = UInt8.ofNat ports.length := by simp [hbuf, hubDescriptor]
  have h5 : buf[5] = hubDesc[5] := by simp [hbuf, hubDescriptor]
  have hlen : min (UInt8.ofNat ports.length).toNat MAX_HUB_PORTS = ports.length := by
    rw [UInt8.toNat_ofNat']
    unfold MAX_HUB_PORTS
    omega
  rw [h1, h2, h5, if_neg (by simp [h0]), hlen]
  exact triple_pure fun s hs => ⟨rfl, hs⟩

end Child

/-! ## The walk over the tree -/

section Tree

variable {t : Topology} {extra : Nat → Vector UInt8 4}

/-- The devices on the ports from `port` on are visited. -/
def visitPorts (t : Topology) (extra : Nat → Vector UInt8 4) (k : Nat) (hub : DeviceHub)
    (port count : Nat) : Walk World Unit :=
  forCount port count
    ((Hub.device hub).visitPort (goodBus t extra) (UsbDevice.dispatch (goodBus t extra) k))

/-- A device has been dispatched, and its driver, if there is one, is still to probe it. -/
structure Dispatched (n : Nat) (st : Path → DevState) (en di : List UsbDevice) (dev : UsbDevice)
    (s : St World) : Prop where
  nextAddr : s.nextAddr = n
  state : s.bus.state = st
  enumerated : enumeratedDevices s.log = en
  dispatched : dispatchedDevices s.log = di ++ [dev]
  probed : probedDevices s.log = di.filter UsbDevice.probes

theorem dispatched_stands {n : Nat} {st : Path → DevState} {en di : List UsbDevice}
    (dev : UsbDevice) :
    Triple (Stands n st en di) (mapError Stop.halt (logEvent (.dispatched dev)))
      (fun _ => Dispatched n st en di dev) Never := by
  refine triple_mapError (E := Never) ?_ fun _ _ h => h
  intro s hs
  refine ⟨hs.nextAddr, hs.state, ?_, ?_, ?_⟩
  · show enumeratedDevices (s.log ++ [.dispatched dev]) = _
    rw [enumeratedDevices_concat, hs.enumerated]
    exact List.append_nil _
  · show dispatchedDevices (s.log ++ [.dispatched dev]) = _
    rw [dispatchedDevices_concat, hs.dispatched]
    rfl
  · show probedDevices (s.log ++ [.dispatched dev]) = _
    rw [probedDevices_concat, hs.probed]
    exact List.append_nil _

/-- A device without a driver is done with. -/
theorem Dispatched.stands {n : Nat} {st : Path → DevState} {en di : List UsbDevice}
    {dev : UsbDevice} {s : St World} (h : Dispatched n st en di dev s) (hno : dev.probes = false) :
    Stands n st en (di ++ [dev]) s := by
  refine ⟨h.nextAddr, h.state, h.enumerated, h.dispatched, ?_⟩
  rw [h.probed, List.filter_append, List.filter_cons, hno]
  exact (List.append_nil _).symm

/-- **The driver probes the device**, once. -/
theorem driver_stands {n : Nat} {st : Path → DevState} {en di : List UsbDevice}
    (driver : DeviceDriver) {dev : UsbDevice} (hyes : dev.probes = true) :
    Triple (Dispatched n st en di dev) (driver.probe (goodBus t extra) dev)
      (fun _ => Stands n st en (di ++ [dev])) Never := by
  refine triple_probe (fun s b hs hb => ?_) (fun s e b _ hb => nomatch hb) fun s b _ hb => nomatch hb
  cases hb
  refine ⟨hs.nextAddr, hs.state, ?_, ?_, ?_⟩
  · show enumeratedDevices (s.log ++ [.probed driver dev s.bus]) = _
    rw [enumeratedDevices_concat, hs.enumerated]
    exact List.append_nil _
  · show dispatchedDevices (s.log ++ [.probed driver dev s.bus]) = _
    rw [dispatchedDevices_concat, hs.dispatched]
    exact List.append_nil _
  · show probedDevices (s.log ++ [.probed driver dev s.bus]) = _
    rw [probedDevices_concat, hs.probed, List.filter_append, List.filter_cons, hyes]
    rfl

mutual

/-- **A device and those behind it**: each gets the next address and is dispatched, in order. -/
theorem Dev.dispatch_stands (hsize : ∀ x ∈ t.devices, x.2.nports ≤ 16) : (d : Dev) →
    ∀ (path : Path) (a k n : Nat) (st : Path → DevState) (en di : List UsbDevice),
    t.at path = some d → st path = .addressed a → Numbered n st →
    (d.behind path).length < k → n + (d.behind path).length ≤ 127 →
    Triple (Stands n st en di) (UsbDevice.dispatch (goodBus t extra) k (d.desc.at a))
      (fun _ => Stands (n + (d.behind path).length) (assignFrom n (d.behind path) st)
        (en ++ devicesFrom n (d.behind path))
        (di ++ d.desc.at a :: devicesFrom n (d.behind path))) Never
  | .function desc h => by
    intro path a k n st en di hat hst hn hfuel hcap
    obtain ⟨k, rfl⟩ : ∃ k', k = k' + 1 := ⟨k - 1, by omega⟩
    have hhub : (desc.at a).isHub = false := h
    show Triple _ (UsbDevice.dispatch (goodBus t extra) (k + 1) (desc.at a))
      (fun _ => Stands n st (en ++ []) (di ++ [desc.at a])) Never
    rw [List.append_nil]
    refine triple_bind (dispatched_stands _) fun _ => ?_
    rw [if_neg (by rw [hhub]; decide)]
    split
    · rename_i driver hdriver
      have hyes : (desc.at a).probes = true := by simp [UsbDevice.probes, hhub, hdriver]
      exact triple_mapError (E := Never) (driver_stands driver hyes) fun _ _ h => h
    · rename_i hnone
      have hno : (desc.at a).probes = false := by simp [UsbDevice.probes, hnone]
      exact triple_pure fun _ hs => hs.stands hno
  | .hub desc h hubDesc ports => by
    intro path a k n st en di hat hst hn hfuel hcap
    obtain ⟨k, rfl⟩ : ∃ k', k = k' + 1 := ⟨k - 1, by omega⟩
    have hhub : (desc.at a).isHub = true := h
    have hports : ports.length ≤ 16 := hsize (path, _) ((mem_devices t path _).mpr hat)
    have hresp : t.responder st (desc.at a).controlEp.dev = some (path, _) :=
      responder_addressed hn hat hst
    have hget : ∀ i, t.at (path ++ [1 + i]) = ports.get i := by
      intro i
      rw [t.at_child hat, Nat.add_comm]
      rfl
    show Triple _ (UsbDevice.dispatch (goodBus t extra) (k + 1) (desc.at a)) _ _
    have hno : (desc.at a).probes = false := by simp [UsbDevice.probes, hhub]
    refine triple_bind (triple_post (dispatched_stands _) fun _ _ hs => hs.stands hno) fun _ => ?_
    rw [if_pos hhub]
    refine triple_bind (triple_mapError (E := Never) (deviceHub_stands hresp hports)
      fun _ _ h => h) fun hub => triple_fact fun hhub' => ?_
    subst hhub'
    refine triple_bind (Q := fun _ => Stands n st en (di ++ [desc.at a])) ?_ fun _ => ?_
    · exact triple_mapError (E := Never) (triple_forCount (fun port =>
        powerPort_stands (.device port hresp)) _ _) fun _ _ h => h
    · have hvisit := Ports.visit_stands hsize ports path _
        ⟨(desc.at a).controlEp, ports.length, hubDesc[5].toNat * 2⟩ k 1 n st en (di ++ [desc.at a])
        hat hst hget hn (Nat.le_of_lt_succ hfuel) hcap
      rw [List.append_assoc] at hvisit
      exact hvisit

/-- The devices on the ports from `port` on, and those behind them. -/
theorem Ports.visit_stands (hsize : ∀ x ∈ t.devices, x.2.nports ≤ 16) : (ports : Ports) →
    ∀ (path : Path) (hd : Dev) (hub : DeviceHub) (k port n : Nat) (st : Path → DevState)
      (en di : List UsbDevice),
    t.at path = some hd → st path = .addressed hub.controlEp.dev →
    (∀ i, t.at (path ++ [port + i]) = ports.get i) → Numbered n st →
    (ports.preorder path port).length ≤ k → n + (ports.preorder path port).length ≤ 127 →
    Triple (Stands n st en di) (visitPorts t extra k hub port ports.length)
      (fun _ => Stands (n + (ports.preorder path port).length)
        (assignFrom n (ports.preorder path port) st)
        (en ++ devicesFrom n (ports.preorder path port))
        (di ++ devicesFrom n (ports.preorder path port))) Never
  | .nil => by
    intro path hd hub k port n st en di hat hst hget hn hfuel hcap
    show Triple _ (pure ()) (fun _ => Stands n st (en ++ []) (di ++ [])) Never
    rw [List.append_nil, List.append_nil]
    exact triple_pure fun _ hs => hs
  | .vacant rest => by
    intro path hd hub k port n st en di hat hst hget hn hfuel hcap
    have hserves : Serves t st (.device hub) port (path ++ [port]) :=
      .device port (responder_addressed hn hat hst)
    refine triple_bind (Q := fun _ => Stands n st en di) ?_ fun _ => ?_
    · refine triple_bind (triple_attempt (enumerateChild_vacant hserves (hget 0))) fun r => ?_
      cases r with
      | ok dev => exact fun s hs => hs.elim
      | error e =>
        refine triple_fact fun he => ?_
        subst he
        exact triple_pure fun _ hs => hs
    · refine Ports.visit_stands hsize rest _ _ _ _ _ _ _ _ _ hat hst (fun i => ?_) hn hfuel hcap
      rw [Nat.add_assoc, Nat.add_comm 1 i]
      exact hget (i + 1)
  | .occupied c rest => by
    intro path hd hub k port n st en di hat hst hget hn hfuel hcap
    have hserves : Serves t st (.device hub) port (path ++ [port]) :=
      .device port (responder_addressed hn hat hst)
    have haddr : (Hub.device hub).Addressed := Nat.ne_of_gt (hn.range path _ hst).1
    have hchild : t.at (path ++ [port]) = some c := hget 0
    have hrest : ∀ i, t.at (path ++ [port + 1 + i]) = rest.get i := by
      intro i
      rw [Nat.add_assoc, Nat.add_comm 1 i]
      exact hget (i + 1)
    -- the list: the child, what is behind it, and the ports that are left
    have hlist : (Ports.occupied c rest).preorder path port =
        (path ++ [port], c) :: (c.behind (path ++ [port]) ++ rest.preorder path (port + 1)) := by
      rw [Ports.preorder, Dev.preorder_eq]
      rfl
    rw [hlist] at hfuel hcap ⊢
    simp only [List.length_cons, List.length_append] at hfuel hcap ⊢
    -- what is behind the child has nothing to do with the hub itself
    have hother : ∀ x ∈ c.behind (path ++ [port]), x.1 ≠ path := by
      rintro ⟨p, e⟩ hx rfl
      have hmem : (p, e) ∈ c.preorder (p ++ [port]) := by
        rw [Dev.preorder_eq]
        exact List.mem_cons_of_mem _ hx
      obtain ⟨rel, heq, -⟩ := (Dev.mem_preorder _ c p e).mp hmem
      simp at heq
    have hself : path ≠ path ++ [port] := by simp
    have hnew := numbered_update hn (path ++ [port])
    have hhub : assignFrom (n + 1) (c.behind (path ++ [port]))
        (Function.update st (path ++ [port]) (.addressed n)) path =
        .addressed hub.controlEp.dev := by
      rw [assignFrom_other hother, Function.update_of_ne hself]
      exact hst
    have hdispatch := Dev.dispatch_stands hsize c (path ++ [port]) n k (n + 1)
      (Function.update st (path ++ [port]) (.addressed n)) (en ++ [c.desc.at n]) di hchild
      (Function.update_self ..) hnew (by omega) (by omega)
    have hvisit := Ports.visit_stands hsize rest path hd hub k (port + 1) _ _
      (en ++ [c.desc.at n] ++ devicesFrom (n + 1) (c.behind (path ++ [port])))
      (di ++ c.desc.at n :: devicesFrom (n + 1) (c.behind (path ++ [port]))) hat hhub hrest
      (numbered_assign hnew) (by omega) (by omega)
    refine triple_bind ?_ fun _ => triple_post hvisit ?_
    · refine triple_attempt_never (enumerateChild_occupied hserves haddr hn hchild (by omega))
        fun dev => triple_fact fun hdev => ?_
      subst hdev
      exact hdispatch
    · intro _ s hs
      have hnext : n + ((c.behind (path ++ [port])).length +
          (rest.preorder path (port + 1)).length + 1) = n + 1 + (c.behind (path ++ [port])).length +
            (rest.preorder path (port + 1)).length := by omega
      show Stands _ (assignFrom (n + 1) (_ ++ _) _) (en ++ c.desc.at n :: devicesFrom (n + 1) (_ ++ _))
        (di ++ c.desc.at n :: devicesFrom (n + 1) (_ ++ _)) s
      rw [assignFrom_append, devicesFrom_append, hnext]
      simp only [List.append_assoc, List.cons_append, List.nil_append] at hs
      exact hs

end

end Tree

/-! ## The whole bus -/

theorem numbered_init : Numbered 1 World.init.state where
  pos := Nat.le_refl 1
  noDefault := fun _ h => nomatch h
  range := fun _ _ h => nomatch h
  inj := fun _ _ _ h => nomatch h

/-- What a run leaves behind that has enumerated the whole tree: every device, in this order. -/
structure Enumerates (root : Dev) (s : St World) : Prop where
  enumerated : enumeratedDevices s.log = devicesFrom 1 (root.preorder [])
  dispatched : dispatchedDevices s.log = devicesFrom 1 (root.preorder [])
  probed : probedDevices s.log = (devicesFrom 1 (root.preorder [])).filter UsbDevice.probes
  states : ∀ (i : Nat) (hi : i < (root.preorder []).length),
    s.bus.state (root.preorder [])[i].1 = .addressed (1 + i)

/-- **The run on a tree without faults.** -/
theorem enumerateBus_tree (root : Dev) (extra : Nat → Vector UInt8 4) (fuel : Nat)
    (hsize : ∀ x ∈ root.preorder [], x.2.nports ≤ 16) (hcount : (root.preorder []).length ≤ 126)
    (hfuel : 126 ≤ fuel) :
    ∃ s, enumerateBus (goodBus (some root) extra) fuel World.init = .ok () s ∧ Enumerates root s := by
  have hserves : Serves (some root) World.init.state .root 1 [] := .root 1
  have hlist := root.preorder_eq []
  rw [hlist, List.length_cons] at hcount
  have hnew := numbered_update numbered_init []
  have hwalk : Triple (Stands 1 World.init.state [] []) (enumerateBusFrom (goodBus (some root) extra) fuel)
      (fun _ s => Enumerates root s) Never := by
    refine triple_bind (triple_mapError (E := Never) (power_stands hserves) fun _ _ h => h)
      fun _ => ?_
    refine triple_bind (Q := fun connected s => connected = true ∧
      Stands 1 World.init.state [] [] s) ?_ fun connected => triple_fact fun hconn => ?_
    · refine triple_mapError (E := Never) ?_ fun _ _ h => h
      refine triple_tryOp_never (status_stands hserves) fun w0 => triple_fact fun hrep => ?_
      refine triple_pure fun s hs => ⟨?_, hs⟩
      have hne : w0 &&& W0_CONNECTION ≠ 0 := fun h => nomatch hrep.connection.mp h
      simp [hne]
    rw [if_pos hconn]
    refine triple_bind (triple_mapError (E := Never) (enumerateChild_occupied hserves trivial
      numbered_init rfl (by omega)) fun _ _ h => h) fun dev => triple_fact fun hdev => ?_
    subst hdev
    refine triple_post (Dev.dispatch_stands (t := some root) hsize root [] 1 fuel 2 _ _ [] rfl
      (Function.update_self ..) hnew (by omega) (by omega)) ?_
    intro _ s hs
    constructor
    · rw [hs.enumerated, hlist]
      rfl
    · rw [hs.dispatched, hlist]
      rfl
    · rw [hs.probed, hlist]
      rfl
    · intro i hi
      have hstate : s.bus.state = assignFrom 1 (root.preorder []) World.init.state := by
        rw [hs.state, hlist]
        rfl
      rw [hstate]
      exact assignFrom_get (root.preorder_pairwise []) i hi
  have hrun := hwalk ⟨1, World.init, []⟩ ⟨rfl, rfl, rfl, rfl, rfl⟩
  unfold enumerateBus
  cases hr : (enumerateBusFrom (goodBus (some root) extra) fuel).run ⟨1, World.init, []⟩ with
  | error e s =>
    rw [hr] at hrun
    exact hrun.elim
  | ok u s =>
    rw [hr] at hrun
    exact ⟨s, rfl, hrun⟩

/-- On the tree every transfer and every probe comes back, with a fault or without. -/
theorem treeBus_returns (t : Topology) (faults : Nat → Fault) (e : WalkEvent World) :
    e.Returns (treeBus t faults) := by
  cases e with
  | request ep req before after failed =>
    show Bus.Returns (treeBus t faults) ep req before
    unfold Bus.Returns
    split <;> exact fun h => nomatch h
  | probed driver dev before =>
    show ((treeBus t faults).probe driver dev before).1 ≠ none
    dsimp only [treeBus]
    split <;> exact fun h => nomatch h
  | enumerated dev => trivial
  | dispatched dev => trivial

/-- **Enumeration has distinct addresses, whatever the devices do, and ends exactly when every transfer
and probe it makes comes back; without faults it enumerates and dispatches every device of the tree
once, a hub before the devices behind it, and probes those with a driver.** -/
theorem enumerateBus_enumerates {σ : Type} (bus : Bus σ) (b : σ) (root : Dev)
    (extra : Nat → Vector UInt8 4) {fuel : Nat} (hfuel : 126 ≤ fuel) :
    (enumerateBus bus fuel b = enumerateBus bus 126 b ∧ Distinct (enumerateBus bus fuel b) ∧
      (Ends (enumerateBus bus fuel b) ↔
        ∀ e ∈ (endState (enumerateBus bus fuel b)).log, e.Returns bus)) ∧
    ((∀ x ∈ root.preorder [], x.2.nports ≤ 16) → (root.preorder []).length ≤ 126 →
      (∃ s, enumerateBus (goodBus (some root) extra) fuel World.init = .ok () s ∧
        Enumerates root s) ∧
      (∀ path d, (path, d) ∈ root.preorder [] ↔ root.find path = some d) ∧
      (root.preorder []).Pairwise fun x y => ¬ y.1 <+: x.1) := by
  constructor
  · exact ⟨enumerateBus_fuel bus hfuel b, enumerateBus_addresses bus hfuel b,
      enumerateBus_ends_iff bus hfuel b⟩
  · intro hsize hcount
    exact ⟨enumerateBus_tree root extra fuel hsize hcount hfuel, mem_devices (some root),
      devices_pairwise (some root)⟩

def cameraDesc : Desc where
  device := (Vector.replicate 18 0).setIfInBounds 7 64
  config := (((Vector.replicate 64 0).setIfInBounds 0 9).setIfInBounds 1 4).setIfInBounds 5
    USB_CLASS_VIDEO
  speed := .hs

def hubDesc : Desc where
  device := ((Vector.replicate 18 0).setIfInBounds 4 USB_CLASS_HUB).setIfInBounds 7 64
  config := Vector.replicate 64 0
  speed := .hs

def camera : Dev := .function cameraDesc (by decide)

def hubWith (ports : Ports) : Dev := .hub hubDesc (by decide) (Vector.replicate 64 0) ports

/-- A camera on the first port of a hub, and one behind a hub on its second. -/
def twoCameras : Dev :=
  hubWith (.occupied camera (.occupied (hubWith (.vacant (.occupied camera .nil))) .nil))

/-- The theorem on a tree with two hubs and two cameras, with the fifth transfer failing and without. -/
theorem enumerateBus_twoCameras :
    Ends (enumerateBus (treeBus (some twoCameras) fun k =>
      ⟨if k = 5 then some .timeout else none, by split <;> decide, false, true,
        Vector.replicate 4 0⟩) 200 World.init) ∧
    ∃ s, enumerateBus (goodBus (some twoCameras) fun _ => #v[0, 1, 0, 0]) 126 World.init =
      .ok () s ∧ Enumerates twoCameras s :=
  ⟨(enumerateBus_enumerates _ World.init twoCameras (fun _ => #v[0, 1, 0, 0]) (by decide)).1.2.2.mpr
      fun e _ => treeBus_returns _ _ e,
    ((enumerateBus_enumerates (treeBus none fun _ => ⟨none, nofun, false, true, Vector.replicate 4 0⟩)
      World.init twoCameras (fun _ => #v[0, 1, 0, 0]) (by decide)).2 (by decide) (by decide)).1⟩

/-- A camera whose stream repeats a header-only packet: what the probe of its driver comes to with `n`
microframes.  It opens the camera, and is through with it when the warm-up capture is. -/
def warmUpProbe (n : Nat) : Answer Unit :=
  match Uvc.captureFrame Uvc.demoCamera (Uvc.firstUframes (fun _ => Uvc.dataUframe [2, 0]) n)
    (.start (fun _ => 0) 0xFF) with
  | .done _ _ _ => some (.ok ())
  | .waiting _ => none

/-- That camera on the root port. -/
def warmUpBus (n : Nat) : Bus World :=
  { goodBus (some camera) fun _ => Vector.replicate 4 0 with probe := fun _ _ w => (warmUpProbe n, w) }

/-- No number of microframes is enough. -/
theorem warmUpProbe_none (n : Nat) : warmUpProbe n = none := by
  have hwaits : ¬ Uvc.ReturnsWithin Uvc.demoCamera (fun _ => Uvc.dataUframe [2, 0])
      (.start (fun _ => 0) 0xFF) n := by
    have hrec : Dwc2.reception Uvc.demoCamera.iso.mps (Uvc.dataUframe [2, 0]) = .ok [2, 0] := by decide
    exact Uvc.repeated_not_returnsWithin (by decide) hrec rfl (.inl (by decide)) n
  unfold warmUpProbe
  unfold Uvc.ReturnsWithin at hwaits
  split
  · rename_i hdone
    rw [hdone] at hwaits
    exact absurd trivial hwaits
  · rfl

/-- **The run does not end** on that camera: it is probed, and never through with its first frame. -/
theorem warmUp_never_ends : ¬ ∃ n, Ends (enumerateBus (warmUpBus n) 126 World.init) := by
  rintro ⟨n, h⟩
  unfold warmUpBus at h
  rw [warmUpProbe_none] at h
  have hstuck : (match enumerateBus { goodBus (some camera) fun _ => Vector.replicate 4 0 with
        probe := fun _ _ w => (none, w) } 126 World.init with
      | .error (.halt .stuck) _ => true
      | _ => false) = true := by decide +kernel
  split at hstuck
  · rename_i s hs
    exact h.ends.2 s hs
  · cases hstuck

end Cvirtos.Usb
