import Cvirtos.Usb.DeviceTree
import Mathlib.Logic.Function.Basic

/-!
# A bus with a tree of devices

The topology the walk explores, as the bus the walk is run on.  A device is attached, at the default
address once its port has been reset, or at an address of its own.  A pattern of faults says of each
request in turn whether it fails, whether a failing one takes effect all the same, and whether a reset
brings the device up.
-/

set_option autoImplicit false

namespace Cvirtos.Usb

open Cvirtos.Lib

inductive DevState where
  | attached
  /-- Reset and enabled, and not yet given an address. -/
  | default
  | addressed (addr : Nat)
  deriving DecidableEq, Repr

/-- The device answers requests to the address. -/
def DevState.answers (addr : Nat) : DevState → Bool
  | .attached => false
  | .default => addr == 0
  | .addressed a => addr == a

/-- The state of each device, and how many requests there have been. -/
structure World where
  state : Path → DevState
  clock : Nat

def World.init : World := ⟨fun _ => .attached, 0⟩

def World.tick (w : World) : World := { w with clock := w.clock + 1 }

def World.set (w : World) (path : Path) (st : DevState) : World :=
  { w with state := fun p => if p = path then st else w.state p }

/-- How a request goes. -/
structure Fault where
  error : Option UsbError
  /-- No request fails with the soft signal of the walk. -/
  hard : error ≠ some .notPresent
  /-- A failing request takes effect all the same. -/
  effect : Bool
  /-- A reset brings the device up. -/
  comesUp : Bool
  /-- The rest of the port status, should it be asked for. -/
  extra : Vector UInt8 4

/-- All goes well. -/
def Fault.none (extra : Vector UInt8 4) : Fault := ⟨.none, by decide, true, true, extra⟩

section

variable (t : Topology)

/-- The device that answers requests to the address. -/
def Topology.responder (state : Path → DevState) (addr : Nat) : Option (Path × Dev) :=
  t.devices.find? fun x => (state x.1).answers addr

/-- The first `n` bytes of a descriptor. -/
def bytes {m : Nat} (v : Vector UInt8 m) (n : Nat) : Vector UInt8 n :=
  Vector.ofFn fun i => v[i.1]?.getD 0

/-- A hub descriptor: its length is seven bytes at least. -/
def hubDescriptor (nports : Nat) (rest : Vector UInt8 64) : Vector UInt8 64 :=
  ((rest.setIfInBounds 0 (if rest.get 0 < 7 then 7 else rest.get 0)).setIfInBounds 1
    USB_DT_HUB).setIfInBounds 2 (.ofNat nports)

def PortSpeed.bits : PortSpeed → UInt8
  | .fs => 0
  | .ls => 1
  | .hs => 2

/-- A port's status and changes: `CONNECTION` and `ENABLE` in the first byte and the speed in the
second are what they are, and the rest is what it may be. -/
def portStatus (extra : Vector UInt8 4) (state : DevState) : Option Dev → Vector UInt8 4
  | none => extra.setIfInBounds 0 (extra.get 0 &&& 0xfc)
  | some d =>
    (extra.setIfInBounds 0 (extra.get 0 &&& 0xfc ||| if state = .attached then 1 else 3)).setIfInBounds
      1 (extra.get 1 &&& (0xf9 : UInt8) ||| d.desc.speed.bits <<< 1)

/-- What the device at `path` answers to a read. -/
def Dev.answer (d : Dev) (path : Path) (f : Fault) (state : Path → DevState) (n : Nat) :
    Request → UsbResult (Vector UInt8 n)
  | .getDescriptorDevice => .ok (bytes d.desc.device n)
  | .getDescriptorConfiguration => .ok (bytes d.desc.config n)
  | .getHubDescriptor =>
    match d with
    | .hub _ _ hubDesc ports => .ok (bytes (hubDescriptor ports.length hubDesc) n)
    | .function _ _ => .error .stall
  | .getPortStatus port =>
    .ok (bytes (portStatus f.extra (state (path ++ [port])) (d.child port)) n)
  | _ => .error .stall

/-- What a transfer without data does when it takes effect. -/
def Dev.effect (d : Dev) (path : Path) (f : Fault) (w : World) : Request → World
  | .setAddress addr =>
    { w with state := fun p => if w.state p = .default then .addressed addr else w.state p }
  | .setPortFeature port .reset =>
    match d.child port with
    | some _ => w.set (path ++ [port]) (if f.comesUp then .default else .attached)
    | none => w
  | _ => w

/-- A read under the given fault. -/
def Topology.read (f : Fault) (ep : ControlEp) (req : Request) (n : Nat) (w : World) :
    UsbResult (Vector UInt8 n) :=
  match f.error with
  | some e => .error e
  | none =>
    match t.responder w.state ep.dev with
    | none => .error .timeout
    | some (path, d) => d.answer path f w.state n req

/-- A transfer without data under the given fault. -/
def Topology.write (f : Fault) (ep : ControlEp) (req : Request) (w : World) :
    UsbResult Unit × World :=
  match t.responder w.state ep.dev with
  | none => (.error .timeout, w)
  | some (path, d) =>
    match f.error with
    | some e => (.error e, if f.effect then d.effect path f w req else w)
    | none => (.ok (), d.effect path f w req)

/-- `HPRT0` with the tree on the root port. -/
def Topology.hprt0 (w : World) : Hprt0 where
  connSts := t.isSome
  connDet := t.isSome
  ena := t.isSome && w.state [] != .attached
  rst := false
  spd := match t with
    | none => 0
    | some d => match d.desc.speed with
      | .hs => 0
      | .fs => 1
      | .ls => 2

/-- **The bus with the tree on its root port**, where every transfer and every probe returns. -/
def treeBus (faults : Nat → Fault) : Bus World where
  read ep req n w := (some (t.read (faults w.clock) ep req n w), w.tick)
  writeNoData ep req w :=
    (some (t.write (faults w.clock) ep req w).1, (t.write (faults w.clock) ep req w).2.tick)
  hprt0 w := (t.hprt0 w, w)
  hprt0Power w := w
  portResetPulse w :=
    match t with
    | none => w.tick
    | some _ => (w.set [] (if (faults w.clock).comesUp then .default else .attached)).tick
  clearConnDet w := w
  probe _ _ w :=
    match (faults w.clock).error with
    | some e => (some (.error e), w.tick)
    | none => (some (.ok ()), w.tick)
  -- the tree stays as it is, so further polls see what the first one sees
  polls := 0

/-! ## Who answers, and what a port reports -/

variable {t}

theorem responder_at {state : Path → DevState} {addr : Nat} {path : Path} {d : Dev}
    (h : t.responder state addr = some (path, d)) : t.at path = some d := by
  unfold Topology.responder at h
  exact (mem_devices t path d).mp (List.mem_of_find?_eq_some h)

/-- The only device that answers is the one that does. -/
theorem responder_eq {state : Path → DevState} {addr : Nat} {path : Path} {d : Dev}
    (hat : t.at path = some d) (hans : (state path).answers addr = true)
    (huniq : ∀ p, (state p).answers addr = true → p = path) :
    t.responder state addr = some (path, d) := by
  unfold Topology.responder
  cases hf : t.devices.find? fun x => (state x.1).answers addr with
  | none =>
    have hno := List.find?_eq_none.mp hf (path, d) ((mem_devices t path d).mpr hat)
    exact absurd hans hno
  | some x =>
    obtain ⟨p, e⟩ := x
    have hp : p = path := huniq p (by simpa using List.find?_some hf)
    have he := (mem_devices t p e).mp (List.mem_of_find?_eq_some hf)
    rw [hp, hat] at he
    cases he
    rw [hp]

/-- What a status word says of a port, with the device behind it in the given state. -/
structure Reports (w0 : UInt16) (state : DevState) (child : Option Dev) : Prop where
  connection : w0 &&& W0_CONNECTION = 0 ↔ child = none
  enable : w0 &&& W0_ENABLE = 0 ↔ child = none ∨ state = .attached
  speed : ∀ d, child = some d → PortSpeed.fromStatus w0 = d.desc.speed

theorem bytes_self {m : Nat} (v : Vector UInt8 m) : bytes v m = v := by
  ext i hi
  simp [bytes]

theorem statusWord_low (lo hi mask : UInt8) :
    (lo.toUInt16 ||| hi.toUInt16 <<< 8) &&& mask.toUInt16 = (lo &&& mask).toUInt16 := by
  apply UInt16.toBitVec_inj.mp
  refine BitVec.eq_of_getLsbD_eq fun i hi => ?_
  by_cases h : i < 8
  · simp [h]
  · have := mask.toBitVec.getLsbD_of_ge i (by omega)
    simp_all

theorem statusWord_speed (lo hi : UInt8) :
    ((lo.toUInt16 ||| hi.toUInt16 <<< 8) >>> 9) &&& (3 : UInt16) = ((hi &&& 6) >>> 1).toUInt16 := by
  have h3 : ∀ i < 16, (3#16).getLsbD i = decide (i < 2) := by decide
  have h6 : ∀ i < 16, (6#16).getLsbD (1 + i) = decide (i < 2) := by decide
  apply UInt16.toBitVec_inj.mp
  refine BitVec.eq_of_getLsbD_eq fun i hi => ?_
  specialize h3 i hi
  specialize h6 i hi
  by_cases h : i < 2
  · have hbit : 9 + i - 8 = 1 + i := by omega
    simp only [h, decide_true] at h3 h6
    simp [h3, h6, hbit]
    grind
  · simp only [h, decide_false] at h3 h6
    simp [h3, h6]

/-- What is put in under the mask's complement is what is read there. -/
theorem masked_and (x m v b : UInt8) (h : m &&& b = 0) : (x &&& m ||| v) &&& b = v &&& b := by
  apply UInt8.toBitVec_inj.mp
  have h' : m.toBitVec &&& b.toBitVec = 0 := congrArg UInt8.toBitVec h
  show (x.toBitVec &&& m.toBitVec ||| v.toBitVec) &&& b.toBitVec = v.toBitVec &&& b.toBitVec
  rw [BitVec.and_or_distrib_right, BitVec.and_assoc, h']
  simp

theorem reports_portStatus (extra : Vector UInt8 4) (state : DevState) (child : Option Dev) :
    let buf := bytes (portStatus extra state child) 4
    Reports ((buf.get 0).toUInt16 ||| (buf.get 1).toUInt16 <<< 8) state child := by
  intro buf
  change Reports (buf[0].toUInt16 ||| buf[1].toUInt16 <<< 8) state child
  cases child with
  | none =>
    have h0 : buf[0] = extra[0] &&& 0xfc := by simp [buf, bytes_self, portStatus]
    have hzero : ∀ mask : UInt8, 0xfc &&& mask = 0 →
        (buf[0].toUInt16 ||| buf[1].toUInt16 <<< 8) &&& mask.toUInt16 = 0 := by
      intro mask hmask
      rw [statusWord_low, h0, UInt8.and_assoc, hmask, UInt8.and_zero]
      rfl
    exact ⟨⟨fun _ => rfl, fun _ => hzero 1 rfl⟩, ⟨fun _ => Or.inl rfl, fun _ => hzero 2 rfl⟩,
      fun _ h => by cases h⟩
  | some d =>
    have h0 : buf[0] = extra[0] &&& 0xfc ||| (if state = .attached then 1 else 3) := by
      simp [buf, bytes_self, portStatus]
    have h1 : buf[1] = extra[1] &&& (0xf9 : UInt8) ||| d.desc.speed.bits <<< 1 := by
      simp [buf, bytes_self, portStatus]
    have hflag : ∀ mask : UInt8, 0xfc &&& mask = 0 →
        (buf[0].toUInt16 ||| buf[1].toUInt16 <<< 8) &&& mask.toUInt16 =
          ((if state = .attached then 1 else 3) &&& mask).toUInt16 := by
      intro mask hmask
      rw [statusWord_low, h0, masked_and _ _ _ _ hmask]
    have hconn := hflag 1 rfl
    have hen := hflag 2 rfl
    refine ⟨⟨fun h => ?_, fun h => by cases h⟩, ⟨fun h => ?_, ?_⟩, ?_⟩
    · have h := hconn.symm.trans h
      split at h <;> cases h
    · have h := hen.symm.trans h
      by_contra hst
      rw [if_neg fun hatt => hst (Or.inr hatt)] at h
      cases h
    · rintro (h | h)
      · cases h
      · rw [if_pos h] at hen
        exact hen
    · rintro _ ⟨⟩
      unfold PortSpeed.fromStatus
      rw [statusWord_speed, h1, masked_and _ _ _ _ rfl]
      cases d.desc.speed <;> rfl

/-- The root port's status word, from one view of `HPRT0`. -/
def hprt0Word (p : Hprt0) : UInt16 :=
  (if p.connSts then W0_CONNECTION else 0) ||| (if p.ena then W0_ENABLE else 0) |||
    (if p.rst then W0_RESET else 0) ||| Hub.rootSpeed p.spd <<< 9

theorem reports_hprt0 (w : World) : Reports (hprt0Word (t.hprt0 w)) (w.state []) (t.at []) := by
  cases t with
  | none =>
    have hword : hprt0Word (Topology.hprt0 none w) = (2 : UInt16) <<< 9 := by
      show hprt0Word ⟨false, false, false, false, 0⟩ = _
      decide
    rw [hword]
    refine ⟨⟨fun _ => rfl, fun _ => by decide⟩, ⟨fun _ => Or.inl rfl, fun _ => by decide⟩, ?_⟩
    intro d hd
    cases hd
  | some d =>
    have hview : Topology.hprt0 (some d) w = ⟨true, true, w.state [] != .attached, false,
        match d.desc.speed with | .hs => 0 | .fs => 1 | .ls => 2⟩ := by
      unfold Topology.hprt0
      rw [Option.isSome_some, Bool.true_and]
    have hall : ∀ speed : PortSpeed, ∀ ena : Bool,
        let word := hprt0Word ⟨true, true, ena, false,
          match speed with | .hs => 0 | .fs => 1 | .ls => 2⟩
        word &&& W0_CONNECTION ≠ 0 ∧ (word &&& W0_ENABLE = 0 ↔ ena = false) ∧
          PortSpeed.fromStatus word = speed := by
      intro speed ena
      cases speed <;> cases ena <;> decide
    obtain ⟨hconn, hen, hspeed⟩ := hall d.desc.speed (w.state [] != .attached)
    rw [hview]
    refine ⟨⟨fun h => absurd h hconn, fun h => nomatch h⟩, ⟨?_, ?_⟩, ?_⟩
    · intro h
      exact Or.inr (by simpa using hen.mp h)
    · rintro (h | h)
      · cases h
      · exact hen.mpr (by simp [h])
    · rintro _ ⟨⟩
      exact hspeed

/-- The hub's port leads to the place `path`. -/
inductive Serves (t : Topology) (state : Path → DevState) : Hub → Nat → Path → Prop where
  | root (port : Nat) : Serves t state .root port []
  | device {hub : DeviceHub} {path : Path} {d : Dev} (port : Nat)
      (h : t.responder state hub.controlEp.dev = some (path, d)) :
      Serves t state (.device hub) port (path ++ [port])

theorem World.set_state (w : World) (path : Path) (st : DevState) :
    (w.set path st).state = Function.update w.state path st := by
  funext p
  exact (Function.update_apply w.state path st p).symm

/-- An external hub has an address of its own. -/
def Hub.Addressed : Hub → Prop
  | .root => True
  | .device hub => hub.controlEp.dev ≠ 0

/-- **The port still leads to the same place** once the device there has been reset. -/
theorem serves_reset {state : Path → DevState} {hub : Hub} {port : Nat} {q : Path}
    (h : Serves t state hub port q) (haddr : hub.Addressed) {x : DevState}
    (hx : ∀ addr, x.answers addr = true → addr = 0) :
    Serves t (Function.update state q x) hub port q := by
  cases h with
  | root => exact .root port
  | @device hub path d _ hresp =>
    refine .device (d := d) port ?_
    unfold Topology.responder at hresp ⊢
    obtain ⟨hans, as, bs, hlist, hbefore⟩ := List.find?_eq_some_iff_append.mp hresp
    refine List.find?_eq_some_iff_append.mpr ⟨?_, as, bs, hlist, fun a ha => ?_⟩
    · have hne : path ≠ path ++ [port] := by simp
      rw [Function.update_of_ne hne]
      exact hans
    · by_cases hq : a.1 = path ++ [port]
      · rw [hq, Function.update_self]
        cases hxa : x.answers hub.controlEp.dev with
        | true => exact absurd (hx _ hxa) haddr
        | false => rfl
      · rw [Function.update_of_ne hq]
        exact hbefore a ha

end

end Cvirtos.Usb
