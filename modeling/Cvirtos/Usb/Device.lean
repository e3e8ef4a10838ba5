import Cvirtos.Lib.Triple
import Cvirtos.Usb.Error
import Cvirtos.Lib.Index

/-!
# Devices and their enumeration at the default address

`drivers/usb/device.rs` and the control requests of `dwc2/control.rs` it is built from.

The hardware and the devices are a parameter: a `Bus` answers every request as it pleases, or not at
all, and changes its own state with each.  A run keeps the address counter, the state of the bus, and
a log of the requests it has issued and of the devices it has enumerated, dispatched and probed.
-/

set_option autoImplicit false

namespace Cvirtos.Usb

open Cvirtos.Lib

def MAX_USB_ADDR : Nat := 127
def USB_CLASS_HUB : UInt8 := 0x09
def USB_CLASS_VIDEO : UInt8 := 0x0E
def USB_DT_INTERFACE : UInt8 := 4
def QEMU_USB_HUB_VID : UInt16 := 0x0409
def QEMU_USB_HUB_PID : UInt16 := 0x55aa

/-- The control endpoint of a device: its address and packet size. -/
structure ControlEp where
  dev : Nat
  mps : Nat
  deriving DecidableEq, Repr

/-- `ControlEp::new`: at the default address. -/
def ControlEp.new (mps : Nat) : ControlEp := ⟨0, mps⟩

inductive PortFeature where
  | reset
  | power
  | connectionChange
  | resetChange
  deriving DecidableEq, Repr

/-- The requests of the tree walk. -/
inductive Request where
  | getDescriptorDevice
  | getDescriptorConfiguration
  | setAddress (addr : Nat)
  | setConfiguration (cfg : UInt8)
  | getHubDescriptor
  | getPortStatus (port : Nat)
  | setPortFeature (port : Nat) (feature : PortFeature)
  | clearPortFeature (port : Nat) (feature : PortFeature)
  deriving DecidableEq, Repr

/-- The bytes a request reads, if it reads any. -/
def Request.readLen : Request → Option Nat
  | .getDescriptorDevice => some 18
  | .getDescriptorConfiguration => some 64
  | .getHubDescriptor => some 64
  | .getPortStatus _ => some 4
  | _ => none

inductive PortSpeed where
  | hs
  | fs
  | ls
  deriving DecidableEq, Repr

/-- `PortSpeed::from_status`. -/
def PortSpeed.fromStatus (status : UInt16) : PortSpeed :=
  let spd := (status >>> 9) &&& 3
  if spd = 0 then .fs else if spd = 1 then .ls else .hs

structure UsbDevice where
  controlEp : ControlEp
  vid : UInt16
  pid : UInt16
  devClass : UInt8
  ifaceClass : UInt8
  speed : PortSpeed
  deriving DecidableEq, Repr

/-- `UsbDevice::is_hub`. -/
def UsbDevice.isHub (d : UsbDevice) : Bool :=
  d.devClass == USB_CLASS_HUB || (d.vid == QEMU_USB_HUB_VID && d.pid == QEMU_USB_HUB_PID)

/-- A class driver; what its `probe` does is up to the bus. -/
structure DeviceDriver where
  name : String
  isMatch : UsbDevice → Bool

def UvcCameraDriver : DeviceDriver := ⟨"uvc-camera", fun d => d.ifaceClass == USB_CLASS_VIDEO⟩

def DRIVERS : List DeviceDriver := [UvcCameraDriver]

/-- The fields of `HPRT0` the root hub reads. -/
structure Hprt0 where
  connSts : Bool
  connDet : Bool
  ena : Bool
  rst : Bool
  spd : Fin 4
  deriving DecidableEq, Repr

/-- What comes of a call: a result, or none if it panics or does not return. -/
abbrev Answer (α : Type) := Option (UsbResult α)

/-- The hardware and the devices, with states `σ`. -/
structure Bus (σ : Type) where
  /-- A control read of `n` bytes. -/
  read : ControlEp → Request → (n : Nat) → σ → Answer (Vector UInt8 n) × σ
  /-- A control transfer without data. -/
  writeNoData : ControlEp → Request → σ → Answer Unit × σ
  /-- One read of `HPRT0`. -/
  hprt0 : σ → Hprt0 × σ
  /-- `hprt0_port(true, false)`: power on the root port. -/
  hprt0Power : σ → σ
  /-- `port_reset_pulse`. -/
  portResetPulse : σ → σ
  /-- `HPRT0.CONNDET` written back. -/
  clearConnDet : σ → σ
  /-- `probe` of a class driver. -/
  probe : DeviceDriver → UsbDevice → σ → Answer Unit × σ
  /-- How often the root port is polled before the time to wait for a connection is over. -/
  polls : Nat

/-- What a run leaves in its log. -/
inductive WalkEvent (σ : Type) where
  /-- A request, with the bus before and after it; one that does not return has failed. -/
  | request (ep : ControlEp) (req : Request) (before after : σ) (failed : Bool)
  | enumerated (dev : UsbDevice)
  | dispatched (dev : UsbDevice)
  /-- A driver's probe, with the bus before it. -/
  | probed (driver : DeviceDriver) (dev : UsbDevice) (before : σ)

/-- The state of a run. -/
structure St (σ : Type) where
  nextAddr : Nat
  bus : σ
  log : List (WalkEvent σ)

/-- How a part of the run ends that returns no value. -/
inductive Halt where
  /-- `Err(e)`. -/
  | error (e : UsbError)
  /-- A transfer or a driver's probe panics, or does not return. -/
  | stuck
  deriving DecidableEq, Repr

/-- A part of the run that may fail. -/
abbrev Op (σ α : Type) := EStateM Halt (St σ) α

section

variable {σ α : Type}

/-- `Err(e)`. -/
def failWith (e : UsbError) : Op σ α := throw (.error e)

/-- The result of `x`, whose error is looked at.  What is stuck stays so. -/
def tryOp (x : Op σ α) : Op σ (UsbResult α) := fun s =>
  match x s with
  | .ok a s => .ok (.ok a) s
  | .error (.error e) s => .ok (.error e) s
  | .error .stuck s => .error .stuck s

/-- **The rule of a result that is looked at.** -/
theorem triple_tryOp {x : Op σ α} {P : St σ → Prop} {Q : α → St σ → Prop}
    {E T : Halt → St σ → Prop} (hx : Triple P x Q E) (hT : ∀ s, E .stuck s → T .stuck s) :
    Triple P (tryOp x) (fun r s => match r with | .ok a => Q a s | .error e => E (.error e) s) T := by
  intro s hs
  have h := hx s hs
  have hrun : (tryOp x).run s =
      match x.run s with
      | .ok a s => .ok (.ok a) s
      | .error (.error e) s => .ok (.error e) s
      | .error .stuck s => .error .stuck s := rfl
  rw [hrun]
  cases hr : x.run s with
  | ok a s' =>
    rw [hr] at h
    exact h
  | error e s' =>
    rw [hr] at h
    cases e with
    | error e => exact h
    | stuck => exact hT s' h

/-- A result that is looked at, of a part that always returns a value. -/
theorem triple_tryOp_never {β : Type} {x : Op σ α} {f : UsbResult α → Op σ β} {P : St σ → Prop}
    {Q : α → St σ → Prop} {R : β → St σ → Prop} {T : Halt → St σ → Prop}
    (hx : Triple P x Q Never) (hf : ∀ a, Triple (Q a) (f (.ok a)) R T) :
    Triple P (tryOp x >>= f) R T := by
  refine triple_bind (triple_tryOp hx fun s h => h.elim) fun r => ?_
  cases r with
  | ok a => exact hf a
  | error e => exact fun s hs => hs.elim

def logEvent (e : WalkEvent σ) : Op σ Unit := fun s => .ok () { s with log := s.log ++ [e] }

/-- A request and its answer. -/
def transfer (ep : ControlEp) (req : Request) (answer : σ → Answer α × σ) : Op σ α := fun s =>
  match answer s.bus with
  | (some (.ok a), b) => .ok a { s with bus := b, log := s.log ++ [.request ep req s.bus b false] }
  | (some (.error e), b) =>
    .error (.error e) { s with bus := b, log := s.log ++ [.request ep req s.bus b true] }
  | (none, b) => .error .stuck { s with bus := b, log := s.log ++ [.request ep req s.bus b true] }

/-- The state once a request has been answered. -/
def St.after (s : St σ) (ep : ControlEp) (req : Request) (b : σ) (failed : Bool) : St σ :=
  { s with bus := b, log := s.log ++ [.request ep req s.bus b failed] }

/-- **The rule of a request.** -/
theorem triple_transfer {ep : ControlEp} {req : Request} {answer : σ → Answer α × σ}
    {P : St σ → Prop} {Q : α → St σ → Prop} {E : Halt → St σ → Prop}
    (hok : ∀ s a b, P s → answer s.bus = (some (.ok a), b) → Q a (s.after ep req b false))
    (herror : ∀ s e b, P s → answer s.bus = (some (.error e), b) →
      E (.error e) (s.after ep req b true))
    (hstuck : ∀ s b, P s → answer s.bus = (none, b) → E .stuck (s.after ep req b true)) :
    Triple P (transfer ep req answer) Q E := by
  intro s h
  have hrun : (transfer ep req answer).run s =
      match answer s.bus with
      | (some (.ok a), b) => .ok a (s.after ep req b false)
      | (some (.error e), b) => .error (.error e) (s.after ep req b true)
      | (none, b) => .error .stuck (s.after ep req b true) := rfl
  rw [hrun]
  rcases ha : answer s.bus with ⟨_ | e | a, b⟩
  · exact hstuck s b h ha
  · exact herror s e b h ha
  · exact hok s a b h ha

/-- `probe` of a class driver. -/
def DeviceDriver.probe (bus : Bus σ) (driver : DeviceDriver) (dev : UsbDevice) : Op σ Unit :=
  fun s =>
    match bus.probe driver dev s.bus with
    | (some (.ok ()), b) =>
      .ok () { s with bus := b, log := s.log ++ [.probed driver dev s.bus] }
    | (some (.error e), b) =>
      .error (.error e) { s with bus := b, log := s.log ++ [.probed driver dev s.bus] }
    | (none, b) => .error .stuck { s with bus := b, log := s.log ++ [.probed driver dev s.bus] }

/-- The state once a driver has probed. -/
def St.probed (s : St σ) (driver : DeviceDriver) (dev : UsbDevice) (b : σ) : St σ :=
  { s with bus := b, log := s.log ++ [.probed driver dev s.bus] }

/-- **The rule of a driver's probe.** -/
theorem triple_probe {bus : Bus σ} {driver : DeviceDriver} {dev : UsbDevice}
    {P : St σ → Prop} {Q : Unit → St σ → Prop} {E : Halt → St σ → Prop}
    (hok : ∀ s b, P s → bus.probe driver dev s.bus = (some (.ok ()), b) →
      Q () (s.probed driver dev b))
    (herror : ∀ s e b, P s → bus.probe driver dev s.bus = (some (.error e), b) →
      E (.error e) (s.probed driver dev b))
    (hstuck : ∀ s b, P s → bus.probe driver dev s.bus = (none, b) →
      E .stuck (s.probed driver dev b)) :
    Triple P (driver.probe bus dev) Q E := by
  intro s h
  have hrun : (driver.probe bus dev).run s =
      match bus.probe driver dev s.bus with
      | (some (.ok ()), b) => .ok () (s.probed driver dev b)
      | (some (.error e), b) => .error (.error e) (s.probed driver dev b)
      | (none, b) => .error .stuck (s.probed driver dev b) := rfl
  rw [hrun]
  rcases ha : bus.probe driver dev s.bus with ⟨_ | e | ⟨⟩, b⟩
  · exact hstuck s b h ha
  · exact herror s e b h ha
  · exact hok s b h ha

/-- An access to the controller, which cannot fail. -/
def access (f : σ → α × σ) : Op σ α := fun s => .ok (f s.bus).1 { s with bus := (f s.bus).2 }

variable (bus : Bus σ)

def ControlEp.read (ep : ControlEp) (req : Request) (n : Nat) : Op σ (Vector UInt8 n) :=
  transfer ep req (bus.read ep req n)

def ControlEp.writeNoData (ep : ControlEp) (req : Request) : Op σ Unit :=
  transfer ep req (bus.writeNoData ep req)

/-- `normalize_ep0_mps`. -/
def normalizeEp0Mps (b : UInt8) : Nat :=
  if b = 8 ∨ b = 16 ∨ b = 32 ∨ b = 64 then b.toNat else 8

/-- What the device descriptor says. -/
structure Identity where
  vid : UInt16
  pid : UInt16
  mps : Nat
  devClass : UInt8

/-- The fields of an 18-byte device descriptor. -/
def Identity.ofDescriptor (buf : Vector UInt8 18) : Identity where
  vid := buf[8].toUInt16 ||| buf[9].toUInt16 <<< 8
  pid := buf[10].toUInt16 ||| buf[11].toUInt16 <<< 8
  mps := normalizeEp0Mps buf[7]
  devClass := buf[4]

/-- `ControlEp::probe_default_addr`. -/
def probeDefaultAddr : Op σ Identity := do
  let buf ← (ControlEp.new 64).read bus .getDescriptorDevice 18
  return .ofDescriptor buf

/-- `ControlEp::set_address`: the endpoint at its new address. -/
def ControlEp.setAddress (ep : ControlEp) (addr : Nat) : Op σ ControlEp :=
  if ep.dev ≠ 0 then failWith (.protocol "set_address on non-default address")
  else do
    ep.writeNoData bus (.setAddress addr)
    return { ep with dev := addr }

/-- The descriptor chain of `first_interface_class`, from `i` on. -/
def interfaceClassFrom (buf : Vector UInt8 64) : Nat → Nat → UInt8
  | 0, _ => 0
  | turns + 1, i =>
    if h : i + 2 ≤ 64 then
      let bl := buf[i].toNat
      if bl < 2 ∨ i + bl > 64 then 0
      else if h' : buf[i + 1] = USB_DT_INTERFACE ∧ i + 6 ≤ 64 then
        have := h'.2
        buf[i + 5]
      else interfaceClassFrom buf turns (i + bl)
    else 0

/-- A turn moves on by two bytes at least, so once the chain's end is in reach a further turn
changes nothing. -/
theorem interfaceClassFrom_turns (buf : Vector UInt8 64) {turns i : Nat}
    (h : 64 < i + 2 * turns + 2) :
    interfaceClassFrom buf (turns + 1) i = interfaceClassFrom buf turns i := by
  induction turns generalizing i with
  | zero => exact dif_neg (by omega)
  | succ turns ih =>
      by_cases hi : i + 2 ≤ 64
      · refine (dif_pos hi).trans (.trans ?_ (dif_pos hi).symm)
        by_cases hbl : buf[i].toNat < 2 ∨ i + buf[i].toNat > 64
        · exact (if_pos hbl).trans (if_pos hbl).symm
        · refine (if_neg hbl).trans (.trans ?_ (if_neg hbl).symm)
          rw [ih (by omega)]
      · have hzero : ∀ k, interfaceClassFrom buf (k + 1) i = 0 := fun _ => dif_neg hi
        rw [hzero, hzero]

/-- The class of the first interface descriptor, 0 if there is none. -/
def interfaceClass (buf : Vector UInt8 64) : UInt8 := interfaceClassFrom buf 32 0

/-- `ControlEp::first_interface_class`. -/
def ControlEp.firstInterfaceClass (ep : ControlEp) : Op σ UInt8 := do
  let buf ← ep.read bus .getDescriptorConfiguration 64
  return interfaceClass buf

/-- `*next_addr`, moved on. -/
def takeAddr : Op σ Nat := fun s =>
  if s.nextAddr ≥ MAX_USB_ADDR then .error (.error (.protocol "usb address space full")) s
  else .ok s.nextAddr { s with nextAddr := min (s.nextAddr + 1) 255 }

theorem takeAddr_run (s : St σ) :
    takeAddr.run s =
      if s.nextAddr ≥ MAX_USB_ADDR then .error (.error (.protocol "usb address space full")) s
      else .ok s.nextAddr { s with nextAddr := min (s.nextAddr + 1) 255 } := rfl

/-- `UsbDevice::enumerate`. -/
def UsbDevice.enumerate (speed : PortSpeed) : Op σ UsbDevice := do
  let id ← probeDefaultAddr bus
  let addr ← takeAddr
  let ep ← (ControlEp.new id.mps).setAddress bus addr
  ep.writeNoData bus (.setConfiguration 1)
  let class? ← tryOp (ep.firstInterfaceClass bus)
  let dev : UsbDevice := ⟨ep, id.vid, id.pid, id.devClass, class?.toOption.getD 0, speed⟩
  logEvent (.enumerated dev)
  return dev

end

end Cvirtos.Usb
