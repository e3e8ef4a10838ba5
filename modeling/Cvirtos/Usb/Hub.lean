import Cvirtos.Usb.Device

/-!
# Hubs and the walk over the bus

`drivers/usb/hub.rs` and `drivers/usb/root.rs`: the port operations of the root hub and of external
hubs, the enumeration of the device behind a port, and the recursion over the tree.

The source bounds the recursion by nothing but the address counter.  Here `dispatch` has `fuel`; a
run that needs more ends in `Stop.fuel`.
-/

set_option autoImplicit false

namespace Cvirtos.Usb

open Cvirtos.Lib

def W0_CONNECTION : UInt16 := 1
def W0_ENABLE : UInt16 := (1 : UInt16) <<< 1
def W0_RESET : UInt16 := (1 : UInt16) <<< 4
def USB_DT_HUB : UInt8 := 0x29
def MAX_HUB_PORTS : Nat := 16

structure DeviceHub where
  controlEp : ControlEp
  nports : Nat
  pwrOnPwrGoodMs : Nat
  deriving DecidableEq, Repr

/-- The two implementations of the `Hub` trait. -/
inductive Hub where
  | root
  | device (hub : DeviceHub)
  deriving DecidableEq, Repr

/-- How a run ends early. -/
inductive Stop where
  | halt (h : Halt)
  | fuel
  deriving DecidableEq, Repr

/-- A part of the run that recurses. -/
abbrev Walk (σ α : Type) := EStateM Stop (St σ) α

section

variable {σ : Type} (bus : Bus σ)

/-- `DeviceHub::new`. -/
def DeviceHub.new (ep : ControlEp) : Op σ DeviceHub := do
  let buf ← ep.read bus .getHubDescriptor 64
  if buf[0] < 7 ∨ buf[1] ≠ USB_DT_HUB then failWith (.protocol "invalid hub descriptor")
  else return ⟨ep, min buf[2].toNat MAX_HUB_PORTS, buf[5].toNat * 2⟩

namespace Hub

def nports : Hub → Nat
  | .root => 1
  | .device hub => hub.nports

/-- `port_power`. -/
def portPower (port : Nat) : Hub → Op σ Unit
  | .root => access fun b => ((), bus.hprt0Power b)
  | .device hub => hub.controlEp.writeNoData bus (.setPortFeature port .power)

/-- The speed bits of the root port's status. -/
def rootSpeed (spd : Fin 4) : UInt16 := if spd = 0 then 2 else if spd = 1 then 0 else 1

/-- `port_status_w0`. -/
def portStatusW0 (port : Nat) : Hub → Op σ UInt16
  | .root => do
    let conn ← access bus.hprt0
    let ena ← access bus.hprt0
    let rst ← access bus.hprt0
    let spd ← access bus.hprt0
    return (if conn.connSts then W0_CONNECTION else 0) ||| (if ena.ena then W0_ENABLE else 0) |||
      (if rst.rst then W0_RESET else 0) ||| rootSpeed spd.spd <<< 9
  | .device hub => do
    let buf ← hub.controlEp.read bus (.getPortStatus port) 4
    return buf[0].toUInt16 ||| buf[1].toUInt16 <<< 8

/-- `reset_port`. -/
def resetPort (port : Nat) : Hub → Op σ Unit
  | .root => access fun b => ((), bus.portResetPulse b)
  | .device hub => hub.controlEp.writeNoData bus (.setPortFeature port .reset)

/-- `clear_connection_change`. -/
def clearConnectionChange (port : Nat) : Hub → Op σ Unit
  | .root => do
    let p ← access bus.hprt0
    if p.connDet then access fun b => ((), bus.clearConnDet b) else return ()
  | .device hub => hub.controlEp.writeNoData bus (.clearPortFeature port .connectionChange)

/-- `clear_reset_change`. -/
def clearResetChange (port : Nat) : Hub → Op σ Unit
  | .root => return ()
  | .device hub => hub.controlEp.writeNoData bus (.clearPortFeature port .resetChange)

variable (hub : Hub)

/-- `wait_connect`: `polls` polls find the time not yet over. -/
def waitConnect (port : Nat) : Nat → Op σ Bool
  | 0 => do
    let w0 ← tryOp (hub.portStatusW0 bus port)
    match w0 with
    | .ok w0 => return (w0 &&& W0_CONNECTION ≠ 0)
    | .error _ => return false
  | polls + 1 => do
    let w0 ← tryOp (hub.portStatusW0 bus port)
    match w0 with
    | .ok w0 => if w0 &&& W0_CONNECTION ≠ 0 then return true else waitConnect port polls
    | .error _ => waitConnect port polls

/-- `connect_reset_sequence`. -/
def connectResetSequence (port : Nat) : Op σ Unit := do
  hub.clearConnectionChange bus port
  hub.resetPort bus port
  hub.clearResetChange bus port

/-- The second half of `enumerate_child`, once the port has been reset. -/
def enumerateReset (port : Nat) : Op σ UsbDevice := do
  let after ← tryOp (hub.portStatusW0 bus port)
  match after with
  | .error _ => failWith .notPresent
  | .ok after =>
    if after &&& W0_ENABLE = 0 then failWith .notPresent
    else UsbDevice.enumerate bus (.fromStatus after)

/-- `enumerate_child`. -/
def enumerateChild (port : Nat) : Op σ UsbDevice := do
  let w0 ← tryOp (hub.portStatusW0 bus port)
  match w0 with
  | .error _ => failWith .notPresent
  | .ok w0 =>
    if w0 &&& W0_CONNECTION = 0 then failWith .notPresent
    else do
      let reset ← tryOp (hub.connectResetSequence bus port)
      match reset with
      | .error _ => failWith .notPresent
      | .ok () => hub.enumerateReset bus port

/-- A port without a connection is powered; a failure is only logged. -/
def powerPort (port : Nat) : Op σ Unit := do
  let w0 ← tryOp (hub.portStatusW0 bus port)
  match w0 with
  | .ok w0 =>
    if w0 &&& W0_CONNECTION ≠ 0 then return ()
    else do
      let _ ← tryOp (hub.portPower bus port)
      return ()
  | .error _ => do
    let _ ← tryOp (hub.portPower bus port)
    return ()

/-- The device behind a port, if there is one, is enumerated and dispatched. -/
def visitPort (dispatch : UsbDevice → Walk σ Unit) (port : Nat) : Walk σ Unit := do
  let child ← attempt (hub.enumerateChild bus port)
  match child with
  | .ok child => dispatch child
  | .error (.error .notPresent) => return ()
  | .error e => throw (.halt e)

/-- `walk_subtree`. -/
def walkSubtree (dispatch : UsbDevice → Walk σ Unit) : Walk σ Unit := do
  mapError .halt (forCount 1 hub.nports (hub.powerPort bus))
  forCount 1 hub.nports (hub.visitPort bus dispatch)

end Hub

/-- `UsbDevice::dispatch`. -/
def UsbDevice.dispatch : Nat → UsbDevice → Walk σ Unit
  | 0, _ => throw .fuel
  | fuel + 1, dev => do
    mapError .halt (logEvent (.dispatched dev))
    if dev.isHub then do
      let hub ← mapError .halt (DeviceHub.new bus dev.controlEp)
      (Hub.device hub).walkSubtree bus (UsbDevice.dispatch fuel)
    else
      match DRIVERS.find? (fun d => d.isMatch dev) with
      | some driver => mapError .halt (driver.probe bus dev)
      | none => return ()

/-- The error of `enumerate_bus` when the root port's device is not there. -/
def rootError : Halt → Stop
  | .error .notPresent => .halt (.error (.protocol "root port child not enabled"))
  | h => .halt h

/-- `RootHub::enumerate_bus`. -/
def enumerateBusFrom (fuel : Nat) : Walk σ Unit := do
  mapError .halt (Hub.root.portPower bus 1)
  let connected ← mapError .halt (Hub.root.waitConnect bus 1 bus.polls)
  if connected then do
    let child ← mapError rootError (Hub.root.enumerateChild bus 1)
    child.dispatch bus fuel
  else throw (.halt (.error (.hardware "no device on root port (enable VBUS e.g. GPIOB6 / cable / PHY)")))

/-- A run of `enumerate_bus` on the bus in the given state. -/
def enumerateBus (fuel : Nat) (b : σ) : EStateM.Result Stop (St σ) Unit :=
  (enumerateBusFrom bus fuel).run ⟨1, b, []⟩

end

end Cvirtos.Usb
