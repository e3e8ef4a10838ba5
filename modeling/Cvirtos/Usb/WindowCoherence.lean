import Cvirtos.Lib.Transition
import Cvirtos.Usb.Dwc2.ControlRead
import Cvirtos.Usb.Uvc.CaptureCoherence

/-!
# The coherence of the DMA window

Control transfers and captures in any order, of any length, with a bus that evicts lines, moves bytes
and halts channels between any two steps of the CPU.

* `window_coherent` — **nothing goes wrong in any run** in which no control transfer starts while the
  control channel still runs an earlier one on the EP0 buffer;
* `givenUp_faults` — two that do start.
-/

set_option autoImplicit false

namespace Cvirtos.Usb

open Cvirtos.Lib Cvirtos.Usb.Dwc2 Cvirtos.Usb.Uvc

/-- What the driver does with the window. -/
inductive WindowOp where
  | writeNoData (ep : ControlEp) (setupPacket : Vector UInt8 8)
  | read (ep : ControlEp) (setupPacket : Vector UInt8 8) (len : Nat)
  | write (ep : ControlEp) (setupPacket : Vector UInt8 8) (data : List UInt8)
  | probeDefaultAddr
  /-- A capture, up to so many packets in either of its loops. -/
  | captureFrame (cam : UvcCamera) (lastEofFid : UInt8) (packets : Nat)

/-- The state an operation leaves behind, however it ends. -/
def WindowOp.run {σ : Type} (m : Machine σ) (s : σ) : WindowOp → σ
  | .writeNoData ep setupPacket => endState ((Dwc2.ControlEp.writeNoData m ep setupPacket).run s)
  | .read ep setupPacket len => endState ((Dwc2.ControlEp.read m ep setupPacket len).run s)
  | .write ep setupPacket data => endState ((Dwc2.ControlEp.write m ep setupPacket data).run s)
  | .probeDefaultAddr => endState ((Dwc2.ControlEp.probeDefaultAddr m).run s)
  | .captureFrame cam lastEofFid packets =>
    endState ((OnMachine.captureFrame m cam lastEofFid packets).run s)

def windowStep (bus : DmaBus) (w : DmaWorld) (op : WindowOp) : Option DmaWorld :=
  some (op.run (coherentMachine bus) w)

/-- A packet of the endpoint fits into the EP0 region; 8, 16, 32 and 64 bytes do. -/
def WindowOp.Admitted : WindowOp → Prop
  | .read ep _ _ => DMA_OFF_SMALL_IO + ep.mps ≤ EP0_REGION_BYTES
  | .write ep _ _ => DMA_OFF_SMALL_IO + ep.mps ≤ EP0_REGION_BYTES
  | _ => True

instance : (op : WindowOp) → Decidable op.Admitted
  | .writeNoData _ _ => inferInstanceAs (Decidable True)
  | .read _ _ _ => inferInstanceAs (Decidable (_ ≤ _))
  | .write _ _ _ => inferInstanceAs (Decidable (_ ≤ _))
  | .probeDefaultAddr => inferInstanceAs (Decidable True)
  | .captureFrame _ _ _ => inferInstanceAs (Decidable True)

/-- A control transfer finds the EP0 buffer free; a capture starts at any time. -/
def MayStart (w : DmaWorld) : WindowOp → Prop
  | .captureFrame _ _ _ => True
  | _ => Ep0Free w

instance (w : DmaWorld) : (op : WindowOp) → Decidable (MayStart w op)
  | .writeNoData _ _ => inferInstanceAs (Decidable (Ep0Free w))
  | .read _ _ _ => inferInstanceAs (Decidable (Ep0Free w))
  | .write _ _ _ => inferInstanceAs (Decidable (Ep0Free w))
  | .probeDefaultAddr => inferInstanceAs (Decidable (Ep0Free w))
  | .captureFrame _ _ _ => inferInstanceAs (Decidable True)

theorem settled_start (mem view : Memory UInt8) : Settled (.start mem view) :=
  ⟨rfl, fun _ _ hr => (nomatch hr), fun _ hl => (nomatch hl), fun _ _ hr => (nomatch hr),
    fun _ _ hr => (nomatch hr), fun _ ha => (nomatch ha)⟩

/-- **Every operation that may start keeps the window coherent**, also when it fails. -/
theorem settled_step {bus : DmaBus} (w : DmaWorld) (op : WindowOp) (w' : DmaWorld)
    (hop : op.Admitted ∧ MayStart w op) (hstep : windowStep bus w op = some w')
    (hs : Settled w) : Settled w' := by
  obtain rfl : op.run (coherentMachine bus) w = w' := Option.some.inj hstep
  obtain ⟨hadmitted, hstart⟩ := hop
  cases op with
  | writeNoData ep setupPacket =>
    exact triple_endState (triple_writeNoData setupPacket) ⟨hs, hstart⟩
  | read ep setupPacket len =>
    exact triple_endState (triple_read hadmitted setupPacket len) ⟨hs, hstart⟩
  | write ep setupPacket data =>
    exact triple_endState (triple_write hadmitted setupPacket data) ⟨hs, hstart⟩
  | probeDefaultAddr => exact triple_endState triple_probeDefaultAddr ⟨hs, hstart⟩
  | captureFrame cam lastEofFid packets =>
    exact triple_endState (kept_captureFrame cam lastEofFid packets) hs

/-- **The window stays coherent**: no dirty line in the target of a running IN transfer, no dirty
line dropped by an invalidate, no OUT transfer that fetches other bytes than were written for it,
and no received byte read before it is invalidated, in any run on any bus. -/
theorem window_coherent {bus : DmaBus} {mem view : Memory UInt8} {ops : List WindowOp} {w : DmaWorld}
    (hadmitted : ∀ op ∈ ops, op.Admitted)
    (hstart : AllSteps (windowStep bus) MayStart (.start mem view) ops)
    (hrun : run (windowStep bus) (.start mem view) ops = some w) : w.faults = [] :=
  (run_invariant settled_step (settled_start mem view)
    (allSteps_and (allSteps_of_forall hadmitted) hstart) hrun).faultless

/-- A bus on which every transfer completes at once. -/
def promptBus : DmaBus := ⟨fun _ => [], fun _ => some 1, fun _ => 0⟩

/-- `GET_DESCRIPTOR(Hub)`, a capture, and `SET_INTERFACE`. -/
def sampleOps : List WindowOp :=
  [.read ⟨1, 64⟩ getHubDescriptor64 64, .captureFrame ⟨1, 1, 64⟩ 0 1,
    .writeNoData ⟨1, 64⟩ #v[0x01, 11, 0, 0, 1, 0, 0, 0]]

theorem window_coherent_sample :
    (run (windowStep promptBus) (.start (fun _ => 0) fun _ => 0) sampleOps).map DmaWorld.faults =
      some [] := by
  have hadmitted : ∀ op ∈ sampleOps, op.Admitted := by decide +kernel
  have hstart : AllSteps (windowStep promptBus) MayStart (.start (fun _ => 0) fun _ => 0)
      sampleOps := by decide +kernel
  exact congrArg some (window_coherent hadmitted hstart rfl)

/-- Nothing halts in time.  At tick 12 a line makes room, and the SETUP packet is fetched at last. -/
def stalledBus : DmaBus where
  events n := if n = 12 then [.evict 0, .dmaOut .control 0] else []
  word _ := none
  left _ := 0

/-- `GET_PORT_STATUS` of a port, whose error the port scan drops, and `SET_FEATURE(PORT_POWER)`. -/
def portScan : List WindowOp :=
  [.read ⟨1, 64⟩ #v[0xa3, 0, 0, 0, 1, 0, 4, 0] 4, .writeNoData ⟨1, 64⟩ #v[0x23, 3, 8, 0, 1, 0, 0, 0]]

/-- The SETUP packet is acknowledged, and every IN token after it answered with NAK. -/
def stuckBus : DmaBus where
  events _ := []
  word n := if n ≤ 11 then some 1 else none
  left _ := 0

/-- **A transfer that is given up on, and the next one**: nothing has stopped the channel.  The port
scan overwrites the SETUP packet before it is fetched, and a second probe dirties the target of the
descriptor read. -/
theorem givenUp_faults :
    (run (windowStep stalledBus) (.start (fun _ => 0) fun _ => 0) portScan).map DmaWorld.faults =
      some [.outMismatch 0] ∧
    ((run (windowStep stuckBus) (.start (fun _ => 0) fun _ => 0)
      [.probeDefaultAddr, .probeDefaultAddr]).map DmaWorld.faults).any
        (.dirtyTarget .control ∈ ·) = true := by
  decide +kernel

end Cvirtos.Usb
