import Cvirtos.Usb.Dwc2.ChannelRegs
import Cvirtos.Usb.Uvc.CaptureRules

/-!
# The transfers of the endpoints

`control.rs` and `isoch.rs` pack an address, an endpoint number, a packet size and a length into the
registers of their channel, with no check that the values fit.

* `controlTransfer_fits`, `isochTransfer_fits` — they do, for an endpoint whose own values fit;
* `read_launches`, `write_launches`, `writeNoData_launches`, `probeDefaultAddr_launches`,
  `captureFrame_launches` — **whatever the endpoints do, the controller is started with exact registers
  only**.
-/

set_option autoImplicit false

namespace Cvirtos.Usb.Dwc2

open Cvirtos.Lib

/-- A control endpoint whose values fit into their fields. -/
structure ControlEp.Fits (ep : ControlEp) : Prop where
  dev : ep.dev < 2 ^ 7
  mps : ep.mps < 2 ^ 11

/-- The default endpoint of any address that is given out, with the packet size of any descriptor. -/
theorem controlEp_fits {dev : Nat} (hdev : dev < MAX_USB_ADDR) (b : UInt8) :
    ControlEp.Fits ⟨dev, normalizeEp0Mps b⟩ where
  dev := Nat.lt_succ_of_lt hdev
  mps := by
    change normalizeEp0Mps b < 2 ^ 11
    have hb := b.toNat_lt
    unfold normalizeEp0Mps
    split <;> omega

theorem controlTransfer_fits {ep : ControlEp} (hep : ControlEp.Fits ep) (dirIn : Bool) (pid : Pid)
    {xferSize dmaOff : Nat} (hsize : xferSize < 2 ^ 19) (hoff : dmaOff < 2 ^ 32) :
    (ControlEp.transfer ep dirIn pid xferSize dmaOff).Fits .control where
  dev := hep.dev
  mps := hep.mps
  xferSize := hsize
  dmaOff := hoff
  epNum := Nat.two_pow_pos 4
  control _ := rfl
  video := nofun

/-- A chunk is no longer than a packet. -/
theorem chunk_fits {ep : ControlEp} (hep : ControlEp.Fits ep) {len : Nat} (hlen : len ≤ ep.mps)
    (dirIn : Bool) (pid : Pid) :
    (ControlEp.transfer ep dirIn pid len DMA_OFF_SMALL_IO).Fits .control := by
  have hmps := hep.mps
  exact controlTransfer_fits hep dirIn pid (by omega) (by decide)

/-- An isochronous endpoint, with the four bits of an endpoint number. -/
structure IsochInEp.Fits (ep : IsochInEp) : Prop where
  dev : ep.dev < 2 ^ 7
  epNum : ep.epNum.toNat < 2 ^ 4

theorem isochTransfer_fits {ep : IsochInEp} (hep : ep.Fits) {dmaOff : Nat} (hoff : dmaOff < 2 ^ 32) :
    (OnMachine.isochTransfer ep (wmaxMps ep.mpsRaw) dmaOff).Fits .video := by
  have hmps := wmaxMps_le ep.mpsRaw
  constructor
  · exact hep.dev
  · exact Nat.lt_of_le_of_lt hmps (by decide)
  · exact Nat.lt_of_le_of_lt hmps (by decide)
  · exact hoff
  · exact hep.epNum
  · exact nofun
  · exact fun _ => rfl

/-! ### The registers -/

/-- Every start so far was exact, for a transfer that fits. -/
def LaunchesExact {κ : Type} (base : BitVec 32) (w : RegWorld κ) : Prop :=
  ∀ l ∈ w.launches, ∃ t, t.Fits l.ch ∧ Exact base l l.ch t

section

variable {κ : Type} {c : Controller κ} (hc : Tame c) (base : BitVec 32)
include hc

/-- **No transfer that fits is started otherwise than exactly.** -/
theorem regMachine_keeps :
    (regMachine c base).Keeps (fun ch t => t.Fits ch) (LaunchesExact base) where
  arm ch t w ht hw := by
    intro l hl
    change l ∈ (arm c base ch t w).2.launches at hl
    obtain ⟨-, hsame⟩ | ⟨-, new, hnew, hafter⟩ := arm_run base hc ht w
    · rw [hsame] at hl
      exact hw l hl
    · rw [hafter] at hl
      rcases List.mem_append.mp hl with hl | hl
      · exact hw l hl
      · obtain rfl := List.mem_singleton.mp hl
        exact ⟨t, hnew.channel ▸ ht, hnew.channel ▸ hnew⟩
  waitHalted ch w hw := by
    intro l hl
    change l ∈ (waitHalted c ch w).2.launches at hl
    rw [waitHalted_launches] at hl
    exact hw l hl
  write _ _ _ hw := hw
  read _ _ _ hw := hw
  clean _ _ _ hw := hw
  invalidate _ _ _ hw := hw

variable {ep : ControlEp} (hep : ControlEp.Fits ep)

section

include hep

theorem setupStage_launches (packet : Vector UInt8 8) :
    Kept (LaunchesExact base) (ControlEp.setupStage (regMachine c base) ep packet) :=
  kept_setupStage (regMachine_keeps hc base)
    (controlTransfer_fits hep _ _ (by decide) (by decide)) packet

theorem statusStage_launches (dirIn : Bool) :
    Kept (LaunchesExact base) (ControlEp.statusStage (regMachine c base) ep dirIn) :=
  kept_statusStage (regMachine_keeps hc base)
    (controlTransfer_fits hep dirIn _ (by decide) (by decide))

/-- **A control read** starts the controller with exact registers only. -/
theorem read_launches (packet : Vector UInt8 8) (len : Nat) :
    Kept (LaunchesExact base) (ControlEp.read (regMachine c base) ep packet len) := by
  have hdata : Kept (LaunchesExact base)
      (ControlEp.readChunks (regMachine c base) ep true (chunkLens ep.mps len)) :=
    kept_readChunks (regMachine_keeps hc base) true fun n hn data1 =>
      chunk_fits hep (chunkLens_le n hn) true (dataPid data1)
  refine kept_ite (kept_throw _) (kept_bind (setupStage_launches hc base hep packet) fun _ => ?_)
  refine kept_ite (kept_throw _) (kept_bind hdata fun _ => ?_)
  exact kept_bind (statusStage_launches hc base hep false) fun _ => kept_pure _

/-- **A control write** does. -/
theorem write_launches (packet : Vector UInt8 8) (data : List UInt8) :
    Kept (LaunchesExact base) (ControlEp.write (regMachine c base) ep packet data) := by
  have hdata : Kept (LaunchesExact base)
      (ControlEp.writeChunks (regMachine c base) ep true (chunks ep.mps data)) :=
    kept_writeChunks (regMachine_keeps hc base) true fun chunk hchunk data1 =>
      chunk_fits hep (chunks_bounds chunk hchunk).2 false (dataPid data1)
  refine kept_ite (kept_throw _) (kept_bind (setupStage_launches hc base hep packet) fun _ => ?_)
  refine kept_ite (kept_throw _) (kept_bind hdata fun _ => ?_)
  exact statusStage_launches hc base hep true

/-- **A control transfer without data** does. -/
theorem writeNoData_launches (packet : Vector UInt8 8) :
    Kept (LaunchesExact base) (ControlEp.writeNoData (regMachine c base) ep packet) :=
  kept_bind (setupStage_launches hc base hep packet) fun _ => statusStage_launches hc base hep true

end

/-- **The first read of a device**, at the default address, does. -/
theorem probeDefaultAddr_launches :
    Kept (LaunchesExact base) (ControlEp.probeDefaultAddr (regMachine c base)) := by
  have hep : ControlEp.Fits (ControlEp.new 64) := ⟨by decide, by decide⟩
  have hm := regMachine_keeps hc base
  have hdata : Kept (LaunchesExact base) (Channel.control.xfer (regMachine c base)
      (ControlEp.transfer (ControlEp.new 64) true .data1 18 OFF_EP0)) :=
    kept_xfer hm (controlTransfer_fits hep _ _ (by decide) (by decide))
  refine kept_bind (setupStage_launches hc base hep _) fun _ => kept_bind hdata fun _ => ?_
  refine kept_bind (kept_effect fun s => hm.invalidate _ _ s) fun _ => ?_
  refine kept_bind (kept_descriptorByte hm 7) fun _ => ?_
  refine kept_bind (statusStage_launches hc base hep false) fun _ => ?_
  refine kept_bind (kept_descriptorByte hm 8) fun _ => kept_bind (kept_descriptorByte hm 9) fun _ => ?_
  refine kept_bind (kept_descriptorByte hm 10) fun _ =>
    kept_bind (kept_descriptorByte hm 11) fun _ => ?_
  exact kept_bind (kept_descriptorByte hm 4) fun _ => kept_pure _

/-- **A capture** does. -/
theorem captureFrame_launches {cam : Uvc.UvcCamera} (hcam : cam.iso.Fits) (lastEofFid : UInt8)
    (packets : Nat) :
    Kept (LaunchesExact base)
      (Uvc.OnMachine.captureFrame (regMachine c base) cam lastEofFid packets) :=
  Uvc.CaptureRules.captureFrame
    (.of_keeps (regMachine_keeps hc base) (isochTransfer_fits hcam (by decide))) lastEofFid packets

end

end Cvirtos.Usb.Dwc2
