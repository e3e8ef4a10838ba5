import Cvirtos.Usb.Dwc2.Kept
import Cvirtos.Usb.Uvc.CaptureChannel

/-!
# Invariants of a capture

A capture keeps what its packets and its accesses to the assembled frame keep.

* `CaptureRules` — what these keep;
* `CaptureRules.captureFrame` — **the capture keeps it**;
* `CaptureRules.of_keeps` — for an invariant of every access.
-/

set_option autoImplicit false

namespace Cvirtos.Usb.Uvc

open Cvirtos.Lib Cvirtos.Usb.Dwc2

variable {σ : Type}

/-- What the packets keep, and the bytes of the frame written and read back. -/
structure CaptureRules (m : Machine σ) (iso : IsochInEp) (I : σ → Prop) : Prop where
  packet : Kept I (OnMachine.readPayload m iso DMA_OFF_UVC_BULK)
  slice : ∀ jpegLen,
    Kept I (OnMachine.dmaRxSlice m (UVC_ASSEMBLED_JPEG_DMA_OFF + jpegLen) 2)
  write : ∀ jpegLen src,
    Kept I (OnMachine.dmaWriteAt m (UVC_ASSEMBLED_JPEG_DMA_OFF + jpegLen) src)

namespace CaptureRules

variable {m : Machine σ} {iso : IsochInEp} {I : σ → Prop}

theorem of_keeps {Allowed : Channel → Transfer → Prop} (hm : m.Keeps Allowed I)
    (ht : Allowed .video (OnMachine.isochTransfer iso (wmaxMps iso.mpsRaw) DMA_OFF_UVC_BULK)) :
    CaptureRules m iso I where
  packet := kept_readPayload hm ht
  slice _ := kept_dmaRxSlice hm _ 2
  write _ src := kept_dmaWriteAt hm _ src

variable (h : CaptureRules m iso I)
include h

theorem append (p : UvcPacket) (jpegLen : Nat) (sawData : Bool) (jpegCap : Nat) :
    Kept I (OnMachine.append m p jpegLen sawData jpegCap) := by
  refine kept_ite (kept_pure _) (kept_ite (kept_pure _) (kept_ite (kept_throw _) ?_))
  exact kept_bind (h.write jpegLen _) fun _ => kept_pure _

theorem andTailIsEoi (c : Bool) (jpegLen : Nat) : Kept I (OnMachine.andTailIsEoi m c jpegLen) :=
  kept_ite (kept_bind (h.slice _) fun _ => kept_pure _) (kept_pure false)

theorem waitFlip (packets : Nat) (prevFid : Option UInt8) :
    Kept I (OnMachine.waitFlip m iso DMA_OFF_UVC_BULK packets prevFid) := by
  induction packets generalizing prevFid with
  | zero => exact kept_pure none
  | succ packets ih =>
      refine kept_bind h.packet fun pkt => ?_
      split
      · exact ih prevFid
      · split
        · exact ih _
        · exact kept_ite (kept_pure _) (ih _)

theorem finishPacket (jpegCap : Nat) (p : UvcPacket) (a : Assembly) :
    Kept I (OnMachine.finishPacket m jpegCap p a) := by
  refine kept_bind (h.append p _ _ jpegCap) fun r => ?_
  refine kept_bind (h.andTailIsEoi _ _) fun whole => ?_
  exact kept_ite (kept_pure _) (kept_ite (kept_throw _) (kept_pure _))

theorem assembleLoop (jpegCap packets : Nat) (a : Assembly) :
    Kept I (OnMachine.assembleLoop m iso DMA_OFF_UVC_BULK jpegCap packets a) := by
  induction packets generalizing a with
  | zero => exact kept_pure none
  | succ packets ih =>
      refine kept_bind h.packet fun pkt => ?_
      split
      · exact ih a
      · refine kept_bind (h.andTailIsEoi _ _) fun whole => ?_
        refine kept_ite (kept_pure _) (kept_bind (h.finishPacket jpegCap _ _) fun r => ?_)
        split
        · exact kept_pure _
        · exact ih _

theorem tryFrame (initFid : Option UInt8) (jpegCap packets : Nat) :
    Kept I (OnMachine.tryFrame m iso DMA_OFF_UVC_BULK initFid jpegCap packets) := by
  refine kept_bind (h.waitFlip packets initFid) fun first => ?_
  split
  · exact kept_pure none
  · refine kept_bind (h.finishPacket jpegCap _ _) fun r => ?_
    split
    · exact kept_pure _
    · exact kept_bind (h.assembleLoop jpegCap packets _) fun _ => kept_pure _

end CaptureRules

/-- **The whole capture**, however its rounds end. -/
theorem CaptureRules.captureFrame {m : Machine σ} {I : σ → Prop} {cam : UvcCamera}
    (h : CaptureRules m cam.iso I) (lastEofFid : UInt8) (packets : Nat) :
    Kept I (OnMachine.captureFrame m cam lastEofFid packets) := by
  refine kept_bind (kept_attempt (h.tryFrame (initFid lastEofFid) jpegCap packets)) fun r => ?_
  split
  · exact kept_pure _
  · exact kept_throw _
  · exact kept_throw _

end Cvirtos.Usb.Uvc
