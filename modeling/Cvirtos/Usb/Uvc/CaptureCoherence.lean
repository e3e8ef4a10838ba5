import Cvirtos.Usb.Dwc2.ControlCoherence
import Cvirtos.Usb.Uvc.CaptureRules

/-!
# Captures and the cache

A capture keeps the window coherent, whatever ran before it: microframes are received into lines that
the CPU never writes, and the frame is assembled where nothing is received and nothing invalidated.

* `triple_readPayload` — a packet is invalidated before it is read;
* `kept_captureFrame` — **the whole capture**.
-/

set_option autoImplicit false

namespace Cvirtos.Usb.Uvc

open Cvirtos.Lib Cvirtos.Arch Cvirtos.Usb.Dwc2

variable {bus : DmaBus} {w : DmaWorld}

/-! ### Packets -/

/-- A slice of received bytes. -/
theorem triple_dmaRxSlice {off len : Nat} :
    Triple (fun w => Settled w ∧ Received off (off + len) w)
      (OnMachine.dmaRxSlice (coherentMachine bus) off len)
      (fun _ => Settled) (fun _ => Settled) := by
  refine triple_ite (fun _ => triple_pure fun _ h => h.1) fun _ => ?_
  refine triple_bind (Q := fun _ => Settled) (triple_query fun w hw => ?_)
    fun _ => triple_pure fun _ h => h
  exact (readBytes_fresh bus 0 0 hw.1 hw.2.1 hw.2.2).1

/-- What `read_uframe` counts has been received and invalidated. -/
theorem triple_readUframe (ep : IsochInEp) :
    Triple Settled (OnMachine.readUframe (coherentMachine bus) ep DMA_OFF_UVC_BULK)
      (fun n w => Settled w ∧ (0 < n → Received DMA_OFF_UVC_BULK (DMA_OFF_UVC_BULK + n) w))
      (fun _ => Settled) := by
  have hplaced : Placed .video (OnMachine.isochTransfer ep (wmaxMps ep.mpsRaw) DMA_OFF_UVC_BULK) :=
    ⟨rfl, rfl, wmaxMps_le ep.mpsRaw⟩
  have hF := frame_true bus .video
    (OnMachine.isochTransfer ep (wmaxMps ep.mpsRaw) DMA_OFF_UVC_BULK)
  have hempty : ∀ w, Idle .video w →
      Settled w ∧ (0 < 0 → Received DMA_OFF_UVC_BULK (DMA_OFF_UVC_BULK + 0) w) :=
    fun w h => ⟨h.1, fun hlt => absurd hlt (Nat.lt_irrefl 0)⟩
  refine triple_ite (fun _ => triple_throw fun _ h => h) fun _ => ?_
  refine triple_ite (fun _ => triple_throw fun _ h => h) fun _ => ?_
  refine triple_bind (triple_pre (triple_armReady hplaced hF)
    fun _ h => ⟨.of_in h rfl, trivial⟩) fun _ => ?_
  refine triple_bind (Q := fun _ => Idle .video) (triple_post (triple_waitReady hF)
    fun _ _ h => ⟨h.1.1.1, h.2⟩) fun st => ?_
  refine triple_ite (fun _ => triple_throw fun _ h => h.1) fun _ => ?_
  refine triple_ite (fun _ => triple_throw fun _ h => h.1) fun _ => ?_
  refine triple_ite (fun _ => triple_pure hempty) fun _ => ?_
  refine triple_ite (fun _ => triple_pure hempty) fun _ => ?_
  refine triple_bind (Q := fun _ => Idle .video) (triple_query fun _ h => h) fun left => ?_
  refine triple_ite (fun hpos => ?_) fun hzero => ?_
  · have hle : wmaxMps ep.mpsRaw - left ≤ 2047 :=
      Nat.le_trans (Nat.sub_le _ _) (wmaxMps_le ep.mpsRaw)
    have hend : DMA_OFF_UVC_BULK + (wmaxMps ep.mpsRaw - left) ≤ TARGETS_END :=
      Nat.add_le_add_left (Nat.le_trans hle (by decide)) _
    refine triple_bind (Q := fun _ w => Settled w ∧
      Received DMA_OFF_UVC_BULK (DMA_OFF_UVC_BULK + (wmaxMps ep.mpsRaw - left)) w)
      (triple_effect fun w hw => ?_) fun _ => triple_pure fun _ h => ⟨h.1, fun _ => h.2⟩
    have hq : Undisturbed DMA_OFF_UVC_BULK (DMA_OFF_UVC_BULK + (wmaxMps ep.mpsRaw - left)) w := by
      intro ch r hr _ i hi hin
      cases ch with
      | control =>
        have hbelow := ((hw.1.placed .control r hr).bounds hi).1 rfl
        exact Nat.not_lt_of_le hin.1 hbelow
      | video => exact absurd (hr.symm.trans hw.2) (Option.some_ne_none r)
    obtain ⟨hs, hfewer, hfresh⟩ := invalidateRange_fresh bus hpos hend hw.1 hq
    exact ⟨hs, hq.of_fewer hfewer, hfresh⟩
  · exact triple_pure fun _ h => ⟨h.1, fun hpos => absurd hpos hzero⟩

theorem kept_readPayload_settled (ep : IsochInEp) :
    Kept Settled (OnMachine.readPayload (coherentMachine bus) ep DMA_OFF_UVC_BULK) := by
  have hloop : ∀ left,
      Kept Settled (OnMachine.readPayloadLoop (coherentMachine bus) ep DMA_OFF_UVC_BULK left) := by
    intro left
    induction left with
    | zero => exact kept_throw _
    | succ left ih =>
        refine triple_bind (triple_readUframe ep) fun n => triple_ite (fun hpos => ?_) fun _ => ?_
        · refine triple_bind (triple_pre triple_dmaRxSlice
            fun w hw => ⟨hw.1, hw.2 hpos⟩) fun slice => ?_
          cases slice with
          | none => exact kept_throw _
          | some s => exact kept_pure s
        · exact triple_pre ih fun _ h => h.1
  exact hloop MAX_UFRAMES

/-! ### The assembled frame -/

/-- Nothing is received where the frame is assembled. -/
theorem received_assembly (hs : Settled w) {lo : Nat} (hlo : UVC_ASSEMBLED_JPEG_DMA_OFF ≤ lo)
    (hi : Nat) : Received lo hi w := by
  refine ⟨fun ch r hr _ i hi hin => ?_, fun a h1 _ => Bool.eq_false_iff.mpr fun hstale => ?_⟩
  · have hend := ((hs.placed ch r hr).bounds hi).2.2
    exact absurd (Nat.le_trans hlo hin.1) (Nat.not_le_of_lt hend)
  · exact absurd (Nat.le_trans hlo h1) (Nat.not_le_of_lt (hs.stale a hstale))

/-- **The CPU writes the assembly area**, whose lines stay dirty. -/
theorem kept_dmaWriteAt_settled {off : Nat} (hoff : UVC_ASSEMBLED_JPEG_DMA_OFF ≤ off) (src : List UInt8) :
    Kept Settled (OnMachine.dmaWriteAt (coherentMachine bus) off src) := by
  refine kept_ite (kept_throw _) (kept_ite (kept_throw _) (triple_effect fun w hw => ?_))
  have hD : Writable (fun _ => False) off (off + src.length) :=
    fun a h1 _ => Or.inl (Nat.div_le_div_right (Nat.le_trans hoff h1))
  exact (writeBytes_own bus hw hD (Nat.le_refl off) (received_assembly hw hoff _).1
    fun a h1 h2 => absurd h2 (Nat.not_lt_of_le h1)).1

/-! ### The capture -/

theorem settled_captureRules (iso : IsochInEp) : CaptureRules (coherentMachine bus) iso Settled where
  packet := kept_readPayload_settled iso
  slice _ := triple_pre triple_dmaRxSlice fun _ hw =>
    ⟨hw, received_assembly hw (Nat.le_add_right _ _) _⟩
  write _ src := kept_dmaWriteAt_settled (Nat.le_add_right _ _) src

/-- **A capture keeps the window coherent.** -/
theorem kept_captureFrame (cam : UvcCamera) (lastEofFid : UInt8) (packets : Nat) :
    Kept Settled (OnMachine.captureFrame (coherentMachine bus) cam lastEofFid packets) :=
  (settled_captureRules cam.iso).captureFrame lastEofFid packets

end Cvirtos.Usb.Uvc
