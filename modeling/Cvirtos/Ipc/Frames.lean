import Cvirtos.Ipc.Mailbox
import Cvirtos.Usb.Uvc.Capture

/-!
# What is published about a frame

`decode_and_notify` and `notify_mjpeg_only` of `main.rs`, against the reader in `b2s-comm-test`.
The height and `FLAG_YUV_READY` share bit 15 of the flags.

* `decodeDims_ready` — with the flag set the reader gets the height with bit 7 set;
* `yuvReady_mjpegOnly` — the flags of a frame without YUV read as ready;
* `published_agrees_iff` — **the reader's view agrees with the decoder exactly for decoded frames
  whose height has bit 7 set**.
-/

set_option autoImplicit false

namespace Cvirtos.Ipc

open Cvirtos.Usb Cvirtos.Usb.Dwc2 Cvirtos.Usb.Uvc

def YUV_BUF_SIZE : Nat := 614400

/-- `notify_mjpeg_only`. -/
def notifyMjpegOnly (frameCount : UInt32) (jpegLen : Nat) : List Store :=
  notify ⟨frameCount, .ofNat jpegLen, FLAG_SOI ||| FLAG_EOI ||| encodeDims 640 480⟩

section

-- `decode_to_shared`: dimensions and bytes of the decoded frame
variable (decodeToShared : List UInt8 → Except String (UInt32 × UInt32 × Nat))

/-- `decode_and_notify`. -/
def decodeAndNotify (dma : DmaBuf) (jpegLen : Nat) (frames : UInt32) : List Store :=
  match dmaRxSlice dma UVC_ASSEMBLED_JPEG_DMA_OFF jpegLen with
  | none => notifyMjpegOnly frames jpegLen
  | some jpeg =>
    match decodeToShared jpeg with
    | .error _ => notifyMjpegOnly frames jpegLen
    | .ok (w, h, len) =>
      let reported := min len YUV_BUF_SIZE
      let flags := FLAG_SOI ||| FLAG_EOI ||| FLAG_YUV_READY ||| encodeDims w h
      notify ⟨frames, .ofNat reported, flags⟩

/-- The dimensions of the frame, if there is a slice and it decodes. -/
def decoded (dma : DmaBuf) (jpegLen : Nat) : Option (UInt32 × UInt32) :=
  match dmaRxSlice dma UVC_ASSEMBLED_JPEG_DMA_OFF jpegLen with
  | none => none
  | some jpeg =>
    match decodeToShared jpeg with
    | .error _ => none
    | .ok (w, h, _) => some (w, h)

end

/-- What the reader makes of a record agrees with what became of the frame. -/
def Agrees (r : Record) : Option (UInt32 × UInt32) → Prop
  | some (w, h) => w ≤ 4095 → h ≤ 4095 → decodeDims r.flags = (w, h) ∧ yuvReady r.flags = true
  | none => yuvReady r.flags = false ∧ r.yuvSize = 0

/-! ### The bits of the flags -/

/-- The flags of a decoded frame, before its dimensions. -/
def FLAGS_DECODED : UInt32 := FLAG_SOI ||| FLAG_EOI ||| FLAG_YUV_READY

theorem mask_bit (n : Nat) : (4095#32).getLsbD n = decide (n < 12) := by
  by_cases hn : n < 32
  · revert n
    decide
  · rw [BitVec.getLsbD_of_ge _ _ (by omega)]
    simp
    omega

theorem mask_le {x : UInt32} (h : x ≤ 4095) : x &&& 0xFFF = x := by
  apply UInt32.toNat_inj.mp
  have hx : x.toNat < 2 ^ 12 := Nat.lt_succ_of_le (UInt32.le_iff_toNat_le.mp h)
  rw [UInt32.toNat_and]
  exact (Nat.and_two_pow_sub_one_eq_mod x.toNat 12).trans (Nat.mod_eq_of_lt hx)

theorem decodeDims_width (w h : UInt32) :
    (decodeDims (FLAGS_DECODED ||| encodeDims w h)).1 = w &&& 0xFFF := by
  show ((FLAGS_DECODED ||| encodeDims w h) >>> 20) &&& (0xFFF : UInt32) = w &&& 0xFFF
  apply UInt32.toBitVec_inj.mp
  refine BitVec.eq_of_getLsbD_eq fun i hi => ?_
  have hbase : i < 12 → FLAGS_DECODED.toBitVec.getLsbD (20 + i) = false := by
    revert i
    decide
  by_cases h : i < 12
  · simp [encodeDims, mask_bit, h, hbase h]
    grind
  · simp [mask_bit, h]

/-- `FLAG_YUV_READY` comes back as bit 7 of the height. -/
theorem decodeDims_height (w h : UInt32) :
    (decodeDims (FLAGS_DECODED ||| encodeDims w h)).2 = (h &&& 0xFFF) ||| 0x80 := by
  show ((FLAGS_DECODED ||| encodeDims w h) >>> 8) &&& (0xFFF : UInt32) = h &&& 0xFFF ||| 0x80
  apply UInt32.toBitVec_inj.mp
  refine BitVec.eq_of_getLsbD_eq fun i hi => ?_
  have hbase : i < 12 → FLAGS_DECODED.toBitVec.getLsbD (8 + i) = (128#32).getLsbD i := by
    revert i
    decide
  have hhigh : ¬ i < 12 → (128#32).getLsbD i = false := by
    revert i
    decide
  by_cases h : i < 12
  · simp [encodeDims, mask_bit, h, hbase h]
    grind
  · simp [mask_bit, h, hhigh h]

theorem decodeDims_ready {w h : UInt32} (hw : w ≤ 4095) (hh : h ≤ 4095) :
    decodeDims (FLAGS_DECODED ||| encodeDims w h) = (w, h ||| 0x80) := by
  refine Prod.ext ?_ ?_
  · rw [decodeDims_width, mask_le hw]
  · rw [decodeDims_height, mask_le hh]

theorem yuvReady_decoded (w h : UInt32) : yuvReady (FLAGS_DECODED ||| encodeDims w h) = true := by
  have hbit : (FLAGS_DECODED ||| encodeDims w h) &&& FLAG_YUV_READY = FLAG_YUV_READY := by
    apply UInt32.toBitVec_inj.mp
    refine BitVec.eq_of_getLsbD_eq fun i hi => ?_
    have hready : FLAG_YUV_READY.toBitVec.getLsbD i = true →
        FLAGS_DECODED.toBitVec.getLsbD i = true := by
      revert i
      decide
    simp only [UInt32.toBitVec_and, UInt32.toBitVec_or, BitVec.getLsbD_and, BitVec.getLsbD_or]
    grind
  unfold yuvReady
  rw [hbit]
  decide

/-- The 480 lines of the fallback set bit 15. -/
theorem yuvReady_mjpegOnly :
    yuvReady (FLAG_SOI ||| FLAG_EOI ||| encodeDims 640 480) = true := by decide

theorem bit7_bit (n : Nat) : (128#32).getLsbD n = decide (n = 7) := by
  by_cases hn : n < 32
  · revert n
    decide
  · rw [BitVec.getLsbD_of_ge _ _ (by omega)]
    simp
    omega

theorem or_bit7_iff (h : UInt32) : h ||| 0x80 = h ↔ h &&& 0x80 ≠ 0 := by
  have hor : h ||| 0x80 = h ↔ h.toBitVec.getLsbD 7 = true := by
    rw [← UInt32.toBitVec_inj]
    constructor
    · intro heq
      rw [← heq]
      simp
    · intro hb
      refine BitVec.eq_of_getLsbD_eq fun i hi => ?_
      simp [bit7_bit]
      rintro rfl
      exact hb
  have hand : h &&& 0x80 = 0 ↔ h.toBitVec.getLsbD 7 = false := by
    rw [← UInt32.toBitVec_inj]
    constructor
    · intro heq
      have hbit := congrArg (·.getLsbD 7) heq
      simpa [bit7_bit] using hbit
    · intro hb
      refine BitVec.eq_of_getLsbD_eq fun i hi => ?_
      simp [bit7_bit]
      rintro hset rfl
      rw [hb] at hset
      cases hset
  rw [hor, Ne, hand, Bool.not_eq_false]

/-! ### The reader's view -/

theorem agrees_decoded_iff (n size w h : UInt32) :
    Agrees ⟨n, size, FLAGS_DECODED ||| encodeDims w h⟩ (some (w, h)) ↔
      (w ≤ 4095 → h ≤ 4095 → h &&& 0x80 ≠ 0) := by
  unfold Agrees
  constructor
  · intro hag hw hh
    have hdims := (hag hw hh).1
    rw [decodeDims_ready hw hh] at hdims
    exact (or_bit7_iff h).mp (Prod.ext_iff.mp hdims).2
  · intro hbit hw hh
    refine ⟨?_, yuvReady_decoded w h⟩
    rw [decodeDims_ready hw hh, (or_bit7_iff h).mpr (hbit hw hh)]

theorem not_agrees_mjpegOnly (n size : UInt32) :
    ¬ Agrees ⟨n, size, FLAG_SOI ||| FLAG_EOI ||| encodeDims 640 480⟩ none := by
  intro hag
  have hready := hag.1
  rw [yuvReady_mjpegOnly] at hready
  cases hready

section

variable (decodeToShared : List UInt8 → Except String (UInt32 × UInt32 × Nat))

/-- **What the reader makes of a published frame.**  A frame that did not decode is announced as
one with YUV, and a decoded one with the height it has once bit 7 is set. -/
theorem published_agrees_iff (m : MailboxRegs) (dma : DmaBuf) (jpegLen : Nat) (frames : UInt32) :
    Agrees (m.setAll (decodeAndNotify decodeToShared dma jpegLen frames)).record
        (decoded decodeToShared dma jpegLen) ↔
      ∃ w h, decoded decodeToShared dma jpegLen = some (w, h) ∧
        (w ≤ 4095 → h ≤ 4095 → h &&& 0x80 ≠ 0) := by
  unfold decodeAndNotify decoded notifyMjpegOnly
  cases dmaRxSlice dma UVC_ASSEMBLED_JPEG_DMA_OFF jpegLen with
  | none =>
    rw [notify_record]
    simp [not_agrees_mjpegOnly]
  | some jpeg =>
    dsimp only
    cases hd : decodeToShared jpeg with
    | error e =>
      rw [notify_record]
      simp [not_agrees_mjpegOnly]
    | ok r =>
      obtain ⟨w, h, len⟩ := r
      rw [notify_record]
      refine (agrees_decoded_iff _ _ w h).trans ⟨fun hok => ⟨w, h, rfl, hok⟩, ?_⟩
      rintro ⟨w', h', heq, hok⟩
      cases heq
      exact hok

end

/-- The frame cannot be decoded: it is announced as one with YUV, of the JPEG's size. -/
theorem undecodedFrame_ready :
    ¬ Agrees
        ((⟨0, 0, 0, 0, 0, 0, 0⟩ : MailboxRegs).setAll
          (decodeAndNotify (fun _ => .error "header") ⟨fun _ => 0, []⟩ 20000 1)).record
        (decoded (fun _ => .error "header") ⟨fun _ => 0, []⟩ 20000) ∧
      ¬ Agrees
        ((⟨0, 0, 0, 0, 0, 0, 0⟩ : MailboxRegs).setAll
          (decodeAndNotify (fun _ => .ok (640, 100, 96000)) ⟨fun _ => 0, []⟩ 20000 1)).record
        (decoded (fun _ => .ok (640, 100, 96000)) ⟨fun _ => 0, []⟩ 20000) := by
  constructor
  · rintro ⟨hready, -⟩
    exact absurd hready (by decide)
  · intro hag
    obtain ⟨hdims, -⟩ := hag (by decide) (by decide)
    exact absurd hdims (by decide)

end Cvirtos.Ipc
