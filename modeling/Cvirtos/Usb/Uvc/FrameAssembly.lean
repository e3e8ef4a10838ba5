import Cvirtos.Usb.Uvc.FrameIntegrity
import Mathlib.Data.List.TakeWhile

/-!
# Frame assembly over packets

An abstract account of `try_frame` in terms of the packets alone, without the window:

* `assembled` — what a block of packets of one FID amounts to: the payloads from the first
  start-of-image packet on;
* `verdict` — what becomes of a block when its last packet has arrived.

The window refines it: `Holds` relates an assembly in the window to its block,
`finishPacket_verdict` shows that one packet is finished exactly as `verdict` says, and
`assembleLoop_packet` gives one turn of the assembly loop in these terms.  `captureFrame_eq`
notes that a capture is a single round of `try_frame`.
-/

set_option autoImplicit false

namespace Cvirtos.Usb.Uvc

open Cvirtos.Lib Cvirtos.Usb.Dwc2

/-- The bytes a block of packets of one FID amounts to. -/
def assembled (blk : List UvcPacket) : List UInt8 :=
  (blk.dropWhile fun p => !p.soi).flatMap UvcPacket.payload

/-- What becomes of a block when its last packet has arrived. -/
inductive Verdict where
  /-- The assembly area is too small. -/
  | overflow
  /-- The frame is complete. -/
  | frame
  /-- The frame ended without an end-of-image marker. -/
  | residual
  /-- The frame goes on. -/
  | more
  deriving DecidableEq, Repr

/-- The block ends with an end-of-image marker. -/
def Complete (blk : List UvcPacket) : Prop := [0xff, 0xd9] <:+ assembled blk

instance (blk : List UvcPacket) : Decidable (Complete blk) :=
  inferInstanceAs (Decidable ([0xff, 0xd9] <:+ assembled blk))

/-- The verdict on a block whose last packet is `p`. -/
def verdict (blk : List UvcPacket) (p : UvcPacket) : Verdict :=
  if (assembled blk).length > jpegCap then .overflow
  else if p.eof then if Complete blk then .frame else .residual
  else .more

/-- Nothing is left of a block without a start-of-image packet. -/
theorem dropWhile_fresh {blk : List UvcPacket} (h : blk.any UvcPacket.soi = false) :
    (blk.dropWhile fun p => !p.soi) = [] := by
  rw [List.dropWhile_eq_nil_iff]
  intro q hq
  simpa using List.any_eq_false.mp h q hq

theorem assembled_fresh {blk : List UvcPacket} (h : blk.any UvcPacket.soi = false) :
    assembled blk = [] := by
  unfold assembled
  rw [dropWhile_fresh h]
  rfl

theorem assembled_snoc (blk : List UvcPacket) (p : UvcPacket) :
    assembled (blk ++ [p]) =
      if blk.any UvcPacket.soi || p.soi then assembled blk ++ p.payload else [] := by
  unfold assembled
  rw [List.dropWhile_append]
  cases hs : blk.any UvcPacket.soi
  · rw [dropWhile_fresh hs]
    cases hp : p.soi <;> simp [List.dropWhile, hp]
  · have hne : (blk.dropWhile fun p => !p.soi).isEmpty = false := by
      rw [Bool.eq_false_iff]
      intro hnil
      rw [List.isEmpty_iff, List.dropWhile_eq_nil_iff] at hnil
      obtain ⟨q, hq, hqs⟩ := List.any_eq_true.mp hs
      simpa [hqs] using hnil q hq
    simp [hne]

theorem soi_prefix_assembled {blk : List UvcPacket} (h : blk.any UvcPacket.soi = true) :
    [0xff, 0xd8] <+: assembled blk := by
  induction blk with
  | nil => cases h
  | cons p ps ih =>
    unfold assembled
    cases hp : p.soi
    · rw [List.dropWhile_cons_of_pos (by simp [hp])]
      exact ih (by simpa [hp] using h)
    · rw [List.dropWhile_cons_of_neg (by simp [hp]), List.flatMap_cons]
      exact ((soi_iff p).mp hp).trans (List.prefix_append _ _)

/-- Packets without data do not open an image. -/
theorem soi_eq_false {p : UvcPacket} (h : p.payload = []) : p.soi = false := by
  cases hsoi : p.soi
  · rfl
  · have := (soi_iff p).mp hsoi
    rw [h] at this
    simp at this

/-- From a start-of-image packet on, packets assemble to their payloads, those without data in
front of it included. -/
theorem assembled_from_soi {hdr : List UvcPacket} {p : UvcPacket}
    (hhdr : ∀ q ∈ hdr, q.payload = []) (hs : [0xff, 0xd8] <+: p.payload) (tail : List UvcPacket) :
    assembled (hdr ++ p :: tail) = (hdr ++ p :: tail).flatMap UvcPacket.payload := by
  have hdrop : (hdr.dropWhile fun p => !p.soi) = [] := by
    rw [List.dropWhile_eq_nil_iff]
    intro q hq
    simp [soi_eq_false (hhdr q hq)]
  have hflat : hdr.flatMap UvcPacket.payload = [] := List.flatMap_eq_nil_iff.mpr hhdr
  unfold assembled
  rw [List.dropWhile_append, hdrop, List.dropWhile_cons_of_neg (by simp [(soi_iff p).mpr hs])]
  simp [hflat]

/-- A longer block assembles to at least as many bytes. -/
theorem assembled_length_snoc (blk : List UvcPacket) (p : UvcPacket) :
    (assembled blk).length ≤ (assembled (blk ++ [p])).length := by
  rw [assembled_snoc]
  cases h : blk.any UvcPacket.soi
  · rw [assembled_fresh h]
    simp
  · simp

theorem assembled_length_append (blk more : List UvcPacket) :
    (assembled blk).length ≤ (assembled (blk ++ more)).length := by
  induction more generalizing blk with
  | nil => simp
  | cons p ps ih =>
    have h1 := assembled_length_snoc blk p
    have h2 := ih (blk ++ [p])
    rw [List.append_assoc, List.singleton_append] at h2
    omega

/-! ## The window holds a block -/

/-- The assembly in the window is that of the block `blk`. -/
structure Holds (blk : List UvcPacket) (mem : Memory UInt8) (a : Assembly) : Prop where
  saw : a.sawData = blk.any UvcPacket.soi
  len : a.jpegLen = (assembled blk).length
  fits : a.jpegLen ≤ jpegCap
  bytes : load mem UVC_ASSEMBLED_JPEG_DMA_OFF a.jpegLen = assembled blk

theorem Holds.nil (mem : Memory UInt8) (fid : UInt8) : Holds [] mem ⟨0, false, fid⟩ :=
  ⟨rfl, rfl, Nat.zero_le _, rfl⟩

/-- Without data nothing is assembled. -/
theorem Holds.fresh {blk : List UvcPacket} {mem : Memory UInt8} {a : Assembly}
    (h : Holds blk mem a) (hs : a.sawData = false) : a.jpegLen = 0 := by
  rw [h.len, assembled_fresh (h.saw.symm.trans hs)]
  rfl

theorem Holds.two_le {blk : List UvcPacket} {mem : Memory UInt8} {a : Assembly}
    (h : Holds blk mem a) (hs : a.sawData = true) : 2 ≤ a.jpegLen := by
  rw [h.len]
  simpa using (soi_prefix_assembled (h.saw.symm.trans hs)).length_le

/-- Microframes received into the work area do not reach the assembled bytes. -/
theorem Holds.frame {blk : List UvcPacket} {mem mem' : Memory UInt8} {a : Assembly}
    (h : Holds blk mem a) {mps : Nat} (hmps : mps ≤ 2047)
    (hm : AgreeOutside DMA_OFF_UVC_BULK (DMA_OFF_UVC_BULK + mps) mem mem') :
    Holds blk mem' a := by
  refine ⟨h.saw, h.len, h.fits, ?_⟩
  rw [hm.load, h.bytes]
  refine Or.inr ?_
  unfold UVC_ASSEMBLED_JPEG_DMA_OFF UVC_WORK_AREA_BYTES
  omega

/-- The tail test of the code decides whether the block is complete. -/
theorem Holds.complete_iff {blk : List UvcPacket} {w : DmaBuf} {a : Assembly}
    (h : Holds blk w.mem a) : (a.sawData && tailIsEoi w a.jpegLen) = true ↔ Complete blk := by
  unfold Complete
  cases hs : blk.any UvcPacket.soi
  · rw [h.saw, hs, assembled_fresh hs]
    simp
  · have h2 := h.two_le (h.saw.trans hs)
    rw [h.saw, hs, Bool.true_and, tailIsEoi_iff h2 h.fits, h.bytes]

/-- **`append` extends the block**, unless the assembly area is too small for it. -/
theorem append_holds {blk : List UvcPacket} {w : DmaBuf} {a : Assembly}
    (h : Holds blk w.mem a) (p : UvcPacket) :
    (jpegCap < (assembled (blk ++ [p])).length ∧
      p.append a.jpegLen a.sawData jpegCap w =
        .error (.hardware "video assemble overflow")) ∨
    ((assembled (blk ++ [p])).length ≤ jpegCap ∧ ∃ len saw w',
      p.append a.jpegLen a.sawData jpegCap w = .ok (len, saw, w') ∧
      Holds (blk ++ [p]) w'.mem { a with jpegLen := len, sawData := saw }) := by
  have hsnoc := assembled_snoc blk p
  have hany : (blk ++ [p]).any UvcPacket.soi = (blk.any UvcPacket.soi || p.soi) := by simp
  have hfits := h.len ▸ h.fits
  unfold UvcPacket.append
  by_cases hemp : p.payload = []
  · -- a header-only packet
    have hp := soi_eq_false hemp
    have hsame : assembled (blk ++ [p]) = assembled blk := by
      rw [hsnoc, hp, hemp, Bool.or_false, List.append_nil]
      cases hs : blk.any UvcPacket.soi
      · simp [assembled_fresh hs]
      · simp
    rw [if_pos (by simp [hemp])]
    refine Or.inr ⟨by rw [hsame]; exact hfits, _, _, _, rfl, ?_⟩
    exact ⟨by rw [hany, hp, Bool.or_false]; exact h.saw, by rw [hsame]; exact h.len, h.fits,
      by rw [hsame]; exact h.bytes⟩
  rw [if_neg (by simp [hemp])]
  by_cases hpad : (!a.sawData && !p.soi) = true
  · -- padding before the first data
    rw [if_pos hpad]
    simp only [Bool.and_eq_true, Bool.not_eq_true'] at hpad
    have hs : blk.any UvcPacket.soi = false := by rw [← h.saw]; exact hpad.1
    have hsame : assembled (blk ++ [p]) = assembled blk := by
      rw [hsnoc, hs, hpad.2, assembled_fresh hs]
      simp
    refine Or.inr ⟨by rw [hsame]; exact hfits, _, _, _, rfl, ?_⟩
    exact ⟨by rw [hany, hpad.2, Bool.or_false]; exact h.saw, by rw [hsame]; exact h.len, h.fits,
      by rw [hsame]; exact h.bytes⟩
  rw [if_neg hpad]
  have hon : (blk.any UvcPacket.soi || p.soi) = true := by
    rw [h.saw] at hpad
    cases hs : blk.any UvcPacket.soi <;> cases hp : p.soi <;> simp [hs, hp] at hpad ⊢
  have hgrow : assembled (blk ++ [p]) = assembled blk ++ p.payload := by rw [hsnoc, if_pos hon]
  have hlen : (assembled (blk ++ [p])).length = a.jpegLen + p.payload.length := by
    rw [hgrow, List.length_append, h.len]
  by_cases hcap : a.jpegLen + p.payload.length > jpegCap
  · rw [if_pos hcap]
    exact Or.inl ⟨by omega, rfl⟩
  · rw [if_neg hcap]
    have hfit : UVC_ASSEMBLED_JPEG_DMA_OFF + a.jpegLen + p.payload.length ≤ DMA_BUF_TOTAL := by
      rw [← assembled_end]; omega
    rw [dmaWriteAt_eq hfit]
    refine Or.inr ⟨by omega, _, _, _, rfl, ?_⟩
    refine ⟨by rw [hany, hon], hlen.symm, by simpa using Nat.le_of_not_lt hcap, ?_⟩
    rw [load_store_append, h.bytes, hgrow]

/-- **One packet is finished as its verdict says.** -/
theorem finishPacket_verdict (frameFid : UInt8) (st : CaptureState) {blk : List UvcPacket}
    {a : Assembly} (h : Holds blk st.dma.mem a) (p : UvcPacket) :
    ∃ a' w', (verdict (blk ++ [p]) p ≠ .overflow →
        Holds (blk ++ [p]) w'.mem a' ∧ a'.fid = a.fid) ∧
      finishPacket frameFid jpegCap p a st =
        match verdict (blk ++ [p]) p with
        | .overflow => (.error (.hardware "video assemble overflow"), a, st)
        | .frame => (.ok (some (assembled (blk ++ [p])).length), a', ⟨w', frameFid⟩)
        | .residual => (.error .timeout, a', ⟨w', st.lastEofFid⟩)
        | .more => (.ok none, a', ⟨w', st.lastEofFid⟩) := by
  unfold finishPacket verdict
  rcases append_holds h p with ⟨hov, ha⟩ | ⟨hfit, len, saw, w', ha, hh⟩
  · rw [ha, if_pos hov]
    exact ⟨a, st.dma, fun hne => absurd rfl hne, rfl⟩
  · rw [ha, if_neg (by omega)]
    refine ⟨_, w', fun _ => ⟨hh, rfl⟩, ?_⟩
    have hc := hh.complete_iff
    have hl := hh.len
    simp only at hc hl
    cases he : p.eof
    · simp
    · simp only [Bool.true_and, ↓reduceIte]
      by_cases hcomp : Complete (blk ++ [p])
      · rw [if_pos hcomp, if_pos (hc.mpr hcomp), hl]
      · rw [if_neg hcomp, if_neg (fun ht => hcomp (hc.mp ht))]

/-! ## One turn of the assembly loop -/

/-- How a turn of the loop goes on after its packet `p` has joined the block `blk`. -/
def turn (iso : IsochInEp) (frameFid : UInt8) (blk : List UvcPacket) (p : UvcPacket)
    (us : List Uframe) (st : CaptureState) (a' : Assembly) (w' : DmaBuf) :
    Outcome CaptureState Nat :=
  match verdict blk p with
  | .overflow => .done (.error (.hardware "video assemble overflow")) us st
  | .frame => .done (.ok (assembled blk).length) us ⟨w', frameFid⟩
  | .residual => .done (.error .timeout) us ⟨w', st.lastEofFid⟩
  | .more => assembleLoop iso DMA_OFF_UVC_BULK frameFid jpegCap a' us ⟨w', st.lastEofFid⟩

/-- **A packet of the same FID joins the block.** -/
theorem assembleLoop_same (frameFid : UInt8) {iso : IsochInEp} {blk : List UvcPacket}
    {a : Assembly} {us us' : List Uframe} {st : CaptureState} {w : DmaBuf} {p : UvcPacket}
    (hr : readPayload iso DMA_OFF_UVC_BULK us st.dma = .done (.ok p.pkt) us' w)
    (hn : UvcPacket.new p.pkt = some p) (hh : Holds blk w.mem a) (hf : p.fid = a.fid) :
    ∃ a' w', (verdict (blk ++ [p]) p ≠ .overflow →
        Holds (blk ++ [p]) w'.mem a' ∧ a'.fid = a.fid) ∧
      assembleLoop iso DMA_OFF_UVC_BULK frameFid jpegCap a us st =
        turn iso frameFid (blk ++ [p]) p us' { st with dma := w } a' w' := by
  obtain ⟨a', w', hh', he⟩ := finishPacket_verdict frameFid { st with dma := w } hh p
  refine ⟨a', w', hh', ?_⟩
  have hsame : p.isFid a.fid = true := by simp [UvcPacket.isFid, hf]
  rw [assembleLoop, hr]
  simp only [hn, hsame, Bool.not_true, Bool.false_and, Bool.false_eq_true, ↓reduceIte, he]
  unfold turn
  cases verdict (blk ++ [p]) p <;> rfl

/-- **A flip closes a complete block.** -/
theorem assembleLoop_flip_complete (frameFid : UInt8) {iso : IsochInEp} {blk : List UvcPacket}
    {a : Assembly} {us us' : List Uframe} {st : CaptureState} {w : DmaBuf} {p : UvcPacket}
    (hr : readPayload iso DMA_OFF_UVC_BULK us st.dma = .done (.ok p.pkt) us' w)
    (hn : UvcPacket.new p.pkt = some p) (hh : Holds blk w.mem a) (hf : p.fid ≠ a.fid)
    (hc : Complete blk) :
    assembleLoop iso DMA_OFF_UVC_BULK frameFid jpegCap a us st =
      .done (.ok (assembled blk).length) us' ⟨w, frameFid⟩ := by
  have hdiff : p.isFid a.fid = false := by simp [UvcPacket.isFid, hf]
  have htail := hh.complete_iff.mpr hc
  rw [assembleLoop, hr]
  simp only [hn, hdiff, Bool.not_false, Bool.true_and, htail, ↓reduceIte]
  rw [hh.len]

/-- **A flip drops an incomplete block** and starts the next with its own packet. -/
theorem assembleLoop_flip_drop (frameFid : UInt8) {iso : IsochInEp} {blk : List UvcPacket}
    {a : Assembly} {us us' : List Uframe} {st : CaptureState} {w : DmaBuf} {p : UvcPacket}
    (hr : readPayload iso DMA_OFF_UVC_BULK us st.dma = .done (.ok p.pkt) us' w)
    (hn : UvcPacket.new p.pkt = some p) (hh : Holds blk w.mem a) (hf : p.fid ≠ a.fid)
    (hc : ¬ Complete blk) :
    ∃ a' w', (verdict [p] p ≠ .overflow → Holds [p] w'.mem a' ∧ a'.fid = p.fid) ∧
      assembleLoop iso DMA_OFF_UVC_BULK frameFid jpegCap a us st =
        turn iso frameFid [p] p us' { st with dma := w } a' w' := by
  obtain ⟨a', w', hh', he⟩ := finishPacket_verdict frameFid { st with dma := w }
    (Holds.nil w.mem p.fid) p
  refine ⟨a', w', hh', ?_⟩
  have hdiff : p.isFid a.fid = false := by simp [UvcPacket.isFid, hf]
  have htail : (a.sawData && tailIsEoi w a.jpegLen) = false :=
    Bool.eq_false_iff.mpr fun ht => hc (hh.complete_iff.mp ht)
  rw [assembleLoop, hr]
  simp only [hn, hdiff, Bool.not_false, Bool.true_and, htail, Bool.false_eq_true, ↓reduceIte, he]
  unfold turn
  rw [List.nil_append]
  cases verdict [p] p <;> rfl

/-- A packet with an illegal header is passed over. -/
theorem assembleLoop_illegal (frameFid : UInt8) {iso : IsochInEp} {a : Assembly}
    {us us' : List Uframe} {st : CaptureState} {w : DmaBuf} {pkt : List UInt8}
    (hr : readPayload iso DMA_OFF_UVC_BULK us st.dma = .done (.ok pkt) us' w)
    (hn : UvcPacket.new pkt = none) :
    assembleLoop iso DMA_OFF_UVC_BULK frameFid jpegCap a us st =
      assembleLoop iso DMA_OFF_UVC_BULK frameFid jpegCap a us' { st with dma := w } := by
  rw [assembleLoop, hr]
  simp only [hn]

/-- The first packet of an assembly. -/
theorem assemble_eq (iso : IsochInEp) (first : UvcPacket) (us : List Uframe)
    (st : CaptureState) :
    ∃ a' w', (verdict [first] first ≠ .overflow → Holds [first] w'.mem a' ∧ a'.fid = first.fid) ∧
      assemble iso DMA_OFF_UVC_BULK first jpegCap us st =
        turn iso first.fid [first] first us st a' w' := by
  obtain ⟨a', w', hh', he⟩ := finishPacket_verdict first.fid st (Holds.nil st.dma.mem first.fid) first
  refine ⟨a', w', hh', ?_⟩
  unfold assemble turn
  rw [he, List.nil_append]
  cases verdict [first] first <;> rfl

/-! ## The retry loop -/

/-- **A capture is a single round**: every result of `try_frame` leaves the retry loop. -/
theorem captureFrame_eq (cam : UvcCamera) (us : List Uframe) (st : CaptureState) :
    captureFrame cam us st =
      tryFrame cam.iso DMA_OFF_UVC_BULK (initFid st.lastEofFid) jpegCap us st := by
  unfold captureFrame
  rw [captureRounds]
  split <;> (rename_i h; exact h.symm)

end Cvirtos.Usb.Uvc
