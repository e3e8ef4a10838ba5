import Cvirtos.Usb.Uvc.FrameAssembly

/-!
# Capturing from a stream of frames

A device sends frames: packets of one FID of which the last, and only the last, carries EOF;
packets with an illegal header may stand anywhere, and header-only packets of the frame may
trail it.  `Delivers` places the packets on the bus with short gaps between them.

* `waitFlip_skip`, `waitFlip_flip` — the flip wait passes over the packets of the reference FID
  and stops at the first of another.
* `assembleLoop_frame`, `tryFrame_frame` — one round run against one frame: it returns exactly
  the frame's bytes when the frame is whole and an error otherwise.
* `captureFrame_residuals` — a capture that meets residual frames first fails.
* `captureCalls_lossless` — **successive captures return successive frames**, each once.
-/

set_option autoImplicit false

namespace Cvirtos.Usb.Uvc

open Cvirtos.Lib Cvirtos.Usb.Dwc2

/-- One frame on the bus: the received packets up to its EOF packet, and those that trail it. -/
structure StreamFrame where
  fid : UInt8
  raw : List (List UInt8)
  trail : List (List UInt8)

/-- The packets of one FID; the last one, and no other, carries EOF. -/
structure StreamFrame.Framed (f : StreamFrame) : Prop where
  fids : ∀ p ∈ legal f.raw, p.fid = f.fid
  last : ∃ init pkt p, f.raw = init ++ [pkt] ∧ UvcPacket.new pkt = some p ∧ p.eof = true ∧
    ∀ q ∈ legal init, q.eof = false
  trail : ∀ p ∈ legal f.trail, p.fid = f.fid ∧ p.payload = []

/-- A whole frame: header-only packets, then a packet that opens with a start-of-image marker;
the bytes end with an end-of-image marker and fit the assembly area. -/
structure StreamFrame.Whole (f : StreamFrame) : Prop where
  framed : f.Framed
  soi : ∃ hdr p tail, legal f.raw = hdr ++ p :: tail ∧ (∀ q ∈ hdr, q.payload = []) ∧
    [0xff, 0xd8] <+: p.payload
  eoi : [0xff, 0xd9] <:+ payloads f.raw
  fits : (payloads f.raw).length ≤ jpegCap

/-- A residual frame: what accumulates, with or without a start-of-image marker, does not end
with an end-of-image marker. -/
structure StreamFrame.Residual (f : StreamFrame) : Prop where
  framed : f.Framed
  eoi : ¬ [0xff, 0xd9] <:+ assembled (legal f.raw)

def StreamFrame.packets (f : StreamFrame) : List (List UInt8) := f.raw ++ f.trail

theorem legal_fid_le {p : UvcPacket} : p.fid ≤ 1 := by
  unfold UvcPacket.fid
  rw [UInt8.le_iff_toNat_le, UInt8.toNat_and]
  exact Nat.and_le_right

theorem initFid_fid (p : UvcPacket) : initFid p.fid = some p.fid := if_pos legal_fid_le

/-- The bytes of a whole frame are what its packets assemble to. -/
theorem StreamFrame.Whole.assembled_eq {f : StreamFrame} (h : f.Whole) :
    assembled (legal f.raw) = payloads f.raw := by
  obtain ⟨hdr, p, tail, he, hhdr, hs⟩ := h.soi
  unfold payloads
  rw [he]
  exact assembled_from_soi hhdr hs tail

/-! ## One packet off the bus -/

/-- **The next packet**: whatever follows, the read returns it and changes the work area only. -/
theorem read_next (iso : IsochInEp) {us : List Uframe} {pkt : List UInt8}
    {pkts : List (List UInt8)} (h : Delivers iso.mps us (pkt :: pkts)) (rest : List Uframe)
    (w : DmaBuf) :
    ∃ us' w', readPayload iso DMA_OFF_UVC_BULK (us ++ rest) w = .done (.ok pkt) (us' ++ rest) w' ∧
      Delivers iso.mps us' pkts ∧
      AgreeOutside DMA_OFF_UVC_BULK (DMA_OFF_UVC_BULK + iso.mps) w.mem w'.mem := by
  have hmps : 0 < iso.mps := by
    cases h with
    | packet _ _ hu hne _ =>
      have := reception_length hu
      have := List.length_pos_iff.mpr hne
      omega
  obtain ⟨us', w', hr, hd, ht⟩ := readPayload_delivers hmps (workOff_le iso) h rest w
  exact ⟨us', _, hr, hd, ht.mem⟩

/-! ## The flip wait -/

/-- The reference FID of the wait is `r`, given or about to be taken from `skip`. -/
def RefersTo (prev : Option UInt8) (r : UInt8) (skip : List (List UInt8)) : Prop :=
  prev = some r ∨ prev = none ∧ legal skip ≠ []

/-- **The wait passes over the packets of the reference FID**, illegal ones included. -/
theorem waitFlip_skip (iso : IsochInEp) {r : UInt8} {skip pkts : List (List UInt8)}
    {prev : Option UInt8} (hp : RefersTo prev r skip) (hf : ∀ p ∈ legal skip, p.fid = r)
    {us : List Uframe} (h : Delivers iso.mps us (skip ++ pkts)) (rest : List Uframe)
    (w : DmaBuf) :
    ∃ us' w', waitFlip iso DMA_OFF_UVC_BULK prev (us ++ rest) w =
        waitFlip iso DMA_OFF_UVC_BULK (some r) (us' ++ rest) w' ∧
      Delivers iso.mps us' pkts := by
  induction skip generalizing prev us w with
  | nil =>
    rcases hp with rfl | ⟨_, hne⟩
    · exact ⟨us, w, rfl, h⟩
    · exact absurd rfl hne
  | cons pkt skip ih =>
    obtain ⟨us₁, w₁, hr, hd, -⟩ := read_next iso h rest w
    have htail : ∀ p ∈ legal skip, p.fid = r := fun p hp =>
      hf p (by rw [← List.singleton_append, legal_append]; exact List.mem_append_right _ hp)
    rw [waitFlip, hr]
    cases hn : UvcPacket.new pkt with
    | none =>
      simp only [hn]
      refine ih ?_ htail hd w₁
      rcases hp with hp | ⟨hp, hne⟩
      · exact Or.inl hp
      · rw [← List.singleton_append, legal_append, legal_illegal hn, List.nil_append] at hne
        exact Or.inr ⟨hp, hne⟩
    | some p =>
      have hpf : p.fid = r := hf p (by
        rw [← List.singleton_append, legal_append, legal_singleton hn]; simp)
      simp only [hn]
      rcases hp with rfl | ⟨rfl, _⟩
      · simp only [hpf, ne_eq, not_true_eq_false, ↓reduceIte]
        exact ih (Or.inl rfl) htail hd w₁
      · simp only [hpf]
        exact ih (Or.inl rfl) htail hd w₁

/-- **The wait stops at a packet of another FID.** -/
theorem waitFlip_flip (iso : IsochInEp) {r : UInt8} {pkt : List UInt8} {p : UvcPacket}
    (hn : UvcPacket.new pkt = some p) (hne : p.fid ≠ r) {pkts : List (List UInt8)}
    {us : List Uframe} (h : Delivers iso.mps us (pkt :: pkts)) (rest : List Uframe)
    (w : DmaBuf) :
    ∃ us' w', waitFlip iso DMA_OFF_UVC_BULK (some r) (us ++ rest) w =
        .done (.ok p) (us' ++ rest) w' ∧ Delivers iso.mps us' pkts := by
  obtain ⟨us₁, w₁, hr, hd, -⟩ := read_next iso h rest w
  refine ⟨us₁, w₁, ?_, hd⟩
  rw [waitFlip, hr]
  simp only [hn, ne_eq, Ne.symm hne, not_false_eq_true, ↓reduceIte]

/-! ## One frame -/

/-- The result of a round that has assembled the packets `blk` to their EOF packet. -/
inductive FrameResult (blk : List UvcPacket) (frameFid : UInt8) (mps : Nat)
    (pkts : List (List UInt8)) (rest : List Uframe) : Outcome CaptureState Nat → Prop where
  | frame {us : List Uframe} {st : CaptureState}
      (hfit : (assembled blk).length ≤ jpegCap) (hc : Complete blk)
      (hd : Delivers mps us pkts) (hfid : st.lastEofFid = frameFid)
      (hb : load st.dma.mem UVC_ASSEMBLED_JPEG_DMA_OFF (assembled blk).length = assembled blk) :
      FrameResult blk frameFid mps pkts rest
        (.done (.ok (assembled blk).length) (us ++ rest) st)
  | failed {e : UsbError} {us : List Uframe} {st : CaptureState}
      (hbad : ¬ ((assembled blk).length ≤ jpegCap ∧ Complete blk)) :
      FrameResult blk frameFid mps pkts rest (.done (.error e) us st)

/-- The verdict at an EOF packet. -/
theorem verdict_eof (blk : List UvcPacket) {p : UvcPacket} (he : p.eof = true) :
    (verdict blk p = .frame ∧ (assembled blk).length ≤ jpegCap ∧ Complete blk) ∨
    ((verdict blk p = .overflow ∨ verdict blk p = .residual) ∧
      ¬ ((assembled blk).length ≤ jpegCap ∧ Complete blk)) := by
  unfold verdict
  rw [if_pos he]
  by_cases hcap : (assembled blk).length > jpegCap
  · rw [if_pos hcap]
    exact Or.inr ⟨Or.inl rfl, fun h => absurd h.1 (by omega)⟩
  · rw [if_neg hcap]
    by_cases hc : Complete blk
    · rw [if_pos hc]
      exact Or.inl ⟨rfl, by omega, hc⟩
    · rw [if_neg hc]
      exact Or.inr ⟨Or.inr rfl, fun h => hc h.2⟩

/-- The verdict at any other packet. -/
theorem verdict_not_eof (blk : List UvcPacket) {p : UvcPacket} (he : p.eof = false) :
    verdict blk p = .more ∨ verdict blk p = .overflow ∧ jpegCap < (assembled blk).length := by
  unfold verdict
  by_cases hcap : (assembled blk).length > jpegCap
  · rw [if_pos hcap]
    exact Or.inr ⟨rfl, hcap⟩
  · rw [if_neg hcap, if_neg (by simp [he])]
    exact Or.inl rfl

/-- The turn that takes the EOF packet ends the round. -/
theorem turn_eof (iso : IsochInEp) {frameFid : UInt8} {blk : List UvcPacket} {p : UvcPacket}
    (he : p.eof = true) {us : List Uframe} {pkts : List (List UInt8)}
    (hd : Delivers iso.mps us pkts) (rest : List Uframe) {st : CaptureState} {a' : Assembly}
    {w' : DmaBuf} (hh : verdict blk p ≠ .overflow → Holds blk w'.mem a') :
    FrameResult blk frameFid iso.mps pkts rest
      (turn iso frameFid blk p (us ++ rest) st a' w') := by
  unfold turn
  rcases verdict_eof blk he with ⟨hv, hfit, hc⟩ | ⟨hv | hv, hbad⟩
  · have hh' := hh (by rw [hv]; simp)
    rw [hv]
    refine .frame hfit hc hd rfl ?_
    rw [← hh'.len]
    exact hh'.bytes
  · rw [hv]; exact .failed hbad
  · rw [hv]; exact .failed hbad

/-- **The assembly loop run against the packets up to an EOF packet.** -/
theorem assembleLoop_frame (iso : IsochInEp) {fid frameFid : UInt8} {init : List (List UInt8)}
    {pkt : List UInt8} {p : UvcPacket} (hn : UvcPacket.new pkt = some p) (he : p.eof = true)
    (hpf : p.fid = fid) (hfid : ∀ q ∈ legal init, q.fid = fid)
    (heof : ∀ q ∈ legal init, q.eof = false) {pkts : List (List UInt8)} {blk : List UvcPacket}
    {us : List Uframe} (h : Delivers iso.mps us (init ++ pkt :: pkts)) (rest : List Uframe)
    {a : Assembly} {st : CaptureState} (hh : Holds blk st.dma.mem a) (haf : a.fid = fid) :
    FrameResult (blk ++ legal init ++ [p]) frameFid iso.mps pkts rest
      (assembleLoop iso DMA_OFF_UVC_BULK frameFid jpegCap a (us ++ rest) st) := by
  induction init generalizing blk us a st with
  | nil =>
    obtain ⟨us₁, w₁, hr, hd, hm⟩ := read_next iso h rest st.dma
    obtain rfl := UvcPacket.new_pkt hn
    obtain ⟨a', w', hh', hloop⟩ := assembleLoop_same frameFid hr hn
      (hh.frame (IsochInEp.mps_le iso) hm) (hpf.trans haf.symm)
    have hnil : legal [] = [] := rfl
    rw [hloop, hnil, List.append_nil]
    exact turn_eof iso he hd rest fun hv => (hh' hv).1
  | cons pkt' init ih =>
    obtain ⟨us₁, w₁, hr, hd, hm⟩ := read_next iso h rest st.dma
    have hh₁ := hh.frame (IsochInEp.mps_le iso) hm
    rw [legal_cons] at hfid heof ⊢
    have hfid' : ∀ q ∈ legal init, q.fid = fid := fun q hq =>
      hfid q (List.mem_append_right _ hq)
    have heof' : ∀ q ∈ legal init, q.eof = false := fun q hq =>
      heof q (List.mem_append_right _ hq)
    cases hn' : UvcPacket.new pkt' with
    | none =>
      rw [assembleLoop_illegal frameFid hr hn', legal_illegal hn', List.nil_append]
      exact ih hfid' heof' hd hh₁ haf
    | some q =>
      rw [legal_singleton hn'] at hfid heof ⊢
      obtain rfl := UvcPacket.new_pkt hn'
      obtain ⟨a', w', hh', hloop⟩ := assembleLoop_same frameFid hr hn' hh₁
        ((hfid q (by simp)).trans haf.symm)
      have hassoc : blk ++ ([q] ++ legal init) ++ [p] = blk ++ [q] ++ legal init ++ [p] := by
        simp
      rw [hloop, hassoc]
      unfold turn
      rcases verdict_not_eof (blk ++ [q]) (heof q (by simp)) with hv | ⟨hv, hov⟩
      · obtain ⟨hh'', haf'⟩ := hh' (by rw [hv]; simp)
        rw [hv]
        exact ih hfid' heof' hd hh'' (haf'.trans haf)
      · have hle := assembled_length_append (blk ++ [q]) (legal init ++ [p])
        rw [← List.append_assoc] at hle
        rw [hv]
        exact .failed fun hgood => absurd hgood.1 (by omega)

/-- The first legal packet of a list, if any. -/
theorem split_legal (raw : List (List UInt8)) :
    legal raw = [] ∨ ∃ ill pkt p more, raw = ill ++ pkt :: more ∧ legal ill = [] ∧
      UvcPacket.new pkt = some p := by
  induction raw with
  | nil => exact Or.inl rfl
  | cons x xs ih =>
    cases hx : UvcPacket.new x with
    | some p => exact Or.inr ⟨[], x, p, xs, rfl, rfl, hx⟩
    | none =>
      rcases ih with h | ⟨ill, pkt, p, more, rfl, hill, hn⟩
      · exact Or.inl (by rw [legal_cons, legal_illegal hx, h]; rfl)
      · refine Or.inr ⟨x :: ill, pkt, p, more, rfl, ?_, hn⟩
        rw [legal_cons, legal_illegal hx, hill]
        rfl

/-- **One round run against one frame**, behind packets of the reference FID. -/
theorem tryFrame_frame (iso : IsochInEp) {r : UInt8} {skip : List (List UInt8)}
    {prev : Option UInt8} (hp : RefersTo prev r skip) (hskip : ∀ p ∈ legal skip, p.fid = r)
    {f : StreamFrame} (hf : f.Framed) (hne : f.fid ≠ r) {pkts : List (List UInt8)}
    {us : List Uframe} (h : Delivers iso.mps us (skip ++ (f.raw ++ pkts))) (rest : List Uframe)
    (st : CaptureState) :
    FrameResult (legal f.raw) f.fid iso.mps pkts rest
      (tryFrame iso DMA_OFF_UVC_BULK prev jpegCap (us ++ rest) st) := by
  obtain ⟨init, pkt, p, hraw, hn, he, heof⟩ := hf.last
  have hfids := hf.fids
  rw [hraw, legal_append, legal_singleton hn] at hfids ⊢
  rw [hraw, List.append_assoc, List.singleton_append] at h
  -- illegal packets in front of the first legal one belong to what the wait passes over
  have hwait : ∀ (ill : List (List UInt8)) (qkt : List UInt8) (q : UvcPacket)
      (more : List (List UInt8)), legal ill = [] → UvcPacket.new qkt = some q → q.fid = f.fid →
      Delivers iso.mps us (skip ++ (ill ++ qkt :: more)) →
      ∃ us' w', Delivers iso.mps us' more ∧
        tryFrame iso DMA_OFF_UVC_BULK prev jpegCap (us ++ rest) st =
          assemble iso DMA_OFF_UVC_BULK q jpegCap (us' ++ rest) ⟨w', st.lastEofFid⟩ := by
    intro ill qkt q more hill hq hqf hd
    rw [← List.append_assoc] at hd
    have hlegal : legal (skip ++ ill) = legal skip := by rw [legal_append, hill, List.append_nil]
    have hp' : RefersTo prev r (skip ++ ill) := by
      unfold RefersTo
      rw [hlegal]
      exact hp
    obtain ⟨us₁, w₁, h₁, d₁⟩ := waitFlip_skip iso hp' (by rw [hlegal]; exact hskip) hd rest st.dma
    obtain ⟨us₂, w₂, h₂, d₂⟩ := waitFlip_flip iso hq (by rw [hqf]; exact hne) d₁ rest w₁
    refine ⟨us₂, w₂, d₂, ?_⟩
    unfold tryFrame
    rw [h₁, h₂]
  rcases split_legal init with hill | ⟨ill, qkt, q, more, rfl, hill, hq⟩
  · -- the EOF packet is the only legal one
    have hpf : p.fid = f.fid := hfids p (by simp)
    obtain ⟨us', w', d, heq⟩ := hwait init pkt p pkts hill hn hpf h
    obtain ⟨a', w'', hh', hasm⟩ := assemble_eq iso p (us' ++ rest) ⟨w', st.lastEofFid⟩
    rw [heq, hasm, hill, List.nil_append, hpf]
    exact turn_eof iso he d rest fun hv => (hh' hv).1
  · rw [legal_append, hill, List.nil_append, legal_cons, legal_singleton hq] at hfids ⊢
    have hqf : q.fid = f.fid := hfids q (by simp)
    rw [List.append_assoc, List.cons_append] at h
    obtain ⟨us', w', d, heq⟩ := hwait ill qkt q _ hill hq hqf h
    obtain ⟨a', w'', hh', hasm⟩ := assemble_eq iso q (us' ++ rest) ⟨w', st.lastEofFid⟩
    have hqe : q.eof = false := heof q (by
      rw [legal_append, legal_cons, legal_singleton hq]; simp)
    rw [heq, hasm, hqf]
    unfold turn
    rcases verdict_not_eof [q] hqe with hv | ⟨hv, hov⟩
    · obtain ⟨hh'', haf'⟩ := hh' (by rw [hv]; simp)
      rw [hv]
      refine assembleLoop_frame iso hn he (hfids p (by simp)) (fun x hx => hfids x ?_)
        (fun x hx => heof x ?_) d rest hh'' (haf'.trans hqf)
      · simp [hx]
      · rw [legal_append, legal_cons]; simp [hx]
    · have hle := assembled_length_append [q] (legal more ++ [p])
      rw [← List.append_assoc] at hle
      rw [hv]
      exact .failed fun hgood => absurd hgood.1 (by omega)

/-- The frame of `n` bytes as the caller of a capture sees it. -/
def frameBytes (st : CaptureState) (n : Nat) : Option (List UInt8) :=
  dmaRxSlice st.dma UVC_ASSEMBLED_JPEG_DMA_OFF n

/-- The capture returns `bytes`. -/
def ReturnsBytes (cam : UvcCamera) (us : List Uframe) (st : CaptureState) (bytes : List UInt8) :
    Prop :=
  ∃ n rest st', captureFrame cam us st = .done (.ok n) rest st' ∧ frameBytes st' n = some bytes

/-- The capture returns an error. -/
def ReturnsError (cam : UvcCamera) (us : List Uframe) (st : CaptureState) : Prop :=
  ∃ e rest st', captureFrame cam us st = .done (.error e) rest st'

theorem ReturnsBytes.not_error {cam : UvcCamera} {us : List Uframe} {st : CaptureState}
    {bytes : List UInt8} (h : ReturnsBytes cam us st bytes) : ¬ ReturnsError cam us st := by
  obtain ⟨n, rest, st', h, _⟩ := h
  rintro ⟨e, rest', st'', h'⟩
  rw [h] at h'
  cases h'

/-- **A capture run against one frame**: the whole frame is handed out and its FID remembered,
and the microframes of the later packets are left. -/
theorem captureFrame_whole (cam : UvcCamera) {r : UInt8} {skip : List (List UInt8)}
    {f : StreamFrame} (hf : f.Whole) (hne : f.fid ≠ r) {us : List Uframe}
    {pkts : List (List UInt8)} (rest : List Uframe) {st : CaptureState}
    (hp : RefersTo (initFid st.lastEofFid) r skip) (hskip : ∀ p ∈ legal skip, p.fid = r)
    (h : Delivers cam.iso.mps us (skip ++ (f.raw ++ pkts))) :
    ∃ n us' st', captureFrame cam (us ++ rest) st = .done (.ok n) (us' ++ rest) st' ∧
      frameBytes st' n = some (payloads f.raw) ∧ st'.lastEofFid = f.fid ∧
      Delivers cam.iso.mps us' pkts := by
  have hasm := hf.assembled_eq
  have hres := tryFrame_frame cam.iso hp hskip hf.framed hne h rest st
  rw [← captureFrame_eq] at hres
  generalize ho : captureFrame cam (us ++ rest) st = o at hres
  cases hres with
  | @frame us' st' hfit hc hd hfid hb =>
    refine ⟨_, us', st', rfl, ?_, hfid, hd⟩
    have hpos : 0 < (assembled (legal f.raw)).length := by
      have := hc.length_le
      simp at this
      omega
    have hend := assembled_end
    unfold frameBytes
    rw [dmaRxSlice_eq hpos (by omega), hb, hasm]
  | failed hbad =>
    refine absurd ⟨?_, ?_⟩ hbad
    · rw [hasm]; exact hf.fits
    · unfold Complete
      rw [hasm]
      exact hf.eoi

/-- **A residual frame ends the capture** with an error. -/
theorem captureFrame_residual (cam : UvcCamera) {r : UInt8} {skip : List (List UInt8)}
    {f : StreamFrame} (hf : f.Residual) (hne : f.fid ≠ r) {us : List Uframe}
    {pkts : List (List UInt8)} (rest : List Uframe) {st : CaptureState}
    (hp : RefersTo (initFid st.lastEofFid) r skip) (hskip : ∀ p ∈ legal skip, p.fid = r)
    (h : Delivers cam.iso.mps us (skip ++ (f.raw ++ pkts))) :
    ReturnsError cam (us ++ rest) st := by
  have hres := tryFrame_frame cam.iso hp hskip hf.framed hne h rest st
  rw [← captureFrame_eq] at hres
  unfold ReturnsError
  generalize ho : captureFrame cam (us ++ rest) st = o at hres
  cases hres with
  | frame hfit hc => exact absurd hc hf.eoi
  | failed hbad => exact ⟨_, _, _, rfl⟩

/-! ## Residual frames before a whole one -/

/-- A camera with 8-byte packets. -/
def demoCamera : UvcCamera := ⟨0, 1, 8⟩

/-- A microframe that carries `data`. -/
def dataUframe (data : List UInt8) : Uframe := ⟨false, some 1, data⟩

/-- A frame of one packet: `ff d8` without an end-of-image marker, FID 1, EOF. -/
def metadataFrame : StreamFrame := ⟨1, [[2, 3, 0xff, 0xd8]], []⟩

/-- A whole frame of one packet, FID 0. -/
def evenFrame : StreamFrame := ⟨0, [[2, 2, 0xff, 0xd8, 0xff, 0xd9]], []⟩

/-- A whole frame of two packets and a trailing header, FID 1. -/
def oddFrame : StreamFrame :=
  ⟨1, [[2, 1, 0xff, 0xd8, 7], [2, 3, 0xff, 0xd9]], [[2, 1]]⟩

theorem metadataFrame_residual : metadataFrame.Residual := by
  refine ⟨⟨by decide, ⟨[], _, ⟨[2, 3, 0xff, 0xd8], 2, by decide, by decide⟩, rfl, rfl, ?_⟩,
    by decide⟩, by decide⟩
  exact ⟨by decide, by decide⟩

theorem evenFrame_whole : evenFrame.Whole := by
  refine ⟨⟨by decide, ⟨[], _, ⟨[2, 2, 0xff, 0xd8, 0xff, 0xd9], 2, by decide, by decide⟩, rfl, rfl,
    ?_⟩, by decide⟩, ⟨[], _, [], rfl, ?_⟩, by decide, by decide⟩
  · exact ⟨by decide, by decide⟩
  · exact ⟨by decide, by decide⟩

theorem oddFrame_whole : oddFrame.Whole := by
  refine ⟨⟨by decide, ⟨[[2, 1, 0xff, 0xd8, 7]], _, ⟨[2, 3, 0xff, 0xd9], 2, by decide, by decide⟩,
    rfl, rfl, ?_⟩, by decide⟩, ⟨[], _, _, rfl, ?_⟩, by decide, by decide⟩
  · exact ⟨by decide, by decide⟩
  · exact ⟨by decide, by decide⟩

/-- Microframes without gaps deliver the packets they carry. -/
theorem delivers_dataUframes {mps : Nat} {pkts : List (List UInt8)}
    (h : ∀ pkt ∈ pkts, pkt ≠ [] ∧ pkt.length ≤ mps) :
    Delivers mps (pkts.map dataUframe) pkts := by
  induction pkts with
  | nil => exact .nil
  | cons pkt pkts ih =>
    obtain ⟨hne, hlen⟩ := h pkt (by simp)
    have hu : reception mps (dataUframe pkt) = .ok pkt := by
      show Except.ok (pkt.take mps) = .ok pkt
      rw [List.take_of_length_le hlen]
    have hgap : ∀ v ∈ ([] : List Uframe), reception mps v = .ok [] := by simp
    exact .packet hgap (by decide) hu hne (ih fun q hq => h q (List.mem_cons_of_mem _ hq))

/-- **Residual frames are not retried**: behind the packets of the reference FID, any number of
residual frames stands in front of a whole one, with alternating FIDs.  The capture returns the
whole frame, and no error, exactly when there is no residual frame. -/
theorem captureFrame_residuals (cam : UvcCamera) (st : CaptureState) (r : UInt8)
    (skip : List (List UInt8)) (rs : List StreamFrame) (c : StreamFrame) (us rest : List Uframe)
    (hp : RefersTo (initFid st.lastEofFid) r skip) (hskip : ∀ p ∈ legal skip, p.fid = r)
    (hres : ∀ f ∈ rs, f.Residual) (hc : c.Whole)
    (hfids : (r :: (rs ++ [c]).map StreamFrame.fid).IsChain (· ≠ ·))
    (h : Delivers cam.iso.mps us (skip ++ (rs ++ [c]).flatMap StreamFrame.packets)) :
    ReturnsBytes cam (us ++ rest) st (payloads c.raw) ∧ ¬ ReturnsError cam (us ++ rest) st ↔
      rs = [] := by
  constructor
  · rintro ⟨-, hno⟩
    cases rs with
    | nil => rfl
    | cons f rs =>
      refine absurd ?_ hno
      rw [List.cons_append, List.map_cons, List.isChain_cons_cons] at hfids
      rw [List.cons_append, List.flatMap_cons] at h
      unfold StreamFrame.packets at h
      rw [List.append_assoc] at h
      exact captureFrame_residual cam (hres f (by simp)) (Ne.symm hfids.1) rest hp hskip h
  · rintro rfl
    rw [List.nil_append, List.map_cons, List.isChain_cons_cons] at hfids
    rw [List.nil_append, List.flatMap_singleton] at h
    obtain ⟨n, us', st', hcap, hb, -, -⟩ :=
      captureFrame_whole cam hc (Ne.symm hfids.1) rest hp hskip h
    have hret : ReturnsBytes cam (us ++ rest) st (payloads c.raw) := ⟨n, _, st', hcap, hb⟩
    exact ⟨hret, hret.not_error⟩

/-- The state before a capture that waits for a flip from FID 0. -/
def afterEvenFrame : CaptureState := .start (fun _ => 0) 0

theorem captureFrame_metadataFrame :
    ReturnsBytes demoCamera ([[2, 3, 0xff, 0xd8], [2, 2, 0xff, 0xd8, 0xff, 0xd9]].map dataUframe)
        afterEvenFrame (payloads evenFrame.raw) ∧
      ¬ ReturnsError demoCamera
        ([[2, 3, 0xff, 0xd8], [2, 2, 0xff, 0xd8, 0xff, 0xd9]].map dataUframe) afterEvenFrame ↔
      [metadataFrame] = [] := by
  have h := captureFrame_residuals demoCamera afterEvenFrame 0 [] [metadataFrame] evenFrame
    ([[2, 3, 0xff, 0xd8], [2, 2, 0xff, 0xd8, 0xff, 0xd9]].map dataUframe) [] (Or.inl rfl)
    (by decide) (by simpa using metadataFrame_residual) evenFrame_whole (by decide)
    (delivers_dataUframes (by decide))
  rwa [List.append_nil] at h

/-- **A metadata frame costs the capture**: one residual frame after the flip, then a whole
one; the capture ends with an error, without the whole frame. -/
theorem metadataFrame_not_retried :
    metadataFrame.Residual ∧ evenFrame.Whole ∧
      Delivers demoCamera.iso.mps
        ([[2, 3, 0xff, 0xd8], [2, 2, 0xff, 0xd8, 0xff, 0xd9]].map dataUframe)
        (metadataFrame.packets ++ evenFrame.packets) ∧
      ReturnsError demoCamera
        ([[2, 3, 0xff, 0xd8], [2, 2, 0xff, 0xd8, 0xff, 0xd9]].map dataUframe) afterEvenFrame ∧
      ¬ ReturnsBytes demoCamera
        ([[2, 3, 0xff, 0xd8], [2, 2, 0xff, 0xd8, 0xff, 0xd9]].map dataUframe) afterEvenFrame
        (payloads evenFrame.raw) := by
  have hd : Delivers demoCamera.iso.mps
      ([[2, 3, 0xff, 0xd8], [2, 2, 0xff, 0xd8, 0xff, 0xd9]].map dataUframe)
      (metadataFrame.packets ++ evenFrame.packets) := delivers_dataUframes (by decide)
  have hp : RefersTo (initFid afterEvenFrame.lastEofFid) 0 [] := Or.inl rfl
  have hd' : Delivers demoCamera.iso.mps
      ([[2, 3, 0xff, 0xd8], [2, 2, 0xff, 0xd8, 0xff, 0xd9]].map dataUframe)
      ([] ++ (metadataFrame.raw ++ evenFrame.packets)) := hd
  have herr := captureFrame_residual demoCamera metadataFrame_residual (by decide) [] hp
    (by decide) hd'
  rw [List.append_nil] at herr
  exact ⟨metadataFrame_residual, evenFrame_whole, hd, herr, fun hret => hret.not_error herr⟩

/-! ## Successive captures -/

/-- The results of up to `k` successive captures: what each returns to its caller.  The list
ends early when a capture is still waiting for microframes. -/
def captureCalls (cam : UvcCamera) :
    Nat → List Uframe → CaptureState → List (UsbResult (Option (List UInt8)))
  | 0, _, _ => []
  | k + 1, us, st =>
    match captureFrame cam us st with
    | .waiting _ => []
    | .done (.error e) us st => .error e :: captureCalls cam k us st
    | .done (.ok n) us st => .ok (frameBytes st n) :: captureCalls cam k us st

/-- The captures after packets of the reference FID. -/
theorem captureCalls_frames (cam : UvcCamera) (rest : List Uframe) {frames : List StreamFrame}
    (hw : ∀ f ∈ frames, f.Whole) {r : UInt8} {skip : List (List UInt8)}
    (hfids : (r :: frames.map StreamFrame.fid).IsChain (· ≠ ·))
    (hskip : ∀ p ∈ legal skip, p.fid = r) {us : List Uframe} {st : CaptureState}
    (hp : RefersTo (initFid st.lastEofFid) r skip)
    (h : Delivers cam.iso.mps us (skip ++ frames.flatMap StreamFrame.packets)) :
    captureCalls cam frames.length (us ++ rest) st =
      frames.map fun f => .ok (some (payloads f.raw)) := by
  induction frames generalizing r skip us st with
  | nil => rfl
  | cons f frames ih =>
    rw [List.map_cons, List.isChain_cons_cons] at hfids
    rw [List.flatMap_cons] at h
    unfold StreamFrame.packets at h
    rw [List.append_assoc] at h
    obtain ⟨n, us', st', hcap, hb, hfid, hd⟩ :=
      captureFrame_whole cam (hw f (by simp)) (Ne.symm hfids.1) rest hp hskip h
    have hp' : RefersTo (initFid st'.lastEofFid) f.fid f.trail := by
      obtain ⟨init, pkt, p, hraw, hn, -⟩ := (hw f (by simp)).framed.last
      have hpf : p.fid = f.fid := (hw f (by simp)).framed.fids p (by
        rw [hraw, legal_append, legal_singleton hn]; simp)
      rw [hfid, ← hpf]
      exact Or.inl (initFid_fid p)
    have htail := ih (fun g hg => hw g (List.mem_cons_of_mem _ hg)) hfids.2
      (fun p hp => ((hw f (by simp)).framed.trail p hp).1) hp' hd
    rw [List.length_cons, captureCalls, hcap, List.map_cons]
    simp only [hb]
    rw [htail]

/-- **Lossless delivery in order**: on a bus that carries whole frames with alternating FIDs,
captures from a fresh start return the frames after the first, each once, in order and byte
for byte, whatever follows on the bus. -/
theorem captureCalls_lossless (cam : UvcCamera) (dma : DmaBuf) (first : StreamFrame)
    (frames : List StreamFrame) (us rest : List Uframe) (hfirst : first.Whole)
    (hw : ∀ f ∈ frames, f.Whole)
    (hfids : ((first :: frames).map StreamFrame.fid).IsChain (· ≠ ·))
    (h : Delivers cam.iso.mps us ((first :: frames).flatMap StreamFrame.packets)) :
    captureCalls cam frames.length (us ++ rest) ⟨dma, 0xFF⟩ =
      frames.map fun f => .ok (some (payloads f.raw)) := by
  have hskip : ∀ p ∈ legal first.packets, p.fid = first.fid := by
    intro p hp
    unfold StreamFrame.packets at hp
    rw [legal_append] at hp
    rcases List.mem_append.mp hp with hp | hp
    · exact hfirst.framed.fids p hp
    · exact (hfirst.framed.trail p hp).1
  have hne : legal first.packets ≠ [] := by
    obtain ⟨hdr, p, tail, he, -⟩ := hfirst.soi
    unfold StreamFrame.packets
    rw [legal_append, he]
    simp
  exact captureCalls_frames cam rest hw hfids hskip (Or.inr ⟨rfl, hne⟩) h

/-- Three frames, of which the first is only looked at, and the beginning of a fourth. -/
theorem captureCalls_evenOdd :
    captureCalls demoCamera 2
        ([[2, 1, 0xff, 0xd8, 7], [2, 3, 0xff, 0xd9], [2, 1], [2, 2, 0xff, 0xd8, 0xff, 0xd9],
          [2, 1, 0xff, 0xd8, 7], [2, 3, 0xff, 0xd9], [2, 1]].map dataUframe ++
            [dataUframe [2, 0, 0xff, 0xd8]]) ⟨⟨fun _ => 0, []⟩, 0xFF⟩ =
      [.ok (some [0xff, 0xd8, 0xff, 0xd9]), .ok (some [0xff, 0xd8, 7, 0xff, 0xd9])] :=
  captureCalls_lossless demoCamera ⟨fun _ => 0, []⟩ oddFrame [evenFrame, oddFrame] _ _
    oddFrame_whole (by simpa using ⟨evenFrame_whole, oddFrame_whole⟩) (by decide)
    (delivers_dataUframes (by decide))

end Cvirtos.Usb.Uvc
