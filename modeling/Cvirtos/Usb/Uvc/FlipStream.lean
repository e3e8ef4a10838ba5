import Cvirtos.Usb.Uvc.FrameFid

/-!
# Frames that end with a flip

A camera that does not set EOF ends a frame by starting the next one.  The packet that shows the
end of a frame is the first of the next frame, and `try_frame` does not keep it for the capture
that follows.

* `assembleLoop_run` — packets of the running FID, none with EOF, are assembled.
* `captureFrame_flip` — one capture run against one frame and the first packet of the next: it
  returns the frame, and has received that packet too.
* `flipCompletion_iff` — **successive captures return successive frames** as long as there is one
  capture at most.
-/

set_option autoImplicit false

namespace Cvirtos.Usb.Uvc

open Cvirtos.Lib Cvirtos.Usb.Dwc2

/-- One frame on the bus of a camera that does not set EOF. -/
structure FlipFrame where
  fid : UInt8
  raw : List (List UInt8)

/-- A complete frame: packets of one FID without EOF, from a start-of-image marker in the first of
them to an end-of-image marker, that fit the assembly area. -/
structure FlipFrame.Whole (f : FlipFrame) : Prop where
  block : Block f.raw f.fid
  noEof : ∀ p ∈ legal f.raw, p.eof = false
  eoi : [0xff, 0xd9] <:+ payloads f.raw
  fits : (payloads f.raw).length ≤ jpegCap

/-- A capture as its caller sees it, and the position of the packet that the frame begins with. -/
def Call.returned (c : Call) : UsbResult (Option Nat × Option (List UInt8)) :=
  c.res.map fun n => ((frameParts c.after.dma).head?, frameBytes c.after n)

/-- The frames returned one after the other, the first of them from the packet at `pos` on. -/
def framesFrom : Nat → List FlipFrame → List (UsbResult (Option Nat × Option (List UInt8)))
  | _, [] => []
  | pos, f :: fs => .ok (some pos, some (payloads f.raw)) :: framesFrom (pos + f.raw.length) fs

/-! ## Assembling without EOF -/

/-- A packet without EOF that fits asks for the next one. -/
theorem finishPacket_plain (frameFid : UInt8) (st : CaptureState) {blk : List UvcPacket}
    {a : Assembly} {p : UvcPacket} (hh : Holds blk st.dma.mem a) (he : p.eof = false)
    (hfit : (assembled (blk ++ [p])).length ≤ jpegCap) :
    ∃ len saw w', p.append a.jpegLen a.sawData jpegCap st.dma = .ok (len, saw, w') ∧
      Holds (blk ++ [p]) w'.mem { a with jpegLen := len, sawData := saw } ∧
      finishPacket frameFid jpegCap p a st =
        (.ok none, { a with jpegLen := len, sawData := saw }, { st with dma := w' }) := by
  rcases append_holds hh p with ⟨hov, -⟩ | ⟨-, len, saw, w', ha, hh'⟩
  · exact absurd hfit (Nat.not_le.mpr hov)
  · refine ⟨len, saw, w', ha, hh', ?_⟩
    unfold finishPacket
    rw [ha]
    simp [he]

/-- The frame begins with its first packet. -/
theorem append_begins {p : UvcPacket} {len : Nat} {saw : Bool} {w w' : DmaBuf}
    {recv : List (List UInt8)} (hr : received w.trace = recv ++ [p.pkt]) (hs : p.soi = true)
    (h : p.append 0 false jpegCap w = .ok (len, saw, w')) :
    saw = true ∧ (frameParts w').head? = some recv.length := by
  rcases append_cases h with ⟨-, -, -, hwhy⟩ | ⟨-, -, rfl, -, rfl⟩
  · have hsoi := (soi_iff p).mp hs
    rcases hwhy with hnil | ⟨-, hno⟩
    · rw [hnil] at hsoi
      simp at hsoi
    · rw [hs] at hno
      cases hno
  · refine ⟨rfl, ?_⟩
    rw [frameParts_write, hr]
    simp

/-- Later packets leave the beginning where it is. -/
theorem append_head {p : UvcPacket} {len len' start : Nat} {saw saw' : Bool} {w w' : DmaBuf}
    (hlen : 0 < len) (hs : (frameParts w).head? = some start)
    (h : p.append len saw jpegCap w = .ok (len', saw', w')) :
    (frameParts w').head? = some start := by
  rcases append_cases h with ⟨rfl, -⟩ | ⟨-, -, -, -, rfl⟩
  · exact hs
  · have hoff : UVC_ASSEMBLED_JPEG_DMA_OFF + len ≠ UVC_ASSEMBLED_JPEG_DMA_OFF := by omega
    rw [frameParts_write, if_neg hoff, List.head?_append, hs]
    rfl

/-- Data, once seen, stays seen. -/
theorem append_saw {p : UvcPacket} {len len' : Nat} {saw' : Bool} {w w' : DmaBuf}
    (h : p.append len true jpegCap w = .ok (len', saw', w')) : saw' = true := by
  rcases append_cases h with ⟨-, -, rfl, -⟩ | ⟨-, -, rfl, -⟩ <;> rfl

/-- The loop goes on behind a packet of its FID that asks for the next one. -/
theorem assembleLoop_more {iso : IsochInEp} {frameFid : UInt8} {a a' : Assembly}
    {us us' : List Uframe} {st st' : CaptureState} {w : DmaBuf} {p : UvcPacket}
    (hr : readPayload iso DMA_OFF_UVC_BULK us st.dma = .done (.ok p.pkt) us' w)
    (hn : UvcPacket.new p.pkt = some p) (hf : p.fid = a.fid)
    (hfin : finishPacket frameFid jpegCap p a { st with dma := w } = (.ok none, a', st')) :
    assembleLoop iso DMA_OFF_UVC_BULK frameFid jpegCap a us st =
      assembleLoop iso DMA_OFF_UVC_BULK frameFid jpegCap a' us' st' := by
  have hsame : p.isFid a.fid = true := by simp [UvcPacket.isFid, hf]
  rw [assembleLoop, hr]
  simp only [hn, hsame, Bool.not_true, Bool.false_and, Bool.false_eq_true, ↓reduceIte, hfin]

/-- An assembly under way: it has data, and its frame begins with the packet at `start`. -/
structure UnderWay (start : Nat) (blk : List UvcPacket) (w : DmaBuf) (a : Assembly) : Prop where
  holds : Holds blk w.mem a
  saw : a.sawData = true
  start : (frameParts w).head? = some start

theorem UnderWay.read {start : Nat} {blk : List UvcPacket} {w w' : DmaBuf} {a : Assembly}
    (h : UnderWay start blk w a) {iso : IsochInEp} {us us' : List Uframe} {pkt : List UInt8}
    (hr : Reads iso.mps us w pkt us' w') : UnderWay start blk w' a :=
  ⟨h.holds.frame (IsochInEp.mps_le iso) hr.mem, h.saw, by rw [hr.parts]; exact h.start⟩

/-- **Packets of the running FID are assembled**, those with an illegal header being skipped. -/
theorem assembleLoop_run (iso : IsochInEp) (frameFid : UInt8) {fid : UInt8}
    {raw : List (List UInt8)}
    (hfid : ∀ q ∈ legal raw, q.fid = fid) (heof : ∀ q ∈ legal raw, q.eof = false)
    {blk : List UvcPacket} (hfit : (assembled (blk ++ legal raw)).length ≤ jpegCap)
    {pkts : List (List UInt8)} {us : List Uframe} (h : Delivers iso.mps us (raw ++ pkts))
    (rest : List Uframe) {start : Nat} {a : Assembly} (st : CaptureState)
    (hu : UnderWay start blk st.dma a) (haf : a.fid = fid) :
    ∃ us' a' st', assembleLoop iso DMA_OFF_UVC_BULK frameFid jpegCap a (us ++ rest) st =
        assembleLoop iso DMA_OFF_UVC_BULK frameFid jpegCap a' (us' ++ rest) st' ∧
      Delivers iso.mps us' pkts ∧ UnderWay start (blk ++ legal raw) st'.dma a' ∧
      a'.fid = fid := by
  induction raw generalizing blk us a st with
  | nil =>
      have hnil : blk ++ legal [] = blk := List.append_nil blk
      rw [hnil]
      exact ⟨us, a, st, rfl, h, hu, haf⟩
  | cons pkt raw ih =>
      obtain ⟨us₁, w₁, hr, hd, -⟩ := read_next iso h rest st.dma
      have hu₁ := hu.read (readPayload_reads hr)
      rw [legal_cons] at hfid heof hfit ⊢
      have hfid' : ∀ q ∈ legal raw, q.fid = fid := fun q hq =>
        hfid q (List.mem_append_right _ hq)
      have heof' : ∀ q ∈ legal raw, q.eof = false := fun q hq =>
        heof q (List.mem_append_right _ hq)
      cases hn : UvcPacket.new pkt with
      | none =>
          rw [legal_illegal hn, List.nil_append] at hfit ⊢
          rw [assembleLoop_illegal frameFid hr hn]
          exact ih hfid' heof' hfit hd { st with dma := w₁ } hu₁ haf
      | some p =>
          rw [legal_singleton hn] at hfid heof hfit ⊢
          obtain rfl := UvcPacket.new_pkt hn
          have hpf : p.fid = a.fid := (hfid p (by simp)).trans haf.symm
          rw [← List.append_assoc] at hfit ⊢
          have hone : (assembled (blk ++ [p])).length ≤ jpegCap :=
            Nat.le_trans (assembled_length_append _ _) hfit
          obtain ⟨len, saw, w', ha, hh', hfin⟩ := finishPacket_plain frameFid { st with dma := w₁ }
            hu₁.holds (heof p (by simp)) hone
          have hsaw : saw = true := by
            rw [hu₁.saw] at ha
            exact append_saw ha
          have hstart := append_head (Nat.lt_of_lt_of_le (by decide) (hu₁.holds.two_le hu₁.saw))
            hu₁.start ha
          rw [assembleLoop_more hr hn hpf hfin]
          exact ih hfid' heof' hfit hd { st with dma := w' } ⟨hh', hsaw, hstart⟩ haf

/-- The bytes of a block are what its packets assemble to. -/
theorem Block.assembled_eq {raw : List (List UInt8)} {fid : UInt8} (h : Block raw fid) :
    assembled (legal raw) = payloads raw := by
  obtain ⟨pkt, more, p, rfl, hn, hs⟩ := h.soi
  have hnone : ∀ q ∈ ([] : List UvcPacket), q.payload = [] := by simp
  unfold payloads
  rw [legal_cons, legal_singleton hn]
  exact assembled_from_soi hnone hs (legal more)

/-! ## One capture -/

/-- What a call has received, when it is known what the bus delivers. -/
theorem Consumes.received_eq {mps : Nat} {us us' rest : List Uframe} {w w' : DmaBuf}
    {recv pkts : List (List UInt8)} (h : Consumes mps (us ++ rest) (us' ++ rest) w w')
    (hd : Delivers mps us (recv ++ pkts)) (hd' : Delivers mps us' pkts) :
    received w'.trace = received w.trace ++ recv := by
  obtain ⟨recv', hp, hr⟩ := h
  rw [packetsOf_append, packetsOf_append, packetsOf_delivers hd, packetsOf_delivers hd',
    ← List.append_assoc] at hp
  have hcancel := List.append_cancel_right hp
  rw [hr, List.append_cancel_right hcancel]

/-- **A capture run against one frame and the first packet of the next**: it returns the frame,
and has received the packet that shows its end. -/
theorem captureFrame_flip (cam : UvcCamera) {r : UInt8} {skip : List (List UInt8)} {f : FlipFrame}
    (hf : f.Whole) (hne : f.fid ≠ r) {pkt : List UInt8} {p : UvcPacket}
    (hn : UvcPacket.new pkt = some p) (hpf : p.fid ≠ f.fid) {pkts : List (List UInt8)}
    {us : List Uframe} (rest : List Uframe) {st : CaptureState}
    (hp : RefersTo (initFid st.lastEofFid) r skip) (hskip : ∀ q ∈ legal skip, q.fid = r)
    (h : Delivers cam.iso.mps us (skip ++ (f.raw ++ pkt :: pkts))) :
    ∃ n us' st', captureFrame cam (us ++ rest) st = .done (.ok n) (us' ++ rest) st' ∧
      frameBytes st' n = some (payloads f.raw) ∧
      (frameParts st'.dma).head? = some ((received st.dma.trace).length + skip.length) ∧
      received st'.dma.trace = received st.dma.trace ++ (skip ++ (f.raw ++ [pkt])) ∧
      Delivers cam.iso.mps us' pkts := by
  obtain rfl := UvcPacket.new_pkt hn
  obtain ⟨first, more, q, hraw, hq, hsoi⟩ := hf.block.soi
  obtain rfl := UvcPacket.new_pkt hq
  have hblk : [q] ++ legal more = legal f.raw := by
    rw [hraw, legal_cons, legal_singleton hq]
  have hqf : q.fid = f.fid := hf.block.fids q (by rw [← hblk]; simp)
  have hasm := hf.block.assembled_eq
  have hfit : (assembled ([q] ++ legal more)).length ≤ jpegCap := by
    rw [hblk, hasm]
    exact hf.fits
  -- the wait stops at the first packet of the frame
  have h' := h
  rw [hraw, List.cons_append] at h'
  obtain ⟨us₁, w₁, hw₁, d₁⟩ := waitFlip_skip cam.iso hp hskip h' rest st.dma
  obtain ⟨us₂, w₂, hw₂, d₂⟩ := waitFlip_flip cam.iso hq (by rw [hqf]; exact hne) d₁ rest w₁
  have hwait := hw₁.trans hw₂
  obtain ⟨-, hcon, -⟩ := waitFlip_ok _ _ _ _ _ _ hwait
  have hrecv : received w₂.trace = received st.dma.trace ++ skip ++ [q.pkt] := by
    rw [List.append_assoc]
    refine hcon.received_eq ?_ d₂
    rw [List.append_assoc]
    exact h'
  -- the frame is assembled from there
  obtain ⟨len, saw, w₃, ha, hh₃, hfin⟩ := finishPacket_plain q.fid ⟨w₂, st.lastEofFid⟩
    (Holds.nil w₂.mem q.fid) (hf.noEof q (by rw [← hblk]; simp))
    (Nat.le_trans (assembled_length_append [q] (legal more)) hfit)
  obtain ⟨hsaw, hstart⟩ := append_begins hrecv ((soi_iff q).mpr hsoi) ha
  have hmore : ∀ x ∈ legal more, x ∈ legal f.raw := fun x hx => by
    rw [← hblk]
    exact List.mem_append_right _ hx
  obtain ⟨us₄, a₄, st₄, hloop, d₄, hu₄, hf₄⟩ := assembleLoop_run cam.iso q.fid
    (fun x hx => (hf.block.fids x (hmore x hx)).trans hqf.symm)
    (fun x hx => hf.noEof x (hmore x hx)) hfit d₂ rest ⟨w₃, st.lastEofFid⟩ ⟨hh₃, hsaw, hstart⟩ rfl
  -- the first packet of the next frame closes it
  obtain ⟨us₅, w₅, hr₅, d₅, -⟩ := read_next cam.iso d₄ rest st₄.dma
  have hu₅ := hu₄.read (readPayload_reads hr₅)
  rw [hblk] at hu₅
  have hcomplete : Complete (legal f.raw) := by
    unfold Complete
    rw [hasm]
    exact hf.eoi
  have hclose := assembleLoop_flip_complete q.fid hr₅ hn hu₅.holds
    (by rw [hf₄, hqf]; exact hpf) hcomplete
  have hcap : captureFrame cam (us ++ rest) st =
      .done (.ok (assembled (legal f.raw)).length) (us₅ ++ rest) ⟨w₅, q.fid⟩ := by
    rw [captureFrame_eq]
    unfold tryFrame
    rw [hwait]
    unfold assemble
    simp only [hfin]
    exact hloop.trans hclose
  refine ⟨_, us₅, ⟨w₅, q.fid⟩, hcap, ?_, ?_, ?_, d₅⟩
  · have hlen := hu₅.holds.len
    have hbytes := hu₅.holds.bytes
    have hcapLe := hu₅.holds.fits
    have hpos := hu₅.holds.two_le hu₅.saw
    have hend := assembled_end
    unfold frameBytes
    rw [← hlen, dmaRxSlice_eq (by omega) (by omega), hbytes, hasm]
  · rw [hu₅.start, List.length_append]
  · refine (captureFrame_handsOut hcap).1.received_eq ?_ d₅
    simpa using h

/-- The first capture of a fresh start: it returns the second frame of the stream, and the bus has
lost the first packet of the third. -/
theorem captureFrame_second (cam : UvcCamera) (mem : Memory UInt8) {first f g : FlipFrame}
    {fs : List FlipFrame} (hw : ∀ x ∈ first :: f :: g :: fs, x.Whole)
    (hfids : ((first :: f :: g :: fs).map FlipFrame.fid).IsChain (· ≠ ·)) {us : List Uframe}
    (rest : List Uframe)
    (h : Delivers cam.iso.mps us ((first :: f :: g :: fs).flatMap FlipFrame.raw)) :
    ∃ n us' st', captureFrame cam (us ++ rest) (.start mem 0xFF) = .done (.ok n) us' st' ∧
      frameBytes st' n = some (payloads f.raw) ∧
      (frameParts st'.dma).head? = some first.raw.length ∧
      (received st'.dma.trace).length = first.raw.length + f.raw.length + 1 := by
  simp only [List.map_cons, List.isChain_cons_cons] at hfids
  obtain ⟨pkt, more, p, hraw, hn, -⟩ := (hw g (by simp)).block.soi
  have hpf : p.fid = g.fid := (hw g (by simp)).block.fids p (by
    rw [hraw, legal_cons, legal_singleton hn]
    simp)
  have hskip : legal first.raw ≠ [] := by
    obtain ⟨q, more', x, hr, hx, -⟩ := (hw first (by simp)).block.soi
    rw [hr, legal_cons, legal_singleton hx]
    simp
  have hd : Delivers cam.iso.mps us
      (first.raw ++ (f.raw ++ pkt :: (more ++ fs.flatMap FlipFrame.raw))) := by
    simpa [hraw] using h
  obtain ⟨n, us', st', hcap, hbytes, hstart, hrecv, -⟩ := captureFrame_flip cam
    (hw f (by simp)) (Ne.symm hfids.1) hn (by rw [hpf]; exact Ne.symm hfids.2.1) rest
    (Or.inr ⟨rfl, hskip⟩ : RefersTo (initFid (CaptureState.start mem 0xFF).lastEofFid) first.fid
      first.raw) (hw first (by simp)).block.fids hd
  have hzero : received (CaptureState.start mem 0xFF).dma.trace = [] := rfl
  refine ⟨n, us' ++ rest, st', hcap, hbytes, ?_, ?_⟩
  · simpa [hzero] using hstart
  · rw [hrecv, hzero]
    simp
    omega

/-- A capture returns a frame that begins with a packet it has received itself. -/
theorem captureFrame_start_le {cam : UvcCamera} {us us' : List Uframe} {st st' : CaptureState}
    {n start : Nat} (h : captureFrame cam us st = .done (.ok n) us' st')
    (hs : (frameParts st'.dma).head? = some start) :
    (received st.dma.trace).length ≤ start := by
  obtain ⟨-, fid, hm, -⟩ := captureFrame_handsOut h
  exact (hm.parts start (List.mem_of_head? hs)).1

/-! ## Successive captures -/

/-- **When completion by flip loses nothing**: the bus delivers complete frames without EOF, with
alternating FIDs, and as many captures as there are `frames` are made from a fresh start.  They
return these frames one after the other, whatever follows on the bus, exactly when there is one
capture at most. -/
theorem flipCompletion_iff (cam : UvcCamera) (mem : Memory UInt8) (first next : FlipFrame)
    (frames : List FlipFrame) (us rest : List Uframe)
    (hw : ∀ f ∈ first :: (frames ++ [next]), f.Whole)
    (hfids : ((first :: (frames ++ [next])).map FlipFrame.fid).IsChain (· ≠ ·))
    (h : Delivers cam.iso.mps us ((first :: (frames ++ [next])).flatMap FlipFrame.raw)) :
    (calls cam frames.length (us ++ rest) (.start mem 0xFF)).map Call.returned =
        framesFrom first.raw.length frames ↔
      frames.length ≤ 1 := by
  cases frames with
  | nil => simp [calls, framesFrom]
  | cons f frames =>
      cases frames with
      | nil =>
          obtain ⟨n, us', st', hcap, hbytes, hstart, -⟩ :=
            captureFrame_second cam mem hw hfids rest h
          simp [calls, hcap, Call.returned, Except.map, hbytes, hstart, framesFrom]
      | cons g frames =>
          obtain ⟨n, us', st', hcap, -, -, hrecv⟩ := captureFrame_second cam mem hw hfids rest h
          refine ⟨fun heq => ?_, fun hle => absurd hle (by simp)⟩
          -- the second call would have to begin with a packet that the first has received
          exfalso
          rw [List.length_cons, List.length_cons, calls, hcap] at heq
          simp only [List.map_cons, framesFrom, List.cons.injEq] at heq
          have hsecond := heq.2
          rw [calls] at hsecond
          split at hsecond
          · cases hsecond
          · rename_i res us'' st'' hcap'
            rw [List.map_cons, List.cons.injEq] at hsecond
            have hres := hsecond.1
            unfold Call.returned at hres
            cases res with
            | error e => cases hres
            | ok n' =>
                simp only [Except.map, Except.ok.injEq, Prod.mk.injEq] at hres
                have hle := captureFrame_start_le hcap' hres.1
                omega

/-- A frame of one packet. -/
def flipFrame (fid x : UInt8) : FlipFrame := ⟨fid, [[2, fid, 0xff, 0xd8, x, 0xff, 0xd9]]⟩

theorem flipFrame_whole {fid : UInt8} (h : fid = 0 ∨ fid = 1) (x : UInt8) :
    (flipFrame fid x).Whole := by
  have hn : UvcPacket.new [2, fid, 0xff, 0xd8, x, 0xff, 0xd9] =
      some ⟨[2, fid, 0xff, 0xd8, x, 0xff, 0xd9], 2, Nat.le_refl 2, by simp⟩ := rfl
  have hlegal : legal (flipFrame fid x).raw = _ := legal_singleton hn
  have hpay : payloads (flipFrame fid x).raw = [0xff, 0xd8, x, 0xff, 0xd9] := payloads_singleton hn
  have hfid : fid &&& 0x01 = fid := by rcases h with rfl | rfl <;> rfl
  have heof : (fid &&& 0x02 != 0) = false := by rcases h with rfl | rfl <;> rfl
  refine ⟨⟨⟨_, [], _, rfl, hn, [x, 0xff, 0xd9], rfl⟩, ?_⟩, ?_, ?_, ?_⟩
  · rw [hlegal]
    intro p hp
    rw [List.mem_singleton] at hp
    rw [hp]
    exact hfid
  · rw [hlegal]
    intro p hp
    rw [List.mem_singleton] at hp
    rw [hp]
    exact heof
  · rw [hpay]
    exact ⟨[0xff, 0xd8, x], rfl⟩
  · have hcap : 5 ≤ jpegCap := by decide
    rw [hpay]
    exact hcap

/-- Six frames of one packet each. -/
def flipStream : List FlipFrame :=
  [flipFrame 0 1, flipFrame 1 2, flipFrame 0 3, flipFrame 1 4, flipFrame 0 5, flipFrame 1 6]

theorem flipStream_whole : ∀ f ∈ flipStream, f.Whole := by
  simp [flipStream, flipFrame_whole]

/-- The microframes that carry these frames. -/
def flipUframes (fs : List FlipFrame) : List Uframe := (fs.flatMap FlipFrame.raw).map dataUframe

theorem flipCompletion_iff_one :
    (calls demoCamera 1 (flipUframes (flipStream.take 3) ++ flipUframes (flipStream.drop 3))
        (.start (fun _ => 0) 0xFF)).map Call.returned =
        framesFrom 1 [flipFrame 1 2] ↔
      [flipFrame 1 2].length ≤ 1 := by
  have hdelivers : Delivers demoCamera.iso.mps (flipUframes (flipStream.take 3))
      ((flipStream.take 3).flatMap FlipFrame.raw) := delivers_dataUframes (by decide)
  have hwhole : ∀ f ∈ flipStream.take 3, f.Whole := fun f hf =>
    flipStream_whole f (List.mem_of_mem_take hf)
  exact flipCompletion_iff demoCamera (fun _ => 0) (flipFrame 0 1) (flipFrame 0 3) [flipFrame 1 2]
    _ _ hwhole (by simp [flipFrame]) hdelivers

/-- **The packet that shows the end of a frame is lost**: of six complete frames without EOF the
first capture returns the second; the second capture, which finds the third frame without its
packet, skips that frame and the fourth, and returns the fifth. -/
theorem flipStream_skips :
    (∀ f ∈ flipStream, f.Whole) ∧ (flipStream.map FlipFrame.fid).IsChain (· ≠ ·) ∧
      Delivers demoCamera.iso.mps (flipUframes flipStream) (flipStream.flatMap FlipFrame.raw) ∧
      (calls demoCamera 2 (flipUframes flipStream) (.start (fun _ => 0) 0xFF)).map Call.returned =
        [.ok (some 1, some [0xff, 0xd8, 2, 0xff, 0xd9]),
          .ok (some 4, some [0xff, 0xd8, 5, 0xff, 0xd9])] ∧
      (calls demoCamera 2 (flipUframes flipStream) (.start (fun _ => 0) 0xFF)).map Call.returned ≠
        framesFrom 1 [flipFrame 1 2, flipFrame 0 3] := by
  have hrun : (calls demoCamera 2 (flipUframes flipStream)
      (.start (fun _ => 0) 0xFF)).map Call.returned =
      [.ok (some 1, some [0xff, 0xd8, 2, 0xff, 0xd9]),
        .ok (some 4, some [0xff, 0xd8, 5, 0xff, 0xd9])] := by
    decide +kernel
  refine ⟨flipStream_whole, by simp [flipStream, flipFrame], delivers_dataUframes (by decide),
    hrun, ?_⟩
  rw [hrun]
  simp [framesFrom, flipFrame]

end Cvirtos.Usb.Uvc
