import Cvirtos.Jpu.DecodeStart
import Cvirtos.Jpu.PoolSafety
import Cvirtos.Usb.Uvc.Capture

/-!
# The bitstream of this frame

What the JPU reads of a frame: the copy in the stream buffer, from `ecs_offset` on, two pages at the
start.  The copy stops at the end of the buffer, and the offset comes out of a segment length.

* `newWithPool_stream` — the stream buffer of a decoder;
* `prefetch_inside_iff` — when the two pages lie in the buffer;
* `reads_frame_iff` — **when the JPU reads this frame and nothing else**.
-/

set_option autoImplicit false

namespace Cvirtos.Jpu

open Cvirtos.Lib

/-- `JpuDecoder::new_with_pool`, on a pool of any earlier content. -/
def JpuDecoder.newWithPool (pool : JpuMemoryPool) (dmaPoolBase dmaPoolSize outPa outSize : Nat) :
    Run (JpuDecoder × JpuMemoryPool) := do
  let pool := pool.init dmaPoolBase (min dmaPoolSize JPU_DRAM_PHYSICAL_SIZE)
  match ← pool.alloc STREAM_BUF_SIZE with
  | (none, _) => throw (.error "Failed to allocate stream buffer")
  | (some streamBuf, pool) => return (⟨streamBuf, ⟨outPa, outSize⟩⟩, pool)

/-- **The stream buffer of a decoder** has 256 KiB, below 4 GiB if the pool is. -/
theorem newWithPool_stream {pool pool' : JpuMemoryPool} {base size outPa outSize : Nat}
    {dec : JpuDecoder} (hbase : 1 ≤ base) (hfit : base + size + VMEM_PAGE_SIZE ≤ 2 ^ 32)
    (hnew : JpuDecoder.newWithPool pool base size outPa outSize = .ok (dec, pool')) :
    dec.streamBuf.size = STREAM_BUF_SIZE ∧ dec.streamBuf.addr + dec.streamBuf.size ≤ 2 ^ 32 := by
  have hinv := init_inv pool hbase (Nat.min_le_right size JPU_DRAM_PHYSICAL_SIZE)
    (by unfold VMEM_PAGE_SIZE at hfit ⊢; omega)
  unfold JpuDecoder.newWithPool at hnew
  rcases alloc_cases hinv STREAM_BUF_SIZE with ⟨hnone, -⟩ | ⟨found, buf, bitmap, hsome, -, hpages, -⟩
  · simp only [hnone, bind, Except.bind] at hnew
    cases hnew
  · simp only [hsome, bind, Except.bind] at hnew
    cases hnew
    have haddr := hpages.addr
    have hsize := hpages.size
    have hend := hpages.end_le
    have hpage : ceilDiv STREAM_BUF_SIZE VMEM_PAGE_SIZE = 16 := by decide
    rw [hpage] at hsize hend
    unfold VMEM_PAGE_SIZE at hfit hsize haddr
    simp only [JpuMemoryPool.init, pageFloor, usize, VMEM_PAGE_SIZE] at haddr hend
    refine ⟨hsize, ?_⟩
    dsimp only
    omega

/-- The pages that `gram_setup` prefetches lie in the buffer. -/
def PagesInside (buf : PhysBuffer) (gram : GramRegs) : Prop :=
  ∀ page ∈ gram.pages, buf.addr ≤ page.bbcExtAddr.toNat ∧
    page.bbcExtAddr.toNat + 256 ≤ buf.addr + buf.size

/-- The JPU is started on the whole frame, inside it, and prefetches nothing else. -/
structure ReadsFrame (dec : JpuDecoder) (data : List UInt8) (s : Started) : Prop where
  whole : s.copied = data
  inside : s.header.ecsOffset < data.length
  pages : PagesInside dec.streamBuf s.gram

/-- The frame is not longer than the buffer, the SOS segment ends before the frame does, and its end
is not in the last page of the buffer. -/
def ScanInside (buf : PhysBuffer) (data : List UInt8) : Prop :=
  data.length ≤ buf.size ∧ ∃ pos length, ending data = .sos pos length ∧
    pos + 2 + length < data.length ∧ ((pos + 2 + length) / 256 + 2) * 256 ≤ buf.size

theorem prefetchPage_addr (addr page : Nat) :
    (prefetchPage addr page).bbcExtAddr.toNat = (addr + page * 256) % 2 ^ 32 := by
  show (UInt32.ofNat addr + (UInt32.ofNat page) <<< 8).toNat = _
  rw [UInt32.toNat_add, UInt32.toNat_shiftLeft, UInt32.toNat_ofNat', UInt32.toNat_ofNat']
  show (addr % 2 ^ 32 + (page % 2 ^ 32) <<< 8 % 2 ^ 32) % 2 ^ 32 = _
  rw [Nat.shiftLeft_eq]
  omega

/-- **When the two pages lie in the buffer**, for an offset inside of it. -/
theorem prefetch_inside_iff {buf : PhysBuffer} (hreach : buf.addr + buf.size ≤ 2 ^ 32)
    {h : JpegHeaderInfo} (hoff : h.ecsOffset < 2 ^ 31) (hin : h.ecsOffset < buf.size) :
    PagesInside buf (gramSetup buf.addr h) ↔ (h.ecsOffset / 256 + 2) * 256 ≤ buf.size := by
  have hpage : h.ecsOffset >>> 8 = h.ecsOffset / 256 := Nat.shiftRight_eq_div_pow _ 8
  have hpages : (gramSetup buf.addr h).pages =
      [prefetchPage buf.addr (h.ecsOffset / 256), prefetchPage buf.addr (h.ecsOffset / 256 + 1)] := by
    unfold gramSetup
    rw [hpage]
    rfl
  unfold PagesInside
  rw [hpages]
  simp only [List.forall_mem_cons, List.not_mem_nil, false_imp_iff, implies_true, and_true,
    prefetchPage_addr]
  omega

/-- **When the JPU reads this frame and nothing else.** -/
theorem reads_frame_iff (dec : JpuDecoder)
    (hreach : dec.streamBuf.addr + dec.streamBuf.size ≤ 2 ^ 32) (data : List UInt8)
    (hlen : data.length ≤ Usb.Dwc2.UVC_BULK_DMA_CAP - Usb.Uvc.UVC_WORK_AREA_BYTES) (s : Started)
    (hstart : dec.start data = .ok s) :
    ReadsFrame dec data s ↔ ScanInside dec.streamBuf data := by
  obtain ⟨hprepare, -, -, hgram, -⟩ := start_cases hstart
  have hpassed := prepare_passed hprepare
  obtain ⟨pos, length, hend, haccepted⟩ := parseJpegHeader_accepted hpassed.parsed
  have hecs := haccepted.ecs
  have hcap : Usb.Dwc2.UVC_BULK_DMA_CAP - Usb.Uvc.UVC_WORK_AREA_BYTES < 2 ^ 31 := by decide
  have hpages := prefetch_inside_iff hreach (h := s.header)
  rw [← hgram] at hpages
  constructor
  · rintro ⟨hwhole, hinside, hpagesIn⟩
    have hle : data.length ≤ dec.streamBuf.size := by
      rw [hpassed.copied] at hwhole
      have hlength := congrArg List.length hwhole
      rw [List.length_take] at hlength
      omega
    have hlast := (hpages (by omega) (by omega)).mp hpagesIn
    rw [hecs] at hinside hlast
    exact ⟨hle, pos, length, hend, hinside, hlast⟩
  · rintro ⟨hle, pos', length', hend', hinside, hlast⟩
    rw [hend] at hend'
    cases hend'
    rw [← hecs] at hinside hlast
    refine ⟨?_, hinside, (hpages (by omega) (by omega)).mpr hlast⟩
    rw [hpassed.copied, Nat.min_eq_left hle, List.take_length]

/-- A frame of one block and no entropy-coded data but its end. -/
theorem reads_frame_small :
    ∃ s, platformDecoder.start (smallFrame 0x22 ++ [0, 0xFF, 0xD9]) = .ok s ∧
      ReadsFrame platformDecoder (smallFrame 0x22 ++ [0, 0xFF, 0xD9]) s := by
  have hstart : (platformDecoder.start (smallFrame 0x22 ++ [0, 0xFF, 0xD9])).map (fun _ => ()) =
      .ok () := by decide +kernel
  obtain ⟨s, hs, -⟩ := ok_of_map hstart
  exact ⟨s, hs, (reads_frame_iff platformDecoder (by decide) _ (by decide) s hs).mpr
    ⟨by decide, 19, 2, by decide +kernel, by decide, by decide⟩⟩

/-- The frame of one block with a length of 65535 in its SOS. -/
def longScan : List UInt8 := (smallFrame 0x22).take 21 ++ [0xFF, 0xFF, 0, 0xFF, 0xD9]

/-- **A start past the end of the frame**, at what an earlier frame left in the buffer. -/
theorem longScan_past :
    ∃ s, platformDecoder.start longScan = .ok s ∧ ¬ ReadsFrame platformDecoder longScan s := by
  have hstart : (platformDecoder.start longScan).map (fun s => s.header.ecsOffset) =
      .ok 65556 := by decide +kernel
  obtain ⟨s, hs, hecs⟩ := ok_of_map hstart
  refine ⟨s, hs, fun hreads => ?_⟩
  have hinside := hreads.inside
  rw [hecs] at hinside
  exact absurd hinside (by decide)

end Cvirtos.Jpu
