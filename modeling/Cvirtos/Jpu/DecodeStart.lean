import Cvirtos.Jpu.Planes

/-!
# Starting the hardware

`JpuDecoder::decode` up to the start of the picture: the copy into the stream buffer, the size check
and the registers of the bitstream, as `drivers/jpu/decoder.rs` computes them.  Everything before the
tables is `prepare`.

* `start_cases` — what a decode that starts the hardware has done;
* `start_toStart` — it is a decode of `decodeToStart` on the same output buffer.
-/

set_option autoImplicit false

namespace Cvirtos.Jpu

open Cvirtos.Lib

def STREAM_BUF_SIZE : Nat := 0x40000

/-- `FIELD.val(v)` of a field of `bits` bits at `offset`. -/
def fieldVal (offset bits : Nat) (v : UInt32) : UInt32 :=
  (v &&& UInt32.ofNat (2 ^ bits - 1)) <<< UInt32.ofNat offset

/-- What `configure_stream_regs` writes. -/
structure StreamRegs where
  bbcBasAddr : UInt32
  bbcEndAddr : UInt32
  bbcRdPtr : UInt32
  bbcWrPtr : UInt32
  bbcStrmCtrl : UInt32
  gbuTtCnt : UInt32
  gbuTtCntH : UInt32
  picErrmb : UInt32
  picCtrl : UInt32
  picSize : UInt32
  rotInfo : UInt32
  mcuInfo : UInt32
  dpbConfig : UInt32
  rstIntval : UInt32
  sclInfo : UInt32
  opInfo : UInt32
  deriving DecidableEq, Repr

/-- The table selectors of the three components, a bit each. -/
def huffIdx (tbl : Vector Nat 3) : UInt32 :=
  tbl.toList.foldl (fun idx t => idx <<< 1 ||| UInt32.ofNat t) 0

/-- `configure_stream_regs`. -/
def configureStreamRegs (streamBuf : PhysBuffer) (copyLen : Nat) (h : JpegHeaderInfo)
    (layout : FrameLayout) : StreamRegs :=
  let streamPhys := UInt32.ofNat streamBuf.addr
  let streamEnd := UInt32.ofNat (streamBuf.addr + copyLen)
  let strmPages := ceilDiv copyLen 256
  { bbcBasAddr := streamPhys
    bbcEndAddr := streamEnd
    bbcRdPtr := streamPhys
    bbcWrPtr := streamEnd
    bbcStrmCtrl := fieldVal 31 1 1 ||| fieldVal 0 31 (.ofNat strmPages)
    gbuTtCnt := 0
    gbuTtCntH := 0
    picErrmb := 0
    picCtrl := fieldVal 7 3 (huffIdx h.dcHuffTbl) ||| fieldVal 10 3 (huffIdx h.acHuffTbl) |||
      fieldVal 6 1 1
    picSize := fieldVal 16 16 layout.alignedWidth ||| fieldVal 0 16 layout.alignedHeight
    rotInfo := 0
    mcuInfo := layout.mcuBlockNum <<< 16 ||| h.numComponents <<< 12 ||| layout.compInfo
    dpbConfig := 0
    rstIntval := h.restartInterval
    sclInfo := 0
    opInfo := layout.busReqNum }

/-- What `gram_setup` writes to prefetch one page of the bitstream. -/
structure PageRegs where
  bbcCurPos : UInt32
  bbcExtAddr : UInt32
  bbcIntAddr : UInt32
  bbcDataCnt : UInt32
  bbcCommand : UInt32
  deriving DecidableEq, Repr

/-- What `gram_setup` writes. -/
structure GramRegs where
  pages : List PageRegs
  bbcCurPos : UInt32
  bbcCtrl : UInt32
  gbuWdPtr : UInt32
  gbuBbsr : UInt32
  gbuBber : UInt32
  gbuBbir : UInt32
  gbuBbhr : UInt32
  gbuCtrl : UInt32
  gbuFfRptr : UInt32
  deriving DecidableEq, Repr

def prefetchPage (streamPhys curPage : Nat) : PageRegs where
  bbcCurPos := .ofNat curPage
  bbcExtAddr := UInt32.ofNat streamPhys + (UInt32.ofNat curPage) <<< 8
  bbcIntAddr := (UInt32.ofNat (curPage &&& 1)) <<< 6
  bbcDataCnt := 256 / 4
  bbcCommand := 0

/-- `gram_setup`. -/
def gramSetup (streamPhys : Nat) (h : JpegHeaderInfo) : GramRegs :=
  let pagePtr := h.ecsOffset >>> 8
  let wordPtr := (h.ecsOffset &&& 0xF0) >>> 2
  let bitPtr := (h.ecsOffset &&& 0xF) <<< 3
  let odd := pagePtr &&& 1 ≠ 0
  let wordPtr := if odd then wordPtr + 64 else wordPtr
  let wordPtr := if wordPtr &&& 1 ≠ 0 then wordPtr - 1 else wordPtr
  { pages := (List.range 2).map fun i => prefetchPage streamPhys (pagePtr + i)
    bbcCurPos := .ofNat (pagePtr + 2)
    bbcCtrl := 1
    gbuWdPtr := .ofNat wordPtr
    gbuBbsr := 0
    gbuBber := 256 / 4 * 2 - 1
    gbuBbir := if odd then 0 else 256 / 4
    gbuBbhr := if odd then 0 else 256 / 4
    gbuCtrl := 4
    gbuFfRptr := .ofNat bitPtr }

structure JpuDecoder where
  streamBuf : PhysBuffer
  frameBuf : PhysBuffer
  deriving DecidableEq, Repr

/-- The decoder on the pool and the frame buffer of the platform. -/
def platformDecoder : JpuDecoder :=
  ⟨⟨0x8FF20000, STREAM_BUF_SIZE⟩, ⟨0x8FE88000, 614400⟩⟩

/-- `copy_to_phys`: the bytes that arrive in `buf`. -/
def copyToPhys (buf : PhysBuffer) (src : List UInt8) : List UInt8 :=
  src.take (min src.length buf.size)

/-- A decode that has passed the size check and set the registers of the stream. -/
structure Prepared where
  header : JpegHeaderInfo
  copied : List UInt8
  frameSize : Nat
  layout : FrameLayout
  stream : StreamRegs

/-- A decode that has started the hardware. -/
structure Started extends Prepared where
  huff : List RegWrite
  quant : List RegWrite
  gram : GramRegs
  planes : PlaneRegs

/-- `JpuDecoder::decode` up to `configure_stream_regs`. -/
def JpuDecoder.prepare (dec : JpuDecoder) (data : List UInt8) : Run Prepared := do
  let header ← parseJpegHeader data
  let copyLen := min data.length dec.streamBuf.size
  let copied := copyToPhys dec.streamBuf (data.take copyLen)
  let (frameSize, layout) ← frameLayout header
  if frameSize > dec.frameBuf.size then throw (.error "output buffer too small")
  let stream := configureStreamRegs dec.streamBuf copyLen header layout
  return { header, copied, frameSize, layout, stream }

/-- `JpuDecoder::decode` up to `start_decode`. -/
def JpuDecoder.start (dec : JpuDecoder) (data : List UInt8) : Run Started := do
  let p ← dec.prepare data
  let huff ← uploadHuffTables p.header
  let quant ← uploadQuantTables p.header
  let gram := gramSetup dec.streamBuf.addr p.header
  let planes := startDecode dec.frameBuf.addr p.layout
  return { p with huff, quant, gram, planes }

/-- What a decode has done once the size check is passed. -/
structure Passed (dec : JpuDecoder) (data : List UInt8) (p : Prepared) : Prop where
  parsed : parseJpegHeader data = .ok p.header
  copied : p.copied = data.take (min data.length dec.streamBuf.size)
  layout : frameLayout p.header = .ok (p.frameSize, p.layout)
  fits : p.frameSize ≤ dec.frameBuf.size
  stream : p.stream = configureStreamRegs dec.streamBuf (min data.length dec.streamBuf.size)
    p.header p.layout

theorem copyToPhys_prefix (buf : PhysBuffer) (data : List UInt8) :
    copyToPhys buf (data.take (min data.length buf.size)) =
      data.take (min data.length buf.size) := by
  unfold copyToPhys
  rw [List.take_of_length_le]
  simp only [List.length_take]
  omega

theorem prepare_passed {dec : JpuDecoder} {data : List UInt8} {p : Prepared}
    (h : dec.prepare data = .ok p) : Passed dec data p := by
  unfold JpuDecoder.prepare at h
  simp only [bind, Except.bind, pure, Except.pure, throw, throwThe, MonadExceptOf.throw] at h
  split at h
  · cases h
  · rename_i header hparse
    split at h
    · cases h
    · rename_i r hlayout
      obtain ⟨frameSize, layout⟩ := r
      dsimp only at h
      by_cases hsize : frameSize > dec.frameBuf.size
      · rw [if_pos hsize] at h
        cases h
      · rw [if_neg hsize] at h
        cases h
        exact ⟨hparse, copyToPhys_prefix _ _, hlayout, Nat.le_of_not_lt hsize, rfl⟩

/-- The size check is all that stands between an accepted header and the registers. -/
theorem prepare_ok {dec : JpuDecoder} {data : List UInt8} {h : JpegHeaderInfo} {frameSize : Nat}
    {l : FrameLayout} (hparse : parseJpegHeader data = .ok h)
    (hlayout : frameLayout h = .ok (frameSize, l)) (hfits : frameSize ≤ dec.frameBuf.size) :
    ∃ p, dec.prepare data = .ok p ∧ p.header = h := by
  unfold JpuDecoder.prepare
  simp only [hparse, hlayout, bind, Except.bind]
  rw [if_neg (Nat.not_lt.mpr hfits)]
  exact ⟨_, rfl, rfl⟩

theorem start_cases {dec : JpuDecoder} {data : List UInt8} {s : Started}
    (h : dec.start data = .ok s) :
    dec.prepare data = .ok s.toPrepared ∧ uploadHuffTables s.header = .ok s.huff ∧
      uploadQuantTables s.header = .ok s.quant ∧
      s.gram = gramSetup dec.streamBuf.addr s.header ∧
      s.planes = startDecode dec.frameBuf.addr s.layout := by
  unfold JpuDecoder.start at h
  simp only [bind, Except.bind, pure, Except.pure] at h
  repeat' split at h
  all_goals cases h
  exact ⟨‹_›, ‹_›, ‹_›, rfl, rfl⟩

/-- A decode that starts the hardware does so on the output buffer of the planes. -/
theorem start_toStart {dec : JpuDecoder} {data : List UInt8} {s : Started}
    (h : dec.start data = .ok s) :
    decodeToStart dec.frameBuf data = .ok (s.header, s.layout) := by
  obtain ⟨hp, hhuff, hquant, -, -⟩ := start_cases h
  have hpassed := prepare_passed hp
  unfold decodeToStart
  simp only [hpassed.parsed, hpassed.layout, hhuff, hquant, bind, Except.bind]
  rw [if_neg (Nat.not_lt.mpr hpassed.fits)]
  rfl

end Cvirtos.Jpu
