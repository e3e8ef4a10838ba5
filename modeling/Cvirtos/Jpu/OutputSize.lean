import Cvirtos.Jpu.DecodeStart

/-!
# The size of the output

The sizes of `frame_layout`, a product of two `u32`, against the same formulas without a bound, and
the picture size against the fields it is programmed into.

* `layout_exact_iff` — when the sizes are exact;
* `picSize_fields` — what the register keeps of the padded lengths;
* `sizeCheck_iff` — **when the check is exact and the size that was checked is programmed**.
-/

set_option autoImplicit false

namespace Cvirtos.Jpu

open Cvirtos.Lib

/-- The sizes of `frame_layout`, over unbounded integers. -/
structure ExactLayout where
  alignedWidth : Nat
  alignedHeight : Nat
  lumaSize : Nat
  chromaSize : Nat

/-- The formulas of `frame_layout`, over unbounded integers. -/
def exactLayout (h : JpegHeaderInfo) : ExactLayout :=
  let alignedWidth := match h.format with
    | .f420 | .f422 => ceilDiv h.width.toNat 16 * 16
    | _ => ceilDiv h.width.toNat 8 * 8
  let alignedHeight := match h.format with
    | .f420 | .f224 => ceilDiv h.height.toNat 16 * 16
    | _ => ceilDiv h.height.toNat 8 * 8
  let strideC := match h.format with
    | .f420 | .f422 => alignedWidth / 2
    | .f400 => 0
    | _ => alignedWidth
  let lumaSize := alignedWidth * alignedHeight
  let chromaSize := match h.format with
    | .f420 => strideC * alignedHeight / 2
    | .f422 | .f224 => lumaSize / 2
    | .f444 => lumaSize
    | .f400 => 0
  { alignedWidth, alignedHeight, lumaSize, chromaSize }

def ExactLayout.frameSize (e : ExactLayout) : Nat := e.lumaSize + e.chromaSize * 2

/-- The layout has the exact sizes. -/
structure SizesExact (h : JpegHeaderInfo) (frameSize : Nat) (l : FrameLayout) : Prop where
  frame : frameSize = (exactLayout h).frameSize
  luma : l.lumaSize = (exactLayout h).lumaSize
  chroma : l.chromaSize = (exactLayout h).chromaSize

/-- The two fields of `MJPEG_PIC_SIZE`. -/
def StreamRegs.width (r : StreamRegs) : Nat := (r.picSize >>> 16).toNat
def StreamRegs.height (r : StreamRegs) : Nat := (r.picSize &&& 0xFFFF).toNat

/-- The check is exact: the sizes are, the hardware starts only on a buffer that holds the frame, and
what passes the check is programmed with both padded lengths. -/
structure SizeCheckExact (dec : JpuDecoder) (data : List UInt8) (h : JpegHeaderInfo) : Prop where
  sizes : ∃ frameSize l, frameLayout h = .ok (frameSize, l) ∧ SizesExact h frameSize l
  checked : ∀ s, dec.start data = .ok s → (exactLayout h).frameSize ≤ dec.frameBuf.size
  programmed : ∀ p, dec.prepare data = .ok p →
    p.stream.width = (exactLayout h).alignedWidth ∧
      p.stream.height = (exactLayout h).alignedHeight

/-! ### Sizes -/

variable {h : JpegHeaderInfo} {l : FrameLayout} {frameSize : Nat}

/-- What `frame_layout` makes of the formulas. -/
structure WrapsTo (h : JpegHeaderInfo) (frameSize : Nat) (l : FrameLayout) : Prop where
  width : l.alignedWidth.toNat = (exactLayout h).alignedWidth
  height : l.alignedHeight.toNat = (exactLayout h).alignedHeight
  luma : l.lumaSize = (exactLayout h).lumaSize % 2 ^ 32
  chroma : (exactLayout h).lumaSize < 2 ^ 32 → l.chromaSize = (exactLayout h).chromaSize
  frame : frameSize = l.lumaSize + l.chromaSize * 2

theorem frameLayout_wraps (h : JpegHeaderInfo) (hw : h.width.toNat < 2 ^ 16)
    (hh : h.height.toNat < 2 ^ 16) :
    ∃ frameSize l, frameLayout h = .ok (frameSize, l) ∧ WrapsTo h frameSize l := by
  have hx8 := divCeil_toNat hw (show (8 : UInt32).toNat = 8 from rfl) (.inl rfl)
  have hx16 := divCeil_toNat hw (show (16 : UInt32).toNat = 16 from rfl) (.inr rfl)
  have hy8 := divCeil_toNat hh (show (8 : UInt32).toNat = 8 from rfl) (.inl rfl)
  have hy16 := divCeil_toNat hh (show (16 : UInt32).toNat = 16 from rfl) (.inr rfl)
  have h2 : UInt32.toNat 2 = 2 := rfl
  refine ⟨_, _, rfl, ?_⟩
  cases hf : h.format with
  | f420 =>
    constructor <;> simp only [hf, exactLayout, UInt32.toNat_mul, UInt32.toNat_div, hx16, hy16, h2]
    intro hlt
    have hle : ceilDiv h.width.toNat 16 * 16 / 2 * (ceilDiv h.height.toNat 16 * 16) < 2 ^ 32 :=
      Nat.lt_of_le_of_lt (Nat.mul_le_mul_right _ (Nat.div_le_self _ _)) hlt
    rw [Nat.mod_eq_of_lt hle]
  | f422 =>
    constructor <;> simp only [hf, exactLayout, UInt32.toNat_mul, hx16, hy8]
    intro hlt
    rw [Nat.mod_eq_of_lt hlt]
  | f224 =>
    constructor <;> simp only [hf, exactLayout, UInt32.toNat_mul, hx8, hy16]
    intro hlt
    rw [Nat.mod_eq_of_lt hlt]
  | f444 =>
    constructor <;> simp only [hf, exactLayout, UInt32.toNat_mul, hx8, hy8]
    intro hlt
    rw [Nat.mod_eq_of_lt hlt]
  | f400 =>
    constructor <;> simp only [hf, exactLayout, UInt32.toNat_mul, hx8, hy8]
    exact fun _ => trivial

/-- **When the sizes are exact**: the luma plane is less than 4 GiB. -/
theorem layout_exact_iff (hwrap : WrapsTo h frameSize l) :
    SizesExact h frameSize l ↔ (exactLayout h).lumaSize < 2 ^ 32 := by
  have hluma := hwrap.luma
  constructor
  · intro hexact
    rw [← hexact.luma, hluma]
    exact Nat.mod_lt _ (by decide)
  · intro hlt
    rw [Nat.mod_eq_of_lt hlt] at hluma
    have hchroma := hwrap.chroma hlt
    refine ⟨?_, hluma, hchroma⟩
    rw [hwrap.frame, hluma, hchroma]
    rfl

/-! ### The picture size -/

theorem fieldVal_high (w : UInt32) : (fieldVal 16 16 w).toNat = (w.toNat % 2 ^ 16) <<< 16 := by
  have hmask : (w &&& UInt32.ofNat (2 ^ 16 - 1)).toNat = w.toNat % 2 ^ 16 := by
    rw [UInt32.toNat_and]
    exact Nat.and_two_pow_sub_one_eq_mod _ 16
  unfold fieldVal
  rw [UInt32.toNat_shiftLeft, hmask]
  show (w.toNat % 2 ^ 16) <<< 16 % 2 ^ 32 = _
  rw [Nat.shiftLeft_eq]
  omega

theorem fieldVal_low (v : UInt32) : (fieldVal 0 16 v).toNat = v.toNat % 2 ^ 16 := by
  show ((v &&& UInt32.ofNat (2 ^ 16 - 1)) <<< 0).toNat = _
  rw [UInt32.shiftLeft_zero, UInt32.toNat_and]
  exact Nat.and_two_pow_sub_one_eq_mod _ 16

/-- **What the register keeps of the padded lengths**: sixteen bits of each. -/
theorem picSize_fields (buf : PhysBuffer) (copyLen : Nat) (h : JpegHeaderInfo) (l : FrameLayout) :
    (configureStreamRegs buf copyLen h l).width = l.alignedWidth.toNat % 2 ^ 16 ∧
      (configureStreamRegs buf copyLen h l).height = l.alignedHeight.toNat % 2 ^ 16 := by
  have hsize : (configureStreamRegs buf copyLen h l).picSize.toNat =
      (l.alignedWidth.toNat % 2 ^ 16) <<< 16 + l.alignedHeight.toNat % 2 ^ 16 := by
    show (fieldVal 16 16 l.alignedWidth ||| fieldVal 0 16 l.alignedHeight).toNat = _
    rw [UInt32.toNat_or, fieldVal_high, fieldVal_low]
    exact (Nat.shiftLeft_add_eq_or_of_lt (Nat.mod_lt _ (show 0 < 2 ^ 16 by decide)) _).symm
  rw [Nat.shiftLeft_eq] at hsize
  constructor
  · unfold StreamRegs.width
    rw [UInt32.toNat_shiftRight, hsize]
    show _ >>> 16 = _
    rw [Nat.shiftRight_eq_div_pow]
    omega
  · unfold StreamRegs.height
    rw [UInt32.toNat_and, hsize]
    show _ &&& (2 ^ 16 - 1) = _
    rw [Nat.and_two_pow_sub_one_eq_mod]
    omega

/-- What passes the check is programmed with the low sixteen bits of the padded lengths. -/
theorem passed_fields {dec : JpuDecoder} {data : List UInt8} (hparse : parseJpegHeader data = .ok h)
    (hlayout : frameLayout h = .ok (frameSize, l)) (hwrap : WrapsTo h frameSize l) {p : Prepared}
    (hp : dec.prepare data = .ok p) :
    frameSize ≤ dec.frameBuf.size ∧
      p.stream.width = (exactLayout h).alignedWidth % 2 ^ 16 ∧
      p.stream.height = (exactLayout h).alignedHeight % 2 ^ 16 := by
  have hpass := prepare_passed hp
  have hheader : p.header = h := Except.ok.inj (hpass.parsed.symm.trans hparse)
  have hl := hpass.layout
  rw [hheader, hlayout] at hl
  injection hl with hl
  injection hl with hsize hl
  obtain ⟨hwidth, hheight⟩ := picSize_fields dec.streamBuf
    (min data.length dec.streamBuf.size) p.header p.layout
  rw [← hpass.stream, ← hl] at hwidth hheight
  refine ⟨hsize ▸ hpass.fits, ?_, ?_⟩
  · rw [hwidth, hwrap.width]
  · rw [hheight, hwrap.height]

/-- **When the check is exact.** -/
theorem sizeCheck_iff (dec : JpuDecoder) (data : List UInt8) (h : JpegHeaderInfo)
    (hparse : parseJpegHeader data = .ok h) :
    SizeCheckExact dec data h ↔
      (exactLayout h).alignedWidth * (exactLayout h).alignedHeight < 2 ^ 32 ∧
        ((exactLayout h).alignedWidth < 2 ^ 16 ∧ (exactLayout h).alignedHeight < 2 ^ 16 ∨
          dec.frameBuf.size < (exactLayout h).frameSize) := by
  have hframed := parseJpegHeader_framed hparse
  obtain ⟨frameSize, l, hlayout, hwrap⟩ := frameLayout_wraps h hframed.width hframed.height
  have hexact := layout_exact_iff hwrap
  constructor
  · rintro ⟨⟨frameSize', l', hlayout', hsizes⟩, -, hprogrammed⟩
    rw [hlayout] at hlayout'
    cases hlayout'
    refine ⟨hexact.mp hsizes, ?_⟩
    by_cases hfits : (exactLayout h).frameSize ≤ dec.frameBuf.size
    · left
      rw [← hsizes.frame] at hfits
      obtain ⟨p, hp, -⟩ := prepare_ok hparse hlayout hfits
      obtain ⟨-, hwidth, hheight⟩ := passed_fields hparse hlayout hwrap hp
      obtain ⟨hwidth', hheight'⟩ := hprogrammed p hp
      omega
    · exact .inr (Nat.lt_of_not_le hfits)
  · rintro ⟨hlt, hkept⟩
    have hsizes := hexact.mpr hlt
    refine ⟨⟨frameSize, l, hlayout, hsizes⟩, fun s hs => ?_, fun p hp => ?_⟩
    · have hfits := (passed_fields hparse hlayout hwrap (start_cases hs).1).1
      exact hsizes.frame ▸ hfits
    · obtain ⟨hfits, hwidth, hheight⟩ := passed_fields hparse hlayout hwrap hp
      rw [hsizes.frame] at hfits
      omega

/-- The check is exact on a frame of one block. -/
theorem sizeCheck_small : SizeCheckExact platformDecoder (smallFrame 0x22) (smallHeader 0x22) :=
  (sizeCheck_iff platformDecoder (smallFrame 0x22) (smallHeader 0x22)
    (smallFrame_parse (.inl rfl))).mpr (by decide +kernel)

/-- A grey frame of 65535 by 8. -/
def wideFrame : List UInt8 :=
  [0xFF, 0xC0, 0, 0x0B, 8, 0, 8, 0xFF, 0xFF, 1, 1, 0x11, 0, 0xFF, 0xDA, 0, 2]

/-- A 4:4:4 frame of 65535 by 65535. -/
def largestFrame : List UInt8 :=
  [0xFF, 0xC0, 0, 0x11, 8, 0xFF, 0xFF, 0xFF, 0xFF, 3, 1, 0x11, 0, 2, 0x11, 0, 3, 0x11, 0,
    0xFF, 0xDA, 0, 2]

/-- **The check is not exact**: the padded width 65536 is programmed as 0, and 65536 rows of it are
checked as none. -/
theorem wideFrame_zero :
    (∃ h, parseJpegHeader wideFrame = .ok h ∧ ¬ SizeCheckExact platformDecoder wideFrame h) ∧
    ∃ h, parseJpegHeader largestFrame = .ok h ∧
      ¬ SizeCheckExact platformDecoder largestFrame h := by
  constructor
  · have hwide : (parseJpegHeader wideFrame).map (fun h => (exactLayout h).alignedWidth) =
        .ok 65536 := by decide +kernel
    have hzero : (platformDecoder.prepare wideFrame).map (fun p => p.stream.width) = .ok 0 := by
      decide +kernel
    obtain ⟨h, hparse, hwidth⟩ := ok_of_map hwide
    obtain ⟨p, hp, hprogrammed⟩ := ok_of_map hzero
    refine ⟨h, hparse, fun hexact => ?_⟩
    have hkept := (hexact.programmed p hp).1
    omega
  · have hlarge : (parseJpegHeader largestFrame).map (fun h => ((exactLayout h).lumaSize,
        (frameLayout h).map fun r => r.2.lumaSize)) = .ok (4294967296, .ok 0) := by
      decide +kernel
    obtain ⟨h, hparse, hsizes⟩ := ok_of_map hlarge
    injection hsizes with hluma hzero
    refine ⟨h, hparse, fun hexact => ?_⟩
    obtain ⟨frameSize, l, hlayout, hexact⟩ := hexact.sizes
    rw [hlayout] at hzero
    injection hzero with hzero
    have hkept := hexact.luma
    dsimp only at hzero
    omega

end Cvirtos.Jpu
