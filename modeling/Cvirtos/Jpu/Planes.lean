import Cvirtos.Jpu.Decoder
import Cvirtos.Jpu.HeaderAcceptance
import Cvirtos.Jpu.HeaderSafety
import Cvirtos.Jpu.Pool
import Mathlib.Tactic.Ring

/-!
# Where the decoder writes

`JpuDecoder::decode` up to `start_decode`, and the planes the JPU makes of the sampling factors in
`mcu_info`.  The layout goes by a format code that looks at two components only.

* `planeFits_iff` — a plane of whole rows fits when its width and its height do;
* `axis_iff` — when the three planes fit along one axis;
* `decode_fits_iff` — **the frame stays inside its planes and the output buffer exactly when the
  factors agree with the padding of the format**.
-/

set_option autoImplicit false

namespace Cvirtos.Jpu

open Cvirtos.Lib

/-- What `start_decode` tells the JPU about the planes. -/
structure PlaneRegs where
  dpbBaseY : UInt32
  dpbBaseCb : UInt32
  dpbBaseCr : UInt32
  dpbYstride : UInt32
  dpbCstride : UInt32

/-- `start_decode`. -/
def startDecode (framePhys : Nat) (layout : FrameLayout) : PlaneRegs :=
  let cbPhys := framePhys + layout.lumaSize
  let crPhys := cbPhys + layout.chromaSize
  ⟨.ofNat framePhys, .ofNat cbPhys, .ofNat crPhys, layout.strideY, layout.strideC⟩

/-- `JpuDecoder::decode` up to `start_decode`; `gram_setup` only sets registers. -/
def decodeToStart (frameBuf : PhysBuffer) (data : List UInt8) :
    Run (JpegHeaderInfo × FrameLayout) := do
  let h ← parseJpegHeader data
  let (frameSize, layout) ← frameLayout h
  if frameSize > frameBuf.size then throw (.error "output buffer too small")
  let _ ← uploadHuffTables h
  let _ ← uploadQuantTables h
  return (h, layout)

/-! ### The planes of the JPU -/

/-- The factors in `mcu_info`. -/
def components (h : JpegHeaderInfo) : List (Nat × Nat) :=
  (h.sampling.toList.take h.numComponents.toNat).map fun (hs, vs) => (hs.toNat, vs.toNat)

def hmax (h : JpegHeaderInfo) : Nat := ((components h).map Prod.fst).foldl max 0
def vmax (h : JpegHeaderInfo) : Nat := ((components h).map Prod.snd).foldl max 0

/-- A length padded to whole MCUs of `8 * m`. -/
def padded (n m : Nat) : Nat := ceilDiv n (8 * m) * (8 * m)

def planeWidth (h : JpegHeaderInfo) (comp : Nat × Nat) : Nat :=
  padded h.width.toNat (hmax h) * comp.1 / hmax h

def planeHeight (h : JpegHeaderInfo) (comp : Nat × Nat) : Nat :=
  padded h.height.toNat (vmax h) * comp.2 / vmax h

/-- Every byte of the plane is in its row, in its plane and in the output buffer. -/
def PlaneFits (out : PhysBuffer) (base stride : UInt32) (size width height : Nat) : Prop :=
  ∀ y, y < height → ∀ x, x < width →
    x < stride.toNat ∧ stride.toNat * y + x < size ∧
      out.addr ≤ base.toNat + (stride.toNat * y + x) ∧
        base.toNat + (stride.toNat * y + x) < out.addr + out.size

/-- The planes the JPU writes stay where the layout puts them. -/
def FrameFits (out : PhysBuffer) (h : JpegHeaderInfo) (layout : FrameLayout) : Prop :=
  let regs := startDecode out.addr layout
  ∀ i comp, (components h)[i]? = some comp →
    match i with
    | 0 => PlaneFits out regs.dpbBaseY regs.dpbYstride layout.lumaSize (planeWidth h comp)
        (planeHeight h comp)
    | 1 => PlaneFits out regs.dpbBaseCb regs.dpbCstride layout.chromaSize (planeWidth h comp)
        (planeHeight h comp)
    | _ => PlaneFits out regs.dpbBaseCr regs.dpbCstride layout.chromaSize (planeWidth h comp)
        (planeHeight h comp)

/-- What the format pads a width and a height to. -/
def Format.unitX : Format → Nat
  | .f420 | .f422 => 16
  | _ => 8

def Format.unitY : Format → Nat
  | .f420 | .f224 => 16
  | _ => 8

/-- The three factors along an axis of length `n` agree with its padding. -/
def AxisAgrees (unit n a₀ a₁ a₂ : Nat) : Prop :=
  if unit = 16 then a₁ = 1 ∧ a₂ = 1 else max (max a₀ a₁) a₂ ∣ ceilDiv n 8

/-- The frame is empty, or its size does not wrap and the factors agree with the format. -/
def Covered (h : JpegHeaderInfo) : Prop :=
  h.width = 0 ∨ h.height = 0 ∨ h.numComponents = 0 ∨
    (ceilDiv h.width.toNat h.format.unitX * h.format.unitX *
        (ceilDiv h.height.toNat h.format.unitY * h.format.unitY) < 2 ^ 32 ∧
      if h.format = .f400 then h.numComponents = 1
      else
        AxisAgrees h.format.unitX h.width.toNat (h.sampling.get 0).1.toNat
            (h.sampling.get 1).1.toNat (h.sampling.get 2).1.toNat ∧
          AxisAgrees h.format.unitY h.height.toNat (h.sampling.get 0).2.toNat
            (h.sampling.get 1).2.toNat (h.sampling.get 2).2.toNat)

/-! ### Along one axis -/

theorem ceilDiv_mul_ge (n : Nat) {d : Nat} (hd : 0 < d) : n ≤ d * ceilDiv n d := by
  have h := Nat.div_add_mod (n + d - 1) d
  have hlt := Nat.mod_lt (n + d - 1) hd
  unfold ceilDiv
  omega

theorem ceilDiv_le_iff (n c : Nat) {d : Nat} (hd : 0 < d) : ceilDiv n d ≤ c ↔ n ≤ d * c := by
  constructor
  · intro h
    exact Nat.le_trans (ceilDiv_mul_ge n hd) (Nat.mul_le_mul_left d h)
  · intro h
    unfold ceilDiv
    rw [Nat.div_le_iff_le_mul_add_pred hd]
    omega

theorem ceilDiv_pos_iff {n d : Nat} (hd : 0 < d) : 0 < ceilDiv n d ↔ 0 < n := by
  have h := ceilDiv_le_iff n 0 hd
  omega

theorem ceilDiv_ceilDiv (n : Nat) {m : Nat} (hm : 0 < m) :
    ceilDiv n (8 * m) = ceilDiv (ceilDiv n 8) m := by
  refine Nat.le_antisymm ?_ ?_
  · rw [ceilDiv_le_iff n _ (by omega)]
    have h8 := ceilDiv_mul_ge n (d := 8) (by decide)
    have hm' := ceilDiv_mul_ge (ceilDiv n 8) hm
    rw [Nat.mul_assoc]
    omega
  · rw [ceilDiv_le_iff _ _ hm, ceilDiv_le_iff _ _ (by decide), ← Nat.mul_assoc]
    exact ceilDiv_mul_ge n (by omega)

/-- The extent of a plane of factor `a` among factors of at most `m`. -/
theorem extent_eq (n a : Nat) {m : Nat} (hm : 0 < m) :
    padded n m * a / m = 8 * (a * ceilDiv n (8 * m)) := by
  unfold padded
  rw [show ceilDiv n (8 * m) * (8 * m) * a = 8 * (a * ceilDiv n (8 * m)) * m by ring]
  exact Nat.mul_div_cancel _ hm

/-- An axis padded to whole blocks of 8. -/
theorem axis8_iff (n : Nat) {m : Nat} (hm : 0 < m) :
    m * ceilDiv n (8 * m) ≤ ceilDiv n 8 ↔ m ∣ ceilDiv n 8 := by
  rw [ceilDiv_ceilDiv n hm]
  constructor
  · intro h
    exact ⟨_, Nat.le_antisymm (ceilDiv_mul_ge _ hm) h⟩
  · rintro ⟨c, hc⟩
    have hle : ceilDiv (ceilDiv n 8) m ≤ c := (ceilDiv_le_iff _ _ hm).mpr (Nat.le_of_eq hc)
    calc m * ceilDiv (ceilDiv n 8) m ≤ m * c := Nat.mul_le_mul_left m hle
      _ = ceilDiv n 8 := hc.symm

/-- On an axis padded to 16, a chroma plane of the largest factor is too long. -/
theorem axis16_lt {n m : Nat} (hn : 0 < n) (hm : 2 ≤ m) :
    ceilDiv n 16 < m * ceilDiv n (8 * m) := by
  have hpos : 0 < ceilDiv n (8 * m) := (ceilDiv_pos_iff (by omega)).mpr hn
  have hge := ceilDiv_mul_ge n (d := 8 * m) (by omega)
  have htwo : 2 ≤ m * ceilDiv n (8 * m) := by
    calc 2 ≤ m * 1 := by omega
      _ ≤ m * ceilDiv n (8 * m) := Nat.mul_le_mul_left m hpos
  rw [Nat.mul_assoc] at hge
  unfold ceilDiv at hge htwo ⊢
  omega

/-- Where the format pads to 16 the luma factor is 2. -/
theorem axis_iff {unit n a₀ a₁ a₂ : Nat} (hunit : unit = 16 ∧ a₀ = 2 ∨ unit = 8) (hn : 0 < n)
    (h₀ : 1 ≤ a₀) (h₁ : 1 ≤ a₁) (h₂ : 1 ≤ a₂) {m : Nat} (hm : m = max (max a₀ a₁) a₂) :
    (8 * (a₀ * ceilDiv n (8 * m)) ≤ unit * ceilDiv n unit ∧
      8 * (a₁ * ceilDiv n (8 * m)) ≤ 8 * ceilDiv n unit ∧
      8 * (a₂ * ceilDiv n (8 * m)) ≤ 8 * ceilDiv n unit) ↔ AxisAgrees unit n a₀ a₁ a₂ := by
  have hmpos : 0 < m := by omega
  unfold AxisAgrees
  rcases hunit with ⟨rfl, rfl⟩ | rfl
  · rw [if_pos rfl]
    constructor
    · rintro ⟨-, hc₁, hc₂⟩
      by_cases hbig : 2 ≤ max a₁ a₂
      · have hlong := axis16_lt hn (show 2 ≤ m by omega)
        have hattained : a₁ = m ∨ a₂ = m := by omega
        rcases hattained with rfl | rfl <;> omega
      · omega
    · rintro ⟨rfl, rfl⟩
      obtain rfl : m = 2 := hm
      have hsame : ceilDiv n (8 * 2) = ceilDiv n 16 := rfl
      omega
  · rw [if_neg (by decide), ← hm, ← axis8_iff n hmpos]
    have hmul (a : Nat) (ha : a ≤ m) : a * ceilDiv n (8 * m) ≤ m * ceilDiv n (8 * m) :=
      Nat.mul_le_mul_right _ ha
    constructor
    · rintro ⟨hc₀, hc₁, hc₂⟩
      have hattained : a₀ = m ∨ a₁ = m ∨ a₂ = m := by omega
      rcases hattained with rfl | rfl | rfl <;> omega
    · intro h
      have hc₀ := hmul a₀ (by omega)
      have hc₁ := hmul a₁ (by omega)
      have hc₂ := hmul a₂ (by omega)
      omega

/-! ### Planes -/

theorem planeFits_iff {out : PhysBuffer} {base stride : UInt32} {off rows width height : Nat}
    (hbase : base.toNat = out.addr + off) (hout : off + stride.toNat * rows ≤ out.size)
    (hw : 0 < width) (hh : 0 < height) :
    PlaneFits out base stride (stride.toNat * rows) width height ↔
      width ≤ stride.toNat ∧ height ≤ rows := by
  constructor
  · intro hfit
    have hlast := hfit (height - 1) (by omega) (width - 1) (by omega)
    refine ⟨by omega, ?_⟩
    have hrow : stride.toNat * (height - 1) < stride.toNat * rows :=
      Nat.lt_of_le_of_lt (Nat.le_add_right _ _) hlast.2.1
    have hlt := Nat.lt_of_mul_lt_mul_left hrow
    omega
  · rintro ⟨hle, hrows⟩ y hy x hx
    have hrow : stride.toNat * y + stride.toNat ≤ stride.toNat * rows := by
      calc stride.toNat * y + stride.toNat = stride.toNat * (y + 1) := rfl
        _ ≤ stride.toNat * rows := Nat.mul_le_mul_left _ (by omega)
    refine ⟨by omega, by omega, by omega, by omega⟩

/-! ### The layout -/

theorem divCeil_toNat {x : UInt32} (hx : x.toNat < 2 ^ 16) {d : UInt32} {n : Nat}
    (hd : d.toNat = n) (hn : n = 8 ∨ n = 16) : (divCeil x d * d).toNat = ceilDiv x.toNat n * n := by
  unfold divCeil ceilDiv
  have hmod : x % d ≠ 0 ↔ x.toNat % n ≠ 0 := by
    rw [Ne, ← UInt32.toNat_inj, UInt32.toNat_mod, hd]
    rfl
  by_cases h : x.toNat % n ≠ 0
  · rw [if_pos (hmod.mpr h), UInt32.toNat_mul, UInt32.toNat_add, UInt32.toNat_div, hd]
    rcases hn with rfl | rfl <;> simp <;> omega
  · rw [if_neg (fun h' => h (hmod.mp h')), UInt32.toNat_mul, UInt32.toNat_div, hd]
    rcases hn with rfl | rfl <;> simp <;> omega

/-- The numbers of 8- or 16-pixel units the format pads to. -/
def blocksX (h : JpegHeaderInfo) : Nat := ceilDiv h.width.toNat h.format.unitX
def blocksY (h : JpegHeaderInfo) : Nat := ceilDiv h.height.toNat h.format.unitY

/-- What the layout says of the planes. -/
structure LayoutOf (h : JpegHeaderInfo) (l : FrameLayout) : Prop where
  strideY : l.strideY.toNat = blocksX h * h.format.unitX
  lumaSize : l.lumaSize =
    blocksX h * h.format.unitX * (blocksY h * h.format.unitY) % 2 ^ 32
  strideC : l.strideC.toNat = if h.format = .f400 then 0 else blocksX h * 8
  chromaSize : blocksX h * h.format.unitX * (blocksY h * h.format.unitY) < 2 ^ 32 →
    l.chromaSize = l.strideC.toNat * (blocksY h * 8)

/-- The product of two padded lengths, and of the halves of them. -/
theorem mul_units (p q a b : Nat) : p * a * (q * b) = a * b * (p * q) := by ring

theorem frameLayout_of (h : JpegHeaderInfo) (hw : h.width.toNat < 2 ^ 16)
    (hh : h.height.toNat < 2 ^ 16) :
    ∃ frameSize l, frameLayout h = .ok (frameSize, l) ∧
      frameSize = l.lumaSize + l.chromaSize * 2 ∧ LayoutOf h l := by
  have hx8 := divCeil_toNat hw (show (8 : UInt32).toNat = 8 from rfl) (.inl rfl)
  have hx16 := divCeil_toNat hw (show (16 : UInt32).toNat = 16 from rfl) (.inr rfl)
  have hy8 := divCeil_toNat hh (show (8 : UInt32).toNat = 8 from rfl) (.inl rfl)
  have hy16 := divCeil_toNat hh (show (16 : UInt32).toNat = 16 from rfl) (.inr rfl)
  have h2 : UInt32.toNat 2 = 2 := rfl
  have hhalf (p : Nat) : p * 16 / 2 = p * 8 := by omega
  refine ⟨_, _, rfl, rfl, ?_⟩
  cases hf : h.format with
  | f420 =>
    constructor <;>
      simp only [hf, blocksX, blocksY, Format.unitX, Format.unitY, UInt32.toNat_mul,
        UInt32.toNat_div, hx16, hy16, h2, hhalf]
    · rw [if_neg (by decide)]
    · intro hlt
      have hluma := mul_units (ceilDiv h.width.toNat 16) (ceilDiv h.height.toNat 16) 16 16
      have hchroma := mul_units (ceilDiv h.width.toNat 16) (ceilDiv h.height.toNat 16) 8 8
      have hrows := mul_units (ceilDiv h.width.toNat 16) (ceilDiv h.height.toNat 16) 8 16
      omega
  | f422 =>
    constructor <;>
      simp only [hf, blocksX, blocksY, Format.unitX, Format.unitY, UInt32.toNat_mul,
        UInt32.toNat_div, hx16, hy8, h2, hhalf]
    · rw [if_neg (by decide)]
    · intro hlt
      have hluma := mul_units (ceilDiv h.width.toNat 16) (ceilDiv h.height.toNat 8) 16 8
      have hchroma := mul_units (ceilDiv h.width.toNat 16) (ceilDiv h.height.toNat 8) 8 8
      omega
  | f224 =>
    constructor <;>
      simp only [hf, blocksX, blocksY, Format.unitX, Format.unitY, UInt32.toNat_mul,
        hx8, hy16]
    · rw [if_neg (by decide)]
    · intro hlt
      have hluma := mul_units (ceilDiv h.width.toNat 8) (ceilDiv h.height.toNat 16) 8 16
      have hchroma := mul_units (ceilDiv h.width.toNat 8) (ceilDiv h.height.toNat 16) 8 8
      omega
  | f444 =>
    constructor <;>
      simp only [hf, blocksX, blocksY, Format.unitX, Format.unitY, UInt32.toNat_mul,
        hx8, hy8]
    · rw [if_neg (by decide)]
    · intro hlt
      have hluma := mul_units (ceilDiv h.width.toNat 8) (ceilDiv h.height.toNat 8) 8 8
      have hchroma := mul_units (ceilDiv h.width.toNat 8) (ceilDiv h.height.toNat 8) 8 8
      omega
  | f400 =>
    constructor <;>
      simp only [hf, blocksX, blocksY, Format.unitX, Format.unitY, UInt32.toNat_mul, hx8, hy8]
    · rfl
    · intro _
      simp

/-! ### Accepted headers -/

/-- How the frame of an accepted header came about: the format is that of the factors, or the frame
was read as grey. -/
structure Framed (h : JpegHeaderInfo) : Prop where
  width : h.width.toNat < 2 ^ 16
  height : h.height.toNat < 2 ^ 16
  format : (h.format = .f400 ∧ h.sampling = .replicate 3 (1, 1)) ∨
    (h.format = formatOf h.sampling ∧ (h.numComponents = 3 ∨ h.numComponents = 0))

theorem framed_new : Framed .new := ⟨by decide, by decide, .inr ⟨by decide, .inr rfl⟩⟩

theorem storeSof_framed (data : List UInt8) (i : Nat) {h : JpegHeaderInfo} (hf : Framed h) :
    Framed (storeSof data i h) := by
  have hw : ∀ off, (UInt32.ofNat (wordAt data off)).toNat < 2 ^ 16 := by
    intro off
    have := wordAt_lt data off
    rw [UInt32.toNat_ofNat']
    omega
  unfold storeSof
  split
  · rename_i hthree
    have hnum : (byteAt data (i + 9)).toUInt32 = 3 := by
      apply UInt32.toNat_inj.mp
      simpa using hthree
    split
    · exact ⟨hw _, hw _, .inr ⟨rfl, .inl hnum⟩⟩
    · exact ⟨hw _, hw _, hf.format.imp_right fun hfmt => ⟨hfmt.1, .inl hnum⟩⟩
  · exact ⟨hw _, hw _, .inl ⟨rfl, rfl⟩⟩

theorem store_framed {data : List UInt8} {h : JpegHeaderInfo} (hf : Framed h) (seg : Seg) :
    Framed (seg.store data h) :=
  Seg.store_inv (fun _ _ hf => storeSof_framed data seg.pos hf)
    (fun _ _ _ hf => ⟨hf.width, hf.height, hf.format⟩)
    (fun _ _ _ hf => ⟨hf.width, hf.height, hf.format⟩)
    (fun _ _ hf => ⟨hf.width, hf.height, hf.format⟩) hf

theorem storeSegs_framed (data : List UInt8) (segs : List Seg) {h : JpegHeaderInfo}
    (hf : Framed h) : Framed (storeSegs data segs h) := by
  unfold storeSegs
  induction segs generalizing h with
  | nil => exact hf
  | cons seg segs ih => exact ih (store_framed hf seg)

theorem parseJpegHeader_framed {data : List UInt8} {h : JpegHeaderInfo}
    (hok : parseJpegHeader data = .ok h) : Framed h := by
  by_cases hgood : ∀ seg ∈ segments data, ¬ seg.Bad data
  · rw [parseJpegHeader_ok hgood] at hok
    have hf := storeSegs_framed data (segments data) framed_new
    cases hend : ending data with
    | sofShort | noSos => rw [hend] at hok; cases hok
    | sos pos length =>
      rw [hend] at hok
      cases hok
      exact ⟨hf.width, hf.height, hf.format⟩
  · rw [parseJpegHeader_panic (by simpa using hgood)] at hok
    cases hok

theorem decodeToStart_ok {out : PhysBuffer} {data : List UInt8} {h : JpegHeaderInfo}
    {l : FrameLayout} (hdec : decodeToStart out data = .ok (h, l)) :
    parseJpegHeader data = .ok h ∧ ∃ frameSize, frameLayout h = .ok (frameSize, l) ∧
      frameSize ≤ out.size := by
  unfold decodeToStart at hdec
  simp only [bind, Except.bind, pure, Except.pure, throw, throwThe, MonadExceptOf.throw] at hdec
  split at hdec
  · cases hdec
  · rename_i h' hp
    split at hdec
    · cases hdec
    · rename_i r hl
      obtain ⟨frameSize, l'⟩ := r
      dsimp only at hdec
      repeat' split at hdec
      all_goals cases hdec
      rename_i hsize _ _ _ _ _ _
      exact ⟨hp, frameSize, hl, by omega⟩

/-! ### The frame -/

theorem toList_three {α : Type} (v : Vector α 3) : v.toList = [v.get 0, v.get 1, v.get 2] := by
  obtain ⟨⟨l⟩, hl⟩ := v
  match l, hl with
  | [_, _, _], _ => rfl

/-- The planes of a frame of three components. -/
theorem components_three {h : JpegHeaderInfo} (hn : h.numComponents = 3) :
    components h = [((h.sampling.get 0).1.toNat, (h.sampling.get 0).2.toNat),
      ((h.sampling.get 1).1.toNat, (h.sampling.get 1).2.toNat),
      ((h.sampling.get 2).1.toNat, (h.sampling.get 2).2.toNat)] := by
  unfold components
  rw [hn, toList_three]
  rfl

/-- A frame with a component has a first one. -/
theorem components_first {h : JpegHeaderInfo} (hn : h.numComponents ≠ 0) :
    (components h)[0]? = some ((h.sampling.get 0).1.toNat, (h.sampling.get 0).2.toNat) := by
  have hpos : h.numComponents.toNat ≠ 0 := fun h0 => hn (UInt32.toNat_inj.mp h0)
  obtain ⟨k, hk⟩ := Nat.exists_eq_succ_of_ne_zero hpos
  unfold components
  rw [hk, toList_three]
  rfl

theorem components_grey {h : JpegHeaderInfo} (hs : h.sampling = .replicate 3 (1, 1)) :
    components h = List.replicate (min h.numComponents.toNat 3) (1, 1) := by
  unfold components
  rw [hs, toList_three]
  simp only [get_eq_getElem, Vector.getElem_replicate]
  rw [show [((1 : UInt8), (1 : UInt8)), (1, 1), (1, 1)] = List.replicate 3 (1, 1) from rfl,
    List.take_replicate, List.map_replicate]
  rfl

theorem formatOf_ne_grey (sampling : Vector (UInt8 × UInt8) 3) : formatOf sampling ≠ .f400 := by
  unfold formatOf
  repeat' split
  all_goals exact fun h => nomatch h

/-- Where the format of the factors pads to 16, the first factor is 2. -/
theorem formatOf_units (sampling : Vector (UInt8 × UInt8) 3) :
    ((formatOf sampling).unitX = 16 ∧ (sampling.get 0).1.toNat = 2 ∨ (formatOf sampling).unitX = 8) ∧
      ((formatOf sampling).unitY = 16 ∧ (sampling.get 0).2.toNat = 2 ∨
        (formatOf sampling).unitY = 8) := by
  change (_ ∧ sampling[0].1.toNat = 2 ∨ _) ∧ (_ ∧ sampling[0].2.toNat = 2 ∨ _)
  unfold formatOf
  generalize sampling[0] = first
  generalize sampling[1] = second
  obtain ⟨h1, v1⟩ := first
  obtain ⟨h2, v2⟩ := second
  dsimp only
  split
  · rename_i h
    exact ⟨.inl ⟨rfl, by rw [h.1]; rfl⟩, .inl ⟨rfl, by rw [h.2.1]; rfl⟩⟩
  · split
    · rename_i h
      exact ⟨.inl ⟨rfl, by rw [h.1]; rfl⟩, .inr rfl⟩
    · split
      · rename_i h
        exact ⟨.inr rfl, .inl ⟨rfl, by rw [h.2]; rfl⟩⟩
      · exact ⟨.inr rfl, .inr rfl⟩

theorem foldl_max_ge (l : List Nat) (b : Nat) : b ≤ l.foldl max b ∧ ∀ a ∈ l, a ≤ l.foldl max b := by
  induction l generalizing b with
  | nil => exact ⟨Nat.le_refl b, fun a h => absurd h List.not_mem_nil⟩
  | cons x l ih =>
      obtain ⟨hb, hl⟩ := ih (max b x)
      refine ⟨Nat.le_trans (Nat.le_max_left b x) hb, fun a ha => ?_⟩
      rcases List.mem_cons.mp ha with rfl | ha
      · exact Nat.le_trans (Nat.le_max_right b a) hb
      · exact hl a ha

theorem hmax_ge {h : JpegHeaderInfo} {comp : Nat × Nat} (hc : comp ∈ components h) :
    comp.1 ≤ hmax h := (foldl_max_ge _ 0).2 _ (List.mem_map_of_mem hc)

theorem vmax_ge {h : JpegHeaderInfo} {comp : Nat × Nat} (hc : comp ∈ components h) :
    comp.2 ≤ vmax h := (foldl_max_ge _ 0).2 _ (List.mem_map_of_mem hc)

/-- The extents of a plane, in blocks. -/
theorem plane_eq {h : JpegHeaderInfo} {comp : Nat × Nat} (hc : comp ∈ components h)
    (h1 : 1 ≤ comp.1) (h2 : 1 ≤ comp.2) :
    planeWidth h comp = 8 * (comp.1 * ceilDiv h.width.toNat (8 * hmax h)) ∧
      planeHeight h comp = 8 * (comp.2 * ceilDiv h.height.toNat (8 * vmax h)) :=
  ⟨extent_eq _ _ (Nat.lt_of_lt_of_le h1 (hmax_ge hc)), extent_eq _ _ (Nat.lt_of_lt_of_le h2 (vmax_ge hc))⟩

theorem plane_pos {h : JpegHeaderInfo} {comp : Nat × Nat} (hc : comp ∈ components h)
    (h1 : 1 ≤ comp.1) (h2 : 1 ≤ comp.2) (hw : 0 < h.width.toNat) (hh : 0 < h.height.toNat) :
    0 < planeWidth h comp ∧ 0 < planeHeight h comp := by
  obtain ⟨hpw, hph⟩ := plane_eq hc h1 h2
  have hm := hmax_ge hc
  have hv := vmax_ge hc
  rw [hpw, hph]
  have hq : 0 < ceilDiv h.width.toNat (8 * hmax h) := (ceilDiv_pos_iff (by omega)).mpr hw
  have hr : 0 < ceilDiv h.height.toNat (8 * vmax h) := (ceilDiv_pos_iff (by omega)).mpr hh
  exact ⟨Nat.mul_pos (by decide) (Nat.mul_pos h1 hq), Nat.mul_pos (by decide) (Nat.mul_pos h2 hr)⟩

theorem padded_zero (m : Nat) : padded 0 m = 0 := by
  unfold padded ceilDiv
  by_cases hm : m = 0
  · simp [hm]
  · rw [Nat.div_eq_of_lt (by omega), Nat.zero_mul]

theorem planeFits_empty {out : PhysBuffer} {base stride : UInt32} {size width height : Nat}
    (h : width = 0 ∨ height = 0) : PlaneFits out base stride size width height := by
  intro y hy x hx
  omega

/-- An empty frame writes nothing. -/
theorem frameFits_empty (out : PhysBuffer) {h : JpegHeaderInfo} (l : FrameLayout)
    (hempty : h.width.toNat = 0 ∨ h.height.toNat = 0) : FrameFits out h l := by
  have hplane (comp : Nat × Nat) : planeWidth h comp = 0 ∨ planeHeight h comp = 0 := by
    rcases hempty with h0 | h0
    · left
      unfold planeWidth
      rw [h0, padded_zero, Nat.zero_mul, Nat.zero_div]
    · right
      unfold planeHeight
      rw [h0, padded_zero, Nat.zero_mul, Nat.zero_div]
  intro i comp _
  split <;> exact planeFits_empty (hplane comp)

theorem bases {out : PhysBuffer} (hout : out.addr + out.size ≤ 2 ^ 32) {off : Nat}
    (hoff : off < out.size) : (UInt32.ofNat (out.addr + off)).toNat = out.addr + off := by
  rw [UInt32.toNat_ofNat']
  omega

/-- A luma size that wraps is zero: both lengths are padded to 65536. -/
theorem lumaSize_wrap {h : JpegHeaderInfo} {l : FrameLayout} (hlay : LayoutOf h l)
    (hframed : Framed h)
    (hwrap : ¬ blocksX h * h.format.unitX * (blocksY h * h.format.unitY) < 2 ^ 32) :
    l.lumaSize = 0 := by
  have hx : blocksX h * h.format.unitX ≤ 2 ^ 16 := by
    have := hframed.width
    unfold blocksX ceilDiv Format.unitX
    split <;> omega
  have hy : blocksY h * h.format.unitY ≤ 2 ^ 16 := by
    have := hframed.height
    unfold blocksY ceilDiv Format.unitY
    split <;> omega
  have hle := Nat.mul_le_mul hx hy
  rw [hlay.lumaSize]
  omega

theorem blocks_pos {h : JpegHeaderInfo} (hw : 0 < h.width.toNat) (hh : 0 < h.height.toNat) :
    0 < blocksX h ∧ 0 < blocksY h := by
  have hx : 0 < h.format.unitX := by cases h.format <;> decide
  have hy : 0 < h.format.unitY := by cases h.format <;> decide
  exact ⟨(ceilDiv_pos_iff hx).mpr hw, (ceilDiv_pos_iff hy).mpr hh⟩

/-- The luma plane is whole rows. -/
theorem lumaSize_eq {h : JpegHeaderInfo} {l : FrameLayout} (hlay : LayoutOf h l)
    (hlt : blocksX h * h.format.unitX * (blocksY h * h.format.unitY) < 2 ^ 32) :
    l.lumaSize = l.strideY.toNat * (blocksY h * h.format.unitY) := by
  rw [hlay.lumaSize, hlay.strideY, Nat.mod_eq_of_lt hlt]

theorem lumaSize_pos {h : JpegHeaderInfo} {l : FrameLayout} (hlay : LayoutOf h l)
    (hlt : blocksX h * h.format.unitX * (blocksY h * h.format.unitY) < 2 ^ 32)
    (hw : 0 < h.width.toNat) (hh : 0 < h.height.toNat) : 0 < l.lumaSize := by
  obtain ⟨hx, hy⟩ := blocks_pos hw hh
  have hux : 0 < h.format.unitX := by cases h.format <;> decide
  have huy : 0 < h.format.unitY := by cases h.format <;> decide
  rw [lumaSize_eq hlay hlt, hlay.strideY]
  exact Nat.mul_pos (Nat.mul_pos hx hux) (Nat.mul_pos hy huy)

/-- A grey frame. -/
theorem grey_fits_iff {out : PhysBuffer} (hout : out.addr + out.size ≤ 2 ^ 32)
    {h : JpegHeaderInfo} {l : FrameLayout} (hlay : LayoutOf h l)
    (hsize : l.lumaSize + l.chromaSize * 2 ≤ out.size)
    (hlt : blocksX h * h.format.unitX * (blocksY h * h.format.unitY) < 2 ^ 32)
    (hw : 0 < h.width.toNat) (hh : 0 < h.height.toNat) (hn : h.numComponents ≠ 0)
    (hf : h.format = .f400) (hs : h.sampling = .replicate 3 (1, 1)) :
    FrameFits out h l ↔ h.numComponents = 1 := by
  have hcomps := components_grey hs
  constructor
  · intro hfit
    by_cases hone : h.numComponents = 1
    · exact hone
    · -- the second plane has rows of no bytes
      have htwo : 2 ≤ h.numComponents.toNat := by
        have h0 : h.numComponents.toNat ≠ 0 := fun h0 => hn (UInt32.toNat_inj.mp h0)
        have h1 : h.numComponents.toNat ≠ 1 := fun h1 => hone (UInt32.toNat_inj.mp h1)
        omega
      have hsecond : (components h)[1]? = some (1, 1) := by
        rw [hcomps, List.getElem?_replicate, if_pos (by omega)]
      obtain ⟨hpw, hph⟩ :=
        plane_pos (List.mem_of_getElem? hsecond) (Nat.le_refl 1) (Nat.le_refl 1) hw hh
      have hrow := (hfit 1 (1, 1) hsecond 0 hph 0 hpw).1
      have hstride : l.strideC.toNat = 0 := by rw [hlay.strideC, if_pos hf]
      exact absurd hrow (by show ¬ 0 < l.strideC.toNat; omega)
  · intro hone i comp hcomp
    rw [hone] at hcomps
    have hmax : hmax h = 1 := by
      unfold hmax
      rw [hcomps]
      rfl
    have hvmax : vmax h = 1 := by
      unfold vmax
      rw [hcomps]
      rfl
    rw [hcomps] at hcomp
    match i, hcomp with
    | 0, hcomp =>
      cases hcomp
      have hmem : (1, 1) ∈ components h := by
        rw [hcomps]
        exact List.mem_singleton_self _
      obtain ⟨hpw, hph⟩ := plane_eq hmem (Nat.le_refl 1) (Nat.le_refl 1)
      have hpos := plane_pos hmem (Nat.le_refl 1) (Nat.le_refl 1) hw hh
      have hluma := lumaSize_eq hlay hlt
      have hlumaPos := lumaSize_pos hlay hlt hw hh
      show PlaneFits out (.ofNat (out.addr + 0)) l.strideY l.lumaSize _ _
      rw [hluma, planeFits_iff (bases hout (by omega)) (by omega) hpos.1 hpos.2, hpw, hph, hmax,
        hvmax, hlay.strideY]
      simp only [blocksX, blocksY, hf, Format.unitX, Format.unitY, Nat.mul_one, Nat.one_mul]
      omega

/-- The planes of a frame of three components, one behind the other. -/
theorem frameFits_three {out : PhysBuffer} {h : JpegHeaderInfo} {l : FrameLayout}
    (hn : h.numComponents = 3) :
    FrameFits out h l ↔
      PlaneFits out (.ofNat (out.addr + 0)) l.strideY l.lumaSize
          (planeWidth h ((h.sampling.get 0).1.toNat, (h.sampling.get 0).2.toNat))
          (planeHeight h ((h.sampling.get 0).1.toNat, (h.sampling.get 0).2.toNat)) ∧
        PlaneFits out (.ofNat (out.addr + l.lumaSize)) l.strideC l.chromaSize
          (planeWidth h ((h.sampling.get 1).1.toNat, (h.sampling.get 1).2.toNat))
          (planeHeight h ((h.sampling.get 1).1.toNat, (h.sampling.get 1).2.toNat)) ∧
        PlaneFits out (.ofNat (out.addr + (l.lumaSize + l.chromaSize))) l.strideC l.chromaSize
          (planeWidth h ((h.sampling.get 2).1.toNat, (h.sampling.get 2).2.toNat))
          (planeHeight h ((h.sampling.get 2).1.toNat, (h.sampling.get 2).2.toNat)) := by
  have hcomps := components_three hn
  rw [← Nat.add_assoc]
  constructor
  · intro hfit
    exact ⟨hfit 0 _ (by rw [hcomps]; rfl), hfit 1 _ (by rw [hcomps]; rfl),
      hfit 2 _ (by rw [hcomps]; rfl)⟩
  · rintro ⟨hfit0, hfit1, hfit2⟩ i comp hcomp
    rw [hcomps] at hcomp
    match i, hcomp with
    | 0, hcomp =>
      cases hcomp
      exact hfit0
    | 1, hcomp =>
      cases hcomp
      exact hfit1
    | 2, hcomp =>
      cases hcomp
      exact hfit2
    | i + 3, hcomp => cases hcomp

theorem hmax_three {h : JpegHeaderInfo} (hn : h.numComponents = 3) :
    hmax h = max (max (h.sampling.get 0).1.toNat (h.sampling.get 1).1.toNat)
      (h.sampling.get 2).1.toNat := by
  unfold hmax
  rw [components_three hn]
  simp

theorem vmax_three {h : JpegHeaderInfo} (hn : h.numComponents = 3) :
    vmax h = max (max (h.sampling.get 0).2.toNat (h.sampling.get 1).2.toNat)
      (h.sampling.get 2).2.toNat := by
  unfold vmax
  rw [components_three hn]
  simp

/-- A frame of three components. -/
theorem colour_fits_iff {out : PhysBuffer} (hout : out.addr + out.size ≤ 2 ^ 32)
    {h : JpegHeaderInfo} {l : FrameLayout} (hlay : LayoutOf h l)
    (hsize : l.lumaSize + l.chromaSize * 2 ≤ out.size)
    (hlt : blocksX h * h.format.unitX * (blocksY h * h.format.unitY) < 2 ^ 32)
    (hw : 0 < h.width.toNat) (hh : 0 < h.height.toNat) (hn : h.numComponents = 3)
    (hf : h.format = formatOf h.sampling)
    (hfactors : ∀ comp ∈ components h, 1 ≤ comp.1 ∧ 1 ≤ comp.2) :
    FrameFits out h l ↔
      AxisAgrees h.format.unitX h.width.toNat (h.sampling.get 0).1.toNat
          (h.sampling.get 1).1.toNat (h.sampling.get 2).1.toNat ∧
        AxisAgrees h.format.unitY h.height.toNat (h.sampling.get 0).2.toNat
          (h.sampling.get 1).2.toNat (h.sampling.get 2).2.toNat := by
  have hcolour : h.format ≠ .f400 := by
    rw [hf]
    exact formatOf_ne_grey _
  have hcomps := components_three hn
  have hmem (i : Nat) (comp : Nat × Nat) (hi : (components h)[i]? = some comp) :
      (planeWidth h comp = 8 * (comp.1 * ceilDiv h.width.toNat (8 * hmax h)) ∧
        planeHeight h comp = 8 * (comp.2 * ceilDiv h.height.toNat (8 * vmax h))) ∧
      0 < planeWidth h comp ∧ 0 < planeHeight h comp := by
    have hc := List.mem_of_getElem? hi
    obtain ⟨h1, h2⟩ := hfactors comp hc
    exact ⟨plane_eq hc h1 h2, plane_pos hc h1 h2 hw hh⟩
  have hluma := lumaSize_eq hlay hlt
  have hlumaPos := lumaSize_pos hlay hlt hw hh
  have hchroma := hlay.chromaSize hlt
  have hstrideC : l.strideC.toNat = blocksX h * 8 := by rw [hlay.strideC, if_neg hcolour]
  have hchromaPos : 0 < l.chromaSize := by
    obtain ⟨hx, hy⟩ := blocks_pos hw hh
    rw [hchroma, hstrideC]
    exact Nat.mul_pos (Nat.mul_pos hx (by decide)) (Nat.mul_pos hy (by decide))
  have hfits (i : Nat) (comp : Nat × Nat) (hi : (components h)[i]? = some comp) (off : Nat)
      (stride : UInt32) (rows size : Nat) (hrows : size = stride.toNat * rows) (hpos : 0 < size)
      (hend : off + size ≤ out.size) :
      PlaneFits out (.ofNat (out.addr + off)) stride size (planeWidth h comp)
          (planeHeight h comp) ↔
        8 * (comp.1 * ceilDiv h.width.toNat (8 * hmax h)) ≤ stride.toNat ∧
          8 * (comp.2 * ceilDiv h.height.toNat (8 * vmax h)) ≤ rows := by
    obtain ⟨⟨hpw, hph⟩, hwpos, hhpos⟩ := hmem i comp hi
    rw [hrows] at hpos hend ⊢
    rw [planeFits_iff (bases hout (by omega)) hend hwpos hhpos, hpw, hph]
  have h0 := components_first (h := h) (by rw [hn]; decide)
  have h1 : (components h)[1]? = some ((h.sampling.get 1).1.toNat, (h.sampling.get 1).2.toNat) := by
    rw [hcomps]
    rfl
  have h2 : (components h)[2]? = some ((h.sampling.get 2).1.toNat, (h.sampling.get 2).2.toNat) := by
    rw [hcomps]
    rfl
  have hY := hfits 0 _ h0 0 l.strideY _ l.lumaSize hluma hlumaPos (by omega)
  have hCb := hfits 1 _ h1 l.lumaSize l.strideC _ l.chromaSize hchroma hchromaPos (by omega)
  have hCr := hfits 2 _ h2 (l.lumaSize + l.chromaSize) l.strideC _ l.chromaSize hchroma hchromaPos
    (by omega)
  have hunits := formatOf_units h.sampling
  rw [← hf] at hunits
  have hpos (i : Nat) (comp : Nat × Nat) (hi : (components h)[i]? = some comp) :=
    hfactors comp (List.mem_of_getElem? hi)
  rw [frameFits_three hn, hY, hCb, hCr, hlay.strideY, hstrideC,
    ← axis_iff hunits.1 hw (hpos 0 _ h0).1 (hpos 1 _ h1).1 (hpos 2 _ h2).1 (hmax_three hn),
    ← axis_iff hunits.2 hh (hpos 0 _ h0).2 (hpos 1 _ h1).2 (hpos 2 _ h2).2 (vmax_three hn)]
  unfold blocksX blocksY
  rw [Nat.mul_comm _ h.format.unitX, Nat.mul_comm _ h.format.unitY, Nat.mul_comm _ 8,
    Nat.mul_comm _ 8]
  constructor
  · rintro ⟨⟨x0, y0⟩, ⟨x1, y1⟩, x2, y2⟩
    exact ⟨⟨x0, x1, x2⟩, y0, y1, y2⟩
  · rintro ⟨⟨x0, x1, x2⟩, y0, y1, y2⟩
    exact ⟨⟨x0, y0⟩, ⟨x1, y1⟩, x2, y2⟩

/-- **Where the planes land.** -/
theorem decode_fits_iff (out : PhysBuffer) (hout : out.addr + out.size ≤ 2 ^ 32)
    (data : List UInt8) (h : JpegHeaderInfo) (l : FrameLayout)
    (hdec : decodeToStart out data = .ok (h, l))
    (hfactors : ∀ comp ∈ components h, 1 ≤ comp.1 ∧ comp.1 ≤ 4 ∧ 1 ≤ comp.2 ∧ comp.2 ≤ 4) :
    FrameFits out h l ↔ Covered h := by
  obtain ⟨hparse, frameSize, hl, hsize⟩ := decodeToStart_ok hdec
  have hframed := parseJpegHeader_framed hparse
  obtain ⟨frameSize', l', hl', hsum, hlay⟩ := frameLayout_of h hframed.width hframed.height
  rw [hl] at hl'
  cases hl'
  by_cases hempty : h.width.toNat = 0 ∨ h.height.toNat = 0
  · have hcov : Covered h := by
      rcases hempty with h0 | h0
      · exact .inl (UInt32.toNat_inj.mp h0)
      · exact .inr (.inl (UInt32.toNat_inj.mp h0))
    exact iff_of_true (frameFits_empty out l hempty) hcov
  have hw : 0 < h.width.toNat := by omega
  have hh : 0 < h.height.toNat := by omega
  by_cases hn : h.numComponents = 0
  · have hnone : components h = [] := by
      unfold components
      rw [hn]
      rfl
    refine iff_of_true (fun i comp hcomp => ?_) (.inr (.inr (.inl hn)))
    rw [hnone] at hcomp
    cases hcomp
  have hne1 : h.width ≠ 0 := fun h0 => absurd hw (by rw [h0]; decide)
  have hne2 : h.height ≠ 0 := fun h0 => absurd hh (by rw [h0]; decide)
  unfold Covered
  simp only [hne1, hne2, hn, false_or]
  show _ ↔ blocksX h * h.format.unitX * (blocksY h * h.format.unitY) < 2 ^ 32 ∧ _
  by_cases hlt : blocksX h * h.format.unitX * (blocksY h * h.format.unitY) < 2 ^ 32
  · rw [and_iff_right hlt]
    rw [hsum] at hsize
    rcases hframed.format with ⟨hf, hs⟩ | ⟨hf, hthree⟩
    · rw [if_pos hf]
      exact grey_fits_iff hout hlay hsize hlt hw hh hn hf hs
    · rw [if_neg (by rw [hf]; exact formatOf_ne_grey _)]
      exact colour_fits_iff hout hlay hsize hlt hw hh (hthree.resolve_right hn) hf
        fun comp hc => ⟨(hfactors comp hc).1, (hfactors comp hc).2.2.1⟩
  · refine iff_of_false (fun hfit => ?_) fun hcov => hlt hcov.1
    have hfirst := components_first hn
    obtain ⟨h1, -, h2, -⟩ := hfactors _ (List.mem_of_getElem? hfirst)
    obtain ⟨hpw, hph⟩ := plane_pos (List.mem_of_getElem? hfirst) h1 h2 hw hh
    have hzero := lumaSize_wrap hlay hframed hlt
    have hlow := (hfit 0 _ hfirst 0 hph 0 hpw).2.1
    rw [hzero] at hlow
    exact Nat.not_lt_zero _ hlow

/-- An 8 by 8 frame of three components, of which the first has the given factors. -/
def smallFrame (luma : UInt8) : List UInt8 :=
  [0xFF, 0xC0, 0, 0x11, 8, 0, 8, 0, 8, 3, 1, luma, 0, 2, 0x11, 0, 3, 0x11, 0, 0xFF, 0xDA, 0, 2]

/-- The header of such a frame. -/
def smallHeader (luma : UInt8) : JpegHeaderInfo :=
  { storeScan (smallFrame luma) 19 (storeSof (smallFrame luma) 0 .new) with ecsOffset := 23 }

theorem smallFrame_parse {luma : UInt8} (hl : luma = 0x22 ∨ luma = 0x41) :
    parseJpegHeader (smallFrame luma) = .ok (smallHeader luma) := by
  have hsof : siteAt (smallFrame luma) 0 = .segment .sof 17 := by
    rcases hl with rfl | rfl <;> decide
  have hsos : siteAt (smallFrame luma) 19 = .sos 2 := by
    rcases hl with rfl | rfl <;> decide
  have hlen : (smallFrame luma).length = 23 := rfl
  have hwalk : walk (smallFrame luma) 0 = ([⟨.sof, 0, 17⟩], .sos 19 2) := by
    rw [walk, if_pos (by rw [hlen]; decide), hsof]
    dsimp only
    rw [walk, if_pos (by rw [hlen]; decide), hsos]
  have hsegs : segments (smallFrame luma) = [⟨.sof, 0, 17⟩] := congrArg Prod.fst hwalk
  have hend : ending (smallFrame luma) = .sos 19 2 := congrArg Prod.snd hwalk
  rw [parseJpegHeader_ok, hsegs, hend]
  · rfl
  · rw [hsegs]
    intro seg hseg
    rw [List.mem_singleton.mp hseg]
    rintro (⟨o, ho, -⟩ | ⟨o, ho, -⟩)
    · cases ho
    · cases ho

theorem smallFrame_start {luma : UInt8} (hl : luma = 0x22 ∨ luma = 0x41) :
    ∃ l, decodeToStart ⟨0x8FE88000, 614400⟩ (smallFrame luma) = .ok (smallHeader luma, l) ∧
      ∃ frameSize, frameLayout (smallHeader luma) = .ok (frameSize, l) := by
  obtain ⟨huff, hhuff⟩ := (uploadHuffTables_ok_iff (smallHeader luma)).mpr
    (by rcases hl with rfl | rfl <;> decide +kernel)
  obtain ⟨quant, hquant⟩ := uploadQuantTables_ok (smallHeader luma)
  cases hlay : frameLayout (smallHeader luma) with
  | error f => cases hlay
  | ok r =>
    obtain ⟨frameSize, l⟩ := r
    have hsize : frameSize ≤ 614400 := by
      have hframe : ∃ n, (frameLayout (smallHeader luma)).map Prod.fst = .ok n ∧ n ≤ 614400 := by
        rcases hl with rfl | rfl
        · exact ⟨384, by decide +kernel, by decide⟩
        · exact ⟨192, by decide +kernel, by decide⟩
      obtain ⟨n, hn, hle⟩ := hframe
      rw [hlay] at hn
      cases hn
      exact hle
    refine ⟨l, ?_, frameSize, rfl⟩
    unfold decodeToStart
    simp only [smallFrame_parse hl, hlay, hhuff, hquant, bind, Except.bind]
    rw [if_neg (by omega)]
    rfl

/-- A 4:2:0 frame fits. -/
theorem decode_fits_small :
    ∃ h l, decodeToStart ⟨0x8FE88000, 614400⟩ (smallFrame 0x22) = .ok (h, l) ∧
      (FrameFits ⟨0x8FE88000, 614400⟩ h l ↔ Covered h) ∧ Covered h := by
  obtain ⟨l, hstart, -⟩ := @smallFrame_start 0x22 (.inl rfl)
  refine ⟨smallHeader 0x22, l, hstart,
    decode_fits_iff ⟨0x8FE88000, 614400⟩ (by decide) (smallFrame 0x22) (smallHeader 0x22) l hstart
      (by decide +kernel), ?_⟩
  unfold Covered AxisAgrees
  decide +kernel

/-- A 4:1:1 frame of one block is laid out as 4:4:4: its luma rows of 32 bytes overrun a stride
of 8. -/
theorem smallFrame_overruns :
    ∃ h l, decodeToStart ⟨0x8FE88000, 614400⟩ (smallFrame 0x41) = .ok (h, l) ∧
      (∀ comp ∈ components h, 1 ≤ comp.1 ∧ comp.1 ≤ 4 ∧ 1 ≤ comp.2 ∧ comp.2 ≤ 4) ∧
      ¬ FrameFits ⟨0x8FE88000, 614400⟩ h l := by
  obtain ⟨l, hstart, frameSize, hlay⟩ := @smallFrame_start 0x41 (.inr rfl)
  refine ⟨smallHeader 0x41, l, hstart, by decide +kernel, fun hfit => ?_⟩
  have hstride : l.strideY = 8 := by
    have hy : (frameLayout (smallHeader 0x41)).map (fun r => r.2.strideY) = .ok 8 := by
      decide +kernel
    rw [hlay] at hy
    exact Except.ok.inj hy
  have hrow := (hfit 0 (4, 1) (by decide +kernel) 0 (by decide +kernel) 8 (by decide +kernel)).1
  have hlt : 8 < l.strideY.toNat := hrow
  rw [hstride] at hlt
  exact absurd hlt (by decide)

end Cvirtos.Jpu
