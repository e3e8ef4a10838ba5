import Cvirtos.Arch.Time
import Cvirtos.Lib.Register
import Cvirtos.Jpu.Bitstream

/-!
# Clock, reset and decoding of the JPU block

`hardware_init` and `hard_reset` of `drivers/jpu/regs.rs` and `poll_decode_done` of
`drivers/jpu/decoder.rs`.  TOP and VC are registers here, and the block behind them a parameter.  Bit
4 of `TOP.rst` resets the JPU, bit 11 the USB controller.

* `waits_return` — the waits of at most 10 ms that belong to the block's own steps end;
* `pollDecodeDone_returns` — the loop ends once the clock shows 200 ms, whatever the status shows;
* `Fed` — the block is clocked, out of reset and switched on;
* `hardwareInit_fed`, `hardReset_fed` — both leave it so, and only the second resets it;
* `KeepsRst` — **no other bit of `TOP.rst`** is ever written with another value.
-/

set_option autoImplicit false

namespace Cvirtos.Jpu

open Cvirtos.Lib Cvirtos.Arch

namespace TOP_RST

def JPEG : Field 32 := .bits 4 1

end TOP_RST

def VC_ENABLE.BLOCKS : Field 32 := .bits 0 5

def CLK_JPEG_ENABLE : BitVec 32 := 0x3300#32

namespace MJPEG_PIC_STATUS

def DONE : Field 32 := .bits 0 1
def ERROR : Field 32 := .bits 1 1

end MJPEG_PIC_STATUS

/-- The registers of TOP and VC that the driver writes. -/
structure Soc where
  rst : BitVec 32
  clkJpeg : BitVec 32
  vcEnable : BitVec 32
  deriving DecidableEq, Repr

/-- The block, with states `σ`. -/
structure JpuBlock (σ : Type) where
  /-- TOP holds the block in reset. -/
  reset : σ → σ
  /-- The write of `bbc_bas_addr` and the soft reset, until `wait_sw_reset_done` has ended. -/
  warmUp : σ → σ
  /-- The registers of a decode, with `wait_bbc_idle` after either page, and `START_PIC`. -/
  start : Started → σ → σ
  /-- Read number `i` of `pic_status` while it decodes. -/
  picStatus : σ → Nat → BitVec 32
  /-- Reading number `i` of `rdtime` meanwhile. -/
  rdtime : σ → Nat → BitVec 64
  /-- What it is left as when the loop ends in a turn with a result. -/
  settle : σ → Nat → Except String Unit → σ

/-- The JPU and what it is fed through, with the values that `TOP.rst` has been given. -/
structure JpuSoc (σ : Type) where
  soc : Soc
  block : σ
  rsts : List (BitVec 32)

section

variable {σ : Type} (blk : JpuBlock σ)

/-- `top.rst.modify(..)`: the block is reset while its bit is 0. -/
def JpuSoc.modifyRst (fv : FieldValue 32) (w : JpuSoc σ) : JpuSoc σ :=
  let rst := fv.modify w.soc.rst
  { soc := { w.soc with rst := rst }
    block := if TOP_RST.JPEG.isSet rst then w.block else blk.reset w.block
    rsts := w.rsts ++ [rst] }

/-- `enable_vc_subblocks`. -/
def enableVcSubblocks (w : JpuSoc σ) : JpuSoc σ :=
  { w with soc := { w.soc with vcEnable := (VC_ENABLE.BLOCKS.val 0x1F#32).modify w.soc.vcEnable } }

/-- `hardware_init`. -/
def hardwareInit (w : JpuSoc σ) : JpuSoc σ :=
  let w := { w with soc := { w.soc with clkJpeg := w.soc.clkJpeg ||| CLK_JPEG_ENABLE } }
  let w := enableVcSubblocks (w.modifyRst blk (TOP_RST.JPEG.val 1#32))
  { w with block := blk.warmUp w.block }

/-- `hard_reset`; the delays are the block's. -/
def hardReset (w : JpuSoc σ) : JpuSoc σ :=
  let w := w.modifyRst blk (TOP_RST.JPEG.val 0#32)
  let w := { w with soc := { w.soc with clkJpeg := CLK_JPEG_ENABLE } }
  enableVcSubblocks (w.modifyRst blk (TOP_RST.JPEG.val 1#32))

def DECODE_TIMEOUT_MS : Nat := 200

/-- A turn of `poll_decode_done`: the status is read once for either bit, and the clock at its
end. -/
def pollTurn (b : σ) (turn : Nat) : Option (Except String Unit) :=
  if MJPEG_PIC_STATUS.DONE.isSet (blk.picStatus b (2 * turn)) then some (.ok ())
  else if MJPEG_PIC_STATUS.ERROR.isSet (blk.picStatus b (2 * turn + 1)) then
    some (.error "JPU decode error")
  else if elapsedSince (blk.rdtime b 0) (blk.rdtime b (turn + 1)) ≥ DECODE_TIMEOUT_MS * 1000000 then
    some (.error "JPU decode timeout")
  else none

/-- `poll_decode_done`, for at most `fuel` turns: the result, and the turn that had it. -/
def pollDecodeDone (fuel : Nat) (b : σ) : Option (Except String Unit × Nat) :=
  poll (pollTurn blk b) fuel 0

/-! ### The end of the loop -/

/-- The clock is a counter that is read before it has lapped, and shows within `fuel` turns that the
time of a decode is over. -/
def Clocked (fuel : Nat) : Prop :=
  ∀ b, ∃ (c : Counter) (turn : Nat), turn < fuel ∧ (∀ i, blk.rdtime b i = c.reading 64 i) ∧
    c.count 0 + 5000000 ≤ c.count (turn + 1) ∧ c.count (turn + 1) < c.count 0 + 2 ^ 64

def WAIT_TIMEOUT_MS : Nat := 10

/-- The loop of `wait_sw_reset_done`, by its readings of `START_INIT`. -/
def waitSwResetDone (startInit : Nat → Bool) (rdtime : Nat → BitVec 64) (fuel : Nat) : Option Nat :=
  waitWhile startInit rdtime (WAIT_TIMEOUT_MS * 1000000) fuel

/-- The loop of `wait_bbc_idle`, by its readings of `BUSY`. -/
def waitBbcIdle (busy : Nat → Bool) (rdtime : Nat → BitVec 64) (fuel : Nat) : Option Nat :=
  waitWhile busy rdtime (WAIT_TIMEOUT_MS * 1000000) fuel

/-- **The waits for the block end**, whatever their flags show. -/
theorem waits_return {fuel : Nat} (h : Clocked blk fuel) (b : σ) (startInit busy : Nat → Bool) :
    (∃ k, waitSwResetDone startInit (blk.rdtime b) fuel = some k) ∧
      ∃ k, waitBbcIdle busy (blk.rdtime b) fuel = some k := by
  obtain ⟨c, turn, hfuel, hclock, hlate, hlap⟩ := h b
  have hreadings : blk.rdtime b = c.reading 64 := funext hclock
  have hwait : ∀ flag, ∃ k ≤ turn,
      waitWhile flag (c.reading 64) (WAIT_TIMEOUT_MS * 1000000) fuel = some k :=
    fun flag => waitWhile_returns c flag (by decide) hfuel
      (by unfold WAIT_TIMEOUT_MS; omega) hlap
  rw [hreadings]
  obtain ⟨j, -, hj⟩ := hwait startInit
  obtain ⟨k, -, hk⟩ := hwait busy
  exact ⟨⟨j, hj⟩, k, hk⟩

theorem elapsed_late {c : Counter} {i : Nat} (hlap : c.count i < c.count 0 + 2 ^ 64) :
    elapsedSince (c.reading 64 0) (c.reading 64 i) ≥ DECODE_TIMEOUT_MS * 1000000 ↔
      c.count 0 + 5000000 ≤ c.count i := by
  have hle := c.count_le (Nat.zero_le i)
  have hsince := c.since_eq (Nat.zero_le i) (w := 64) (by omega)
  rw [ge_iff_le, elapsedSince_ge_iff (by decide), hsince]
  unfold DECODE_TIMEOUT_MS
  omega

/-- **The loop comes to an end**, whatever the status shows. -/
theorem pollDecodeDone_returns {fuel : Nat} (h : Clocked blk fuel) (b : σ) :
    ∃ r turn, pollDecodeDone blk fuel b = some (r, turn) := by
  obtain ⟨c, turn, hfuel, hclock, hlate, hlap⟩ := h b
  have hanswer : pollTurn blk b turn ≠ none := by
    unfold pollTurn
    rw [hclock, hclock, if_pos ((elapsed_late hlap).mpr hlate)]
    split
    · exact Option.some_ne_none _
    split <;> exact Option.some_ne_none _
  obtain ⟨r, j, hpoll, -⟩ := poll_returns (Nat.zero_le turn) (show turn < 0 + fuel by omega) hanswer
  exact ⟨r, j, hpoll⟩

/-! ### What the block is fed -/

/-- The block is clocked, out of reset and switched on. -/
structure Fed (s : Soc) : Prop where
  released : TOP_RST.JPEG.isSet s.rst = true
  clocked : s.clkJpeg &&& CLK_JPEG_ENABLE = CLK_JPEG_ENABLE
  enabled : VC_ENABLE.BLOCKS.read s.vcEnable = 0x1F#32

/-- Two values of `TOP.rst` differ in the bit of the JPU at most. -/
def KeepsRst (rst rst' : BitVec 32) : Prop := ∀ i, i ≠ 4 → rst'.getLsbD i = rst.getLsbD i

theorem jpeg_mask (i : Nat) : (TOP_RST.JPEG.mask <<< TOP_RST.JPEG.shift).getLsbD i = decide (i = 4) := by
  by_cases hi : i < 32
  · revert i
    decide
  · rw [BitVec.getLsbD_of_ge _ _ (by omega)]
    exact (decide_eq_false (by omega)).symm

theorem keepsRst_modify (v rst : BitVec 32) : KeepsRst rst ((TOP_RST.JPEG.val v).modify rst) := by
  intro i hi
  refine FieldValue.modify_kept _ ?_ rst
  rw [FieldValue.mask_val, jpeg_mask]
  exact decide_eq_false hi

theorem isSet_jpeg (rst : BitVec 32) : TOP_RST.JPEG.isSet rst = rst.getLsbD 4 :=
  Field.isSet_bits_one (by decide) rst

theorem jpeg_released (rst : BitVec 32) :
    TOP_RST.JPEG.isSet ((TOP_RST.JPEG.val 1#32).modify rst) = true := by
  rw [isSet_jpeg, FieldValue.modify_given]
  · decide
  · decide

theorem jpeg_held (rst : BitVec 32) :
    TOP_RST.JPEG.isSet ((TOP_RST.JPEG.val 0#32).modify rst) = false := by
  rw [isSet_jpeg, FieldValue.modify_given]
  · decide
  · decide

theorem vc_enabled (vc : BitVec 32) :
    VC_ENABLE.BLOCKS.read ((VC_ENABLE.BLOCKS.val 0x1F#32).modify vc) = 0x1F#32 := by
  have hmask : VC_ENABLE.BLOCKS.mask <<< VC_ENABLE.BLOCKS.shift = 0x1F#32 := by decide
  have hshift : VC_ENABLE.BLOCKS.shift = 0 := rfl
  unfold Field.read
  rw [hmask, hshift, BitVec.ushiftRight_zero]
  refine BitVec.eq_of_getLsbD_eq fun i hi => ?_
  rw [BitVec.getLsbD_and, FieldValue.getLsbD_modify, FieldValue.mask_val, hmask]
  have hvalue : (VC_ENABLE.BLOCKS.val 0x1F#32).value = 0x1F#32 := by decide
  rw [hvalue]
  cases (0x1F#32).getLsbD i <;> simp

theorem clock_enabled (clk : BitVec 32) :
    (clk ||| CLK_JPEG_ENABLE) &&& CLK_JPEG_ENABLE = CLK_JPEG_ENABLE := by
  refine BitVec.eq_of_getLsbD_eq fun i hi => ?_
  simp only [BitVec.getLsbD_and, BitVec.getLsbD_or]
  cases CLK_JPEG_ENABLE.getLsbD i <;> simp

/-- **`hardware_init` feeds the block** and warms it up; it does not reset it. -/
theorem hardwareInit_fed (w : JpuSoc σ) :
    Fed (hardwareInit blk w).soc ∧ (hardwareInit blk w).block = blk.warmUp w.block := by
  refine ⟨⟨jpeg_released _, clock_enabled _, vc_enabled _⟩, ?_⟩
  change blk.warmUp (if TOP_RST.JPEG.isSet ((TOP_RST.JPEG.val 1#32).modify w.soc.rst) then w.block
    else blk.reset w.block) = _
  rw [if_pos (jpeg_released _)]

/-- **`hard_reset` resets the block** and feeds it again. -/
theorem hardReset_fed (w : JpuSoc σ) :
    Fed (hardReset blk w).soc ∧ (hardReset blk w).block = blk.reset w.block := by
  refine ⟨⟨jpeg_released _, BitVec.and_self, vc_enabled _⟩, ?_⟩
  change (if TOP_RST.JPEG.isSet ((TOP_RST.JPEG.val 1#32).modify
      ((TOP_RST.JPEG.val 0#32).modify w.soc.rst)) then
        (if TOP_RST.JPEG.isSet ((TOP_RST.JPEG.val 0#32).modify w.soc.rst) then w.block
          else blk.reset w.block) else _) = _
  rw [if_pos (jpeg_released _), if_neg (Bool.eq_false_iff.mp (jpeg_held _))]

/-- Every value that `TOP.rst` is given differs from `rst` in the bit of the JPU at most. -/
structure RstKept (rst : BitVec 32) (w : JpuSoc σ) : Prop where
  now : KeepsRst rst w.soc.rst
  before : ∀ v ∈ w.rsts, KeepsRst rst v

theorem RstKept.modifyRst {rst : BitVec 32} {w : JpuSoc σ} (h : RstKept rst w) (v : BitVec 32) :
    RstKept rst (w.modifyRst blk (TOP_RST.JPEG.val v)) := by
  have hnew : KeepsRst rst ((TOP_RST.JPEG.val v).modify w.soc.rst) :=
    fun i hi => (keepsRst_modify v w.soc.rst i hi).trans (h.now i hi)
  refine ⟨hnew, fun u hu => ?_⟩
  rcases List.mem_append.mp hu with hu | hu
  · exact h.before u hu
  · obtain rfl := List.mem_singleton.mp hu
    exact hnew

theorem RstKept.hardwareInit {rst : BitVec 32} {w : JpuSoc σ} (h : RstKept rst w) :
    RstKept rst (hardwareInit blk w) :=
  let h₁ : RstKept rst { w with soc := { w.soc with clkJpeg := w.soc.clkJpeg ||| CLK_JPEG_ENABLE } } :=
    ⟨h.now, h.before⟩
  ⟨(h₁.modifyRst blk 1#32).now, (h₁.modifyRst blk 1#32).before⟩

theorem RstKept.hardReset {rst : BitVec 32} {w : JpuSoc σ} (h : RstKept rst w) :
    RstKept rst (hardReset blk w) :=
  let h₁ := h.modifyRst blk 0#32
  let h₂ : RstKept rst { w.modifyRst blk (TOP_RST.JPEG.val 0#32) with
      soc := { (w.modifyRst blk (TOP_RST.JPEG.val 0#32)).soc with clkJpeg := CLK_JPEG_ENABLE } } :=
    ⟨h₁.now, h₁.before⟩
  ⟨(h₂.modifyRst blk 1#32).now, (h₂.modifyRst blk 1#32).before⟩

end

end Cvirtos.Jpu
