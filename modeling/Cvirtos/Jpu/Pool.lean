import Cvirtos.Jpu.HeaderTables
import Cvirtos.Lib.FirstFit

/-!
# The DMA memory pool of the decoder

`drivers/jpu/mem.rs`: a bitmap of 16 KiB pages over an external buffer.  A set bit is a free page.
`usize` arithmetic wraps; an index past the bitmap panics.

* `alloc_none`, `alloc_some` — `alloc` takes the first run of free pages;
* `free_eq` — `free` gives back the pages of a buffer.
-/

set_option autoImplicit false

namespace Cvirtos.Jpu

open Cvirtos.Lib

def VMEM_PAGE_SIZE : Nat := 16384
def JPU_DRAM_PHYSICAL_SIZE : Nat := 0x00100000

/-- `usize::div_ceil`. -/
def ceilDiv (x d : Nat) : Nat := (x + d - 1) / d

def BITMAP_WORDS : Nat := ceilDiv (ceilDiv JPU_DRAM_PHYSICAL_SIZE VMEM_PAGE_SIZE) 64

/-- A sum or product in `usize`. -/
def usize (x : Nat) : Nat := x % 2 ^ 64

/-- `x & !(VMEM_PAGE_SIZE - 1)`. -/
def pageFloor (x : Nat) : Nat := x / VMEM_PAGE_SIZE * VMEM_PAGE_SIZE

structure PhysBuffer where
  addr : Nat
  size : Nat
  deriving DecidableEq, Repr

def PhysBuffer.isEmpty (b : PhysBuffer) : Bool := b.addr = 0 || b.size = 0

abbrev Bitmap := Vector UInt64 BITMAP_WORDS

structure JpuMemoryPool where
  baseAddr : Nat
  size : Nat
  numPages : Nat
  bitmap : Bitmap
  deriving DecidableEq, Repr

/-- `1 << (page % 64)`. -/
def pageBit (page : Nat) : UInt64 := (1 : UInt64) <<< UInt64.ofNat (page % 64)

/-- `bitmap[page / 64] & (1 << (page % 64)) != 0`. -/
def testPage (bitmap : Bitmap) (page : Nat) : Run Bool := do
  let word ← getAt bitmap (page / 64)
  return word &&& pageBit page ≠ 0

/-- `bitmap[page / 64] &= !(1 << (page % 64))`. -/
def clearPage (bitmap : Bitmap) (page : Nat) : Run Bitmap := do
  let word ← getAt bitmap (page / 64)
  setAt bitmap (page / 64) (word &&& ~~~ pageBit page)

/-- `bitmap[page / 64] |= 1 << (page % 64)`. -/
def setPage (bitmap : Bitmap) (page : Nat) : Run Bitmap := do
  let word ← getAt bitmap (page / 64)
  setAt bitmap (page / 64) (word ||| pageBit page)

namespace JpuMemoryPool

/-- `init`, on a pool of any earlier content. -/
def init (_pool : JpuMemoryPool) (base size : Nat) : JpuMemoryPool where
  baseAddr := pageFloor (usize (base + VMEM_PAGE_SIZE - 1))
  size := pageFloor size
  numPages := pageFloor size / VMEM_PAGE_SIZE
  bitmap := Vector.replicate BITMAP_WORDS 0xFFFFFFFFFFFFFFFF

/-- The search loop of `alloc`. -/
def allocFrom (pool : JpuMemoryPool) (npages : Nat) :
    (remaining pageIdx consecutive startPage : Nat) → Run (Option PhysBuffer × JpuMemoryPool)
  | 0, _, _, _ => return (none, pool)
  | remaining + 1, pageIdx, consecutive, startPage => do
    if ← testPage pool.bitmap pageIdx then
      let startPage := if consecutive = 0 then pageIdx else startPage
      if consecutive + 1 ≥ npages then
        let bitmap ← forRange npages (fun i bitmap => clearPage bitmap (startPage + i)) pool.bitmap
        let addr := usize (pool.baseAddr + startPage * VMEM_PAGE_SIZE)
        return (some ⟨addr, usize (npages * VMEM_PAGE_SIZE)⟩, { pool with bitmap := bitmap })
      else pool.allocFrom npages remaining (pageIdx + 1) (consecutive + 1) startPage
    else pool.allocFrom npages remaining (pageIdx + 1) 0 startPage

/-- `alloc`. -/
def alloc (pool : JpuMemoryPool) (size : Nat) : Run (Option PhysBuffer × JpuMemoryPool) :=
  pool.allocFrom (ceilDiv size VMEM_PAGE_SIZE) pool.numPages 0 0 0

/-- The loop of `free`. -/
def freeFrom (numPages : Nat) : (remaining page : Nat) → Bitmap → Run Bitmap
  | 0, _, bitmap => return bitmap
  | remaining + 1, page, bitmap => do
    if page ≥ numPages then return bitmap
    let bitmap ← setPage bitmap page
    freeFrom numPages remaining (page + 1) bitmap

/-- `free`. -/
def free (pool : JpuMemoryPool) (buf : PhysBuffer) : Run JpuMemoryPool := do
  if buf.isEmpty ∨ buf.addr < pool.baseAddr ∨ buf.addr ≥ usize (pool.baseAddr + pool.size) then
    return pool
  let startPage := (buf.addr - pool.baseAddr) / VMEM_PAGE_SIZE
  let npages := ceilDiv buf.size VMEM_PAGE_SIZE
  let bitmap ← freeFrom pool.numPages npages startPage pool.bitmap
  return { pool with bitmap := bitmap }

end JpuMemoryPool

/-! ### Bits -/

/-- The bit of a page; a page past the bitmap has none. -/
def pageAt (bitmap : Bitmap) (page : Nat) : Bool :=
  (bitmap[page / 64]?.getD 0).toBitVec.getLsbD (page % 64)

theorem pageBit_at (page i : Nat) (hi : i < 64) :
    (pageBit page).toBitVec.getLsbD i = decide (i = page % 64) := by
  have hshift : (pageBit page).toBitVec = 1#64 <<< (page % 64) := by
    unfold pageBit
    rw [UInt64.toBitVec_shiftLeft]
    simp
  rw [hshift]
  simp
  grind

theorem and_pageBit (word : UInt64) (page : Nat) :
    word &&& pageBit page ≠ 0 ↔ word.toBitVec.getLsbD (page % 64) = true := by
  have h64 : page % 64 < 64 := Nat.mod_lt _ (by decide)
  constructor
  · intro hne
    by_cases hbit : word.toBitVec.getLsbD (page % 64) = true
    · exact hbit
    · refine absurd (UInt64.toBitVec_inj.mp (BitVec.eq_of_getLsbD_eq fun i hi => ?_)) hne
      rw [UInt64.toBitVec_and, BitVec.getLsbD_and, pageBit_at _ _ hi]
      by_cases hip : i = page % 64
      · simp [hip, hbit]
      · simp [hip]
  · intro hbit heq
    have h := congrArg (fun w : UInt64 => w.toBitVec.getLsbD (page % 64)) heq
    simp only [UInt64.toBitVec_and, BitVec.getLsbD_and, pageBit_at _ _ h64, hbit] at h
    simp at h

theorem testPage_eq {bitmap : Bitmap} {page : Nat} (h : page / 64 < BITMAP_WORDS) :
    testPage bitmap page = .ok (pageAt bitmap page) := by
  unfold testPage pageAt
  rw [getAt_eq _ h, Vector.getElem?_eq_getElem h]
  refine congrArg Except.ok ?_
  simp only [and_pageBit, Option.getD_some]
  simp

/-- What a change of one page's word leaves of the bits. -/
theorem pageAt_set {bitmap : Bitmap} {page : Nat} (h : page / 64 < BITMAP_WORDS) (word : UInt64)
    (p : Nat) :
    pageAt (bitmap.set (page / 64) word h) p =
      if page / 64 = p / 64 then word.toBitVec.getLsbD (p % 64) else pageAt bitmap p := by
  unfold pageAt
  split
  · rename_i hword
    simp [← hword]
  · rename_i hword
    rw [Vector.getElem?_set_ne _ hword]

theorem pageAt_word {bitmap : Bitmap} {page p : Nat} (h : page / 64 < BITMAP_WORDS)
    (hword : page / 64 = p / 64) :
    bitmap[page / 64].toBitVec.getLsbD (p % 64) = pageAt bitmap p := by
  unfold pageAt
  rw [← hword, Vector.getElem?_eq_getElem h]
  rfl

theorem clearPage_ok (bitmap : Bitmap) {page : Nat} (h : page / 64 < BITMAP_WORDS) :
    ∃ bitmap', clearPage bitmap page = .ok bitmap' ∧
      ∀ p, pageAt bitmap' p = (pageAt bitmap p && decide (p ≠ page)) := by
  unfold clearPage
  rw [getAt_eq _ h]
  refine ⟨_, setAt_eq _ _ h, fun p => ?_⟩
  have h64 : p % 64 < 64 := Nat.mod_lt _ (by decide)
  rw [pageAt_set]
  split
  · rename_i hword
    have hpage : p % 64 = page % 64 ↔ p = page := by omega
    rw [UInt64.toBitVec_and, BitVec.getLsbD_and, pageAt_word h hword, UInt64.toBitVec_not,
      BitVec.getLsbD_not, pageBit_at _ _ h64]
    simp [h64, hpage]
  · rename_i hword
    have hne : p ≠ page := fun heq => hword (by rw [heq])
    simp [hne]

theorem setPage_ok (bitmap : Bitmap) {page : Nat} (h : page / 64 < BITMAP_WORDS) :
    ∃ bitmap', setPage bitmap page = .ok bitmap' ∧
      ∀ p, pageAt bitmap' p = (pageAt bitmap p || decide (p = page)) := by
  unfold setPage
  rw [getAt_eq _ h]
  refine ⟨_, setAt_eq _ _ h, fun p => ?_⟩
  have h64 : p % 64 < 64 := Nat.mod_lt _ (by decide)
  rw [pageAt_set]
  split
  · rename_i hword
    have hpage : p % 64 = page % 64 ↔ p = page := by omega
    rw [UInt64.toBitVec_or, BitVec.getLsbD_or, pageAt_word h hword, pageBit_at _ _ h64]
    simp [hpage]
  · rename_i hword
    have hne : p ≠ page := fun heq => hword (by rw [heq])
    simp [hne]

/-! ### The loops -/

theorem word_lt (page : Nat) (h : page < BITMAP_WORDS * 64) : page / 64 < BITMAP_WORDS :=
  (Nat.div_lt_iff_lt_mul (by decide)).mpr h

theorem clearPages_ok {start npages : Nat} (bitmap : Bitmap)
    (h : start + npages ≤ BITMAP_WORDS * 64) :
    ∃ bitmap',
      forRange npages (fun i bitmap => clearPage bitmap (start + i)) bitmap = .ok bitmap' ∧
      ∀ p, pageAt bitmap' p = (pageAt bitmap p && decide (p < start ∨ start + npages ≤ p)) := by
  refine forRange_ok
    (fun j bitmap' =>
      ∀ p, pageAt bitmap' p = (pageAt bitmap p && decide (p < start ∨ start + j ≤ p)))
    (fun p => ?_) fun j hj bitmap' hb => ?_
  · have : p < start ∨ start ≤ p := Nat.lt_or_ge p start
    simp [this]
  · obtain ⟨bitmap'', hok, hclear⟩ :=
      clearPage_ok bitmap' (word_lt (start + j) (by omega))
    refine ⟨bitmap'', hok, fun p => ?_⟩
    rw [hclear, hb, Bool.and_assoc, ← Bool.decide_and]
    refine congrArg (pageAt bitmap p && ·) (decide_eq_decide.mpr ?_)
    omega

theorem freeFrom_ok {numPages : Nat} (h : numPages ≤ BITMAP_WORDS * 64) (remaining page : Nat)
    (bitmap : Bitmap) :
    ∃ bitmap', JpuMemoryPool.freeFrom numPages remaining page bitmap = .ok bitmap' ∧
      ∀ p, pageAt bitmap' p =
        (pageAt bitmap p || decide (page ≤ p ∧ p < page + remaining ∧ p < numPages)) := by
  induction remaining generalizing page bitmap with
  | zero =>
      refine ⟨bitmap, rfl, fun p => ?_⟩
      have hno : ¬ (page ≤ p ∧ p < page + 0 ∧ p < numPages) := by omega
      rw [decide_eq_false hno, Bool.or_false]
  | succ remaining ih =>
      unfold JpuMemoryPool.freeFrom
      by_cases hend : page ≥ numPages
      · refine ⟨bitmap, if_pos hend, fun p => ?_⟩
        have hno : ¬ (page ≤ p ∧ p < page + (remaining + 1) ∧ p < numPages) := by omega
        rw [decide_eq_false hno, Bool.or_false]
      · obtain ⟨bitmap₁, hset, hone⟩ :=
          setPage_ok bitmap (word_lt page (by omega))
        obtain ⟨bitmap', hrest, hall⟩ := ih (page + 1) bitmap₁
        refine ⟨bitmap', ?_, fun p => ?_⟩
        · rw [if_neg hend, hset]
          exact hrest
        · rw [hall, hone, Bool.or_assoc, ← Bool.decide_or]
          refine congrArg (pageAt bitmap p || ·) (decide_eq_decide.mpr ?_)
          omega

namespace JpuMemoryPool

/-- The search passes over the pages as `firstFit` does. -/
theorem allocFrom_none {pool : JpuMemoryPool} {npages remaining page consecutive start : Nat}
    (h : page + remaining ≤ BITMAP_WORDS * 64)
    (hfit : firstFit (pageAt pool.bitmap) npages remaining page consecutive start = none) :
    pool.allocFrom npages remaining page consecutive start = .ok (none, pool) := by
  induction remaining generalizing page consecutive start with
  | zero => rfl
  | succ remaining ih =>
      unfold allocFrom
      unfold firstFit at hfit
      rw [testPage_eq (word_lt page (by omega))]
      show (if pageAt pool.bitmap page = true then _ else _) = _
      split
      · rename_i hfree
        rw [if_pos hfree] at hfit
        dsimp only at hfit ⊢
        split
        · rename_i hlong
          rw [if_pos hlong] at hfit
          cases hfit
        · rename_i hshort
          rw [if_neg hshort] at hfit
          exact ih (by omega) hfit
      · rename_i hused
        rw [if_neg hused] at hfit
        exact ih (by omega) hfit

theorem allocFrom_some {pool : JpuMemoryPool} {npages remaining page consecutive start found : Nat}
    (h : page + remaining ≤ BITMAP_WORDS * 64) (hfound : found + npages ≤ BITMAP_WORDS * 64)
    (hfit : firstFit (pageAt pool.bitmap) npages remaining page consecutive start = some found) :
    ∃ bitmap, pool.allocFrom npages remaining page consecutive start =
        .ok (some ⟨usize (pool.baseAddr + found * VMEM_PAGE_SIZE), usize (npages * VMEM_PAGE_SIZE)⟩,
          { pool with bitmap := bitmap }) ∧
      ∀ p, pageAt bitmap p =
        (pageAt pool.bitmap p && decide (p < found ∨ found + npages ≤ p)) := by
  induction remaining generalizing page consecutive start with
  | zero => cases hfit
  | succ remaining ih =>
      unfold allocFrom
      unfold firstFit at hfit
      rw [testPage_eq (word_lt page (by omega))]
      show ∃ bitmap, (if pageAt pool.bitmap page = true then _ else _) = _ ∧ _
      split
      · rename_i hfree
        rw [if_pos hfree] at hfit
        dsimp only at hfit ⊢
        split
        · rename_i hlong
          rw [if_pos hlong] at hfit
          obtain ⟨bitmap, hclear, hbits⟩ := clearPages_ok pool.bitmap hfound
          refine ⟨bitmap, ?_, hbits⟩
          rw [Option.some.inj hfit, hclear]
          rfl
        · rename_i hshort
          rw [if_neg hshort] at hfit
          exact ih (by omega) hfit
      · rename_i hused
        rw [if_neg hused] at hfit
        exact ih (by omega) hfit

theorem alloc_none {pool : JpuMemoryPool} {size : Nat} (h : pool.numPages ≤ BITMAP_WORDS * 64)
    (hfit : firstFit (pageAt pool.bitmap) (ceilDiv size VMEM_PAGE_SIZE) pool.numPages 0 0 0 =
      none) : pool.alloc size = .ok (none, pool) :=
  allocFrom_none (by omega) hfit

/-- **`alloc` takes the first run of free pages.** -/
theorem alloc_some {pool : JpuMemoryPool} {size found : Nat}
    (h : pool.numPages ≤ BITMAP_WORDS * 64)
    (hfit : firstFit (pageAt pool.bitmap) (ceilDiv size VMEM_PAGE_SIZE) pool.numPages 0 0 0 =
      some found) :
    ∃ bitmap, pool.alloc size =
        .ok (some ⟨usize (pool.baseAddr + found * VMEM_PAGE_SIZE),
          usize (ceilDiv size VMEM_PAGE_SIZE * VMEM_PAGE_SIZE)⟩, { pool with bitmap := bitmap }) ∧
      ∀ p, pageAt bitmap p = (pageAt pool.bitmap p &&
        decide (p < found ∨ found + ceilDiv size VMEM_PAGE_SIZE ≤ p)) := by
  have hle := (firstFit_some Row.zero hfit).2.2
  exact allocFrom_some (by omega) (by omega) hfit

/-- **`free` gives back the pages of the buffer.** -/
theorem free_eq (pool : JpuMemoryPool) (buf : PhysBuffer) (h : pool.numPages ≤ BITMAP_WORDS * 64)
    (hempty : buf.isEmpty = false) (hlow : pool.baseAddr ≤ buf.addr)
    (hhigh : buf.addr < usize (pool.baseAddr + pool.size)) :
    ∃ bitmap, pool.free buf = .ok { pool with bitmap := bitmap } ∧
      ∀ p, pageAt bitmap p = (pageAt pool.bitmap p ||
        decide ((buf.addr - pool.baseAddr) / VMEM_PAGE_SIZE ≤ p ∧
          p < (buf.addr - pool.baseAddr) / VMEM_PAGE_SIZE + ceilDiv buf.size VMEM_PAGE_SIZE ∧
          p < pool.numPages)) := by
  obtain ⟨bitmap, hfree, hbits⟩ := freeFrom_ok h (ceilDiv buf.size VMEM_PAGE_SIZE)
    ((buf.addr - pool.baseAddr) / VMEM_PAGE_SIZE) pool.bitmap
  refine ⟨bitmap, ?_, hbits⟩
  have hin : ¬ (buf.isEmpty = true ∨ buf.addr < pool.baseAddr ∨
      buf.addr ≥ usize (pool.baseAddr + pool.size)) := by
    rintro (h1 | h1 | h1)
    · rw [hempty] at h1
      cases h1
    · omega
    · omega
  unfold free
  rw [if_neg hin]
  show (freeFrom _ _ _ _ >>= fun _ => _) = _
  rw [hfree]
  rfl

end JpuMemoryPool

end Cvirtos.Jpu
