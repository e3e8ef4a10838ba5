import Cvirtos.Jpu.Pool
import Cvirtos.Lib.Transition

/-!
# What the DMA memory pool guarantees

The pool under any sequence of `alloc` and of `free` of buffers in use.

* `PoolInv` — the buffers in use are runs of pages, apart from one another, and the set bits are
  the pages of none of them;
* `alloc_inv`, `free_inv` — each operation keeps it;
* `pool_sound` — **every buffer returned is aligned, large enough, inside the pool and apart from
  the others, and one is refused only when no run of free pages is long enough**; the pool is the
  pages of its region, as `PoolOf` counts them.
-/

set_option autoImplicit false

namespace Cvirtos.Jpu

open Cvirtos.Lib

/-- `jpu_free`. -/
def jpuFree (pool : JpuMemoryPool) (buf : PhysBuffer) : Run JpuMemoryPool :=
  if buf.isEmpty then .ok pool else pool.free buf

/-- The pool and the buffers returned and not yet freed. -/
structure PoolState where
  pool : JpuMemoryPool
  live : List PhysBuffer
  deriving DecidableEq, Repr

inductive PoolOp where
  | alloc (size : Nat)
  | free (buf : PhysBuffer)
  deriving DecidableEq, Repr

/-- `none` where the operation panics. -/
def poolStep (s : PoolState) : PoolOp → Option PoolState
  | .alloc size =>
    match s.pool.alloc size with
    | .ok (buf, pool) => some ⟨pool, s.live ++ buf.toList⟩
    | .error _ => none
  | .free buf =>
    match jpuFree s.pool buf with
    | .ok pool => some ⟨pool, s.live.erase buf⟩
    | .error _ => none

/-- Only a buffer in use is freed. -/
def FreesLive (s : PoolState) : PoolOp → Prop
  | .alloc _ => True
  | .free buf => buf ∈ s.live

instance (s : PoolState) : (op : PoolOp) → Decidable (FreesLive s op)
  | .alloc _ => inferInstanceAs (Decidable True)
  | .free buf => inferInstanceAs (Decidable (buf ∈ s.live))

/-- The page lies in the buffer. -/
def PhysBuffer.Holds (buf : PhysBuffer) (pool : JpuMemoryPool) (page : Nat) : Prop :=
  buf.addr ≤ pool.baseAddr + page * VMEM_PAGE_SIZE ∧
    pool.baseAddr + page * VMEM_PAGE_SIZE < buf.addr + buf.size

/-- No byte is in both buffers. -/
def PhysBuffer.Apart (b c : PhysBuffer) : Prop :=
  b.size ≠ 0 → c.size ≠ 0 → b.addr + b.size ≤ c.addr ∨ c.addr + c.size ≤ b.addr

/-- The buffer is `count` pages from page `start` on. -/
structure PhysBuffer.Pages (buf : PhysBuffer) (pool : JpuMemoryPool) (start count : Nat) : Prop where
  addr : buf.addr = pool.baseAddr + start * VMEM_PAGE_SIZE
  size : buf.size = count * VMEM_PAGE_SIZE
  start_lt : start < pool.numPages
  end_le : start + count ≤ pool.numPages

/-- What `init` makes of a region: the pool begins at the first page boundary of it, and has as many
pages as its size has. -/
structure PoolOf (pool : JpuMemoryPool) (base size : Nat) : Prop where
  baseAddr : pool.baseAddr = ceilDiv base VMEM_PAGE_SIZE * VMEM_PAGE_SIZE
  numPages : pool.numPages = size / VMEM_PAGE_SIZE
  size : pool.size = pool.numPages * VMEM_PAGE_SIZE

/-- What `init` sets and nothing changes. -/
structure Geometry (pool : JpuMemoryPool) : Prop where
  aligned : VMEM_PAGE_SIZE ∣ pool.baseAddr
  pos : 0 < pool.baseAddr
  size : pool.size = pool.numPages * VMEM_PAGE_SIZE
  fits : pool.baseAddr + pool.size < 2 ^ 64
  words : pool.numPages ≤ BITMAP_WORDS * 64

structure PoolInv (s : PoolState) : Prop where
  geometry : Geometry s.pool
  live : ∀ buf ∈ s.live, ∃ start count, buf.Pages s.pool start count
  apart : s.live.Pairwise PhysBuffer.Apart
  bits : ∀ page, page < s.pool.numPages →
    (pageAt s.pool.bitmap page = true ↔ ∀ buf ∈ s.live, ¬ buf.Holds s.pool page)

theorem usize_eq {x : Nat} (h : x < 2 ^ 64) : usize x = x := Nat.mod_eq_of_lt h

theorem ceilDiv_page_mul (n : Nat) : n ≤ ceilDiv n VMEM_PAGE_SIZE * VMEM_PAGE_SIZE := by
  unfold ceilDiv VMEM_PAGE_SIZE
  omega

theorem ceilDiv_pages (count : Nat) : ceilDiv (count * VMEM_PAGE_SIZE) VMEM_PAGE_SIZE = count := by
  unfold ceilDiv VMEM_PAGE_SIZE
  omega

theorem ceilDiv_pos {n : Nat} (h : 0 < n) : 0 < ceilDiv n VMEM_PAGE_SIZE := by
  unfold ceilDiv VMEM_PAGE_SIZE
  omega

theorem PhysBuffer.Pages.holds_iff {buf : PhysBuffer} {pool : JpuMemoryPool} {start count : Nat}
    (h : buf.Pages pool start count) (page : Nat) :
    buf.Holds pool page ↔ start ≤ page ∧ page < start + count := by
  unfold PhysBuffer.Holds
  rw [h.addr, h.size]
  unfold VMEM_PAGE_SIZE
  omega

/-- Runs of pages that share none are apart. -/
theorem PhysBuffer.Pages.apart {b c : PhysBuffer} {pool : JpuMemoryPool} {i m j n : Nat}
    (hb : b.Pages pool i m) (hc : c.Pages pool j n)
    (h : ∀ page, b.Holds pool page → ¬ c.Holds pool page) : b.Apart c := by
  intro hbsize hcsize
  have hm : m ≠ 0 := fun h0 => hbsize (by rw [hb.size, h0, Nat.zero_mul])
  have hn : n ≠ 0 := fun h0 => hcsize (by rw [hc.size, h0, Nat.zero_mul])
  have hi := h i
  have hj := h j
  rw [hb.holds_iff, hc.holds_iff] at hi hj
  have hsplit : i + m ≤ j ∨ j + n ≤ i := by omega
  rw [hb.addr, hb.size, hc.addr, hc.size]
  unfold VMEM_PAGE_SIZE
  omega

theorem PhysBuffer.Apart.holds {b c : PhysBuffer} {pool : JpuMemoryPool} {page : Nat}
    (h : b.Apart c) (hb : b.Holds pool page) : ¬ c.Holds pool page := by
  intro hc
  unfold PhysBuffer.Holds at hb hc
  have := h (by omega) (by omega)
  omega

theorem PhysBuffer.Apart.symm {b c : PhysBuffer} (h : b.Apart c) : c.Apart b :=
  fun hc hb => (h hb hc).symm

/-! ### Each operation -/

/-- The pages of a pool of at most `JPU_DRAM_PHYSICAL_SIZE` bytes fit the bitmap. -/
theorem init_words (pool : JpuMemoryPool) (base : Nat) {size : Nat}
    (hsize : size ≤ JPU_DRAM_PHYSICAL_SIZE) :
    (pool.init base size).numPages ≤ BITMAP_WORDS * 64 := by
  have hwords : BITMAP_WORDS * 64 = 64 := by decide
  unfold JPU_DRAM_PHYSICAL_SIZE at hsize
  rw [hwords]
  simp only [JpuMemoryPool.init, pageFloor, VMEM_PAGE_SIZE]
  omega

/-- A new pool has every page free. -/
theorem JpuMemoryPool.init_free (pool : JpuMemoryPool) (base : Nat) {size page : Nat}
    (hpage : page < BITMAP_WORDS * 64) : pageAt (pool.init base size).bitmap page = true := by
  have hones : ∀ i < 64, (0xFFFFFFFFFFFFFFFF : UInt64).toBitVec.getLsbD i = true := by decide
  simp only [pageAt, JpuMemoryPool.init]
  rw [Vector.getElem?_eq_getElem (word_lt page hpage), Vector.getElem_replicate]
  exact hones _ (Nat.mod_lt _ (by decide))

theorem init_inv (pool : JpuMemoryPool) {base size : Nat} (hbase : 1 ≤ base)
    (hsize : size ≤ JPU_DRAM_PHYSICAL_SIZE) (hfit : base + size + VMEM_PAGE_SIZE < 2 ^ 64) :
    PoolInv ⟨pool.init base size, []⟩ where
  geometry := by
    have hwords := init_words pool base hsize
    unfold VMEM_PAGE_SIZE at hfit
    unfold JPU_DRAM_PHYSICAL_SIZE at hsize
    constructor
    · exact Nat.dvd_mul_left _ _
    · simp only [JpuMemoryPool.init, pageFloor, usize, VMEM_PAGE_SIZE]
      omega
    · simp only [JpuMemoryPool.init, pageFloor, VMEM_PAGE_SIZE]
      omega
    · simp only [JpuMemoryPool.init, pageFloor, usize, VMEM_PAGE_SIZE]
      omega
    · exact hwords
  live := fun _ h => absurd h List.not_mem_nil
  apart := List.Pairwise.nil
  bits := fun page hpage =>
    ⟨fun _ _ h => absurd h List.not_mem_nil, fun _ =>
      JpuMemoryPool.init_free pool base (Nat.lt_of_lt_of_le hpage (init_words pool base hsize))⟩

theorem init_poolOf (pool : JpuMemoryPool) {base size : Nat}
    (hfit : base + size + VMEM_PAGE_SIZE < 2 ^ 64) : PoolOf (pool.init base size) base size where
  baseAddr := by
    unfold VMEM_PAGE_SIZE at hfit
    simp only [JpuMemoryPool.init, pageFloor, ceilDiv, usize, VMEM_PAGE_SIZE]
    omega
  numPages := Nat.mul_div_cancel _ (by decide)
  size := by
    simp only [JpuMemoryPool.init, pageFloor]
    rw [Nat.mul_div_cancel _ (by decide)]

/-- What a buffer returned by `alloc` is. -/
structure Returned (pool : JpuMemoryPool) (size : Nat) (buf : PhysBuffer) : Prop where
  aligned : VMEM_PAGE_SIZE ∣ buf.addr
  enough : size ≤ buf.size
  low : pool.baseAddr ≤ buf.addr
  high : buf.addr + buf.size ≤ pool.baseAddr + pool.size

theorem PhysBuffer.Pages.returned {buf : PhysBuffer} {pool : JpuMemoryPool} {start size : Nat}
    (hgeo : Geometry pool) (h : buf.Pages pool start (ceilDiv size VMEM_PAGE_SIZE)) :
    Returned pool size buf where
  aligned := by
    rw [h.addr]
    exact Nat.dvd_add hgeo.aligned (Nat.dvd_mul_left _ _)
  enough := by
    rw [h.size]
    exact ceilDiv_page_mul size
  low := by
    rw [h.addr]
    exact Nat.le_add_right _ _
  high := by
    rw [h.addr, h.size, hgeo.size, Nat.add_assoc, ← Nat.add_mul]
    exact Nat.add_le_add_left (Nat.mul_le_mul_right _ h.end_le) _

/-- The pool changes in its bitmap only. -/
def SamePlace (s s' : PoolState) : Prop := ∃ bitmap, s'.pool = { s.pool with bitmap := bitmap }

theorem PoolOf.same {s s' : PoolState} {base size : Nat} (h : PoolOf s.pool base size)
    (hsame : SamePlace s s') : PoolOf s'.pool base size := by
  obtain ⟨bitmap, hpool⟩ := hsame
  rw [hpool]
  exact ⟨h.baseAddr, h.numPages, h.size⟩

/-- What `alloc` does in a pool that keeps its invariant. -/
theorem alloc_cases {s : PoolState} (hinv : PoolInv s) (size : Nat) :
    (s.pool.alloc size = .ok (none, s.pool) ∧
      firstFit (pageAt s.pool.bitmap) (ceilDiv size VMEM_PAGE_SIZE) s.pool.numPages 0 0 0 = none) ∨
    (∃ found buf bitmap, s.pool.alloc size = .ok (some buf, { s.pool with bitmap := bitmap }) ∧
      firstFit (pageAt s.pool.bitmap) (ceilDiv size VMEM_PAGE_SIZE) s.pool.numPages 0 0 0 =
        some found ∧
      buf.Pages s.pool found (ceilDiv size VMEM_PAGE_SIZE) ∧
      ∀ p, pageAt bitmap p = (pageAt s.pool.bitmap p &&
        decide (p < found ∨ found + ceilDiv size VMEM_PAGE_SIZE ≤ p))) := by
  have hgeo := hinv.geometry
  cases hfit : firstFit (pageAt s.pool.bitmap) (ceilDiv size VMEM_PAGE_SIZE) s.pool.numPages 0 0 0
    with
  | none => exact .inl ⟨JpuMemoryPool.alloc_none hgeo.words hfit, rfl⟩
  | some found =>
    obtain ⟨bitmap, halloc, hbits⟩ := JpuMemoryPool.alloc_some hgeo.words hfit
    obtain ⟨-, hlt, hle⟩ := firstFit_some Row.zero hfit
    rw [Nat.zero_add] at hlt hle
    have hfits := hgeo.fits
    rw [hgeo.size] at hfits
    have hend : (found + ceilDiv size VMEM_PAGE_SIZE) * VMEM_PAGE_SIZE ≤
        s.pool.numPages * VMEM_PAGE_SIZE := Nat.mul_le_mul_right _ hle
    rw [Nat.add_mul] at hend
    rw [usize_eq (by omega), usize_eq (by omega)] at halloc
    exact .inr ⟨found, _, bitmap, halloc, rfl, ⟨rfl, rfl, hlt, hle⟩, hbits⟩

theorem alloc_inv {s : PoolState} (hinv : PoolInv s) (size : Nat) :
    ∃ s', poolStep s (.alloc size) = some s' ∧ PoolInv s' ∧ SamePlace s s' := by
  rcases alloc_cases hinv size with ⟨halloc, -⟩ | ⟨found, buf, bitmap, halloc, hfit, hpages, hbits⟩
  · refine ⟨s, ?_, hinv, s.pool.bitmap, rfl⟩
    simp [poolStep, halloc]
  · obtain ⟨hrun, -, -⟩ := firstFit_some Row.zero hfit
    refine ⟨⟨{ s.pool with bitmap := bitmap }, s.live ++ [buf]⟩, by simp [poolStep, halloc], ?_,
      bitmap, rfl⟩
    -- the pages it takes were free, so in no buffer
    have hnew (page : Nat) (hpage : buf.Holds s.pool page) :
        page < s.pool.numPages ∧ pageAt s.pool.bitmap page = true := by
      rw [hpages.holds_iff] at hpage
      have hle := hpages.end_le
      have hfree := hrun (page - found) (by omega)
      rw [show found + (page - found) = page by omega] at hfree
      exact ⟨by omega, hfree⟩
    constructor
    · exact ⟨hinv.geometry.1, hinv.geometry.2, hinv.geometry.3, hinv.geometry.4, hinv.geometry.5⟩
    · intro b hb
      rcases List.mem_append.mp hb with hb | hb
      · obtain ⟨start, count, h⟩ := hinv.live b hb
        exact ⟨start, count, h.1, h.2, h.3, h.4⟩
      · rw [List.mem_singleton.mp hb]
        exact ⟨found, _, hpages.1, hpages.2, hpages.3, hpages.4⟩
    · refine List.pairwise_append.mpr ⟨hinv.apart, List.pairwise_singleton _ _, fun b hb c hc => ?_⟩
      rw [List.mem_singleton.mp hc]
      obtain ⟨start, count, hb'⟩ := hinv.live b hb
      refine hb'.apart hpages fun page hbp hcp => ?_
      obtain ⟨hlt, hfree⟩ := hnew page hcp
      exact (hinv.bits page hlt).mp hfree b hb hbp
    · intro page hlt
      have hold := hinv.bits page hlt
      have hbuf : (page < found ∨ found + ceilDiv size VMEM_PAGE_SIZE ≤ page) ↔
          ¬ buf.Holds s.pool page := by
        rw [hpages.holds_iff]
        omega
      show pageAt bitmap page = true ↔ ∀ b ∈ s.live ++ [buf], ¬ b.Holds s.pool page
      rw [hbits, Bool.and_eq_true, hold, decide_eq_true_iff, hbuf, List.forall_mem_append,
        List.forall_mem_singleton]

theorem free_inv {s : PoolState} (hinv : PoolInv s) {buf : PhysBuffer} (hbuf : buf ∈ s.live) :
    ∃ s', poolStep s (.free buf) = some s' ∧ PoolInv s' ∧ SamePlace s s' := by
  have hgeo := hinv.geometry
  obtain ⟨start, count, hpages⟩ := hinv.live buf hbuf
  have hperm := List.perm_cons_erase hbuf
  have hothers : ∀ c ∈ s.live.erase buf, buf.Apart c := by
    have happ := hperm.pairwise hinv.apart PhysBuffer.Apart.symm
    exact (List.pairwise_cons.mp happ).1
  have hmem (c : PhysBuffer) : c ∈ s.live ↔ c = buf ∨ c ∈ s.live.erase buf := by
    rw [hperm.mem_iff, List.mem_cons]
  -- what is left of the invariant, for any bitmap with the buffer's pages set
  have hrest (bitmap : Bitmap) (hbits : ∀ p, pageAt bitmap p = true ↔
      (pageAt s.pool.bitmap p = true ∨ (buf.Holds s.pool p ∧ p < s.pool.numPages))) :
      PoolInv ⟨{ s.pool with bitmap := bitmap }, s.live.erase buf⟩ := by
    constructor
    · exact ⟨hgeo.1, hgeo.2, hgeo.3, hgeo.4, hgeo.5⟩
    · intro c hc
      obtain ⟨start, count, h⟩ := hinv.live c (List.mem_of_mem_erase hc)
      exact ⟨start, count, h.1, h.2, h.3, h.4⟩
    · exact hinv.apart.sublist List.erase_sublist
    · intro page hlt
      show pageAt bitmap page = true ↔ ∀ c ∈ s.live.erase buf, ¬ c.Holds s.pool page
      rw [hbits, hinv.bits page hlt]
      constructor
      · rintro (hfree | ⟨hin, -⟩) c hc
        · exact hfree c (List.mem_of_mem_erase hc)
        · exact (hothers c hc).holds hin
      · intro hfree
        by_cases hin : buf.Holds s.pool page
        · exact .inr ⟨hin, hlt⟩
        · refine .inl fun c hc => ?_
          rcases (hmem c).mp hc with rfl | hc
          · exact hin
          · exact hfree c hc
  have haddr : buf.addr ≠ 0 := by
    have := hgeo.pos
    rw [hpages.addr]
    omega
  by_cases hcount : count = 0
  · have hempty : buf.isEmpty = true := by simp [PhysBuffer.isEmpty, hpages.size, hcount]
    refine ⟨_, by simp only [poolStep, jpuFree, if_pos hempty],
      hrest s.pool.bitmap fun p => ?_, s.pool.bitmap, rfl⟩
    have hnone : ¬ buf.Holds s.pool p := by
      rw [hpages.holds_iff]
      omega
    simp [hnone]
  · have hsize : buf.size ≠ 0 := by
      rw [hpages.size]
      exact Nat.mul_ne_zero hcount (by decide)
    have hempty : buf.isEmpty = false := by simp [PhysBuffer.isEmpty, haddr, hsize]
    have hfits := hgeo.fits
    have hin : buf.addr < usize (s.pool.baseAddr + s.pool.size) := by
      rw [usize_eq hfits, hpages.addr, hgeo.size]
      exact Nat.add_lt_add_left (Nat.mul_lt_mul_of_pos_right hpages.start_lt (by decide)) _
    obtain ⟨bitmap, hfree, hbits⟩ := JpuMemoryPool.free_eq s.pool buf hgeo.words hempty
      (by rw [hpages.addr]; exact Nat.le_add_right _ _) hin
    refine ⟨_, by simp only [poolStep, jpuFree, hempty, hfree]; rfl,
      hrest bitmap fun p => ?_, bitmap, rfl⟩
    have hstart : (buf.addr - s.pool.baseAddr) / VMEM_PAGE_SIZE = start := by
      rw [hpages.addr, Nat.add_sub_cancel_left, Nat.mul_div_cancel _ (by decide)]
    rw [hbits, hstart, hpages.size, ceilDiv_pages, Bool.or_eq_true, decide_eq_true_iff,
      hpages.holds_iff, and_assoc]

theorem poolStep_inv (s : PoolState) (op : PoolOp) (hop : FreesLive s op) (hinv : PoolInv s) :
    ∃ s', poolStep s op = some s' ∧ PoolInv s' ∧ SamePlace s s' := by
  cases op with
  | alloc size => exact alloc_inv hinv size
  | free buf => exact free_inv hinv hop

/-- The guarantees of the pool, with the buffers in use. -/
structure PoolSound (s : PoolState) : Prop where
  returned : ∀ size buf pool, s.pool.alloc size = .ok (some buf, pool) → Returned s.pool size buf
  apart : s.live.Pairwise PhysBuffer.Apart
  bits : ∀ page, page < s.pool.numPages →
    (pageAt s.pool.bitmap page = true ↔ ∀ buf ∈ s.live, ¬ buf.Holds s.pool page)
  refused : ∀ size, 0 < size →
    ((∃ pool, s.pool.alloc size = .ok (none, pool)) ↔
      ¬ ∃ start, start + ceilDiv size VMEM_PAGE_SIZE ≤ s.pool.numPages ∧
        FreeRun (pageAt s.pool.bitmap) start (ceilDiv size VMEM_PAGE_SIZE))

theorem PoolInv.sound {s : PoolState} (hinv : PoolInv s) : PoolSound s where
  returned := by
    intro size buf pool halloc
    rcases alloc_cases hinv size with ⟨hnone, -⟩ | ⟨found, b, bitmap, hsome, -, hpages, -⟩
    · rw [hnone] at halloc
      cases halloc
    · rw [hsome] at halloc
      cases halloc
      exact hpages.returned hinv.geometry
  apart := hinv.apart
  bits := hinv.bits
  refused := by
    intro size hsize
    rw [← firstFit_none_iff (ceilDiv_pos hsize)]
    rcases alloc_cases hinv size with ⟨hnone, hfit⟩ | ⟨found, b, bitmap, hsome, hfit, -, -⟩
    · exact ⟨fun _ => hfit, fun _ => ⟨_, hnone⟩⟩
    · refine ⟨?_, fun h => ?_⟩
      · rintro ⟨pool, h⟩
        rw [hsome] at h
        cases h
      · rw [hfit] at h
        cases h

/-- **The pool under any sequence of operations.**  None of them panics. -/
theorem pool_sound (pool : JpuMemoryPool) (base size : Nat) (hbase : 1 ≤ base)
    (hsize : size ≤ JPU_DRAM_PHYSICAL_SIZE) (hfit : base + size + VMEM_PAGE_SIZE < 2 ^ 64)
    (ops : List PoolOp) (hops : AllSteps poolStep FreesLive ⟨pool.init base size, []⟩ ops) :
    ∃ s, run poolStep ⟨pool.init base size, []⟩ ops = some s ∧ PoolOf s.pool base size ∧
      PoolSound s := by
  have hstep : ∀ s op, FreesLive s op → PoolInv s ∧ PoolOf s.pool base size →
      ∃ s', poolStep s op = some s' ∧ PoolInv s' ∧ PoolOf s'.pool base size := by
    rintro s op hop ⟨hinv, hof⟩
    obtain ⟨s', hs, hinv', hsame⟩ := poolStep_inv s op hop hinv
    exact ⟨s', hs, hinv', hof.same hsame⟩
  obtain ⟨s, hrun, hinv, hof⟩ := run_total hstep
    ⟨init_inv pool hbase hsize hfit, init_poolOf pool hfit⟩ hops
  exact ⟨s, hrun, hof, hinv.sound⟩

/-- A hole of two pages is left between two buffers, and an empty buffer is asked for. -/
theorem pool_sound_hole :
    ∃ s, run poolStep
        ⟨(⟨0, 0, 0, Vector.replicate BITMAP_WORDS 0⟩ : JpuMemoryPool).init 0x80001000 0x100000, []⟩
        [.alloc 1, .alloc 20000, .alloc 16384, .free ⟨0x80008000, 32768⟩, .alloc 0] = some s ∧
      s.live = [⟨0x80004000, 16384⟩, ⟨0x80010000, 16384⟩, ⟨0x80008000, 0⟩] ∧
      PoolOf s.pool 0x80001000 0x100000 ∧ PoolSound s := by
  obtain ⟨s, hrun, hof, hsound⟩ := pool_sound ⟨0, 0, 0, Vector.replicate BITMAP_WORDS 0⟩
    0x80001000 0x100000 (by decide) (by decide) (by decide)
    [.alloc 1, .alloc 20000, .alloc 16384, .free ⟨0x80008000, 32768⟩, .alloc 0] (by decide +kernel)
  have hlive : (run poolStep
      ⟨(⟨0, 0, 0, Vector.replicate BITMAP_WORDS 0⟩ : JpuMemoryPool).init 0x80001000 0x100000, []⟩
      [.alloc 1, .alloc 20000, .alloc 16384, .free ⟨0x80008000, 32768⟩, .alloc 0]).map
        PoolState.live = some [⟨0x80004000, 16384⟩, ⟨0x80010000, 16384⟩, ⟨0x80008000, 0⟩] := by
    decide +kernel
  rw [hrun] at hlive
  exact ⟨s, hrun, Option.some.inj hlive, hof, hsound⟩

end Cvirtos.Jpu
