import Cvirtos.Jpu.PoolSafety

/-!
# The region the memory pool was given

`init_jpu_memory_with`, and any sequence of `jpu_alloc` and `jpu_free` after it, of whatever buffers.
The pool begins at the first page boundary of its region, and its size is rounded down on its own.

* `poolCall_spec` — each call keeps where the pool is, and returns pages of it;
* `pool_inside_iff` — **every buffer lies inside the region exactly when the whole pages of the size
  fit behind the first page boundary**.
-/

set_option autoImplicit false

namespace Cvirtos.Jpu

open Cvirtos.Lib

def JPU_POOL_PA : Nat := 0x8FF1E000
def JPU_POOL_SIZE : Nat := 0x00040000

/-- `init_jpu_memory_with`. -/
def initJpuMemoryWith (pool : JpuMemoryPool) (base size : Nat) : JpuMemoryPool :=
  pool.init base (min size JPU_DRAM_PHYSICAL_SIZE)

/-- `jpu_alloc`, and `jpu_free`, which returns nothing. -/
def poolCall (pool : JpuMemoryPool) : PoolOp → Run (Option PhysBuffer × JpuMemoryPool)
  | .alloc size => pool.alloc size
  | .free buf => do return (none, ← jpuFree pool buf)

/-- The buffers a sequence of calls returns. -/
def poolCalls (pool : JpuMemoryPool) : List PoolOp → Run (List PhysBuffer)
  | [] => return []
  | op :: ops => do
    let (buf, pool) ← poolCall pool op
    let bufs ← poolCalls pool ops
    return buf.toList ++ bufs

/-- The buffer lies in `[base, base + size)`, and in the address space. -/
structure PhysBuffer.Inside (buf : PhysBuffer) (base size : Nat) : Prop where
  lower : base ≤ buf.addr
  upper : buf.addr + buf.size ≤ base + size
  addressable : buf.addr + buf.size ≤ 2 ^ 64

/-- The first page boundary of the region. -/
def poolBase (base : Nat) : Nat := pageFloor (usize (base + VMEM_PAGE_SIZE - 1))

/-- The bytes of the pool's pages. -/
def poolBytes (size : Nat) : Nat := pageFloor (min size JPU_DRAM_PHYSICAL_SIZE)

/-- The pool has no page, or its pages fit behind the first page boundary. -/
def PoolFits (base size : Nat) : Prop :=
  poolBytes size = 0 ∨
    base ≤ poolBase base ∧ poolBase base + poolBytes size ≤ min (base + size) (2 ^ 64)

instance (base size : Nat) : Decidable (PoolFits base size) := inferInstanceAs (Decidable (_ ∨ _))

/-- For a region of the address space: the bytes up to the first page boundary and the pages behind
it are together no more than the size. -/
theorem poolFits_iff {base size : Nat} (hspace : base + size ≤ 2 ^ 64) :
    PoolFits base size ↔
      poolBytes size = 0 ∨
        (VMEM_PAGE_SIZE - base % VMEM_PAGE_SIZE) % VMEM_PAGE_SIZE + poolBytes size ≤ size := by
  have hbytes : poolBytes size ≤ size := by
    simp only [poolBytes, pageFloor, VMEM_PAGE_SIZE, JPU_DRAM_PHYSICAL_SIZE]
    omega
  have hpage : VMEM_PAGE_SIZE ∣ poolBytes size := Nat.dvd_mul_left _ _
  unfold PoolFits
  refine or_congr_right' fun hpos => ?_
  have hle : VMEM_PAGE_SIZE ≤ size :=
    Nat.le_trans (Nat.le_of_dvd (Nat.pos_of_ne_zero hpos) hpage) hbytes
  unfold VMEM_PAGE_SIZE at hle
  rw [Nat.min_eq_left hspace]
  simp only [poolBase, pageFloor, usize, VMEM_PAGE_SIZE]
  omega

/-- A region that begins at a page boundary always fits. -/
theorem poolFits_aligned {base size : Nat} (hspace : base + size ≤ 2 ^ 64)
    (halign : VMEM_PAGE_SIZE ∣ base) : PoolFits base size := by
  refine (poolFits_iff hspace).mpr (.inr ?_)
  rw [Nat.mod_eq_zero_of_dvd halign]
  simp only [poolBytes, pageFloor, VMEM_PAGE_SIZE, JPU_DRAM_PHYSICAL_SIZE]
  omega

/-- Where the pool is. -/
structure Placed (pool : JpuMemoryPool) (base size : Nat) : Prop where
  baseAddr : pool.baseAddr = poolBase base
  bytes : pool.numPages * VMEM_PAGE_SIZE = poolBytes size
  words : pool.numPages ≤ BITMAP_WORDS * 64

theorem placed_init (pool : JpuMemoryPool) (base size : Nat) :
    Placed (initJpuMemoryWith pool base size) base size where
  baseAddr := rfl
  bytes := by
    simp only [initJpuMemoryWith, JpuMemoryPool.init, poolBytes, pageFloor, VMEM_PAGE_SIZE]
    omega
  words := init_words pool base (Nat.min_le_right _ _)

/-- **What a call returns**: pages of the pool, which stays where it is. -/
theorem poolCall_spec {pool : JpuMemoryPool} {base size : Nat} (hplaced : Placed pool base size)
    (op : PoolOp) :
    ∃ buf pool', poolCall pool op = .ok (buf, pool') ∧ Placed pool' base size ∧
      ∀ b ∈ buf, ∃ start count, start < pool.numPages ∧ start + count ≤ pool.numPages ∧
        b = ⟨usize (pool.baseAddr + start * VMEM_PAGE_SIZE), usize (count * VMEM_PAGE_SIZE)⟩ := by
  have hkeep (bitmap : Bitmap) : Placed { pool with bitmap := bitmap } base size :=
    ⟨hplaced.baseAddr, hplaced.bytes, hplaced.words⟩
  cases op with
  | alloc n =>
      cases hfit : firstFit (pageAt pool.bitmap) (ceilDiv n VMEM_PAGE_SIZE) pool.numPages 0 0 0 with
      | none =>
          refine ⟨none, pool, JpuMemoryPool.alloc_none hplaced.words hfit, hplaced, ?_⟩
          intro b hb
          cases hb
      | some found =>
          obtain ⟨bitmap, halloc, -⟩ := JpuMemoryPool.alloc_some hplaced.words hfit
          obtain ⟨-, hlt, hle⟩ := firstFit_some Row.zero hfit
          refine ⟨_, _, halloc, hkeep bitmap, ?_⟩
          intro b hb
          cases hb
          exact ⟨found, _, by omega, by omega, rfl⟩
  | free buf =>
      have hfree : ∃ pool', jpuFree pool buf = .ok pool' ∧ Placed pool' base size := by
        unfold jpuFree
        split
        · exact ⟨pool, rfl, hplaced⟩
        · rename_i hempty
          by_cases hin : pool.baseAddr ≤ buf.addr ∧ buf.addr < usize (pool.baseAddr + pool.size)
          · obtain ⟨bitmap, hok, -⟩ := JpuMemoryPool.free_eq pool buf hplaced.words
              (Bool.eq_false_iff.mpr hempty) hin.1 hin.2
            exact ⟨_, hok, hkeep bitmap⟩
          · refine ⟨pool, ?_, hplaced⟩
            unfold JpuMemoryPool.free
            rw [if_pos (by omega)]
            rfl
      obtain ⟨pool', hok, hplaced'⟩ := hfree
      refine ⟨none, pool', ?_, hplaced', ?_⟩
      · show (jpuFree pool buf >>= fun pool => _) = _
        rw [hok]
        rfl
      · intro b hb
        cases hb

/-- Pages of a pool that fits lie inside its region. -/
theorem inside_of_fits {pool : JpuMemoryPool} {base size start count : Nat}
    (hplaced : Placed pool base size) (hfits : PoolFits base size) (hstart : start < pool.numPages)
    (hend : start + count ≤ pool.numPages) :
    PhysBuffer.Inside
      ⟨usize (pool.baseAddr + start * VMEM_PAGE_SIZE), usize (count * VMEM_PAGE_SIZE)⟩ base size := by
  have hbytes := hplaced.bytes
  have hwords := hplaced.words
  have hpages : BITMAP_WORDS * 64 = 64 := by decide
  unfold VMEM_PAGE_SIZE at hbytes ⊢
  rw [hplaced.baseAddr]
  rcases hfits with hnone | ⟨hlow, hhigh⟩
  · omega
  · have haddr : usize (poolBase base + start * 16384) = poolBase base + start * 16384 :=
      usize_eq (by omega)
    have hcount : usize (count * 16384) = count * 16384 := usize_eq (by omega)
    rw [haddr, hcount]
    have hsum : poolBase base + start * 16384 + count * 16384 ≤ min (base + size) (2 ^ 64) := by
      omega
    exact ⟨Nat.le_trans hlow (Nat.le_add_right _ _), Nat.le_trans hsum (Nat.min_le_left _ _),
      Nat.le_trans hsum (Nat.min_le_right _ _)⟩

/-- Every sequence of calls runs, and returns buffers inside the region of a pool that fits. -/
theorem poolCalls_inside {pool : JpuMemoryPool} {base size : Nat} (hplaced : Placed pool base size)
    (hfits : PoolFits base size) (ops : List PoolOp) :
    ∃ bufs, poolCalls pool ops = .ok bufs ∧ ∀ buf ∈ bufs, buf.Inside base size := by
  induction ops generalizing pool with
  | nil => exact ⟨[], rfl, fun buf h => absurd h List.not_mem_nil⟩
  | cons op ops ih =>
      obtain ⟨buf, pool', hcall, hplaced', hpages⟩ := poolCall_spec hplaced op
      obtain ⟨bufs, hrest, hinside⟩ := ih hplaced'
      refine ⟨buf.toList ++ bufs, ?_, ?_⟩
      · unfold poolCalls
        rw [hcall]
        show (poolCalls pool' ops >>= fun bufs => _) = _
        rw [hrest]
        rfl
      · intro b hb
        rcases List.mem_append.mp hb with hb | hb
        · obtain ⟨start, count, hstart, hend, rfl⟩ := hpages b (Option.mem_toList.mp hb)
          exact inside_of_fits hplaced hfits hstart hend
        · exact hinside b hb

/-- The first call of a new pool can have all of its pages. -/
theorem alloc_whole (pool : JpuMemoryPool) (base : Nat) {size : Nat} (hpos : poolBytes size ≠ 0) :
    ∃ pool', poolCall (initJpuMemoryWith pool base size) (.alloc (poolBytes size)) =
      .ok (some ⟨usize (poolBase base), usize (poolBytes size)⟩, pool') := by
  have hplaced := placed_init pool base size
  have hbytes := hplaced.bytes
  have hwant : ceilDiv (poolBytes size) VMEM_PAGE_SIZE = (initJpuMemoryWith pool base size).numPages := by
    rw [← hbytes, ceilDiv_pages]
  cases hfit : firstFit (pageAt (initJpuMemoryWith pool base size).bitmap)
      (ceilDiv (poolBytes size) VMEM_PAGE_SIZE) (initJpuMemoryWith pool base size).numPages 0 0 0 with
  | none =>
      have hno := (firstFit_none_iff (ceilDiv_pos (Nat.pos_of_ne_zero hpos)) _).mp hfit
      refine absurd ⟨0, by omega, ?_⟩ hno
      intro i hi
      have := hplaced.words
      exact JpuMemoryPool.init_free pool base (by omega)
  | some found =>
      obtain ⟨bitmap, halloc, -⟩ := JpuMemoryPool.alloc_some hplaced.words hfit
      obtain ⟨-, -, hle⟩ := firstFit_some Row.zero hfit
      have hfirst : found = 0 := by omega
      rw [hfirst, hwant, hbytes, hplaced.baseAddr, Nat.zero_mul, Nat.add_zero] at halloc
      exact ⟨_, halloc⟩

/-- **Every buffer of every sequence of calls lies inside the region exactly when the pool fits.** -/
theorem pool_inside_iff (pool : JpuMemoryPool) (base size : Nat) :
    (∀ ops, ∃ bufs, poolCalls (initJpuMemoryWith pool base size) ops = .ok bufs ∧
      ∀ buf ∈ bufs, buf.Inside base size) ↔ PoolFits base size := by
  constructor
  · intro h
    by_cases hpos : poolBytes size = 0
    · exact .inl hpos
    · obtain ⟨pool', hcall⟩ := alloc_whole pool base hpos
      obtain ⟨bufs, hcalls, hinside⟩ := h [.alloc (poolBytes size)]
      unfold poolCalls at hcalls
      rw [hcall] at hcalls
      cases hcalls
      have hbuf := hinside _ (List.mem_append_left _ (Option.mem_toList.mpr rfl))
      have hbase : usize (poolBase base) = poolBase base := by
        simp only [poolBase, pageFloor, usize, VMEM_PAGE_SIZE]
        omega
      have hbytes : usize (poolBytes size) = poolBytes size := by
        simp only [poolBytes, pageFloor, usize, VMEM_PAGE_SIZE, JPU_DRAM_PHYSICAL_SIZE]
        omega
      rw [hbase, hbytes] at hbuf
      exact .inr ⟨hbuf.lower, Nat.le_min.mpr ⟨hbuf.upper, hbuf.addressable⟩⟩
  · intro hfits ops
    exact poolCalls_inside (placed_init pool base size) hfits ops

/-- The platform's pool begins in the middle of a page: its last page ends 8 KiB past the region. -/
theorem platform_pool_outside :
    ¬ ∀ (pool : JpuMemoryPool) (base size : Nat) (ops : List PoolOp), ∃ bufs,
      poolCalls (initJpuMemoryWith pool base size) ops = .ok bufs ∧
        ∀ buf ∈ bufs, buf.Inside base size := by
  intro h
  have hrun : poolCalls (initJpuMemoryWith ⟨0, 0, 0, Vector.replicate BITMAP_WORDS 0⟩
      JPU_POOL_PA JPU_POOL_SIZE) [.alloc 0x40000] = .ok [⟨0x8FF20000, 0x40000⟩] := by
    decide +kernel
  obtain ⟨bufs, hcalls, hinside⟩ := h ⟨0, 0, 0, Vector.replicate BITMAP_WORDS 0⟩ JPU_POOL_PA
    JPU_POOL_SIZE [.alloc 0x40000]
  rw [hrun] at hcalls
  cases hcalls
  have hupper := (hinside _ (List.mem_singleton.mpr rfl)).upper
  revert hupper
  decide

end Cvirtos.Jpu
