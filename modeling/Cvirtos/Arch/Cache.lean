/-!
# Cache maintenance by range

`arch/cache.rs`: the D-cache is maintained a line at a time.  The two range functions run one
instruction on every line that a range touches.

* `dcacheRange_rule` — the invariant rule of the loop.
-/

set_option autoImplicit false

namespace Cvirtos.Arch

def CACHE_LINE : Nat := 64

variable {S : Type}

/-- The loop of both functions: `op` at `addr`, and at every line after it that starts before
`stop`. -/
def dcacheLines (op : Nat → S → S) (stop addr : Nat) (s : S) : S :=
  if addr < stop then dcacheLines op stop (addr + CACHE_LINE) (op addr s) else s
termination_by stop - addr
decreasing_by
  unfold CACHE_LINE
  omega

/-- A range function, with its instruction. -/
def dcacheRange (op : Nat → S → S) (start size : Nat) (s : S) : S :=
  if size = 0 then s else dcacheLines op (start + size) (start - start % CACHE_LINE) s

/-- `dcache_clean_range`, with `dcache.cva`. -/
def dcacheCleanRange (dcacheCva : Nat → S → S) (start size : Nat) (s : S) : S :=
  dcacheRange dcacheCva start size s

/-- `dcache_invalidate_range`, with `dcache.iva`. -/
def dcacheInvalidateRange (dcacheIva : Nat → S → S) (start size : Nat) (s : S) : S :=
  dcacheRange dcacheIva start size s

/-- The lines that `[lo, hi)` touches. -/
def InLines (lo hi line : Nat) : Prop := lo / CACHE_LINE ≤ line ∧ line * CACHE_LINE < hi

/-- **The invariant of the loop**: `P line` before the instruction runs on `line`. -/
theorem dcacheRange_rule {P : Nat → S → Prop} {op : Nat → S → S} {start size : Nat} {s : S}
    (hsize : 0 < size)
    (hop : ∀ line s, InLines start (start + size) line → P line s →
      P (line + 1) (op (line * CACHE_LINE) s))
    (h : P (start / CACHE_LINE) s) :
    ∃ line, start + size ≤ line * CACHE_LINE ∧ P line (dcacheRange op start size s) := by
  have hloop : ∀ addr s line, addr = line * CACHE_LINE → start / CACHE_LINE ≤ line → P line s →
      ∃ line', start + size ≤ line' * CACHE_LINE ∧
        P line' (dcacheLines op (start + size) addr s) := by
    intro addr s
    fun_induction dcacheLines op (start + size) addr s with
    | case1 addr s hlt ih =>
      rintro line rfl hline h
      refine ih (line + 1) (Nat.succ_mul line CACHE_LINE).symm (Nat.le_succ_of_le hline) ?_
      exact hop line s ⟨hline, hlt⟩ h
    | case2 addr s hend =>
      rintro line rfl - h
      exact ⟨line, Nat.le_of_not_lt hend, h⟩
  have hfirst : start - start % CACHE_LINE = start / CACHE_LINE * CACHE_LINE := by
    rw [Nat.mul_comm, Nat.eq_sub_of_add_eq (Nat.div_add_mod start CACHE_LINE)]
  unfold dcacheRange
  rw [if_neg (Nat.ne_of_gt hsize)]
  exact hloop _ s _ hfirst (Nat.le_refl _) h

end Cvirtos.Arch
