/-!
# First fit

The search for the first run of `want` consecutive free cells among `total`, in one pass that counts
the free cells in a row and remembers where the row began.

* `firstFit_some` — what is found is a run of free cells;
* `firstFit_none_iff` — **nothing is found exactly when there is no such run**.
-/

set_option autoImplicit false

namespace Cvirtos.Lib

/-- `want` free cells from `start` on. -/
def FreeRun (free : Nat → Bool) (start want : Nat) : Prop := ∀ i, i < want → free (start + i) = true

/-- The pass over the `remaining` cells from `cell` on. -/
def firstFit (free : Nat → Bool) (want : Nat) : (remaining cell consecutive start : Nat) → Option Nat
  | 0, _, _, _ => none
  | remaining + 1, cell, consecutive, start =>
    if free cell then
      let start := if consecutive = 0 then cell else start
      if consecutive + 1 ≥ want then some start
      else firstFit free want remaining (cell + 1) (consecutive + 1) start
    else firstFit free want remaining (cell + 1) 0 start

variable {free : Nat → Bool} {want : Nat}

/-- The row that ends before `cell`: it is free, it begins at `start`, it cannot be extended to the
left, and it is too short. -/
structure Row (free : Nat → Bool) (want cell consecutive start : Nat) : Prop where
  run : FreeRun free (cell - consecutive) consecutive
  le : consecutive ≤ cell
  start : consecutive ≠ 0 → start = cell - consecutive
  maximal : consecutive = cell ∨ free (cell - consecutive - 1) = false
  short : consecutive < want ∨ consecutive = 0

theorem Row.zero : Row free want 0 0 0 where
  run := fun i hi => absurd hi (Nat.not_lt_zero i)
  le := Nat.le_refl 0
  start := fun h => absurd rfl h
  maximal := .inl rfl
  short := .inr rfl

theorem Row.cut {cell start : Nat} (hfree : free cell = false) :
    Row free want (cell + 1) 0 start where
  run := fun i hi => absurd hi (Nat.not_lt_zero i)
  le := Nat.zero_le _
  start := fun h => absurd rfl h
  maximal := .inr hfree
  short := .inr rfl

theorem Row.snoc {cell consecutive start : Nat} (h : Row free want cell consecutive start)
    (hfree : free cell = true) : FreeRun free (cell - consecutive) (consecutive + 1) := by
  intro i hi
  rcases Nat.lt_or_eq_of_le (Nat.le_of_lt_succ hi) with hlt | rfl
  · exact h.run i hlt
  · rw [Nat.sub_add_cancel h.le]
    exact hfree

theorem Row.start_eq {cell consecutive start : Nat} (h : Row free want cell consecutive start) :
    (if consecutive = 0 then cell else start) = cell - consecutive := by
  split
  · rename_i h0
    rw [h0]
    rfl
  · rename_i h0
    exact h.start h0

theorem Row.grow {cell consecutive start : Nat} (h : Row free want cell consecutive start)
    (hfree : free cell = true) (hshort : ¬ consecutive + 1 ≥ want) :
    Row free want (cell + 1) (consecutive + 1) (if consecutive = 0 then cell else start) where
  run := by
    rw [Nat.add_sub_add_right]
    exact h.snoc hfree
  le := Nat.succ_le_succ h.le
  start := fun _ => by rw [h.start_eq, Nat.add_sub_add_right]
  maximal := by
    rw [Nat.add_sub_add_right]
    exact h.maximal.imp_left (congrArg (· + 1))
  short := .inl (Nat.lt_of_not_le hshort)

/-- A run of free cells that ends where the row does is no longer than the row. -/
theorem Row.bound {cell consecutive start : Nat} (h : Row free want cell consecutive start)
    {s : Nat} (hs : s + want = cell) (hrun : FreeRun free s want) : want ≤ consecutive := by
  rcases h.maximal with hall | hleft
  · omega
  · by_cases hle : want ≤ consecutive
    · exact hle
    · have hpos := hrun (cell - consecutive - 1 - s) (by omega)
      rw [show s + (cell - consecutive - 1 - s) = cell - consecutive - 1 by omega, hleft] at hpos
      cases hpos

theorem firstFit_some {remaining cell consecutive start found : Nat}
    (h : Row free want cell consecutive start)
    (hfound : firstFit free want remaining cell consecutive start = some found) :
    FreeRun free found want ∧ found < cell + remaining ∧ found + want ≤ cell + remaining := by
  induction remaining generalizing cell consecutive start with
  | zero => cases hfound
  | succ remaining ih =>
      unfold firstFit at hfound
      split at hfound
      · rename_i hfree
        dsimp only at hfound
        split at hfound
        · rename_i hlong
          cases hfound
          rw [h.start_eq]
          have hle := h.le
          have hshort := h.short
          refine ⟨fun i hi => h.snoc hfree i (by omega), by omega, by omega⟩
        · rename_i hshort
          have := ih (h.grow hfree hshort) hfound
          rw [Nat.add_assoc, Nat.add_comm 1] at this
          exact this
      · rename_i hused
        have := ih (Row.cut (by simpa using hused)) hfound
        rw [Nat.add_assoc, Nat.add_comm 1] at this
        exact this

theorem firstFit_none {remaining cell consecutive start : Nat} (hwant : 0 < want)
    (h : Row free want cell consecutive start)
    (hbefore : ∀ s, s + want ≤ cell → ¬ FreeRun free s want)
    (hnone : firstFit free want remaining cell consecutive start = none) :
    ∀ s, s + want ≤ cell + remaining → ¬ FreeRun free s want := by
  induction remaining generalizing cell consecutive start with
  | zero => exact hbefore
  | succ remaining ih =>
      -- the run that ends with this cell, if any
      have hnext (hcell : ∀ s, s + want = cell + 1 → ¬ FreeRun free s want) :
          ∀ s, s + want ≤ cell + 1 → ¬ FreeRun free s want := by
        intro s hs
        rcases Nat.lt_or_eq_of_le hs with hlt | heq
        · exact hbefore s (Nat.le_of_lt_succ hlt)
        · exact hcell s heq
      unfold firstFit at hnone
      rw [show cell + (remaining + 1) = cell + 1 + remaining by omega]
      split at hnone
      · rename_i hfree
        dsimp only at hnone
        split at hnone
        · cases hnone
        · rename_i hshort
          have hrow := h.grow hfree hshort
          refine ih hrow (hnext fun s hs hrun => ?_) hnone
          exact hshort (hrow.bound hs hrun)
      · rename_i hused
        have hrow : Row free want (cell + 1) 0 start :=
          Row.cut (by simpa using hused)
        refine ih hrow (hnext fun s hs hrun => ?_) hnone
        exact Nat.not_lt.mpr (hrow.bound hs hrun) hwant

/-- **The search is complete.** -/
theorem firstFit_none_iff (hwant : 0 < want) (total : Nat) :
    firstFit free want total 0 0 0 = none ↔
      ¬ ∃ start, start + want ≤ total ∧ FreeRun free start want := by
  constructor
  · rintro hnone ⟨s, hs, hrun⟩
    refine firstFit_none hwant Row.zero (fun s hs => ?_) hnone s (by omega) hrun
    omega
  · intro hno
    cases hfit : firstFit free want total 0 0 0 with
    | none => rfl
    | some found =>
      obtain ⟨hrun, -, hle⟩ := firstFit_some Row.zero hfit
      exact absurd ⟨found, by omega, hrun⟩ hno

end Cvirtos.Lib
