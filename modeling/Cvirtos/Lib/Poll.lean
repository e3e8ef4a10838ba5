import Mathlib.Algebra.Order.Ring.Nat

/-!
# Polling

A loop that looks once a turn and ends at the first turn that answers.

* `poll_eq_some_iff` — **what it answers, and at which turn**;
* `poll_returns` — it ends no later than a turn that answers;
* `Counter` — a free-running counter as it is read once a turn, through `w` bits;
* `Counter.since_eq`, `Counter.since_signed` — the difference of two readings, unsigned and signed.
-/

set_option autoImplicit false

namespace Cvirtos.Lib

variable {α : Type}

/-- The loop from `turn` on: the answer and its turn, unless it runs out of `fuel`. -/
def poll (answer : Nat → Option α) : (fuel turn : Nat) → Option (α × Nat)
  | 0, _ => none
  | fuel + 1, turn =>
    match answer turn with
    | some a => some (a, turn)
    | none => poll answer fuel (turn + 1)

/-- **The first turn that answers.** -/
theorem poll_eq_some_iff {answer : Nat → Option α} {fuel turn k : Nat} {a : α} :
    poll answer fuel turn = some (a, k) ↔
      turn ≤ k ∧ k < turn + fuel ∧ answer k = some a ∧ ∀ j, turn ≤ j → j < k → answer j = none := by
  induction fuel generalizing turn with
  | zero =>
      constructor
      · exact fun h => absurd h (by simp [poll])
      · rintro ⟨h1, h2, -⟩
        omega
  | succ fuel ih =>
      rw [poll]
      cases hturn : answer turn with
      | some b =>
        constructor
        · intro h
          cases h
          exact ⟨Nat.le_refl _, by omega, hturn, fun j h1 h2 => absurd h2 (Nat.not_lt_of_le h1)⟩
        · rintro ⟨h1, -, hk, hbefore⟩
          obtain rfl : turn = k := by
            by_contra hne
            rw [hbefore turn (Nat.le_refl _) (by omega)] at hturn
            cases hturn
          rw [hturn] at hk
          cases hk
          rfl
      | none =>
        refine ih.trans ⟨?_, ?_⟩
        · rintro ⟨h1, h2, hk, hbefore⟩
          refine ⟨by omega, by omega, hk, fun j h3 h4 => ?_⟩
          rcases Nat.eq_or_lt_of_le h3 with rfl | h3
          · exact hturn
          · exact hbefore j h3 h4
        · rintro ⟨h1, h2, hk, hbefore⟩
          have hne : turn ≠ k := by
            rintro rfl
            rw [hturn] at hk
            cases hk
          exact ⟨by omega, by omega, hk, fun j h3 => hbefore j (by omega)⟩

/-- **It ends** no later than a turn that answers. -/
theorem poll_returns {answer : Nat → Option α} {fuel turn k : Nat} (h1 : turn ≤ k)
    (h2 : k < turn + fuel) (hk : answer k ≠ none) :
    ∃ a j, poll answer fuel turn = some (a, j) ∧ j ≤ k := by
  induction fuel generalizing turn with
  | zero => omega
  | succ fuel ih =>
      rw [poll]
      cases hturn : answer turn with
      | some a => exact ⟨a, turn, rfl, h1⟩
      | none =>
        have hne : turn ≠ k := by
          rintro rfl
          exact hk hturn
        exact ih (by omega) (by omega)

/-! ## Counters -/

/-- A counter that never goes back, by its count at every reading. -/
structure Counter where
  count : Nat → Nat
  mono : ∀ k, count k ≤ count (k + 1)

namespace Counter

variable (c : Counter) {w : Nat}

/-- Reading `k`, through a register of `w` bits. -/
def reading (w k : Nat) : BitVec w := BitVec.ofNat w (c.count k)

theorem count_le {j k : Nat} (h : j ≤ k) : c.count j ≤ c.count k := by
  induction h with
  | refl => exact Nat.le_refl _
  | step _ ih => exact Nat.le_trans ih (c.mono _)

theorem reading_add {j k d : Nat} (h : c.count k = c.count j + d) :
    c.reading w k = c.reading w j + BitVec.ofNat w d := by
  unfold reading
  rw [h, BitVec.ofNat_add]

/-- The wrapping difference of two readings is the time between them, if a lap has not passed. -/
theorem since_eq {j k : Nat} (h : j ≤ k) (hlap : c.count k - c.count j < 2 ^ w) :
    (c.reading w k - c.reading w j).toNat = c.count k - c.count j := by
  have hk : c.count k = c.count j + (c.count k - c.count j) :=
    (Nat.add_sub_cancel' (c.count_le h)).symm
  rw [c.reading_add hk, BitVec.add_comm, BitVec.add_sub_cancel, BitVec.toNat_ofNat,
    Nat.mod_eq_of_lt hlap]

/-- **Whether a moment has passed**, read off the sign of a wrapping difference: it is `t` counts
after reading `j`, and reading `k` is less than half a lap past it. -/
theorem since_signed {j k t : Nat} (h : j ≤ k) (hw : 0 < w) (ht : t < 2 ^ (w - 1))
    (hhalf : c.count k < c.count j + t + 2 ^ (w - 1)) :
    (c.reading w k - (c.reading w j + BitVec.ofNat w t)).msb = false ↔
      c.count j + t ≤ c.count k := by
  have hle := c.count_le h
  obtain ⟨v, rfl⟩ : ∃ v, w = v + 1 := ⟨w - 1, by omega⟩
  rw [Nat.add_sub_cancel] at ht hhalf
  have hpow : 2 ^ (v + 1) = 2 * 2 ^ v := by rw [Nat.pow_succ, Nat.mul_comm]
  have hk : c.reading (v + 1) k =
      c.reading (v + 1) j + BitVec.ofNat (v + 1) (c.count k - c.count j) :=
    c.reading_add (Nat.add_sub_cancel' hle).symm
  rw [hk, BitVec.msb_eq_false_iff_two_mul_lt, ← BitVec.sub_sub, BitVec.add_comm (c.reading (v + 1) j),
    BitVec.add_sub_cancel]
  by_cases hpassed : c.count j + t ≤ c.count k
  · have hsub : BitVec.ofNat (v + 1) (c.count k - c.count j) - BitVec.ofNat (v + 1) t =
        BitVec.ofNat (v + 1) (c.count k - c.count j - t) := by
      have hsum : c.count k - c.count j = (c.count k - c.count j - t) + t := by omega
      rw [hsum, BitVec.ofNat_add, BitVec.add_sub_cancel, Nat.add_sub_cancel]
    rw [hsub, BitVec.toNat_ofNat, Nat.mod_eq_of_lt (by omega)]
    omega
  · have hsub : BitVec.ofNat (v + 1) (c.count k - c.count j) - BitVec.ofNat (v + 1) t =
        -BitVec.ofNat (v + 1) (t - (c.count k - c.count j)) := by
      have hsum : t = (c.count k - c.count j) + (t - (c.count k - c.count j)) := by omega
      rw [hsum, BitVec.ofNat_add, Nat.add_sub_cancel_left, ← BitVec.sub_sub, BitVec.sub_self,
        BitVec.zero_sub]
    rw [hsub, BitVec.toNat_neg, BitVec.toNat_ofNat]
    have hsmall : t - (c.count k - c.count j) < 2 ^ (v + 1) := by omega
    rw [Nat.mod_eq_of_lt hsmall, Nat.mod_eq_of_lt (by omega)]
    omega

end Counter

end Cvirtos.Lib
