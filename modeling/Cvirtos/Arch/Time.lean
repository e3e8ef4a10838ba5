import Cvirtos.Lib.Poll
import Mathlib.Data.Nat.Find

/-!
# Time

`arch/time.rs`: delays and timeouts over `rdtime`, a counter of 64 bits at 25 MHz that wraps.  A
`Duration` is a number of nanoseconds here, and `rdtime` the list of its readings.

* `elapsedSince_ge_iff` — a timeout, in ticks;
* `delay_eq_some_iff` — **a delay ends at the first reading that is late enough**, across a wrap;
* `delay_returns`, `waitWhile_returns` — a delay and a wait with a timeout end.
-/

set_option autoImplicit false

namespace Cvirtos.Arch

open Cvirtos.Lib

def TIMEBASE_HZ : Nat := 25000000

/-- `duration_to_ticks`. -/
def durationToTicks (nanos : Nat) : BitVec 64 := .ofNat 64 (nanos * TIMEBASE_HZ / 1000000000)

/-- `elapsed_since`, with the reading it makes. -/
def elapsedSince (t0 now : BitVec 64) : Nat :=
  let ticks := now - t0
  let nanos := ticks.toNat * 1000000000 / TIMEBASE_HZ
  if nanos < 2 ^ 64 then nanos else 2 ^ 64 - 1

/-- `delay`: the number of the reading that ends it. -/
def delay (rdtime : Nat → BitVec 64) (nanos fuel : Nat) : Option Nat :=
  let target := rdtime 0 + durationToTicks nanos
  (poll (fun k => if (rdtime k - target).msb then none else some ()) fuel 1).map Prod.snd

/-- A loop that waits while a flag is set, for a bounded time: a turn reads the clock, and the flag if
it is not over.  The number of the last turn. -/
def waitWhile (flag : Nat → Bool) (rdtime : Nat → BitVec 64) (nanos fuel : Nat) : Option Nat :=
  (poll (fun turn =>
    if elapsedSince (rdtime 0) (rdtime (turn + 1)) < nanos ∧ flag turn = true then none else some ())
    fuel 0).map Prod.snd

/-- A timeout that a `Duration` of 64 bits can hold, in ticks. -/
theorem elapsedSince_ge_iff {t0 now : BitVec 64} {nanos : Nat} (hnanos : nanos < 2 ^ 64) :
    nanos ≤ elapsedSince t0 now ↔ nanos ≤ (now - t0).toNat * 40 := by
  have hticks : (now - t0).toNat * 1000000000 / TIMEBASE_HZ = (now - t0).toNat * 40 := by
    unfold TIMEBASE_HZ
    omega
  unfold elapsedSince
  dsimp only
  rw [hticks]
  split <;> omega

section

variable (c : Counter) {nanos fuel k : Nat}

/-- Whether a reading is late enough, if all before it were early. -/
theorem delay_answer (hnanos : nanos / 40 < 2 ^ 63)
    (hgap : ∀ k, c.count (k + 1) < c.count k + 2 ^ 63)
    (hearly : ∀ i, 1 ≤ i → i < k → c.count i < c.count 0 + nanos / 40) (hk : 1 ≤ k) :
    (c.reading 64 k - (c.reading 64 0 + durationToTicks nanos)).msb = false ↔
      c.count 0 + nanos / 40 ≤ c.count k := by
  have htarget : durationToTicks nanos = BitVec.ofNat 64 (nanos / 40) := by
    unfold durationToTicks TIMEBASE_HZ
    congr 1
    omega
  obtain ⟨j, rfl⟩ : ∃ j, k = j + 1 := ⟨k - 1, by omega⟩
  have hj : c.count j ≤ c.count 0 + nanos / 40 := by
    rcases Nat.eq_zero_or_pos j with rfl | hj
    · exact Nat.le_add_right _ _
    · exact Nat.le_of_lt (hearly j hj (Nat.lt_succ_self j))
  have hnext := hgap j
  rw [htarget]
  exact c.since_signed (Nat.zero_le _) (by decide) hnanos (by omega)

/-- **A delay ends at the first reading that is late enough**, if the counter is read at least every
2⁶³ ticks: the wrap of the counter does not show. -/
theorem delay_eq_some_iff (hnanos : nanos / 40 < 2 ^ 63)
    (hgap : ∀ k, c.count (k + 1) < c.count k + 2 ^ 63) :
    delay (c.reading 64) nanos fuel = some k ↔
      1 ≤ k ∧ k ≤ fuel ∧ c.count 0 + nanos / 40 ≤ c.count k ∧
        ∀ j, 1 ≤ j → j < k → c.count j < c.count 0 + nanos / 40 := by
  -- a reading is looked at only if the ones before it were early
  have hanswer : ∀ j, (∀ i, 1 ≤ i → i < j → c.count i < c.count 0 + nanos / 40) → 1 ≤ j →
      ((c.reading 64 j - (c.reading 64 0 + durationToTicks nanos)).msb = false ↔
        c.count 0 + nanos / 40 ≤ c.count j) := fun _ => delay_answer c hnanos hgap
  unfold delay
  rw [Option.map_eq_some_iff]
  constructor
  · rintro ⟨⟨_, i⟩, hpoll, hi⟩
    obtain rfl : i = k := hi
    obtain ⟨h1, h2, hk, hbefore⟩ := poll_eq_some_iff.mp hpoll
    have hearly : ∀ j, 1 ≤ j → j < i → c.count j < c.count 0 + nanos / 40 := by
      intro j
      induction j using Nat.strong_induction_on with
      | _ j ih =>
        intro hj hjk
        have hnone := hbefore j hj hjk
        have hiff := hanswer j (fun i hi hij => ih i hij hi (by omega)) hj
        by_contra hlate
        rw [hiff.mpr (Nat.le_of_not_lt hlate)] at hnone
        cases hnone
    refine ⟨h1, by omega, (hanswer i hearly h1).mp ?_, hearly⟩
    by_contra hmsb
    rw [Bool.not_eq_false] at hmsb
    rw [hmsb] at hk
    cases hk
  · rintro ⟨h1, h2, hk, hearly⟩
    refine ⟨((), k), poll_eq_some_iff.mpr ⟨h1, by omega, ?_, fun j hj hjk => ?_⟩, rfl⟩
    · rw [(hanswer k hearly h1).mpr hk]
      rfl
    · have hiff := hanswer j (fun i hi hij => hearly i hi (by omega)) hj
      have hmsb : (c.reading 64 j - (c.reading 64 0 + durationToTicks nanos)).msb = true :=
        (Bool.not_eq_false _).mp fun h => Nat.not_lt_of_le (hiff.mp h) (hearly j hj hjk)
      rw [hmsb]
      rfl

/-- **A delay ends** no later than a reading that is late enough. -/
theorem delay_returns (hnanos : nanos / 40 < 2 ^ 63)
    (hgap : ∀ k, c.count (k + 1) < c.count k + 2 ^ 63) (h1 : 1 ≤ k) (hfuel : k ≤ fuel)
    (hlate : c.count 0 + nanos / 40 ≤ c.count k) :
    ∃ j ≤ k, delay (c.reading 64) nanos fuel = some j := by
  have hsome : ∃ j, 1 ≤ j ∧ c.count 0 + nanos / 40 ≤ c.count j := ⟨k, h1, hlate⟩
  have hle : Nat.find hsome ≤ k := Nat.find_min' hsome ⟨h1, hlate⟩
  obtain ⟨hpos, hfirst⟩ := Nat.find_spec hsome
  have hearly : ∀ i, 1 ≤ i → i < Nat.find hsome → c.count i < c.count 0 + nanos / 40 := by
    intro i hi hbefore
    by_contra hnot
    exact Nat.find_min hsome hbefore ⟨hi, Nat.le_of_not_lt hnot⟩
  let answer : Nat → Option Unit := fun k =>
    if (c.reading 64 k - (c.reading 64 0 + durationToTicks nanos)).msb then none else some ()
  have hanswer : answer (Nat.find hsome) ≠ none := by
    have hmsb := (delay_answer c hnanos hgap hearly hpos).mpr hfirst
    rw [show answer (Nat.find hsome) = some () from if_neg (Bool.eq_false_iff.mp hmsb)]
    exact Option.some_ne_none ()
  obtain ⟨⟨⟩, j, hpoll, hj⟩ :=
    poll_returns hpos (by omega : Nat.find hsome < 1 + fuel) hanswer
  exact ⟨j, Nat.le_trans hj hle, congrArg (Option.map Prod.snd) hpoll⟩

/-- **A wait ends** no later than a turn that sees its time gone by, whatever the flag shows. -/
theorem waitWhile_returns (flag : Nat → Bool) (hnanos : nanos < 2 ^ 64) {turn : Nat}
    (hturn : turn < fuel) (hlate : c.count 0 + (nanos + 39) / 40 ≤ c.count (turn + 1))
    (hlap : c.count (turn + 1) < c.count 0 + 2 ^ 64) :
    ∃ k ≤ turn, waitWhile flag (c.reading 64) nanos fuel = some k := by
  have hsince := c.since_eq (Nat.zero_le (turn + 1)) (w := 64) (by omega)
  have hover : nanos ≤ elapsedSince (c.reading 64 0) (c.reading 64 (turn + 1)) := by
    rw [elapsedSince_ge_iff hnanos, hsince]
    omega
  let answer : Nat → Option Unit := fun turn =>
    if elapsedSince (c.reading 64 0) (c.reading 64 (turn + 1)) < nanos ∧ flag turn = true then none
    else some ()
  have hanswer : answer turn ≠ none := by
    rw [show answer turn = some () from if_neg fun h => Nat.not_lt_of_le hover h.1]
    exact Option.some_ne_none ()
  obtain ⟨⟨⟩, k, hpoll, hk⟩ := poll_returns (Nat.zero_le turn) (by omega : turn < 0 + fuel) hanswer
  exact ⟨k, hk, congrArg (Option.map Prod.snd) hpoll⟩

end

/-- A count of 10 at every reading, from shortly before the wrap on. -/
def wrapping : Counter := ⟨fun k => 2 ^ 64 - 15 + 10 * k, fun k => by omega⟩

theorem delay_wrapping : delay (wrapping.reading 64) 1000 10 = some 3 :=
  (delay_eq_some_iff wrapping (by decide) fun k => by
    simp only [wrapping]
    omega).mpr ⟨by decide, by decide, by decide, by decide⟩

end Cvirtos.Arch
