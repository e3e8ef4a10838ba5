import Mathlib.Algebra.BigOperators.Intervals
import Mathlib.Algebra.Order.BigOperators.Group.Finset
import Mathlib.Data.Set.Function

/-!
# Canonical prefix codes

Words are numbers of a given length, read with the highest bit first.

* `decodeAll_words` — a decoder that stops at the first word reads back a concatenation of words,
  if no proper prefix of one of them is a word;
* `canonicalStart_gap`, `canonicalStart_mul` — the words of a canonical code follow each other, and
  how far they reach;
* `canonical_prefixFree` — **no word is a prefix of another**;
* `wordIndex_bijOn` — **the words are numbered without a gap**.
-/

set_option autoImplicit false

namespace Cvirtos.Lib

/-! ### Bit strings -/

/-- The low `n` bits of `c`, the highest first. -/
def bitsOf : (n c : Nat) → List Bool
  | 0, _ => []
  | n + 1, c => decide (c / 2 ^ n % 2 = 1) :: bitsOf n c

@[simp] theorem bitsOf_length (n c : Nat) : (bitsOf n c).length = n := by
  induction n with
  | zero => rfl
  | succ n ih => simp [bitsOf, ih]

/-- The number that bits spell behind `acc`. -/
def spell (acc : Nat) (bits : List Bool) : Nat := bits.foldl (fun acc b => 2 * acc + b.toNat) acc

/-- One more bit of `c`. -/
theorem div_succ (c n : Nat) :
    2 * (c / 2 ^ (n + 1)) + (decide (c / 2 ^ n % 2 = 1)).toNat = c / 2 ^ n := by
  rw [Nat.pow_succ, ← Nat.div_div_eq_div_mul]
  rcases Nat.mod_two_eq_zero_or_one (c / 2 ^ n) with h | h <;> simp [h] <;> omega

theorem spell_bitsOf (n c : Nat) : spell (c / 2 ^ n) (bitsOf n c) = c := by
  induction n with
  | zero => simp [bitsOf, spell]
  | succ n ih =>
    rw [bitsOf, spell, List.foldl_cons, div_succ]
    exact ih

theorem bitsOf_inj {n c d : Nat} (hc : c < 2 ^ n) (hd : d < 2 ^ n) (h : bitsOf n c = bitsOf n d) :
    c = d := by
  have hspell := spell_bitsOf n c
  rw [Nat.div_eq_of_lt hc, h] at hspell
  rw [← hspell, ← Nat.div_eq_of_lt hd]
  exact spell_bitsOf n d

theorem bitsOf_take {m n : Nat} (h : m ≤ n) (c : Nat) :
    (bitsOf n c).take m = bitsOf m (c / 2 ^ (n - m)) := by
  induction m generalizing n with
  | zero => rfl
  | succ m ih =>
    obtain ⟨n, rfl⟩ := Nat.exists_eq_succ_of_ne_zero (show n ≠ 0 by omega)
    have hsub : n + 1 - (m + 1) = n - m := by omega
    rw [bitsOf, List.take_succ_cons, ih (by omega), bitsOf, hsub, Nat.div_div_eq_div_mul,
      ← Nat.pow_add, show n - m + m = n by omega]

/-- A number whose bits begin another's is what is left of it without the rest. -/
theorem eq_div_of_begins {m n c d : Nat} (hmn : m ≤ n) (hc : c < 2 ^ m) (hd : d < 2 ^ n)
    (h : bitsOf m c <+: bitsOf n d) : c = d / 2 ^ (n - m) := by
  have htake := List.prefix_iff_eq_take.mp h
  rw [bitsOf_length, bitsOf_take hmn] at htake
  refine bitsOf_inj hc ?_ htake
  rw [Nat.div_lt_iff_lt_mul (Nat.two_pow_pos _), ← Nat.pow_add, show m + (n - m) = n by omega]
  exact hd

/-! ### Decoding -/

section Decoding

variable {α : Type} (isWord : Nat → Nat → Bool) (value : Nat → Nat → α) (longest : Nat)

/-- Reads on until the bits spell a word; `n` are read and spell `c`. -/
def decodeWord : (n c : Nat) → List Bool → Option (α × List Bool)
  | _, _, [] => none
  | n, c, b :: rest =>
    let c := 2 * c + b.toNat
    if isWord (n + 1) c then some (value (n + 1) c, rest)
    else if n + 1 < longest then decodeWord (n + 1) c rest
    else none

/-- Reads words until there are no more bits. -/
def decodeAll : (fuel : Nat) → List Bool → Option (List α)
  | _, [] => some []
  | 0, _ :: _ => none
  | fuel + 1, b :: bits => do
    let (a, rest) ← decodeWord isWord value longest 0 0 (b :: bits)
    let as ← decodeAll fuel rest
    return a :: as

/-- A word of length `n` that the decoder does not take for a shorter one. -/
structure DecodableWord (n c : Nat) : Prop where
  pos : 0 < n
  le : n ≤ longest
  lt : c < 2 ^ n
  word : isWord n c
  first : ∀ m, 0 < m → m < n → ¬ isWord m (c / 2 ^ (n - m))

variable {isWord longest}

/-- The decoder on the last `m + 1` bits of a word. -/
theorem decodeWord_from {n c : Nat} (h : DecodableWord isWord longest n c) (rest : List Bool)
    {m : Nat} (hm : m < n) :
    decodeWord isWord value longest (n - (m + 1)) (c / 2 ^ (m + 1)) (bitsOf (m + 1) c ++ rest) =
      some (value n c, rest) := by
  induction m with
  | zero =>
    have hn : n - (0 + 1) + 1 = n := by omega
    have hc : 2 * (c / 2 ^ (0 + 1)) + (decide (c / 2 ^ 0 % 2 = 1)).toNat = c := by
      rw [div_succ, Nat.pow_zero, Nat.div_one]
    rw [bitsOf, List.cons_append, decodeWord, hn, hc]
    exact if_pos h.word
  | succ m ih =>
    have hn : n - (m + 1 + 1) + 1 = n - (m + 1) := by omega
    have hshort := h.first (n - (m + 1)) (by omega) (by omega)
    have hle := h.le
    rw [show n - (n - (m + 1)) = m + 1 by omega] at hshort
    rw [bitsOf, List.cons_append, decodeWord, hn, div_succ]
    rw [if_neg hshort, if_pos (by omega)]
    exact ih (by omega)

theorem decodeWord_bitsOf {n c : Nat} (h : DecodableWord isWord longest n c) (rest : List Bool) :
    decodeWord isWord value longest 0 0 (bitsOf n c ++ rest) = some (value n c, rest) := by
  obtain ⟨m, rfl⟩ := Nat.exists_eq_succ_of_ne_zero (Nat.ne_of_gt h.pos)
  have hfrom := decodeWord_from value h rest (Nat.lt_succ_self m)
  rw [Nat.sub_self, Nat.div_eq_of_lt h.lt] at hfrom
  exact hfrom

/-- **A concatenation of words is read back.** -/
theorem decodeAll_words {words : List (Nat × Nat)}
    (h : ∀ w ∈ words, DecodableWord isWord longest w.1 w.2) {fuel : Nat}
    (hfuel : words.length ≤ fuel) :
    decodeAll isWord value longest fuel (words.flatMap fun w => bitsOf w.1 w.2) =
      some (words.map fun w => value w.1 w.2) := by
  induction words generalizing fuel with
  | nil =>
    cases fuel <;> rfl
  | cons w words ih =>
    obtain ⟨n, c⟩ := w
    obtain ⟨fuel, rfl⟩ := Nat.exists_eq_succ_of_ne_zero
      (Nat.ne_of_gt (Nat.lt_of_lt_of_le (Nat.succ_pos _) hfuel))
    have hw : DecodableWord isWord longest n c := h (n, c) List.mem_cons_self
    have hrest := ih (fun w hw => h w (List.mem_cons_of_mem _ hw)) (Nat.le_of_succ_le_succ hfuel)
    have hread := decodeWord_bitsOf value hw (words.flatMap fun w => bitsOf w.1 w.2)
    obtain ⟨b, bits, hbits⟩ := List.exists_cons_of_ne_nil
      (l := bitsOf n c ++ words.flatMap fun w => bitsOf w.1 w.2) (by
        have hpos := hw.pos
        intro hnil
        have hlen := congrArg List.length hnil
        rw [List.length_append, bitsOf_length, List.length_nil] at hlen
        omega)
    rw [List.flatMap_cons, hbits, decodeAll, ← hbits, hread]
    simp [hrest]

/-- A concatenation of words has a bit for each of them. -/
theorem words_length_le {words : List (Nat × Nat)} (h : ∀ w ∈ words, 0 < w.1) :
    words.length ≤ (words.flatMap fun w => bitsOf w.1 w.2).length := by
  induction words with
  | nil => exact Nat.le_refl 0
  | cons w words ih =>
    have hw := h w List.mem_cons_self
    have hrest := ih fun w hw => h w (List.mem_cons_of_mem _ hw)
    rw [List.flatMap_cons, List.length_append, bitsOf_length, List.length_cons]
    omega

end Decoding

/-! ### Canonical codes -/

section Canonical

variable (count : Nat → Nat)

/-- The first of the `count k` words of length `k + 1`: the words of a length are consecutive, and
those of the next length begin behind them, one bit longer. -/
def canonicalStart : Nat → Nat
  | 0 => 0
  | k + 1 => 2 * (canonicalStart k + count k)

def CanonicalWord (k c : Nat) : Prop :=
  canonicalStart count k ≤ c ∧ c < canonicalStart count k + count k

/-- The number of a word, the shorter ones first. -/
def wordIndex (k c : Nat) : Nat :=
  (∑ i ∈ Finset.range k, count i) + (c - canonicalStart count k)

variable {count}

/-- The words of a length lie behind the shorter ones. -/
theorem canonicalStart_gap {i j : Nat} (h : i < j) :
    (canonicalStart count i + count i) * 2 ^ (j - i) ≤ canonicalStart count j := by
  induction j with
  | zero => omega
  | succ j ih =>
    rcases Nat.lt_succ_iff_lt_or_eq.mp h with hlt | rfl
    · calc (canonicalStart count i + count i) * 2 ^ (j + 1 - i)
          = 2 * ((canonicalStart count i + count i) * 2 ^ (j - i)) := by
            rw [show j + 1 - i = j - i + 1 by omega, Nat.pow_succ]
            ac_rfl
        _ ≤ 2 * (canonicalStart count j + count j) := Nat.mul_le_mul_left 2
            (Nat.le_trans (ih hlt) (Nat.le_add_right _ _))
    · rw [show i + 1 - i = 1 by omega, Nat.pow_one, Nat.mul_comm]
      exact Nat.le_refl _

/-- How far the words reach, in units of the last length. -/
theorem canonicalStart_mul {k last : Nat} (h : k ≤ last) :
    (canonicalStart count k + count k) * 2 ^ (last - k) =
      ∑ i ∈ Finset.range (k + 1), count i * 2 ^ (last - i) := by
  induction k with
  | zero => simp [canonicalStart]
  | succ k ih =>
    rw [Finset.sum_range_succ, ← ih (by omega), canonicalStart,
      show last - k = last - (k + 1) + 1 by omega, Nat.pow_succ]
    rw [Nat.add_mul]
    congr 1
    ac_rfl

/-- **The words of a length fit in it** if the sum of all words is below the bound. -/
theorem canonicalStart_lt {k last bound : Nat} (h : k ≤ last)
    (hkraft : ∑ i ∈ Finset.range (last + 1), count i * 2 ^ (last - i) < bound * 2 ^ last) :
    canonicalStart count k + count k < bound * 2 ^ k := by
  have hmono : ∑ i ∈ Finset.range (k + 1), count i * 2 ^ (last - i) ≤
      ∑ i ∈ Finset.range (last + 1), count i * 2 ^ (last - i) :=
    Finset.sum_le_sum_of_subset (Finset.range_mono (by omega))
  rw [← canonicalStart_mul h] at hmono
  refine Nat.lt_of_mul_lt_mul_right (a := 2 ^ (last - k)) ?_
  rw [Nat.mul_assoc, ← Nat.pow_add, show k + (last - k) = last by omega]
  exact Nat.lt_of_le_of_lt hmono hkraft

/-- What is left of a word when it is cut to a shorter length lies behind the words of that
length. -/
theorem canonical_cut {i j d : Nat} (hij : i < j) (hd : CanonicalWord count j d) :
    canonicalStart count i + count i ≤ d / 2 ^ (j - i) := by
  rw [Nat.le_div_iff_mul_le (Nat.two_pow_pos _)]
  exact Nat.le_trans (canonicalStart_gap hij) hd.1

/-- **No word is a prefix of another.** -/
theorem canonical_prefixFree {i j c d : Nat} (hc : CanonicalWord count i c)
    (hd : CanonicalWord count j d) (hcLt : c < 2 ^ (i + 1)) (hdLt : d < 2 ^ (j + 1))
    (hbegins : bitsOf (i + 1) c <+: bitsOf (j + 1) d) : i = j ∧ c = d := by
  have hlen := hbegins.length_le
  rw [bitsOf_length, bitsOf_length] at hlen
  have heq := eq_div_of_begins hlen hcLt hdLt hbegins
  rcases Nat.lt_or_eq_of_le (Nat.le_of_succ_le_succ hlen) with hlt | rfl
  · have hcut := canonical_cut hlt hd
    rw [show j + 1 - (i + 1) = j - i by omega] at heq
    exact absurd hc.2 (by omega)
  · rw [Nat.sub_self, Nat.pow_zero, Nat.div_one] at heq
    exact ⟨rfl, heq⟩

/-- The numbers of the words of a length. -/
theorem wordIndex_mem {k c : Nat} (h : CanonicalWord count k c) :
    ∑ i ∈ Finset.range k, count i ≤ wordIndex count k c ∧
      wordIndex count k c < ∑ i ∈ Finset.range (k + 1), count i := by
  have hle := h.1
  have hlt := h.2
  rw [Finset.sum_range_succ]
  unfold wordIndex
  omega

theorem sum_range_mono {i j : Nat} (h : i ≤ j) :
    ∑ k ∈ Finset.range i, count k ≤ ∑ k ∈ Finset.range j, count k :=
  Finset.sum_le_sum_of_subset (Finset.range_mono h)

theorem wordIndex_lt {i j c d : Nat} (hij : i < j) (hc : CanonicalWord count i c)
    (hd : CanonicalWord count j d) : wordIndex count i c < wordIndex count j d :=
  calc wordIndex count i c < ∑ k ∈ Finset.range (i + 1), count k := (wordIndex_mem hc).2
    _ ≤ ∑ k ∈ Finset.range j, count k := sum_range_mono hij
    _ ≤ wordIndex count j d := (wordIndex_mem hd).1

/-- **The words of the first `n` lengths are numbered without a gap.** -/
theorem wordIndex_bijOn (n : Nat) :
    Set.BijOn (fun w : Nat × Nat => wordIndex count w.1 w.2)
      {w | w.1 < n ∧ CanonicalWord count w.1 w.2}
      (Set.Iio (∑ k ∈ Finset.range n, count k)) := by
  refine ⟨?_, ?_, ?_⟩
  · rintro ⟨k, c⟩ ⟨hk, hw⟩
    exact Nat.lt_of_lt_of_le (wordIndex_mem hw).2 (sum_range_mono hk)
  · rintro ⟨i, c⟩ ⟨-, hc⟩ ⟨j, d⟩ ⟨-, hd⟩ heq
    dsimp only at hc hd heq
    rcases Nat.lt_trichotomy i j with hlt | rfl | hlt
    · exact absurd heq (Nat.ne_of_lt (wordIndex_lt hlt hc hd))
    · have hle := hc.1
      have hle' := hd.1
      unfold wordIndex at heq
      rw [show c = d by omega]
    · exact absurd heq (Nat.ne_of_gt (wordIndex_lt hlt hd hc))
  · intro m hm
    induction n with
    | zero => exact absurd hm (by simp)
    | succ n ih =>
      by_cases hlt : m < ∑ k ∈ Finset.range n, count k
      · obtain ⟨w, ⟨hw, hword⟩, heq⟩ := ih hlt
        exact ⟨w, ⟨Nat.lt_succ_of_lt hw, hword⟩, heq⟩
      · rw [Set.mem_Iio, Finset.sum_range_succ] at hm
        refine ⟨(n, canonicalStart count n + (m - ∑ k ∈ Finset.range n, count k)),
          ⟨Nat.lt_succ_self n, Nat.le_add_right _ _, ?_⟩, ?_⟩
        · dsimp only
          omega
        · show wordIndex count n _ = m
          unfold wordIndex
          omega

end Canonical

end Cvirtos.Lib
