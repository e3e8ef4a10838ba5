import Cvirtos.Jpu.HuffmanCodes
import Cvirtos.Lib.PrefixCode
import Mathlib.Algebra.BigOperators.Fin

/-!
# Decoding with the generated tables

The tables of `HuffTable::generate` as a canonical prefix code: the code words are the codes between
`min_codes` and `max_codes` of their length, and a word's value is found from `ptrs`.  The words leave
the code of sixteen ones free, which is what an unused length has for its bounds.

* `generate_used`, `generate_unused` — the three entries of a length;
* `coded_iff` — the code words of the table are those of the canonical code;
* `generate_prefixCode` — **the tables are a prefix code for the values**.
-/

set_option autoImplicit false

namespace Cvirtos.Jpu

open Cvirtos.Lib

namespace HuffTable

/-- `w.2` is a code word of length `w.1 + 1`. -/
structure Coded (t : HuffTable) (w : Fin 16 × Nat) : Prop where
  used : t.bits[w.1] ≠ 0
  lower : t.minCodes[w.1].toNat ≤ w.2
  upper : w.2 ≤ t.maxCodes[w.1].toNat

/-- The place of a word's value in `values`. -/
def valueIndex (t : HuffTable) (w : Fin 16 × Nat) : Nat :=
  t.ptrs[w.1].toNat + w.2 - t.minCodes[w.1].toNat

/-- `n` bits that spell `c` are between the bounds of their length. -/
def within (t : HuffTable) (n c : Nat) : Bool :=
  (t.minCodes[n - 1]?.getD HUFF_NO_CODE).toNat ≤ c &&
    c ≤ (t.maxCodes[n - 1]?.getD HUFF_NO_CODE).toNat

/-- The value index of `n` bits that spell `c`. -/
def indexOf (t : HuffTable) (n c : Nat) : Nat :=
  (t.ptrs[n - 1]?.getD HUFF_NO_PTR).toNat + c - (t.minCodes[n - 1]?.getD HUFF_NO_CODE).toNat

/-- The value indices of a bit string: bits are read until they are between the bounds of their
length. -/
def decode (t : HuffTable) (bits : List Bool) : Option (List Nat) :=
  decodeAll t.within t.indexOf 16 bits.length bits

theorem within_succ (t : HuffTable) (i : Fin 16) (c : Nat) :
    t.within (i + 1) c ↔ t.minCodes[i].toNat ≤ c ∧ c ≤ t.maxCodes[i].toNat := by
  simp [within]

theorem indexOf_succ (t : HuffTable) (w : Fin 16 × Nat) :
    t.indexOf (w.1 + 1) w.2 = t.valueIndex w := by
  simp [indexOf, valueIndex]

end HuffTable

/-- At most 256 words, which leave the code of sixteen ones free. -/
structure WellCounted (bits : Vector UInt8 16) : Prop where
  total : prefixSum bits 16 ≤ 256
  kraft : ∑ i : Fin 16, bits[i].toNat * 2 ^ (15 - i.1) < 2 ^ 16

/-- The bits of a code word. -/
def wordBits (w : Fin 16 × Nat) : List Bool := bitsOf (w.1 + 1) w.2

/-- The tables of `t` are a prefix code with the given numbers of words. -/
structure PrefixCode (bits : Vector UInt8 16) (t : HuffTable) : Prop where
  bits_eq : t.bits = bits
  used : ∀ i : Fin 16, bits[i] ≠ 0 → t.minCodes[i] ≤ t.maxCodes[i] ∧
    t.maxCodes[i].toNat - t.minCodes[i].toNat + 1 = bits[i].toNat ∧
    t.maxCodes[i].toNat < 2 ^ (i.1 + 1) - 1
  unused : ∀ i : Fin 16, bits[i] = 0 →
    t.minCodes[i] = HUFF_NO_CODE ∧ t.maxCodes[i] = HUFF_NO_CODE ∧ t.ptrs[i] = HUFF_NO_PTR
  /-- As codes of sixteen bits, those of a length end before those of a longer one begin. -/
  increasing : ∀ i j : Fin 16, i < j → bits[i] ≠ 0 → bits[j] ≠ 0 →
    (t.maxCodes[i].toNat + 1) * 2 ^ (15 - i.1) ≤ t.minCodes[j].toNat * 2 ^ (15 - j.1)
  prefixFree : ∀ w w', t.Coded w → t.Coded w' → wordBits w <+: wordBits w' → w = w'
  values : Set.BijOn t.valueIndex {w | t.Coded w} (Set.Iio (prefixSum bits 16))
  decodes : ∀ words : List (Fin 16 × Nat), (∀ w ∈ words, t.Coded w) →
    t.decode (words.flatMap wordBits) = some (words.map t.valueIndex)

/-! ### The entries of a length -/

/-- The number of words of length `k + 1`. -/
def codeCount (bits : Vector UInt8 16) (k : Nat) : Nat := (bits[k]?.getD 0).toNat

theorem codeCount_fin (bits : Vector UInt8 16) (i : Fin 16) : codeCount bits i = bits[i].toNat := by
  simp [codeCount]

theorem prefixSum_eq (bits : Vector UInt8 16) {k : Nat} (hk : k ≤ 16) :
    prefixSum bits k = ∑ i ∈ Finset.range k, codeCount bits i := by
  induction k with
  | zero => rfl
  | succ k ih =>
    rw [prefixSum_succ bits hk, Finset.sum_range_succ, ih (by omega)]
    exact congrArg _ (codeCount_fin bits ⟨k, hk⟩).symm

section Generated

variable {bits : Vector UInt8 16} (hcounts : WellCounted bits)

include hcounts

/-- The words of a length leave the code of all ones free. -/
theorem canonicalEnd_lt {k : Nat} (hk : k < 16) :
    canonicalStart (codeCount bits) k + codeCount bits k < 2 ^ (k + 1) := by
  have hsum : ∑ i ∈ Finset.range (15 + 1), codeCount bits i * 2 ^ (15 - i) < 2 * 2 ^ 15 := by
    rw [Finset.sum_range fun i => codeCount bits i * 2 ^ (15 - i)]
    simp only [codeCount_fin]
    exact hcounts.kraft
  have hlt := canonicalStart_lt (Nat.le_of_lt_succ hk) hsum
  rw [Nat.pow_succ, Nat.mul_comm]
  exact hlt

theorem firstCode_toNat {k : Nat} (hk : k < 16) :
    (firstCode bits k).toNat = canonicalStart (codeCount bits) k := by
  induction k with
  | zero => rfl
  | succ k ih =>
    have hend := canonicalEnd_lt hcounts (show k < 16 by omega)
    have hpow : 2 ^ (k + 1) ≤ 2 ^ 16 := Nat.pow_le_pow_right (by decide) (by omega)
    have hcount : (bits[k]?.getD 0).toUInt32.toNat = codeCount bits k := by
      simp [codeCount]
    rw [firstCode, UInt32.toNat_shiftLeft, UInt32.toNat_add, hcount, ih (by omega), canonicalStart]
    show (_ % 2 ^ 32) <<< 1 % 2 ^ 32 = _
    rw [Nat.shiftLeft_eq]
    omega

end Generated

section Tables

variable {t : HuffTable} (hcounts : WellCounted t.bits)

theorem generate_bits (t : HuffTable) : t.generate.bits = t.bits := (generate_data t).1

theorem codeCount_pos {i : Fin 16} (hi : t.bits[i] ≠ 0) : 0 < codeCount t.bits i := by
  rw [codeCount_fin]
  exact Nat.pos_of_ne_zero fun h => hi (UInt8.toNat_inj.mp h)

/-- A length that is not used has the bounds and the pointer of none. -/
theorem generate_unused {i : Fin 16} (hi : t.bits[i] = 0) :
    t.generate.minCodes[i] = HUFF_NO_CODE ∧ t.generate.maxCodes[i] = HUFF_NO_CODE ∧
      t.generate.ptrs[i] = HUFF_NO_PTR := by
  obtain ⟨hptr, hmin, hmax⟩ := generate_canonical t i
  rw [generate_bits, if_pos hi] at hptr hmin hmax
  exact ⟨hmin, hmax, hptr⟩

/-- Only sixteen ones spell the bounds of a length that is not used. -/
theorem not_within_unused {i : Fin 16} (hi : t.bits[i] = 0) {c : Nat} (hc : c < 65535) :
    ¬ t.generate.within (i + 1) c := by
  obtain ⟨hmin, -, -⟩ := generate_unused hi
  rw [HuffTable.within_succ, hmin]
  rintro ⟨hle, -⟩
  exact absurd (Nat.lt_of_le_of_lt hle hc) (by decide)

include hcounts

/-- **The entries of a length that is used.** -/
theorem generate_used {i : Fin 16} (hi : t.bits[i] ≠ 0) :
    t.generate.minCodes[i].toNat = canonicalStart (codeCount t.bits) i ∧
      t.generate.maxCodes[i].toNat + 1 =
        canonicalStart (codeCount t.bits) i + codeCount t.bits i ∧
      t.generate.ptrs[i].toNat = ∑ k ∈ Finset.range i, codeCount t.bits k := by
  have hpos := codeCount_pos hi
  have hfirst := firstCode_toNat hcounts i.2
  have hend := canonicalEnd_lt hcounts i.2
  have hpow : 2 ^ (i.1 + 1) ≤ 2 ^ 16 := Nat.pow_le_pow_right (by decide) (by omega)
  obtain ⟨hptr, hmin, hmax⟩ := generate_canonical t i
  rw [generate_bits, if_neg hi] at hptr hmin hmax
  refine ⟨by rw [hmin, hfirst], ?_, ?_⟩
  · have hone : (1 : UInt32) ≤ t.bits[i].toUInt32 := by
      rw [UInt32.le_iff_toNat_le, UInt8.toNat_toUInt32, ← codeCount_fin]
      exact hpos
    rw [hmax, UInt32.toNat_add, UInt32.toNat_sub_of_le _ _ hone, UInt8.toNat_toUInt32, hfirst,
      ← codeCount_fin]
    show (_ + (_ - 1)) % 2 ^ 32 + 1 = _
    omega
  · -- a used length has a value behind its pointer, so the pointer fits its byte
    have htotal := hcounts.total
    rw [prefixSum_eq _ (Nat.le_refl 16)] at htotal
    have hle := Nat.le_trans (sum_range_mono i.2) htotal
    rw [Finset.sum_range_succ] at hle
    rw [hptr, prefixSum_eq _ (Nat.le_of_lt i.2), UInt8.toNat_ofNat']
    omega

/-- The code words of the table are those of the canonical code. -/
theorem coded_iff (w : Fin 16 × Nat) :
    t.generate.Coded w ↔ CanonicalWord (codeCount t.bits) w.1 w.2 := by
  constructor
  · rintro ⟨hused, hlower, hupper⟩
    rw [generate_bits] at hused
    obtain ⟨hmin, hmax, -⟩ := generate_used hcounts hused
    unfold CanonicalWord
    omega
  · rintro ⟨hlower, hupper⟩
    have hused : t.bits[w.1] ≠ 0 := by
      intro hw
      have hzero : codeCount t.bits w.1 = 0 := by
        rw [codeCount_fin, hw]
        rfl
      omega
    obtain ⟨hmin, hmax, -⟩ := generate_used hcounts hused
    refine ⟨by rw [generate_bits]; exact hused, by omega, by omega⟩

theorem valueIndex_eq {w : Fin 16 × Nat} (hw : t.generate.Coded w) :
    t.generate.valueIndex w = wordIndex (codeCount t.bits) w.1 w.2 := by
  have hused := hw.used
  rw [generate_bits] at hused
  obtain ⟨hmin, -, hptr⟩ := generate_used hcounts hused
  have hlower := hw.lower
  unfold HuffTable.valueIndex wordIndex
  omega

/-- A code word is not all ones. -/
theorem coded_lt {w : Fin 16 × Nat} (hw : t.generate.Coded w) : w.2 + 1 < 2 ^ (w.1.1 + 1) := by
  have hword := (coded_iff hcounts w).mp hw
  have hend := canonicalEnd_lt hcounts w.1.2
  have hupper := hword.2
  omega

/-- The decoder stops at a code word and not before. -/
theorem coded_decodable {w : Fin 16 × Nat} (hw : t.generate.Coded w) :
    DecodableWord t.generate.within 16 (w.1 + 1) w.2 := by
  have hword := (coded_iff hcounts w).mp hw
  have hlt := coded_lt hcounts hw
  refine ⟨Nat.succ_pos _, w.1.2, by omega, ?_, ?_⟩
  · rw [HuffTable.within_succ]
    exact ⟨hw.lower, hw.upper⟩
  · intro m hpos hm
    obtain ⟨j, rfl⟩ := Nat.exists_eq_succ_of_ne_zero (Nat.ne_of_gt hpos)
    have hj : j < 16 := by omega
    have hlen : w.1.1 + 1 - (j + 1) = w.1.1 - j := by omega
    show ¬ t.generate.within ((⟨j, hj⟩ : Fin 16).1 + 1) (w.2 / 2 ^ (w.1.1 + 1 - (j + 1)))
    rw [hlen]
    by_cases hused : t.bits[(⟨j, hj⟩ : Fin 16)] = 0
    · refine not_within_unused hused (Nat.lt_of_le_of_lt (Nat.div_le_self _ _) ?_)
      have hpow : 2 ^ (w.1.1 + 1) ≤ 2 ^ 16 := Nat.pow_le_pow_right (by decide) w.1.2
      omega
    · have hbehind := canonical_cut (show j < w.1.1 by omega) hword
      obtain ⟨-, hmax, -⟩ := generate_used hcounts hused
      rw [HuffTable.within_succ]
      dsimp only at hmax
      omega

theorem generate_values :
    Set.BijOn t.generate.valueIndex {w | t.generate.Coded w} (Set.Iio (prefixSum t.bits 16)) := by
  have hbij : Set.BijOn (fun w : Nat × Nat => wordIndex (codeCount t.bits) w.1 w.2) _ _ :=
    wordIndex_bijOn 16
  rw [prefixSum_eq _ (Nat.le_refl 16)]
  refine ⟨?_, ?_, ?_⟩
  · intro w hw
    rw [valueIndex_eq hcounts hw]
    exact hbij.mapsTo (x := (w.1.1, w.2)) ⟨w.1.2, (coded_iff hcounts w).mp hw⟩
  · intro w hw w' hw' heq
    rw [valueIndex_eq hcounts hw, valueIndex_eq hcounts hw'] at heq
    have hsame : (w.1.1, w.2) = (w'.1.1, w'.2) := hbij.injOn
      ⟨w.1.2, (coded_iff hcounts w).mp hw⟩ ⟨w'.1.2, (coded_iff hcounts w').mp hw'⟩ heq
    injection hsame with hlength hcode
    exact Prod.ext (Fin.ext hlength) hcode
  · intro m hm
    obtain ⟨⟨k, c⟩, ⟨hk, hword⟩, heq⟩ := hbij.surjOn hm
    have hw := (coded_iff hcounts (⟨k, hk⟩, c)).mpr hword
    exact ⟨_, hw, (valueIndex_eq hcounts hw).trans heq⟩

theorem generate_decodes (words : List (Fin 16 × Nat)) (hwords : ∀ w ∈ words, t.generate.Coded w) :
    t.generate.decode (words.flatMap wordBits) = some (words.map t.generate.valueIndex) := by
  have hdecodable : ∀ v ∈ words.map fun w => (w.1.1 + 1, w.2),
      DecodableWord t.generate.within 16 v.1 v.2 := by
    intro v hv
    obtain ⟨w, hw, rfl⟩ := List.mem_map.mp hv
    exact coded_decodable hcounts (hwords w hw)
  have hread := decodeAll_words t.generate.indexOf hdecodable
    (words_length_le fun v hv => (hdecodable v hv).pos)
  simp only [List.flatMap_map, List.map_map, Function.comp_def, HuffTable.indexOf_succ] at hread
  exact hread

end Tables

/-- **The generated tables are a prefix code for the values.** -/
theorem generate_prefixCode (t : HuffTable) (hcounts : WellCounted t.bits) :
    PrefixCode t.bits t.generate where
  bits_eq := generate_bits t
  used := by
    intro i hi
    have hend := canonicalEnd_lt hcounts i.2
    have hpos := codeCount_pos hi
    obtain ⟨hmin, hmax, -⟩ := generate_used hcounts hi
    rw [UInt32.le_iff_toNat_le, ← codeCount_fin]
    omega
  unused := fun i hi => generate_unused hi
  increasing := by
    intro i j hij hi hj
    obtain ⟨-, hmax, -⟩ := generate_used hcounts hi
    obtain ⟨hmin, -, -⟩ := generate_used hcounts hj
    have hgap : (canonicalStart (codeCount t.bits) i + _) * _ ≤ _ :=
      canonicalStart_gap (show i.1 < j.1 from hij)
    calc (t.generate.maxCodes[i].toNat + 1) * 2 ^ (15 - i.1)
        = (canonicalStart (codeCount t.bits) i + codeCount t.bits i) * 2 ^ (j.1 - i.1) *
            2 ^ (15 - j.1) := by
          rw [hmax, Nat.mul_assoc, ← Nat.pow_add, show j.1 - i.1 + (15 - j.1) = 15 - i.1 by omega]
      _ ≤ canonicalStart (codeCount t.bits) j * 2 ^ (15 - j.1) := Nat.mul_le_mul_right _ hgap
      _ = t.generate.minCodes[j].toNat * 2 ^ (15 - j.1) := by rw [hmin]
  prefixFree := by
    intro w w' hw hw' hbegins
    have hlt := coded_lt hcounts hw
    have hlt' := coded_lt hcounts hw'
    obtain ⟨hlength, hcode⟩ := canonical_prefixFree ((coded_iff hcounts w).mp hw)
      ((coded_iff hcounts w').mp hw') (by omega) (by omega) hbegins
    exact Prod.ext (Fin.ext hlength) hcode
  values := generate_values hcounts
  decodes := generate_decodes hcounts

/-- The counts of the usual table of luma differences. -/
def lumaDcCounts : Vector UInt8 16 := #v[0, 1, 5, 1, 1, 1, 1, 1, 1, 0, 0, 0, 0, 0, 0, 0]

theorem generate_prefixCode_lumaDc :
    PrefixCode lumaDcCounts ({ HuffTable.new with bits := lumaDcCounts } : HuffTable).generate :=
  generate_prefixCode { HuffTable.new with bits := lumaDcCounts }
    ⟨by decide +kernel, by decide +kernel⟩

end Cvirtos.Jpu
