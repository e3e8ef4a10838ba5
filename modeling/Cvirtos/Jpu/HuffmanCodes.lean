import Cvirtos.Jpu.HeaderSafety

/-!
# The codes a Huffman table generates

* `firstCode` — the canonical code T.81 gives the first symbol of a length;
* `HuffTable.Canonical` — a table whose code ranges are the canonical ones;
* `generate_canonical` — **`generate` leaves the canonical codes**, whatever codes it finds.
-/

set_option autoImplicit false

namespace Cvirtos.Jpu

open Cvirtos.Lib

/-- The first code of length `k + 1`: the codes of a length are consecutive, and those of the next
length begin behind them, one bit longer. -/
def firstCode (bits : Vector UInt8 16) : Nat → UInt32
  | 0 => 0
  | k + 1 => (firstCode bits k + (bits[k]?.getD 0).toUInt32) <<< 1

/-- The codes of length `j + 1`: their range and the index of their first value. -/
structure HuffTable.CanonicalAt (t : HuffTable) (j : Fin 16) : Prop where
  ptr : t.ptrs[j] = if t.bits[j] = 0 then HUFF_NO_PTR else UInt8.ofNat (prefixSum t.bits j)
  minCode : t.minCodes[j] = if t.bits[j] = 0 then HUFF_NO_CODE else firstCode t.bits j
  maxCode : t.maxCodes[j] =
    if t.bits[j] = 0 then HUFF_NO_CODE else firstCode t.bits j + (t.bits[j].toUInt32 - 1)

/-- Every length has its canonical codes. -/
def HuffTable.Canonical (t : HuffTable) : Prop := ∀ j, t.CanonicalAt j

/-- Before length `k + 1`: the shorter lengths have their codes, and the next code is at hand. -/
structure GeneratedTo (bits : Vector UInt8 16) (k : Nat) (g : Generation) : Prop where
  bits_eq : g.table.bits = bits
  ptrCnt : g.ptrCnt = prefixSum bits k
  huffCode : g.huffCode = firstCode bits k
  -- until the first length that is used the code stays 0
  flag : g.dataFlag = false → g.huffCode = 0
  shorter : ∀ j : Fin 16, j.1 < k → g.table.CanonicalAt j

/-- Setting the codes of one length leaves those of the others. -/
theorem canonicalAt_setCodes {t : HuffTable} {i : Fin 16} {ptr : UInt8} {minCode maxCode : UInt32}
    (hshort : ∀ j : Fin 16, j.1 < i.1 → t.CanonicalAt j)
    (hi : (t.setCodes i ptr minCode maxCode).CanonicalAt i) (j : Fin 16) (hj : j.1 < i.1 + 1) :
    (t.setCodes i ptr minCode maxCode).CanonicalAt j := by
  rcases Nat.lt_succ_iff_lt_or_eq.mp hj with hlt | heq
  · obtain ⟨h1, h2, h3⟩ := hshort j hlt
    have hne : i.1 ≠ j.1 := by omega
    constructor
    · rw [HuffTable.setCodes, ← h1]
      exact Vector.getElem_set_ne i.2 j.2 hne
    · rw [HuffTable.setCodes, ← h2]
      exact Vector.getElem_set_ne i.2 j.2 hne
    · rw [HuffTable.setCodes, ← h3]
      exact Vector.getElem_set_ne i.2 j.2 hne
  · rw [Fin.ext heq]
    exact hi

/-- A length that is used: its codes, and the next code behind them. -/
theorem step_used {g : Generation} {i : Fin 16} (hb : g.table.bits[i] ≠ 0) :
    g.step i =
      { table := g.table.setCodes i (UInt8.ofNat g.ptrCnt) g.huffCode
          (g.huffCode + (g.table.bits[i].toUInt32 - 1))
        ptrCnt := g.ptrCnt + g.table.bits[i].toNat
        huffCode := (g.huffCode + g.table.bits[i].toUInt32) <<< 1
        dataFlag := true } := by
  have hcode : g.huffCode + (g.table.bits[i].toUInt32 - 1) + 1 =
      g.huffCode + g.table.bits[i].toUInt32 := by
    rw [UInt32.add_assoc, UInt32.sub_add_cancel]
  have hset : ∀ x : UInt32, (g.table.maxCodes.set i.1 x i.2)[i] = x :=
    fun x => Vector.getElem_set_self i.2
  unfold Generation.step
  simp only [if_pos hb, if_neg hb, ↓reduceIte, hset, hcode]
  rfl

/-- A length that is not used. -/
theorem step_unused {g : Generation} {i : Fin 16} (hb : g.table.bits[i] = 0) :
    g.step i =
      { table := g.table.setCodes i HUFF_NO_PTR HUFF_NO_CODE HUFF_NO_CODE
        ptrCnt := g.ptrCnt
        huffCode := if g.dataFlag then g.huffCode <<< 1 else g.huffCode
        dataFlag := g.dataFlag } := by
  unfold Generation.step
  simp only [if_neg (not_not_intro hb), if_pos hb]
  cases g.dataFlag <;> rfl

theorem generatedTo_step {bits : Vector UInt8 16} (i : Fin 16) (g : Generation)
    (hg : GeneratedTo bits i g) : GeneratedTo bits (i + 1) (g.step i) := by
  obtain ⟨hbits, hptr, hcode, hflag, hshort⟩ := hg
  subst hbits
  have hsum := prefixSum_succ g.table.bits i.2
  have hnext : firstCode g.table.bits (i.1 + 1) =
      (g.huffCode + g.table.bits[i].toUInt32) <<< 1 := by
    rw [firstCode, hcode]
    simp
  by_cases hb : g.table.bits[i] = 0
  · rw [step_unused hb]
    refine ⟨rfl, ?_, ?_, ?_, canonicalAt_setCodes hshort ?_⟩
    · show g.ptrCnt = _
      rw [hsum, hptr, ← getElem_fin, hb]
      rfl
    · show (if g.dataFlag then g.huffCode <<< 1 else g.huffCode) = _
      rw [hnext, hb]
      cases hd : g.dataFlag with
      | true => simp
      | false => rw [hflag hd]; rfl
    · intro hd
      show (if g.dataFlag then g.huffCode <<< 1 else g.huffCode) = 0
      simp only [show g.dataFlag = false from hd]
      exact hflag hd
    · constructor
      all_goals
        show (Vector.set _ _ _)[i.1] = if g.table.bits[i] = 0 then _ else _
        rw [if_pos hb, Vector.getElem_set_self]
  · rw [step_used hb]
    refine ⟨rfl, ?_, hnext.symm, (fun hd => nomatch hd), canonicalAt_setCodes hshort ?_⟩
    · show g.ptrCnt + _ = _
      rw [hsum, hptr, getElem_fin]
    · constructor
      all_goals
        show (Vector.set _ _ _)[i.1] = if g.table.bits[i] = 0 then _ else _
        rw [if_neg hb, Vector.getElem_set_self]
      · rw [hptr]; rfl
      · rw [hcode]; rfl
      · rw [hcode]; rfl

/-- **`generate` leaves the canonical codes.** -/
theorem generate_canonical (t : HuffTable) : t.generate.Canonical := by
  have h0 : GeneratedTo t.bits 0 ⟨t, 0, 0, false⟩ :=
    ⟨rfl, rfl, rfl, fun _ => rfl, fun j hj => absurd hj (Nat.not_lt_zero _)⟩
  have h := foldl_finRange (GeneratedTo t.bits) h0 generatedTo_step
  exact fun j => h.shorter j j.2

end Cvirtos.Jpu
