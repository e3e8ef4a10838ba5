import Cvirtos.Jpu.Header
import Mathlib.Data.List.Basic

/-!
# The effect of one Huffman or quantisation table

What `parse_dht` and `parse_dqt` do with the table at a given offset, without the loops:

* `parseDhtTable_ok`, `parseDhtTable_panic` — the table at `offset` is stored (`storeDht`) unless
  it is `Overfull`, and then the run panics;
* `parseDqtTable_ok`, `parseDqtTable_panic` — likewise for `storeDqt` and `Misnumbered`;
* `parseDht_ok`, `parseDht_panic`, `parseDqt_ok`, `parseDqt_panic` — the tables of a segment, in
  order.
-/

set_option autoImplicit false

namespace Cvirtos.Jpu

open Cvirtos.Lib

/-! ## Reading in bounds -/

/-- The byte at `i`, zero past the end. -/
def byteAt (data : List UInt8) (i : Nat) : UInt8 := data[i]?.getD 0

theorem index_eq {data : List UInt8} {i : Nat} (h : i < data.length) :
    index data i = .ok (byteAt data i) := by
  unfold index byteAt
  rw [List.getElem?_eq_getElem h]
  rfl

theorem getAt_eq {α : Type} {n : Nat} (v : Vector α n) {j : Nat} (h : j < n) :
    getAt v j = .ok v[j] := dif_pos h

theorem getAt_panic {α : Type} {n : Nat} (v : Vector α n) {j : Nat} (h : n ≤ j) :
    getAt v j = .error .panic := dif_neg (by omega)

theorem setAt_eq {α : Type} {n : Nat} (v : Vector α n) {j : Nat} (x : α) (h : j < n) :
    setAt v j x = .ok (v.set j x h) := dif_pos h

theorem setAt_panic {α : Type} {n : Nat} (v : Vector α n) {j : Nat} (x : α) (h : n ≤ j) :
    setAt v j x = .error .panic := dif_neg (by omega)

/-- The big-endian word at `off`. -/
def wordAt (data : List UInt8) (off : Nat) : Nat :=
  (byteAt data off).toNat <<< 8 ||| (byteAt data (off + 1)).toNat

theorem be16_eq {data : List UInt8} {off : Nat} (h : off + 1 < data.length) :
    be16 data off = .ok (wordAt data off) := by
  unfold be16 wordAt
  rw [index_eq (by omega), index_eq h]
  rfl

theorem segLength_eq {data : List UInt8} {i : Nat} (h : i + 3 < data.length) :
    segLength data i = .ok (some (wordAt data (i + 2))) := by
  unfold segLength SEG_LENGTH_OFF
  rw [if_pos (by omega), be16_eq (by omega)]
  rfl

theorem segLength_none {data : List UInt8} {i : Nat} (h : data.length ≤ i + 3) :
    segLength data i = .ok none := by
  unfold segLength SEG_LENGTH_OFF
  rw [if_neg (by omega)]

/-! ## Filling a table -/

/-- `v` with entry `k` replaced by `x k` for each `k < n` that `c` admits. -/
def filled {α : Type} {m : Nat} (n : Nat) (c : Nat → Prop) [DecidablePred c] (x : Nat → α)
    (v : Vector α m) : Vector α m :=
  Vector.ofFn fun k => if k.1 < n ∧ c k.1 then x k.1 else v[k]

section Filled

variable {α : Type} {m : Nat} {c : Nat → Prop} [DecidablePred c] {x : Nat → α} {v : Vector α m}

theorem filled_getElem {n k : Nat} (hk : k < m) :
    (filled n c x v)[k] = if k < n ∧ c k then x k else v[k] := by
  simp [filled]

theorem filled_zero : filled 0 c x v = v := by
  ext k hk
  rw [filled_getElem, if_neg (by omega)]

theorem filled_succ_in {n : Nat} (hn : n < m) (h : c n) :
    (filled n c x v).set n (x n) = filled (n + 1) c x v := by
  ext k hk
  rw [Vector.getElem_set, filled_getElem, filled_getElem]
  by_cases hkn : n = k
  · subst hkn
    rw [if_pos rfl, if_pos ⟨by omega, h⟩]
  · rw [if_neg hkn]
    congr 1
    exact propext ⟨fun h => ⟨by omega, h.2⟩, fun h => ⟨by omega, h.2⟩⟩

theorem filled_succ_out {n : Nat} (h : m ≤ n ∨ ¬ c n) :
    filled (n + 1) c x v = filled n c x v := by
  ext k hk
  rw [filled_getElem, filled_getElem]
  congr 1
  refine propext ⟨fun ⟨hkn, hc⟩ => ⟨?_, hc⟩, fun ⟨hkn, hc⟩ => ⟨by omega, hc⟩⟩
  rcases h with h | h
  · omega
  · rcases Nat.lt_or_ge k n with hlt | hge
    · exact hlt
    · have : k = n := by omega
      subst this
      exact absurd hc h

end Filled

/-! ## Huffman tables -/

/-- The count for codes of length `j + 1` in the table at `offset`; zero past the data. -/
def countAt (data : List UInt8) (offset j : Nat) : Nat :=
  if offset + 1 + j < data.length then (byteAt data (offset + 1 + j)).toNat else 0

/-- The codes of the first `k` lengths in the table at `offset`. -/
def countSum (data : List UInt8) (offset k : Nat) : Nat :=
  ((List.range k).map (countAt data offset)).sum

theorem countSum_succ (data : List UInt8) (offset k : Nat) :
    countSum data offset (k + 1) = countSum data offset k + countAt data offset k := by
  simp [countSum, List.range_succ]

/-- The counts of the table at `offset`, over what the slot held. -/
def bitsAt (data : List UInt8) (offset : Nat) (bits : Vector UInt8 16) : Vector UInt8 16 :=
  filled 16 (fun j => offset + 1 + j < data.length) (fun j => byteAt data (offset + 1 + j)) bits

/-- The values of the table at `offset`, over what the slot held. -/
def valuesAt (data : List UInt8) (offset : Nat) (values : Vector UInt8 256) : Vector UInt8 256 :=
  filled (countSum data offset 16) (fun j => offset + 17 + j < data.length)
    (fun j => byteAt data (offset + 17 + j)) values

theorem readBits_eq (data : List UInt8) (offset : Nat) (bits : Vector UInt8 16) :
    readBits data offset bits = .ok (bitsAt data offset bits, countSum data offset 16) := by
  have hstep : ∀ j, j < 16 → readCount data offset j
      (filled j (fun j => offset + 1 + j < data.length) (fun j => byteAt data (offset + 1 + j)) bits,
        countSum data offset j) =
      .ok (filled (j + 1) (fun j => offset + 1 + j < data.length)
        (fun j => byteAt data (offset + 1 + j)) bits, countSum data offset (j + 1)) := by
    intro j hj
    unfold readCount
    rw [countSum_succ]
    unfold countAt
    by_cases hin : offset + 1 + j < data.length
    · rw [if_pos hin, if_pos hin, index_eq hin, ← filled_succ_in hj hin]
      simp only [bind, Except.bind, setAt_eq _ _ hj]
      rfl
    · rw [if_neg hin, if_neg hin,
        filled_succ_out (c := fun j => offset + 1 + j < data.length) (Or.inr hin)]
      rfl
  have h := forRange_eq (fun j => (filled j (fun j => offset + 1 + j < data.length)
    (fun j => byteAt data (offset + 1 + j)) bits, countSum data offset j)) hstep
  rw [filled_zero] at h
  exact h

/-- One turn of the loop over the values. -/
theorem readValue_filled (data : List UInt8) (offset : Nat) {j : Nat} (values : Vector UInt8 256)
    (h : j < 256 ∨ data.length ≤ offset + 17 + j) :
    readValue data offset j (filled j (fun j => offset + 17 + j < data.length)
        (fun j => byteAt data (offset + 17 + j)) values) =
      .ok (filled (j + 1) (fun j => offset + 17 + j < data.length)
        (fun j => byteAt data (offset + 17 + j)) values) := by
  have hh : DHT_TABLE_HDR_SIZE = 17 := rfl
  unfold readValue
  rw [hh]
  by_cases hin : offset + 17 + j < data.length
  · have hj : j < 256 := by omega
    rw [if_pos hin, index_eq hin, ← filled_succ_in hj hin]
    exact setAt_eq _ _ hj
  · rw [if_neg hin, filled_succ_out (c := fun j => offset + 17 + j < data.length) (Or.inr hin)]
    rfl

/-- The table at `offset` has more values in the data than a slot holds. -/
def Overfull (data : List UInt8) (offset : Nat) : Prop :=
  256 < countSum data offset 16 ∧ offset + 17 + 256 < data.length

instance (data : List UInt8) (offset : Nat) : Decidable (Overfull data offset) :=
  inferInstanceAs (Decidable (_ ∧ _))

theorem readValues_eq {data : List UInt8} {offset : Nat} (h : ¬ Overfull data offset)
    (values : Vector UInt8 256) :
    readValues data offset (countSum data offset 16) values = .ok (valuesAt data offset values) := by
  have hloop := forRange_eq (n := countSum data offset 16)
    (fun j => filled j (fun j => offset + 17 + j < data.length)
      (fun j => byteAt data (offset + 17 + j)) values)
    (fun j hj => readValue_filled data offset values (by unfold Overfull at h; omega))
  rw [filled_zero] at hloop
  exact hloop

theorem readValues_panic {data : List UInt8} {offset : Nat} (h : Overfull data offset)
    (values : Vector UInt8 256) :
    readValues data offset (countSum data offset 16) values = .error .panic := by
  obtain ⟨hn, hlen⟩ := h
  have hloop := forRange_eq (n := 256)
    (fun j => filled j (fun j => offset + 17 + j < data.length)
      (fun j => byteAt data (offset + 17 + j)) values)
    (fun j hj => readValue_filled data offset values (Or.inl hj))
  rw [filled_zero] at hloop
  refine forRange_error hn hloop ?_
  unfold readValue
  have hh : DHT_TABLE_HDR_SIZE = 17 := rfl
  rw [hh, if_pos hlen, index_eq hlen]
  simp only [bind, Except.bind]
  exact setAt_panic _ _ (Nat.le_refl _)

theorem and_one (b : UInt8) : b &&& 1 = 0 ∨ b &&& 1 = 1 := by
  have h : (b &&& 1).toNat = b.toNat % 2 := by rw [UInt8.toNat_and]; exact Nat.and_one_is_mod _
  rcases Nat.mod_two_eq_zero_or_one b.toNat with h0 | h1
  · exact Or.inl (UInt8.toNat_inj.mp (h.trans h0))
  · exact Or.inr (UInt8.toNat_inj.mp (h.trans h1))

theorem huffSlot_lt (tc th : UInt8) : huffSlot tc th < 4 := by
  unfold huffSlot
  rcases and_one tc with h | h <;> rcases and_one th with h' | h' <;> rw [h, h'] <;> decide

/-- The slot of the table at `offset`. -/
def slotAt (data : List UInt8) (offset : Nat) : Nat :=
  huffSlot (highNibble (byteAt data offset)) (lowNibble (byteAt data offset))

theorem slotAt_lt (data : List UInt8) (offset : Nat) : slotAt data offset < 4 := huffSlot_lt _ _

/-- The slot `t` once the table at `offset` is read into it. -/
def HuffTable.readAt (data : List UInt8) (offset : Nat) (t : HuffTable) : HuffTable :=
  { t with
    bits := bitsAt data offset t.bits
    values := valuesAt data offset t.values
    numValues := countSum data offset 16 }

/-- **The effect of the Huffman table at `offset`.** -/
def storeDht (data : List UInt8) (offset : Nat) (h : JpegHeaderInfo) : JpegHeaderInfo :=
  let t := h.huffTables[(⟨slotAt data offset, slotAt_lt data offset⟩ : Fin 4)]
  { h with
    huffTables := h.huffTables.set (slotAt data offset) (t.readAt data offset).generate
      (slotAt_lt data offset) }

/-- The bytes of the Huffman table at `offset` after its first. -/
def dhtBody (data : List UInt8) (offset : Nat) : Nat := 16 + countSum data offset 16

theorem parseDhtTable_ok {data : List UInt8} (offset : Nat) (h : JpegHeaderInfo)
    (hlt : offset + 1 < data.length) (hfit : ¬ Overfull data offset) :
    parseDhtTable data offset h =
      .ok (offset + (1 + dhtBody data offset), storeDht data offset h) := by
  have hnext : DHT_TABLE_HDR_SIZE + countSum data offset 16 = 1 + dhtBody data offset := by
    unfold DHT_TABLE_HDR_SIZE HUFF_LENGTH_COUNT dhtBody
    omega
  unfold parseDhtTable
  simp only [index_eq (Nat.lt_of_succ_lt hlt), bind, Except.bind, readBits_eq, readValues_eq hfit,
    hnext]
  rw [getAt_eq _ (huffSlot_lt _ _)]
  simp only [setAt_eq _ _ (huffSlot_lt _ _)]
  rfl

theorem parseDhtTable_panic {data : List UInt8} (offset : Nat) (h : JpegHeaderInfo)
    (hlt : offset + 1 < data.length) (hover : Overfull data offset) :
    parseDhtTable data offset h = .error .panic := by
  unfold parseDhtTable
  simp only [index_eq (Nat.lt_of_succ_lt hlt), bind, Except.bind, readBits_eq, readValues_panic hover]
  rw [getAt_eq _ (huffSlot_lt _ _)]

/-! ## Quantisation tables -/

/-- `Tq` of the table at `offset`. -/
def tqAt (data : List UInt8) (offset : Nat) : Nat := (lowNibble (byteAt data offset)).toNat

/-- The table at `offset` has 8-bit coefficients. -/
def is8BitAt (data : List UInt8) (offset : Nat) : Bool := highNibble (byteAt data offset) == 0

/-- Coefficient `j` of the table at `offset` lies in the data. -/
def CoeffIn (data : List UInt8) (offset j : Nat) : Prop :=
  if is8BitAt data offset then offset + 1 + j < data.length
  else offset + 1 + j * 2 + 1 < data.length

instance (data : List UInt8) (offset j : Nat) : Decidable (CoeffIn data offset j) :=
  inferInstanceAs (Decidable (if is8BitAt data offset then offset + 1 + j < data.length
    else offset + 1 + j * 2 + 1 < data.length))

/-- Coefficient `j` of the table at `offset`. -/
def coeffAt (data : List UInt8) (offset j : Nat) : UInt16 :=
  if is8BitAt data offset then (byteAt data (offset + 1 + j)).toUInt16
  else (byteAt data (offset + 1 + j * 2)).toUInt16 <<< 8 |||
    (byteAt data (offset + 1 + j * 2 + 1)).toUInt16

/-- The table at `offset` has no slot, and at least one coefficient in the data. -/
def Misnumbered (data : List UInt8) (offset : Nat) : Prop :=
  4 ≤ tqAt data offset ∧ CoeffIn data offset 0

instance (data : List UInt8) (offset : Nat) : Decidable (Misnumbered data offset) :=
  inferInstanceAs (Decidable (_ ∧ _))

/-- The tables once the one at `offset` is read, as far as coefficient `n`. -/
def quantUpTo (data : List UInt8) (offset n : Nat) (tables : Vector QuantTable 4) :
    Vector QuantTable 4 :=
  if h : tqAt data offset < 4 then
    tables.set (tqAt data offset)
      ⟨filled n (CoeffIn data offset) (coeffAt data offset) tables[tqAt data offset].values⟩
  else tables

/-- Coefficient `j` of the table at `offset`, of either size. -/
def readCoeff (data : List UInt8) (offset j : Nat) : Vector QuantTable 4 →
    Run (Vector QuantTable 4) :=
  if is8BitAt data offset then readCoeff8 data offset (tqAt data offset) j
  else readCoeff16 data offset (tqAt data offset) j

/-- Both loops over the coefficients run this. -/
theorem readCoeff_eq (data : List UInt8) (offset j : Nat) (tables : Vector QuantTable 4) :
    readCoeff data offset j tables =
      if CoeffIn data offset j then do
        let t ← getAt tables (tqAt data offset)
        let values ← setAt t.values j (coeffAt data offset j)
        setAt tables (tqAt data offset) ⟨values⟩
      else .ok tables := by
  unfold readCoeff CoeffIn coeffAt
  by_cases h8 : is8BitAt data offset = true
  · simp only [if_pos h8]
    unfold readCoeff8
    by_cases hin : offset + 1 + j < data.length
    · rw [if_pos hin, if_pos hin, index_eq hin]
      rfl
    · rw [if_neg hin, if_neg hin]
      rfl
  · simp only [if_neg h8]
    unfold readCoeff16
    by_cases hin : offset + 1 + j * 2 + 1 < data.length
    · rw [if_pos hin, if_pos hin, index_eq hin, index_eq (by omega)]
      rfl
    · rw [if_neg hin, if_neg hin]
      rfl

theorem readCoeff_upTo {data : List UInt8} {offset : Nat} (hnum : ¬ Misnumbered data offset)
    {j : Nat} (hj : j < 64) (tables : Vector QuantTable 4) :
    readCoeff data offset j (quantUpTo data offset j tables) =
      .ok (quantUpTo data offset (j + 1) tables) := by
  rw [readCoeff_eq]
  unfold quantUpTo
  by_cases htq : tqAt data offset < 4
  · simp only [dif_pos htq]
    by_cases hin : CoeffIn data offset j
    · rw [if_pos hin, getAt_eq _ htq]
      simp only [bind, Except.bind, Vector.getElem_set_self]
      rw [setAt_eq _ _ hj]
      simp only [setAt_eq _ _ htq, Vector.set_set, filled_succ_in hj hin]
    · rw [if_neg hin, filled_succ_out (Or.inr hin)]
  · simp only [dif_neg htq]
    rw [if_neg]
    -- no later coefficient lies in the data when the first does not
    intro hin
    refine hnum ⟨by omega, ?_⟩
    unfold CoeffIn at hin ⊢
    split at hin
    · rename_i h8
      rw [if_pos h8]
      omega
    · rename_i h8
      rw [if_neg h8]
      omega

/-- The bytes of the quantisation table at `offset` after its first. -/
def dqtBody (data : List UInt8) (offset : Nat) : Nat := if is8BitAt data offset then 64 else 128

/-- **The effect of the quantisation table at `offset`.** -/
def storeDqt (data : List UInt8) (offset : Nat) (h : JpegHeaderInfo) : JpegHeaderInfo :=
  { h with
    quantTables := quantUpTo data offset 64 h.quantTables
    quantTableCount := max h.quantTableCount (tqAt data offset + 1) }

theorem quantUpTo_zero (data : List UInt8) (offset : Nat) (tables : Vector QuantTable 4) :
    quantUpTo data offset 0 tables = tables := by
  unfold quantUpTo
  split
  · rw [filled_zero, Vector.set_getElem_self]
  · rfl

/-- Both branches of `parse_dqt`, as one. -/
theorem parseDqtTable_eq {data : List UInt8} {offset : Nat} (hlt : offset < data.length)
    (h : JpegHeaderInfo) :
    parseDqtTable data offset h =
      (forRange 64 (readCoeff data offset) h.quantTables).map fun tables =>
        (offset + (1 + dqtBody data offset),
          { h with
            quantTables := tables
            quantTableCount := max h.quantTableCount (tqAt data offset + 1) }) := by
  have hcount : (if tqAt data offset ≥ h.quantTableCount then tqAt data offset + 1
      else h.quantTableCount) = max h.quantTableCount (tqAt data offset + 1) := by
    split <;> omega
  have he : DQT_TABLE_ENTRIES = 64 := rfl
  unfold parseDqtTable dqtBody
  rw [index_eq hlt, ← hcount, he]
  simp only [bind, Except.bind]
  by_cases h8 : highNibble (byteAt data offset) = 0
  · have hb : is8BitAt data offset = true := by simp [is8BitAt, h8]
    have hf : readCoeff data offset = readCoeff8 data offset (tqAt data offset) := by
      funext j
      unfold readCoeff
      rw [if_pos hb]
    rw [if_pos h8, if_pos hb, hf]
    rfl
  · have hb : ¬ is8BitAt data offset = true := by simp [is8BitAt, h8]
    have hf : readCoeff data offset = readCoeff16 data offset (tqAt data offset) := by
      funext j
      unfold readCoeff
      rw [if_neg hb]
    rw [if_neg h8, if_neg hb, hf]
    rfl

theorem parseDqtTable_ok {data : List UInt8} (offset : Nat) (h : JpegHeaderInfo)
    (hlt : offset + 1 < data.length) (hnum : ¬ Misnumbered data offset) :
    parseDqtTable data offset h =
      .ok (offset + (1 + dqtBody data offset), storeDqt data offset h) := by
  have hloop := forRange_eq (n := 64) (fun j => quantUpTo data offset j h.quantTables)
    fun j hj => readCoeff_upTo hnum hj h.quantTables
  rw [quantUpTo_zero] at hloop
  rw [parseDqtTable_eq (Nat.lt_of_succ_lt hlt), hloop]
  rfl

theorem parseDqtTable_panic {data : List UInt8} (offset : Nat) (h : JpegHeaderInfo)
    (hlt : offset + 1 < data.length) (hnum : Misnumbered data offset) :
    parseDqtTable data offset h = .error .panic := by
  obtain ⟨htq, hin⟩ := hnum
  have hfirst : readCoeff data offset 0 h.quantTables = .error .panic := by
    rw [readCoeff_eq, if_pos hin, getAt_panic _ htq]
    rfl
  have hloop := forRange_error (f := readCoeff data offset) (show 0 < 64 by omega)
    (forRange_zero _ h.quantTables) hfirst
  rw [parseDqtTable_eq (Nat.lt_of_succ_lt hlt), hloop]
  rfl

/-! ## The tables of a segment -/

/-- The offsets of the tables from `offset` to `stop`, as the parser walks them; the table at `o`
has `body o` bytes after its first. -/
def tableOffsets (data : List UInt8) (body : Nat → Nat) (offset stop : Nat) : List Nat :=
  if offset < stop ∧ offset + 1 < data.length then
    offset :: tableOffsets data body (offset + (1 + body offset)) stop
  else []
termination_by stop - offset

/-- The headers that `store` makes of the tables at the given offsets, in order. -/
def storeAll (store : Nat → JpegHeaderInfo → JpegHeaderInfo) (offsets : List Nat)
    (h : JpegHeaderInfo) : JpegHeaderInfo := offsets.foldl (fun h o => store o h) h

/-- What every table keeps, a list of them keeps. -/
theorem storeAll_inv {P : JpegHeaderInfo → Prop} (store : Nat → JpegHeaderInfo → JpegHeaderInfo)
    (hstore : ∀ o h, P h → P (store o h)) (l : List Nat) {h : JpegHeaderInfo} (hp : P h) :
    P (storeAll store l h) := by
  unfold storeAll
  induction l generalizing h with
  | nil => exact hp
  | cons o l ih => exact ih (hstore o h hp)

/-- A walked table starts inside its segment and inside the data. -/
theorem mem_tableOffsets {data : List UInt8} {body : Nat → Nat} {offset stop o : Nat}
    (h : o ∈ tableOffsets data body offset stop) :
    offset ≤ o ∧ o < stop ∧ o + 1 < data.length := by
  rw [tableOffsets] at h
  split at h
  · rename_i hc
    rcases List.mem_cons.mp h with rfl | h
    · exact ⟨Nat.le_refl _, hc⟩
    · have := mem_tableOffsets h
      omega
  · cases h
termination_by stop - offset

section TableLoop

/- What `parse_dht` and `parse_dqt` share: a loop over the tables of a segment whose turn stores
the table at its offset unless that one is bad. -/
variable {data : List UInt8} {body : Nat → Nat} {stop : Nat} {bad : Nat → Prop}
  {store : Nat → JpegHeaderInfo → JpegHeaderInfo}
  {turn : Nat → JpegHeaderInfo → Run (Nat × JpegHeaderInfo)}
  {loop : Nat → JpegHeaderInfo → Run JpegHeaderInfo}
  (hloop : ∀ offset h, loop offset h =
    if offset < stop ∧ offset + 1 < data.length then
      (turn offset h).bind fun r => loop r.1 r.2
    else .ok h)
  (hturn : ∀ offset h, offset + 1 < data.length → ¬ bad offset →
    turn offset h = .ok (offset + (1 + body offset), store offset h))

include hloop hturn

/-- **The loop stores the tables it walks** when none is bad. -/
theorem tableLoop_ok (offset : Nat) (h : JpegHeaderInfo)
    (hgood : ∀ o ∈ tableOffsets data body offset stop, ¬ bad o) :
    loop offset h = .ok (storeAll store (tableOffsets data body offset stop) h) := by
  rw [hloop, tableOffsets]
  rw [tableOffsets] at hgood
  by_cases hc : offset < stop ∧ offset + 1 < data.length
  · rw [if_pos hc] at hgood
    have hgood' := fun o ho => hgood o (List.mem_cons_of_mem _ ho)
    rw [if_pos hc, if_pos hc, hturn offset h hc.2 (hgood offset (by simp))]
    exact tableLoop_ok _ _ hgood'
  · rw [if_neg hc, if_neg hc]
    rfl
termination_by stop - offset

/-- A bad table among those walked makes the loop panic. -/
theorem tableLoop_panic
    (hpanic : ∀ offset h, offset + 1 < data.length → bad offset →
      turn offset h = .error .panic)
    (offset : Nat) (h : JpegHeaderInfo)
    (hbad : ∃ o ∈ tableOffsets data body offset stop, bad o) :
    loop offset h = .error .panic := by
  obtain ⟨o, ho, hbad⟩ := hbad
  rw [tableOffsets] at ho
  rw [hloop]
  by_cases hc : offset < stop ∧ offset + 1 < data.length
  · rw [if_pos hc] at ho ⊢
    by_cases hfirst : bad offset
    · rw [hpanic offset h hc.2 hfirst]
      rfl
    · rw [hturn offset h hc.2 hfirst]
      rcases List.mem_cons.mp ho with rfl | ho
      · exact absurd hbad hfirst
      · exact tableLoop_panic hpanic _ _ ⟨o, ho, hbad⟩
  · rw [if_neg hc] at ho
    cases ho
termination_by stop - offset

end TableLoop

/-- The Huffman tables of the segment at `i` with the given length field. -/
def dhtOffsets (data : List UInt8) (i length : Nat) : List Nat :=
  tableOffsets data (dhtBody data) (i + 4) (i + 2 + length)

/-- The quantisation tables of the segment at `i` with the given length field. -/
def dqtOffsets (data : List UInt8) (i length : Nat) : List Nat :=
  tableOffsets data (dqtBody data) (i + 4) (i + 2 + length)

theorem parseDht_loop (data : List UInt8) (stop offset : Nat) (h : JpegHeaderInfo) :
    parseDht data offset stop h =
      if offset < stop ∧ offset + 1 < data.length then
        (parseDhtTable data offset h).bind fun r => parseDht data r.1 stop r.2
      else .ok h := by
  rw [parseDht]
  congr 1
  cases parseDhtTable data offset h <;> rfl

theorem parseDqt_loop (data : List UInt8) (stop offset : Nat) (h : JpegHeaderInfo) :
    parseDqt data offset stop h =
      if offset < stop ∧ offset + 1 < data.length then
        (parseDqtTable data offset h).bind fun r => parseDqt data r.1 stop r.2
      else .ok h := by
  rw [parseDqt]
  congr 1
  cases parseDqtTable data offset h <;> rfl

/-- **`parse_dht` stores the tables it walks** when none is overfull. -/
theorem parseDht_ok {data : List UInt8} {i length : Nat}
    (hfit : ∀ o ∈ dhtOffsets data i length, ¬ Overfull data o) (h : JpegHeaderInfo) :
    parseDht data (i + 4) (i + 2 + length) h =
      .ok (storeAll (storeDht data) (dhtOffsets data i length) h) :=
  tableLoop_ok (parseDht_loop data _) parseDhtTable_ok _ h hfit

theorem parseDht_panic {data : List UInt8} {i length : Nat}
    (hover : ∃ o ∈ dhtOffsets data i length, Overfull data o) (h : JpegHeaderInfo) :
    parseDht data (i + 4) (i + 2 + length) h = .error .panic :=
  tableLoop_panic (parseDht_loop data _) parseDhtTable_ok parseDhtTable_panic _ h hover

/-- **`parse_dqt` stores the tables it walks** when none is misnumbered. -/
theorem parseDqt_ok {data : List UInt8} {i length : Nat}
    (hnum : ∀ o ∈ dqtOffsets data i length, ¬ Misnumbered data o) (h : JpegHeaderInfo) :
    parseDqt data (i + 4) (i + 2 + length) h =
      .ok (storeAll (storeDqt data) (dqtOffsets data i length) h) :=
  tableLoop_ok (parseDqt_loop data _) parseDqtTable_ok _ h hnum

theorem parseDqt_panic {data : List UInt8} {i length : Nat}
    (hnum : ∃ o ∈ dqtOffsets data i length, Misnumbered data o) (h : JpegHeaderInfo) :
    parseDqt data (i + 4) (i + 2 + length) h = .error .panic :=
  tableLoop_panic (parseDqt_loop data _) parseDqtTable_ok parseDqtTable_panic _ h hnum

end Cvirtos.Jpu
