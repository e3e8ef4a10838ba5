import Cvirtos.Jpu.HeaderSafety

/-!
# The upload of the Huffman tables

The data port counts its words, so a table lies where it does because of what the tables before it
have written.  The words of the lengths are always 64; those of the values go by the code counts of a
table, which the fill is to bring up to the room of the table.

* `uploadValues_words` — the words of a table: some of its values and some fill;
* `valuesInPlace_iff` — when they are its values, in its room;
* `phaseWords_upload` — what the data port takes in each phase;
* `uploadHuffTables_aligned_iff` — **when every table lies in its place**.
-/

set_option autoImplicit false

namespace Cvirtos.Jpu

open Cvirtos.Lib

/-- The data words written while `huff_ctrl` holds `phase`. -/
def phaseWords (phase : UInt32) : (current : UInt32) → List RegWrite → List UInt32
  | _, [] => []
  | _, .huffCtrl p :: ws => phaseWords phase p ws
  | current, .huffData word :: ws =>
    if current = phase then word :: phaseWords phase current ws else phaseWords phase current ws
  | current, _ :: ws => phaseWords phase current ws

/-- The words a table has room for. -/
def tableRoom (slot : Fin 4) : Nat := if slot = 0 ∨ slot = 2 then 12 else 162

/-- The words of the first `n` values of a table. -/
def valueWords (t : HuffTable) (n : Nat) : List UInt32 :=
  (t.values.toList.take n).map fun v => byteWord v.toUInt32

/-- The values of a table in order, then the fill. -/
def tableWords (t : HuffTable) (room : Nat) : List UInt32 :=
  valueWords t t.numValues ++ List.replicate (room - t.numValues) 0xFFFFFFFF

/-- The upload of a slot is the table's values and the fill, and fills the room of the table. -/
def ValuesInPlace (h : JpegHeaderInfo) (slot : Fin 4) : Prop :=
  uploadValues h slot =
      .ok ((tableWords h.huffTables[slot] (tableRoom slot)).map .huffData) ∧
    (tableWords h.huffTables[slot] (tableRoom slot)).length = tableRoom slot

/-- No table is shifted: 64 words for the lengths in each phase, and every table's values in its own
room. -/
structure UploadAligned (h : JpegHeaderInfo) (ws : List RegWrite) : Prop where
  upload : uploadHuffTables h = .ok ws
  min : (phaseWords HUFF_PHASE_MIN 0 ws).length = 64
  max : (phaseWords HUFF_PHASE_MAX 0 ws).length = 64
  ptr : (phaseWords HUFF_PHASE_PTR 0 ws).length = 64
  val : phaseWords HUFF_PHASE_VAL 0 ws =
    uploadOrder.flatMap fun slot => tableWords h.huffTables[slot] (tableRoom slot)
  room : ∀ slot, ValuesInPlace h slot

/-- The counts of a table agree with its values: the values fit the room, and as many of them are
counted; or the counts are too large and the values take the whole room; or they are too small and
the values that are left out are written as the fill is. -/
def CountsAgree (t : HuffTable) (lengths room : Nat) : Prop :=
  t.numValues ≤ room ∧
    (prefixSum t.bits lengths = t.numValues ∨
      t.numValues = room ∧ room < prefixSum t.bits lengths ∨
      prefixSum t.bits lengths < t.numValues ∧
        ∀ j (hj : j < 256), prefixSum t.bits lengths ≤ j → j < t.numValues → t.values[j] = 0xFF)

/-! ### One table -/

theorem valueWords_length (t : HuffTable) {n : Nat} (hn : n ≤ 256) :
    (valueWords t n).length = n := by
  simp [valueWords, hn]

theorem valueWords_get (t : HuffTable) {n j : Nat} (hj : j < 256) :
    (valueWords t n)[j]? = if j < n then some (byteWord t.values[j].toUInt32) else none := by
  unfold valueWords
  rw [List.getElem?_map, List.getElem?_take]
  split
  · rw [List.getElem?_eq_getElem (by simpa using hj)]
    simp
  · rfl

theorem valueWords_succ (t : HuffTable) {n : Nat} (hn : n < 256) :
    valueWords t (n + 1) = valueWords t n ++ [byteWord t.values[n].toUInt32] := by
  unfold valueWords
  rw [List.take_succ_eq_append_getElem (by simpa using hn), List.map_append]
  simp

/-- The fill is the word of the value 255, and of no other. -/
theorem byteWord_fill (v : UInt8) : byteWord v.toUInt32 = 0xFFFFFFFF ↔ v = 0xFF := by
  have hall : ∀ n : Fin 256, byteWord (UInt8.ofNat n).toUInt32 = 0xFFFFFFFF ↔
      UInt8.ofNat n = 0xFF := by decide +kernel
  have hv := hall ⟨v.toNat, v.toNat_lt⟩
  rw [UInt8.ofNat_toNat] at hv
  exact hv

/-- The words of a table: some of its values and some fill. -/
theorem uploadValues_words (h : JpegHeaderInfo) (slot : Fin 4)
    (hfit : uploadable h.huffTables[slot] (lengthsUsed slot) ≤ 256) :
    uploadValues h slot = .ok ((valueWords h.huffTables[slot]
        (uploadable h.huffTables[slot] (lengthsUsed slot)) ++
      List.replicate (tableRoom slot - prefixSum h.huffTables[slot].bits (lengthsUsed slot))
        0xFFFFFFFF).map .huffData) := by
  have hloop := forRange_eq (n := uploadable h.huffTables[slot] (lengthsUsed slot))
    (f := uploadValue h.huffTables[slot])
    (fun n => (valueWords h.huffTables[slot] n).map RegWrite.huffData) fun j hj => by
      have hj' : j < 256 := by omega
      rw [uploadValue_ok _ hj', valueWords_succ _ hj', List.map_append]
      rfl
  rw [uploadValues_eq]
  have hzero : (valueWords h.huffTables[slot] 0).map RegWrite.huffData = [] := rfl
  rw [hzero] at hloop
  rw [hloop]
  simp [Except.map, tableRoom]

/-- Values and fill, word by word. -/
theorem filled_get (t : HuffTable) {m k j : Nat} (hj : j < 256) (hm : m ≤ 256) :
    (valueWords t m ++ List.replicate k 0xFFFFFFFF)[j]? =
      if j < m then some (byteWord t.values[j].toUInt32)
      else if j < m + k then some 0xFFFFFFFF else none := by
  by_cases hlt : j < m
  · rw [List.getElem?_append_left (by rw [valueWords_length t hm]; exact hlt), valueWords_get t hj]
    simp only [hlt, if_true]
  · rw [List.getElem?_append_right (by rw [valueWords_length t hm]; omega),
      valueWords_length t hm, List.getElem?_replicate, if_neg hlt]
    have hiff : j - m < k ↔ j < m + k := by omega
    simp only [hiff]

/-- When some of the values and the fill are all of them and the rest of the room. -/
theorem filled_eq_iff (t : HuffTable) {n sum room : Nat} (hn : n ≤ room) (hroom : room ≤ 256) :
    valueWords t (min sum n) ++ List.replicate (room - sum) 0xFFFFFFFF =
        valueWords t n ++ List.replicate (room - n) 0xFFFFFFFF ↔
      sum = n ∨ n = room ∧ room < sum ∨
        sum < n ∧ ∀ j (hj : j < 256), sum ≤ j → j < n → t.values[j] = 0xFF := by
  by_cases hle : n ≤ sum
  · rw [Nat.min_eq_right hle, List.append_right_inj, List.replicate_inj]
    simp only [or_true, and_true, Nat.not_lt.mpr hle, false_and, or_false]
    omega
  · have hmin : min sum n = sum := Nat.min_eq_left (by omega)
    rw [hmin]
    constructor
    · intro heq
      refine .inr (.inr ⟨by omega, fun j hj hlow hhigh => ?_⟩)
      have hword := congrArg (fun ws : List UInt32 => ws[j]?) heq
      rw [filled_get t hj (by omega), filled_get t hj (by omega), if_neg (by omega),
        if_pos (by omega), if_pos hhigh] at hword
      exact (byteWord_fill _).mp (Option.some.inj hword).symm
    · intro hagree
      have hff : ∀ j (hj : j < 256), sum ≤ j → j < n → t.values[j] = 0xFF := by
        rcases hagree with h | h | h
        · omega
        · omega
        · exact h.2
      apply List.ext_getElem?
      intro j
      by_cases hj : j < room
      · rw [filled_get t (by omega) (by omega), filled_get t (by omega) (by omega)]
        by_cases hhigh : j < n
        · by_cases hlow : j < sum
          · rw [if_pos hlow, if_pos hhigh]
          · rw [if_neg hlow, if_pos (by omega), if_pos hhigh, hff j (by omega) (by omega) hhigh]
            rfl
        · rw [if_neg (by omega), if_neg hhigh, if_pos (by omega), if_pos (by omega)]
      · rw [List.getElem?_eq_none, List.getElem?_eq_none]
        · rw [List.length_append, valueWords_length t (by omega), List.length_replicate]
          omega
        · rw [List.length_append, valueWords_length t (by omega), List.length_replicate]
          omega

theorem tableRoom_le (slot : Fin 4) : tableRoom slot ≤ 162 := by
  unfold tableRoom
  split <;> omega

theorem tableWords_length_iff (t : HuffTable) {room : Nat} (hroom : room ≤ 162) :
    (tableWords t room).length = room ↔ t.numValues ≤ room := by
  simp only [tableWords, valueWords, List.length_append, List.length_map, List.length_take,
    Vector.length_toList, List.length_replicate]
  omega

/-- **When the words of a table are its values and the fill.** -/
theorem valuesInPlace_iff (h : JpegHeaderInfo) (slot : Fin 4) :
    ValuesInPlace h slot ↔
      CountsAgree h.huffTables[slot] (lengthsUsed slot) (tableRoom slot) := by
  have hroom := tableRoom_le slot
  unfold ValuesInPlace CountsAgree
  rw [tableWords_length_iff _ hroom, and_comm]
  refine and_congr_right fun hn => ?_
  have hfit : uploadable h.huffTables[slot] (lengthsUsed slot) ≤ 256 :=
    Nat.le_trans (Nat.min_le_right _ _) (by omega)
  rw [uploadValues_words h slot hfit, ← filled_eq_iff _ hn (by omega)]
  constructor
  · intro heq
    exact List.map_injective_iff.mpr (fun _ _ hx => RegWrite.huffData.inj hx) (Except.ok.inj heq)
  · intro heq
    exact congrArg (fun ws => Except.ok (ws.map RegWrite.huffData)) heq

/-! ### The phases -/

/-- The words of a phase that writes an entry for each code length of each table. -/
def lengthWords (h : JpegHeaderInfo) (entry : HuffTable → Fin 16 → UInt32) : List UInt32 :=
  uploadOrder.flatMap fun idx => (List.finRange 16).map fun j => entry h.huffTables[idx] j

theorem uploadLengths_eq (h : JpegHeaderInfo) (entry : HuffTable → Fin 16 → UInt32) :
    uploadLengths h entry = (lengthWords h entry).map .huffData := by
  simp [uploadLengths, lengthWords, List.map_flatMap, Function.comp_def]

theorem lengthWords_length (h : JpegHeaderInfo) (entry : HuffTable → Fin 16 → UInt32) :
    (lengthWords h entry).length = 64 := by
  simp [lengthWords, uploadOrder]

/-- The data port takes the words of the phase that is set, and those of no other. -/
theorem phaseWords_data (phase current : UInt32) (words : List UInt32) (ws : List RegWrite) :
    phaseWords phase current (words.map .huffData ++ ws) =
      (if current = phase then words else []) ++ phaseWords phase current ws := by
  induction words with
  | nil =>
    rw [ite_self]
    rfl
  | cons word words ih =>
    rw [List.map_cons, List.cons_append, phaseWords, ih]
    split <;> rfl

theorem phases_distinct :
    HUFF_PHASE_MIN ≠ HUFF_PHASE_MAX ∧ HUFF_PHASE_MIN ≠ HUFF_PHASE_PTR ∧
      HUFF_PHASE_MIN ≠ HUFF_PHASE_VAL ∧ HUFF_PHASE_MAX ≠ HUFF_PHASE_PTR ∧
      HUFF_PHASE_MAX ≠ HUFF_PHASE_VAL ∧ HUFF_PHASE_PTR ≠ HUFF_PHASE_VAL := by decide

/-- **What the data port takes in each phase**, when the words of the tables are given. -/
theorem phaseWords_upload (h : JpegHeaderInfo) (words : Fin 4 → List UInt32)
    (hvalues : ∀ slot, uploadValues h slot = .ok ((words slot).map .huffData)) :
    ∃ ws, uploadHuffTables h = .ok ws ∧
      phaseWords HUFF_PHASE_MIN 0 ws = lengthWords h (fun t j => codeWord t.minCodes[j]) ∧
      phaseWords HUFF_PHASE_MAX 0 ws = lengthWords h (fun t j => codeWord t.maxCodes[j]) ∧
      phaseWords HUFF_PHASE_PTR 0 ws = lengthWords h (fun t j => byteWord t.ptrs[j].toUInt32) ∧
      phaseWords HUFF_PHASE_VAL 0 ws = uploadOrder.flatMap words := by
  have hmap : uploadOrder.mapM (uploadValues h) =
      .ok (uploadOrder.map fun slot => (words slot).map .huffData) := by
    simp only [uploadOrder, List.mapM_cons, List.mapM_nil, hvalues]
    rfl
  have hflat : (uploadOrder.map fun slot => (words slot).map RegWrite.huffData).flatten =
      (uploadOrder.flatMap words).map .huffData := by
    rw [List.map_flatMap, List.flatMap]
  unfold uploadHuffTables
  simp only [hmap, bind, Except.bind, hflat, uploadLengths_eq]
  obtain ⟨h01, h02, h03, h12, h13, h23⟩ := phases_distinct
  refine ⟨_, rfl, ?_, ?_, ?_, ?_⟩
  all_goals simp only [List.append_assoc, List.cons_append, List.nil_append, phaseWords,
    phaseWords_data]
  · rw [if_pos trivial, if_neg h01.symm, if_neg h02.symm, if_neg h03.symm]
    exact List.append_nil _
  · rw [if_neg h01, if_pos trivial, if_neg h12.symm, if_neg h13.symm]
    exact List.append_nil _
  · rw [if_neg h02, if_neg h12, if_pos trivial, if_neg h23.symm]
    exact List.append_nil _
  · rw [if_neg h03, if_neg h13, if_neg h23, if_pos trivial]
    exact List.append_nil _

/-- **When every table lies in its place.** -/
theorem uploadHuffTables_aligned_iff (h : JpegHeaderInfo) :
    (∃ ws, UploadAligned h ws) ↔
      ∀ slot, CountsAgree h.huffTables[slot] (lengthsUsed slot) (tableRoom slot) := by
  constructor
  · rintro ⟨ws, haligned⟩ slot
    exact (valuesInPlace_iff h slot).mp (haligned.room slot)
  · intro hagree
    have hroom slot := (valuesInPlace_iff h slot).mpr (hagree slot)
    obtain ⟨ws, hupload, hmin, hmax, hptr, hval⟩ := phaseWords_upload h
      (fun slot => tableWords h.huffTables[slot] (tableRoom slot)) fun slot => (hroom slot).1
    refine ⟨ws, hupload, ?_, ?_, ?_, hval, hroom⟩
    · rw [hmin, lengthWords_length]
    · rw [hmax, lengthWords_length]
    · rw [hptr, lengthWords_length]

/-- A Huffman table for the first slot, with 13 codes of four bits, and a scan. -/
def thirteenCodes : List UInt8 :=
  [0xFF, 0xC4, 0, 0x20, 0, 0, 0, 0, 13, 0, 0, 0, 0, 0, 0, 0, 0, 0, 0, 0, 0,
    0, 1, 2, 3, 4, 5, 6, 7, 8, 9, 10, 11, 12, 0xFF, 0xDA, 0, 2]

/-- **A shifted table**: the thirteenth word of the first table is where the second one belongs. -/
theorem thirteenCodes_shift :
    ∃ h, parseJpegHeader thirteenCodes = .ok h ∧ ¬ ∃ ws, UploadAligned h ws := by
  have hvalues : (parseJpegHeader thirteenCodes).map
      (fun h => h.huffTables[(0 : Fin 4)].numValues) = .ok 13 := by decide +kernel
  obtain ⟨h, hparse, hnum⟩ := ok_of_map hvalues
  refine ⟨h, hparse, ?_⟩
  rintro ⟨ws, haligned⟩
  have hroom := ((valuesInPlace_iff h 0).mp (haligned.room 0)).1
  rw [hnum] at hroom
  exact absurd hroom (by decide)

end Cvirtos.Jpu
