import Cvirtos.Lib.LastWriter
import Cvirtos.Jpu.HeaderScan
import Cvirtos.Jpu.Decoder

/-!
# Which byte strings the JPEG path survives

* `uploadable_storeDht` — how many values the upload reads of a slot depends on the last table
  stored in it, not on what the slot held before.
* `storeSegs_slot` — the slot of an accepted header holds the last table of the walk.
* `jpegPath_noPanic_iff` — **the exact condition for every index of the JPEG path to be in
  bounds**, as a condition on the tables of the data.
-/

set_option autoImplicit false

namespace Cvirtos.Jpu

open Cvirtos.Lib

/-! ## The values the upload reads -/

/-- The codes of the first `k` lengths. -/
def prefixSum (bits : Vector UInt8 16) (k : Nat) : Nat :=
  ((bits.toList.take k).map UInt8.toNat).sum

/-- The values the upload reads of a table when it counts the first `k` code lengths. -/
def uploadable (t : HuffTable) (k : Nat) : Nat := min (prefixSum t.bits k) t.numValues

theorem prefixSum_succ (bits : Vector UInt8 16) {k : Nat} (hk : k < 16) :
    prefixSum bits (k + 1) = prefixSum bits k + bits[k].toNat := by
  unfold prefixSum
  rw [List.take_succ_eq_append_getElem (by simpa using hk)]
  simp

theorem generation_step_bits (g : Generation) (i : Fin 16) :
    (g.step i).table.bits = g.table.bits ∧ (g.step i).table.values = g.table.values ∧
      (g.step i).table.numValues = g.table.numValues := by
  unfold Generation.step
  by_cases hb : g.table.bits[i] ≠ 0
  · simp only [if_pos hb]
    split <;> exact ⟨rfl, rfl, rfl⟩
  · simp only [if_neg hb]
    split <;> exact ⟨rfl, rfl, rfl⟩

theorem generation_foldl_bits (l : List (Fin 16)) (g : Generation) :
    (l.foldl Generation.step g).table.bits = g.table.bits ∧
      (l.foldl Generation.step g).table.values = g.table.values ∧
      (l.foldl Generation.step g).table.numValues = g.table.numValues := by
  induction l generalizing g with
  | nil => exact ⟨rfl, rfl, rfl⟩
  | cons i l ih =>
      obtain ⟨h1, h2, h3⟩ := ih (g.step i)
      obtain ⟨h4, h5, h6⟩ := generation_step_bits g i
      exact ⟨h1.trans h4, h2.trans h5, h3.trans h6⟩

/-- Code generation leaves counts and values alone. -/
theorem generate_data (t : HuffTable) :
    t.generate.bits = t.bits ∧ t.generate.values = t.values ∧
      t.generate.numValues = t.numValues := by
  unfold HuffTable.generate
  exact generation_foldl_bits (List.finRange 16) ⟨t, 0, 0, false⟩

theorem countSum_mono (data : List UInt8) (offset : Nat) {k n : Nat} (h : k ≤ n) :
    countSum data offset k ≤ countSum data offset n := by
  induction h with
  | refl => exact Nat.le_refl _
  | step _ ih => rw [countSum_succ]; omega

/-- Past the end of the data there is nothing to count. -/
theorem countSum_past {data : List UInt8} {offset k : Nat} (hk : data.length ≤ offset + 1 + k)
    {n : Nat} (h : k ≤ n) : countSum data offset n = countSum data offset k := by
  induction h with
  | refl => rfl
  | @step n hn ih =>
      have hle : k ≤ n := hn
      rw [countSum_succ, ih]
      unfold countAt
      rw [if_neg (by omega), Nat.add_zero]

theorem countSum_le_prefixSum (data : List UInt8) (offset : Nat) (bits : Vector UInt8 16) {k : Nat}
    (hk : k ≤ 16) : countSum data offset k ≤ prefixSum (bitsAt data offset bits) k := by
  induction k with
  | zero => exact Nat.zero_le _
  | succ k ih =>
      have hlt : k < 16 := hk
      have := ih (by omega)
      rw [countSum_succ, prefixSum_succ _ hlt]
      unfold countAt bitsAt
      rw [filled_getElem]
      by_cases hin : offset + 1 + k < data.length
      · rw [if_pos hin, if_pos ⟨hlt, hin⟩]
        exact Nat.add_le_add_right this _
      · rw [if_neg hin]
        exact Nat.le_trans this (Nat.le_add_right _ _)

theorem prefixSum_in {data : List UInt8} {offset : Nat} (bits : Vector UInt8 16) {k : Nat}
    (hk : k ≤ 16) (hin : offset + k < data.length) :
    prefixSum (bitsAt data offset bits) k = countSum data offset k := by
  induction k with
  | zero => rfl
  | succ k ih =>
      have hlt : k < 16 := hk
      rw [countSum_succ, prefixSum_succ _ hlt, ih (by omega) (by omega)]
      unfold countAt bitsAt
      rw [filled_getElem, if_pos ⟨hlt, by omega⟩, if_pos (by omega)]

/-- **What the upload reads of a stored table** is what the table itself counts, in the data. -/
theorem uploadable_readAt (data : List UInt8) (offset : Nat) (t : HuffTable) {k : Nat}
    (hk : k ≤ 16) :
    uploadable (t.readAt data offset).generate k = countSum data offset k := by
  obtain ⟨hbits, -, hnum⟩ := generate_data (t.readAt data offset)
  unfold uploadable
  rw [hbits, hnum]
  show min (prefixSum (bitsAt data offset t.bits) k) (countSum data offset 16) = _
  have hle := countSum_le_prefixSum data offset t.bits hk
  have hmono := countSum_mono data offset hk
  by_cases hin : offset + k < data.length
  · rw [prefixSum_in t.bits hk hin]
    omega
  · have hpast := countSum_past (show data.length ≤ offset + 1 + k by omega) hk
    omega

/-! ## The slots of a parsed header -/

/-- The Huffman tables of the data, in the order they are stored. -/
def dhtTables (data : List UInt8) : List Nat := (segments data).flatMap (Seg.dhts data)

/-- The last Huffman table of the data for the given slot. -/
def lastDht (data : List UInt8) (slot : Fin 4) : Option Nat :=
  lastSelected (fun o => slotAt data o == slot.1) (dhtTables data)

/-- Only Huffman tables change the slots. -/
theorem store_huffTables (data : List UInt8) (seg : Seg) (h : JpegHeaderInfo) :
    (seg.store data h).huffTables = (storeAll (storeDht data) (seg.dhts data) h).huffTables := by
  have hkeep : seg.kind ≠ .dht → (seg.store data h).huffTables = h.huffTables := fun hk =>
    Seg.store_inv (P := fun h' => h'.huffTables = h.huffTables)
      (fun _ h' hp => (storeSof_tables data seg.pos h').1.trans hp) (fun hdht => absurd hdht hk)
      (fun _ _ _ hp => hp) (fun _ _ hp => hp) rfl
  obtain ⟨kind, pos, length⟩ := seg
  cases kind with
  | dht => rfl
  | sof | dqt | dri | other => exact hkeep (by simp)

/-- The slots see the Huffman tables only. -/
theorem storeAll_congr (data : List UInt8) (l : List Nat) {h h' : JpegHeaderInfo}
    (he : h.huffTables = h'.huffTables) :
    (storeAll (storeDht data) l h).huffTables = (storeAll (storeDht data) l h').huffTables := by
  unfold storeAll
  induction l generalizing h h' with
  | nil => exact he
  | cons o l ih =>
      apply ih
      unfold storeDht
      simp only [he]

theorem storeSegs_huffTables (data : List UInt8) (segs : List Seg) (h : JpegHeaderInfo) :
    (storeSegs data segs h).huffTables =
      (storeAll (storeDht data) (segs.flatMap (Seg.dhts data)) h).huffTables := by
  unfold storeSegs
  induction segs generalizing h with
  | nil => rfl
  | cons seg segs ih =>
      rw [List.foldl_cons, ih, List.flatMap_cons]
      rw [storeAll_congr data _ (store_huffTables data seg h)]
      unfold storeAll
      rw [List.foldl_append]

/-- Where a slot's counts come from: nowhere, or the table at the given offset. -/
def SlotFrom (data : List UInt8) (o : Option Nat) (t : HuffTable) : Prop :=
  ∀ k, k ≤ 16 → uploadable t k = o.elim 0 fun o => countSum data o k

theorem slotFrom_new (data : List UInt8) : SlotFrom data none HuffTable.new := by
  intro k _
  exact Nat.min_zero _

/-- **A slot holds the last table of the walk that names it.** -/
theorem storeSegs_slot (data : List UInt8) (slot : Fin 4) :
    SlotFrom data (lastDht data slot)
      (storeSegs data (segments data) .new).huffTables[slot] := by
  have hlast : SlotFrom data (lastDht data slot)
      (storeAll (storeDht data) (dhtTables data) .new).huffTables[slot] := by
    refine foldl_lastSelected (R := fun o (h : JpegHeaderInfo) =>
      SlotFrom data o h.huffTables[slot]) ?_ ?_ ?_ (dhtTables data)
    · intro h o hsel k hk
      have hs : slotAt data o = slot.1 := by simpa using hsel
      unfold storeDht
      simp only [getElem_fin, ← hs, Vector.getElem_set_self]
      exact uploadable_readAt data o _ hk
    · intro h b o hsel hold
      have hs : slotAt data b ≠ slot.1 := by simpa using hsel
      unfold storeDht
      simp only [getElem_fin, Vector.getElem_set_ne _ _ hs]
      exact hold
    · simp only [JpegHeaderInfo.new, getElem_fin, Vector.getElem_replicate]
      exact slotFrom_new data
  have he := storeSegs_huffTables data (segments data) .new
  rw [he]
  exact hlast

/-! ## The uploads -/

/-- The code lengths the upload counts for a slot. -/
def lengthsUsed (slot : Fin 4) : Nat := if slot = 0 ∨ slot = 2 then 12 else 16

theorem lengthsUsed_le (slot : Fin 4) : lengthsUsed slot ≤ 16 := by
  unfold lengthsUsed
  split <;> omega

/-- The upload of a slot is a loop over its uploadable values. -/
theorem uploadValues_eq (h : JpegHeaderInfo) (slot : Fin 4) :
    uploadValues h slot =
      (forRange (uploadable h.huffTables[slot] (lengthsUsed slot))
        (uploadValue h.huffTables[slot]) []).map fun words => words ++
          List.replicate ((if slot = 0 ∨ slot = 2 then 12 else 162) -
            prefixSum h.huffTables[slot].bits (lengthsUsed slot)) (.huffData 0xFFFFFFFF) := by
  have hlen : (if slot = 0 ∨ slot = 2 then 12 else 16) = lengthsUsed slot := rfl
  unfold uploadValues
  simp only [decide_eq_true_eq, sliceTo, hlen, if_pos (lengthsUsed_le slot), bind, Except.bind]
  unfold uploadable prefixSum
  cases forRange (min (((h.huffTables[slot].bits.toList.take (lengthsUsed slot)).map
    UInt8.toNat).sum) h.huffTables[slot].numValues) (uploadValue h.huffTables[slot]) [] <;> rfl

theorem uploadValue_ok (t : HuffTable) {j : Nat} (hj : j < 256) (words : List RegWrite) :
    uploadValue t j words = .ok (words ++ [.huffData (byteWord t.values[j].toUInt32)]) := by
  unfold uploadValue
  rw [getAt_eq _ hj]
  rfl

/-- **The upload of a slot** stays in bounds exactly when it reads at most 256 values. -/
theorem uploadValues_ok_iff (h : JpegHeaderInfo) (slot : Fin 4) :
    (∃ ws, uploadValues h slot = .ok ws) ↔
      uploadable h.huffTables[slot] (lengthsUsed slot) ≤ 256 := by
  rw [uploadValues_eq]
  have hturn : ∀ j, j < 256 → ∀ words, True → ∃ words',
      uploadValue h.huffTables[slot] j words = .ok words' ∧ True :=
    fun j hj words _ => ⟨_, uploadValue_ok _ hj words, trivial⟩
  by_cases hfit : uploadable h.huffTables[slot] (lengthsUsed slot) ≤ 256
  · obtain ⟨words, hloop, -⟩ := forRange_ok
      (n := uploadable h.huffTables[slot] (lengthsUsed slot)) (s := []) (fun _ _ => True) trivial
      fun j hj => hturn j (by omega)
    rw [hloop]
    exact ⟨fun _ => hfit, fun _ => ⟨_, rfl⟩⟩
  · obtain ⟨words, hpre, -⟩ := forRange_ok (n := 256) (s := []) (fun _ _ => True) trivial hturn
    have hpanic : uploadValue h.huffTables[slot] 256 words = .error .panic := by
      unfold uploadValue
      rw [getAt_panic _ (Nat.le_refl _)]
      rfl
    rw [forRange_error (by omega) hpre hpanic]
    refine ⟨?_, fun hle => absurd hle hfit⟩
    rintro ⟨ws, hws⟩
    cases hws

theorem uploadHuffTables_ok_iff (h : JpegHeaderInfo) :
    (∃ ws, uploadHuffTables h = .ok ws) ↔
      ∀ slot : Fin 4, uploadable h.huffTables[slot] (lengthsUsed slot) ≤ 256 := by
  have hall : (∃ ys, uploadOrder.mapM (uploadValues h) = .ok ys) ↔
      ∀ slot : Fin 4, uploadable h.huffTables[slot] (lengthsUsed slot) ≤ 256 := by
    rw [mapM_ok_iff]
    have hmem : ∀ slot : Fin 4, slot ∈ uploadOrder := by decide
    exact ⟨fun hx slot => (uploadValues_ok_iff h slot).mp (hx slot (hmem slot)),
      fun hx slot _ => (uploadValues_ok_iff h slot).mpr (hx slot)⟩
  rw [← hall]
  unfold uploadHuffTables
  cases uploadOrder.mapM (uploadValues h) with
  | error e =>
      constructor
      · rintro ⟨ws, hws⟩
        cases hws
      · rintro ⟨ws, hws⟩
        cases hws
  | ok ys => exact ⟨fun _ => ⟨ys, rfl⟩, fun _ => ⟨_, rfl⟩⟩

/-- The upload of the quantisation tables is always in bounds. -/
theorem uploadQuantTables_ok (h : JpegHeaderInfo) : ∃ ws, uploadQuantTables h = .ok ws := by
  have hcomp : ∀ comp : Fin 3 × UInt32, ∃ ws, uploadQuantTable h comp = .ok ws := by
    intro comp
    unfold uploadQuantTable
    simp only [bind, Except.bind]
    split
    · exact ⟨_, rfl⟩
    · rename_i hle
      rw [getAt_eq _ (show h.quantTbl[comp.1] < 4 by omega)]
      exact ⟨_, rfl⟩
  obtain ⟨ys, hys⟩ := (mapM_ok_iff (uploadQuantTable h)
    ([(0, QMAT_PHASE_Y), (1, QMAT_PHASE_CB), (2, QMAT_PHASE_CR)].take
      (min h.numComponents.toNat 3))).mpr fun comp _ => hcomp comp
  refine ⟨ys.flatten, ?_⟩
  unfold uploadQuantTables
  simp only [bind, Except.bind, hys]
  rfl

/-! ## The JPEG path -/

/-- Every index of the JPEG path is in bounds: the parser does not panic, and a header it accepts
is laid out and uploaded without a panic. -/
structure NoPanic (data : List UInt8) : Prop where
  parse : parseJpegHeader data ≠ .error .panic
  layout : ∀ h, parseJpegHeader data = .ok h → ∃ l, frameLayout h = .ok l
  huff : ∀ h, parseJpegHeader data = .ok h → ∃ ws, uploadHuffTables h = .ok ws
  quant : ∀ h, parseJpegHeader data = .ok h → ∃ ws, uploadQuantTables h = .ok ws

/-- The slots of an accepted header are those of the walk. -/
theorem finish_huffTables {data : List UInt8} {h h' : JpegHeaderInfo} {e : Ending}
    (hf : finish data h e = .ok h') : h'.huffTables = h.huffTables := by
  cases e with
  | sos pos length => cases hf; rfl
  | sofShort | noSos => cases hf

/-- **No byte string but these can crash the JPEG path**: a quantisation table with `Tq ≥ 4` and
a coefficient in the data; a Huffman table with more than 256 values in the data; and, when the
scan reaches a SOS, a last table of a slot whose counts, as far as they lie in the data and the
upload uses them, add up to more than 256. -/
theorem jpegPath_noPanic_iff (data : List UInt8) :
    NoPanic data ↔
      (∀ seg ∈ segments data, (∀ o ∈ seg.dqts data, ¬ Misnumbered data o) ∧
        ∀ o ∈ seg.dhts data, ¬ Overfull data o) ∧
      ((∃ pos length, ending data = .sos pos length) → ∀ slot o, lastDht data slot = some o →
        countSum data o (lengthsUsed slot) ≤ 256) := by
  have hgood : (∀ seg ∈ segments data, (∀ o ∈ seg.dqts data, ¬ Misnumbered data o) ∧
      ∀ o ∈ seg.dhts data, ¬ Overfull data o) ↔ ∀ seg ∈ segments data, ¬ seg.Bad data := by
    unfold Seg.Bad
    simp only [not_or, not_exists, not_and]
    exact ⟨fun h seg hs => ⟨(h seg hs).2, (h seg hs).1⟩, fun h seg hs => ⟨(h seg hs).2, (h seg hs).1⟩⟩
  rw [hgood]
  by_cases hbad : ∀ seg ∈ segments data, ¬ seg.Bad data
  · have hparse := parseJpegHeader_ok hbad
    -- how many values the upload reads of a slot
    have hslot : ∀ h, parseJpegHeader data = .ok h → ∀ slot,
        uploadable h.huffTables[slot] (lengthsUsed slot) =
          (lastDht data slot).elim 0 fun o => countSum data o (lengthsUsed slot) := by
      intro h hp slot
      rw [hparse] at hp
      rw [finish_huffTables hp]
      exact storeSegs_slot data slot _ (lengthsUsed_le slot)
    constructor
    · intro hno
      refine ⟨hbad, ?_⟩
      rintro ⟨pos, length, hend⟩ slot o hlast
      rw [hend] at hparse
      have hle := (uploadHuffTables_ok_iff _).mp (hno.huff _ hparse) slot
      rw [hslot _ hparse slot, hlast] at hle
      exact hle
    · rintro ⟨-, hcounts⟩
      refine ⟨?_, fun h _ => ⟨_, rfl⟩, fun h hp => ?_, fun h _ => uploadQuantTables_ok h⟩
      · rw [hparse]
        intro hpanic
        cases hend : ending data with
        | sos pos length | sofShort | noSos => rw [hend] at hpanic; cases hpanic
      · rw [uploadHuffTables_ok_iff]
        intro slot
        rw [hslot h hp slot]
        cases hlast : lastDht data slot with
        | none => exact Nat.zero_le _
        | some o =>
          refine hcounts ?_ slot o hlast
          rw [hparse] at hp
          cases hend : ending data with
          | sos pos length => exact ⟨pos, length, rfl⟩
          | sofShort | noSos => rw [hend] at hp; cases hp
  · constructor
    · intro hno
      refine absurd (parseJpegHeader_panic ?_) hno.parse
      simpa using hbad
    · rintro ⟨h, -⟩
      exact absurd h hbad

/-- The parser panics at a DQT whose table is numbered 4. -/
theorem dqtNumber4_parse :
    parseJpegHeader [0xFF, 0xDB, 0x00, 0x03, 0x04, 0x00] = .error .panic := by
  have hsite : siteAt [0xFF, 0xDB, 0x00, 0x03, 0x04, 0x00] 0 = .segment .dqt 3 := by decide
  have hseg : ⟨.dqt, 0, 3⟩ ∈ segments [0xFF, 0xDB, 0x00, 0x03, 0x04, 0x00] := by
    unfold segments
    rw [walk, if_pos (by decide), hsite]
    exact List.mem_cons_self
  have htable : 4 ∈ dqtOffsets [0xFF, 0xDB, 0x00, 0x03, 0x04, 0x00] 0 3 := by
    unfold dqtOffsets
    rw [tableOffsets, if_pos (by decide)]
    exact List.mem_cons_self
  exact parseJpegHeader_panic ⟨_, hseg, Or.inr ⟨4, htable, by decide⟩⟩

/-- **Six bytes crash the parser**: a DQT segment whose table is numbered 4. -/
theorem dqtNumber4_panics :
    parseJpegHeader [0xFF, 0xDB, 0x00, 0x03, 0x04, 0x00] = .error .panic ∧
      ¬ NoPanic [0xFF, 0xDB, 0x00, 0x03, 0x04, 0x00] :=
  ⟨dqtNumber4_parse, fun hno => hno.parse dqtNumber4_parse⟩

end Cvirtos.Jpu
