import Cvirtos.Jpu.DecodeStart

/-!
# The quantisation table of a component

A component's table number goes from the SOF through the header to the upload, which skips a number
it has no table for.  The SOF of a grey frame does not store one.

* `quantTables_stored`, `quantCount_stored`, `quantTbl_stored` — what the header holds of the tables
  and their numbers, read off the data;
* `qmatWords_upload` — what the upload writes in the phase of a component;
* `ownTable_iff` — **when a component is dequantised with the table it names**.
-/

set_option autoImplicit false

namespace Cvirtos.Jpu

open Cvirtos.Lib

/-! ### The tables of the data -/

/-- The quantisation tables of the data, in the order they are stored. -/
def dqtTables (data : List UInt8) : List Nat := (segments data).flatMap (Seg.dqts data)

/-- The last quantisation table of the data with the given number. -/
def lastDqt (data : List UInt8) (tq : Nat) : Option Nat :=
  lastSelected (fun o => tqAt data o == tq) (dqtTables data)

/-- Coefficient `j` of slot `tq` after the data: that of the last table that has it, or 0. -/
def slotCoeff (data : List UInt8) (tq j : Nat) : UInt16 :=
  (lastSelected (fun o => tqAt data o == tq && decide (CoeffIn data o j)) (dqtTables data)).elim 0
    fun o => coeffAt data o j

/-- The last SOF whose component entries the parser reads. -/
def lastReadSof (data : List UInt8) : Option Seg :=
  lastSelected (fun seg => seg.kind == .sof && (byteAt data (seg.pos + 9)).toNat == 3 &&
    decide (seg.pos + 19 ≤ data.length)) (segments data)

/-- The table number kept for a component. -/
def keptTq (data : List UInt8) (c : Nat) : Nat :=
  (lastReadSof data).elim 0 fun seg => (byteAt data (seg.pos + 12 + 3 * c)).toNat

/-- The words written to `qmat_data` while `qmat_ctrl` holds `phase`. -/
def qmatWords (phase : UInt32) : (current : UInt32) → List RegWrite → List UInt32
  | _, [] => []
  | _, .qmatCtrl p :: ws => qmatWords phase p ws
  | current, .qmatData word :: ws =>
    if current = phase then word :: qmatWords phase current ws else qmatWords phase current ws
  | current, _ :: ws => qmatWords phase current ws

/-- The phase of a component. -/
def qmatPhase : Fin 3 → UInt32
  | 0 => QMAT_PHASE_Y
  | 1 => QMAT_PHASE_CB
  | 2 => QMAT_PHASE_CR

/-- The table at `o` is the last with the number that the SOF names for component `c`, and has all
its coefficients in the data. -/
def Names (data : List UInt8) (c o : Nat) : Prop :=
  ∃ seg, lastSof data = some seg ∧ seg.pos + 12 + 3 * c < data.length ∧
    lastDqt data (byteAt data (seg.pos + 12 + 3 * c)).toNat = some o ∧
    ∀ j, j < 64 → CoeffIn data o j

/-- The coefficients of the named table are written in the phase of the component. -/
def OwnTable (data : List UInt8) (s : Started) (c : Fin 3) : Prop :=
  ∃ o, Names data c o ∧ qmatWords (qmatPhase c) 0 s.quant =
    (List.finRange 64).map fun j : Fin 64 => (coeffAt data o j).toUInt32

/-- The SOF names a table for the component, and the number kept is the one named, or that of a slot
with the same coefficients. -/
def OwnSelected (data : List UInt8) (c : Nat) : Prop :=
  ∃ o, Names data c o ∧ (keptTq data c = tqAt data o ∨
    keptTq data c < 4 ∧ (∃ o' ∈ dqtTables data, keptTq data c ≤ tqAt data o') ∧
      ∀ j, j < 64 → slotCoeff data (keptTq data c) j = coeffAt data o j)

/-! ### What the header holds -/

/-- What the tables of a segment do to the slots. -/
def storeQuant (data : List UInt8) (q : Vector QuantTable 4 × Nat) (o : Nat) :
    Vector QuantTable 4 × Nat :=
  (quantUpTo data o 64 q.1, max q.2 (tqAt data o + 1))

/-- The slots see the quantisation tables only. -/
theorem store_quant (data : List UInt8) (seg : Seg) (h : JpegHeaderInfo) :
    ((seg.store data h).quantTables, (seg.store data h).quantTableCount) =
      (seg.dqts data).foldl (storeQuant data) (h.quantTables, h.quantTableCount) := by
  have hkeep : seg.kind ≠ .dqt → ((seg.store data h).quantTables,
      (seg.store data h).quantTableCount) = (h.quantTables, h.quantTableCount) := by
    intro hk
    refine Seg.store_inv (P := fun h' => (h'.quantTables, h'.quantTableCount) =
      (h.quantTables, h.quantTableCount)) (fun _ h' hp => ?_) (fun _ _ _ hp => hp)
      (fun hdqt => absurd hdqt hk) (fun _ _ hp => hp) rfl
    obtain ⟨-, htables, hcount⟩ := storeSof_tables data seg.pos h'
    rw [htables, hcount]
    exact hp
  obtain ⟨kind, pos, length⟩ := seg
  cases kind with
  | dqt =>
    exact (List.foldl_hom (fun h : JpegHeaderInfo => (h.quantTables, h.quantTableCount))
      fun _ _ => rfl).symm
  | sof | dht | dri | other => exact hkeep (by simp)

theorem storeSegs_quant (data : List UInt8) (h : JpegHeaderInfo) :
    ((storeSegs data (segments data) h).quantTables,
        (storeSegs data (segments data) h).quantTableCount) =
      (dqtTables data).foldl (storeQuant data) (h.quantTables, h.quantTableCount) := by
  unfold dqtTables storeSegs
  rw [List.foldl_flatMap]
  exact (List.foldl_hom (fun h : JpegHeaderInfo => (h.quantTables, h.quantTableCount))
    fun h seg => (store_quant data seg h).symm).symm

/-- The scan changes none of this. -/
theorem parsed_quant {data : List UInt8} {h : JpegHeaderInfo}
    (hparse : parseJpegHeader data = .ok h) :
    h.quantTables = (storeSegs data (segments data) .new).quantTables ∧
      h.quantTableCount = (storeSegs data (segments data) .new).quantTableCount ∧
      h.quantTbl = (storeSegs data (segments data) .new).quantTbl := by
  obtain ⟨pos, length, -, haccepted⟩ := parseJpegHeader_accepted hparse
  rw [haccepted.stored]
  exact ⟨rfl, rfl, rfl⟩

theorem quantUpTo_coeff (data : List UInt8) (o : Nat) (tables : Vector QuantTable 4) (q : Fin 4)
    (j : Fin 64) :
    (quantUpTo data o 64 tables)[q].values[j] =
      if tqAt data o = q.1 ∧ CoeffIn data o j then coeffAt data o j else tables[q].values[j] := by
  unfold quantUpTo
  by_cases htq : tqAt data o = q.1
  · have hlt : tqAt data o < 4 := htq ▸ q.2
    have hset : (tables.set (tqAt data o) ⟨filled 64 (CoeffIn data o) (coeffAt data o)
        tables[tqAt data o].values⟩ hlt)[q] =
        ⟨filled 64 (CoeffIn data o) (coeffAt data o) tables[q].values⟩ := by
      simp only [getElem_fin, ← htq, Vector.getElem_set_self]
    rw [dif_pos hlt, hset]
    simp only [getElem_fin, filled_getElem j.2, j.2, htq, true_and]
  · rw [if_neg fun h => htq h.1]
    split
    · simp only [getElem_fin, Vector.getElem_set_ne _ _ htq]
    · rfl

/-- **The coefficients of the slots.** -/
theorem quantTables_stored {data : List UInt8} {h : JpegHeaderInfo}
    (hparse : parseJpegHeader data = .ok h) (q : Fin 4) (j : Fin 64) :
    h.quantTables[q].values[j] = slotCoeff data q j := by
  have hstored := congrArg Prod.fst (storeSegs_quant data .new)
  dsimp only at hstored
  rw [(parsed_quant hparse).1, hstored]
  refine foldl_lastSelected (R := fun o (x : Vector QuantTable 4 × Nat) =>
    x.1[q].values[j] = o.elim 0 fun o => coeffAt data o j) ?_ ?_ ?_ (dqtTables data)
  · intro x o hsel
    obtain ⟨htq, hin⟩ : tqAt data o = q.1 ∧ CoeffIn data o j := by simpa using hsel
    exact (quantUpTo_coeff data o x.1 q j).trans (if_pos ⟨htq, hin⟩)
  · intro x b o hsel hold
    have hnot : ¬ (tqAt data b = q.1 ∧ CoeffIn data b j) := by simpa using hsel
    exact ((quantUpTo_coeff data b x.1 q j).trans (if_neg hnot)).trans hold
  · simp only [JpegHeaderInfo.new, QuantTable.new, getElem_fin, Vector.getElem_replicate]
    rfl

/-- The number of slots in use is one more than the largest number. -/
theorem quantCount_stored {data : List UInt8} {h : JpegHeaderInfo}
    (hparse : parseJpegHeader data = .ok h) (q : Nat) :
    q < h.quantTableCount ↔ ∃ o ∈ dqtTables data, q ≤ tqAt data o := by
  have hstored := congrArg Prod.snd (storeSegs_quant data .new)
  dsimp only at hstored
  rw [(parsed_quant hparse).2.1, hstored]
  induction dqtTables data using List.reverseRecOn with
  | nil => simp [JpegHeaderInfo.new]
  | append_singleton l o ih =>
    rw [List.foldl_append, List.foldl_cons, List.foldl_nil, storeQuant, lt_max_iff]
    refine (or_congr_left ih).trans ?_
    simp only [List.mem_append, List.mem_singleton, Nat.lt_succ_iff]
    constructor
    · rintro (⟨o', ho', hle⟩ | hle)
      · exact ⟨o', .inl ho', hle⟩
      · exact ⟨o, .inr rfl, hle⟩
    · rintro ⟨o', ho' | rfl, hle⟩
      · exact .inl ⟨o', ho', hle⟩
      · exact .inr hle

theorem storeSof_quantTbl (data : List UInt8) (i : Nat) (h : JpegHeaderInfo) (c : Fin 3) :
    (storeSof data i h).quantTbl[c] =
      if (byteAt data (i + 9)).toNat = 3 ∧ i + 19 ≤ data.length then
        (byteAt data (i + 12 + 3 * c)).toNat
      else h.quantTbl[c] := by
  unfold storeSof
  by_cases hthree : (byteAt data (i + 9)).toNat = 3
  · by_cases hlen : i + 19 ≤ data.length
    · rw [if_pos hthree, if_pos hlen, if_pos ⟨hthree, hlen⟩]
      simp only [getElem_fin, filled_getElem c.2, c.2, true_and, if_true]
    · rw [if_pos hthree, if_neg hlen, if_neg fun h => hlen h.2]
  · rw [if_neg hthree, if_neg fun h => hthree h.1]

/-- The table numbers are those of the last SOF that was read. -/
theorem quantTbl_stored {data : List UInt8} {h : JpegHeaderInfo}
    (hparse : parseJpegHeader data = .ok h) (c : Fin 3) : h.quantTbl[c] = keptTq data c := by
  rw [(parsed_quant hparse).2.2]
  refine foldl_lastSelected (R := fun o (h : JpegHeaderInfo) =>
    h.quantTbl[c] = o.elim 0 fun seg => (byteAt data (seg.pos + 12 + 3 * c)).toNat) ?_ ?_ ?_
    (segments data)
  · intro h seg hsel
    obtain ⟨kind, pos, length⟩ := seg
    simp only [Bool.and_eq_true, beq_iff_eq, decide_eq_true_eq] at hsel
    obtain ⟨⟨rfl, hthree⟩, hlen⟩ := hsel
    exact (storeSof_quantTbl data pos h c).trans (if_pos ⟨hthree, hlen⟩)
  · intro h seg o hsel hold
    refine Seg.store_inv (P := fun h' => h'.quantTbl[c] = _) (fun hsof h' hp => ?_)
      (fun _ _ _ hp => hp) (fun _ _ _ hp => hp) (fun _ _ hp => hp) hold
    refine (storeSof_quantTbl data seg.pos h' c).trans ((if_neg ?_).trans hp)
    simpa [hsof] using hsel
  · simp only [JpegHeaderInfo.new, getElem_fin, Vector.getElem_replicate]
    rfl

/-! ### The upload -/

def slotWords (t : QuantTable) : List UInt32 :=
  (List.finRange 64).map fun j => t.values[j].toUInt32

/-- What the upload writes for a component: its slot, unless the number is skipped. -/
def componentWords (h : JpegHeaderInfo) (c : Fin 3) : List UInt32 :=
  if h.quantTbl[c] < h.quantTableCount then h.quantTables[h.quantTbl[c]]?.elim [] slotWords else []

theorem qmatWords_data (phase current : UInt32) (words : List UInt32) (ws : List RegWrite) :
    qmatWords phase current (words.map .qmatData ++ ws) =
      (if current = phase then words else []) ++ qmatWords phase current ws := by
  induction words with
  | nil =>
    rw [ite_self]
    rfl
  | cons word words ih =>
    rw [List.map_cons, List.cons_append, qmatWords, ih]
    split <;> rfl

/-- The upload of one component, seen from a phase. -/
theorem uploadQuantTable_words (h : JpegHeaderInfo) (comp : Fin 3 × UInt32) :
    ∃ ws, uploadQuantTable h comp = .ok ws ∧ ∀ phase rest, phase ≠ 0 →
      qmatWords phase 0 (ws ++ rest) =
        (if comp.2 = phase then componentWords h comp.1 else []) ++ qmatWords phase 0 rest := by
  unfold uploadQuantTable componentWords
  by_cases hq : h.quantTbl[comp.1] < 4 ∧ h.quantTbl[comp.1] < h.quantTableCount
  · obtain ⟨hlt, hcount⟩ := hq
    rw [if_neg (by omega), getAt_eq _ hlt, if_pos hcount, Vector.getElem?_eq_getElem hlt]
    refine ⟨_, rfl, fun phase rest hphase => ?_⟩
    have hmap (t : QuantTable) : (List.finRange 64).map (fun j =>
        RegWrite.qmatData t.values[j].toUInt32) = (slotWords t).map .qmatData := by
      rw [slotWords, List.map_map]
      rfl
    rw [hmap, List.append_assoc, List.append_assoc, List.singleton_append, qmatWords,
      qmatWords_data, List.singleton_append, qmatWords]
    rfl
  · have hnone : (if h.quantTbl[comp.1] < h.quantTableCount then
        h.quantTables[h.quantTbl[comp.1]]?.elim [] slotWords else []) = [] := by
      split
      · rw [Vector.getElem?_eq_none (by omega)]
        rfl
      · rfl
    rw [if_pos (by omega), hnone]
    refine ⟨[], rfl, fun phase rest _ => ?_⟩
    rw [ite_self]
    rfl

theorem uploadQuantTable_phase (h : JpegHeaderInfo) {phase : UInt32} (hphase : phase ≠ 0)
    (comps : List (Fin 3 × UInt32)) :
    ∃ ws, comps.mapM (uploadQuantTable h) = .ok ws ∧ qmatWords phase 0 ws.flatten =
      (comps.filter fun comp => comp.2 = phase).flatMap fun comp => componentWords h comp.1 := by
  induction comps with
  | nil => exact ⟨[], rfl, rfl⟩
  | cons comp comps ih =>
    obtain ⟨ws, hcomp, hwords⟩ := uploadQuantTable_words h comp
    obtain ⟨wss, hcomps, hrest⟩ := ih
    refine ⟨ws :: wss, ?_, ?_⟩
    · simp only [List.mapM_cons, hcomp, hcomps]
      rfl
    · rw [List.flatten_cons, hwords phase _ hphase, hrest, List.filter_cons]
      by_cases heq : comp.2 = phase
      · simp [heq]
      · simp [heq]

/-- Each phase is that of one component. -/
theorem qmatPhase_filter (c k : Fin 3) (h : c ≤ k) :
    ([((0 : Fin 3), QMAT_PHASE_Y), (1, QMAT_PHASE_CB), (2, QMAT_PHASE_CR)].take (k + 1)).filter
      (fun comp => comp.2 = qmatPhase c) = [(c, qmatPhase c)] := by
  revert c k
  decide

/-- **What the upload writes in the phase of a component.** -/
theorem qmatWords_upload {h : JpegHeaderInfo} {ws : List RegWrite}
    (hupload : uploadQuantTables h = .ok ws) {c : Fin 3} (hc : c.1 < h.numComponents.toNat) :
    qmatWords (qmatPhase c) 0 ws = componentWords h c := by
  have hphase : ∀ c, qmatPhase c ≠ 0 := by decide
  obtain ⟨wss, hall, hwords⟩ := uploadQuantTable_phase h (hphase c)
    ([(0, QMAT_PHASE_Y), (1, QMAT_PHASE_CB), (2, QMAT_PHASE_CR)].take
      (min h.numComponents.toNat 3))
  unfold uploadQuantTables at hupload
  simp only [hall, bind, Except.bind] at hupload
  cases hupload
  obtain ⟨k, hk⟩ := Nat.exists_eq_succ_of_ne_zero
    (show min h.numComponents.toNat 3 ≠ 0 by omega)
  have hfilter := qmatPhase_filter c ⟨k, by omega⟩ (show c.1 ≤ k by omega)
  rw [hk] at hwords
  rw [hwords]
  refine (congrArg _ hfilter).trans ?_
  simp

/-! ### The table of a component -/

/-- The slot of a number holds the last table with that number, if it is whole. -/
theorem slotCoeff_last {data : List UInt8} {tq o j : Nat} (hlast : lastDqt data tq = some o)
    (hin : CoeffIn data o j) : slotCoeff data tq j = coeffAt data o j := by
  unfold slotCoeff
  rw [lastSelected_and hlast (decide_eq_true hin)]
  rfl

/-- A table that is whole has a slot. -/
theorem named_lt {data : List UInt8} {h : JpegHeaderInfo} (hparse : parseJpegHeader data = .ok h)
    {c o : Nat} (hnames : Names data c o) : o ∈ dqtTables data ∧ tqAt data o < 4 := by
  obtain ⟨seg, -, -, hlast, hwhole⟩ := hnames
  obtain ⟨hmem, -⟩ := lastSelected_some hlast
  refine ⟨hmem, Nat.lt_of_not_le fun hge => ?_⟩
  obtain ⟨seg, hseg, ho⟩ := List.mem_flatMap.mp hmem
  have hbad : seg.Bad data := .inr ⟨o, ho, hge, hwhole 0 (by decide)⟩
  rw [parseJpegHeader_panic ⟨seg, hseg, hbad⟩] at hparse
  cases hparse

/-- The words of a component are those of the table `o` when its slot is in use and holds them. -/
theorem componentWords_iff {data : List UInt8} {h : JpegHeaderInfo}
    (hparse : parseJpegHeader data = .ok h) (c : Fin 3) (o : Nat) :
    componentWords h c = ((List.finRange 64).map fun j : Fin 64 => (coeffAt data o j).toUInt32) ↔
      keptTq data c < 4 ∧ (∃ o' ∈ dqtTables data, keptTq data c ≤ tqAt data o') ∧
        ∀ j, j < 64 → slotCoeff data (keptTq data c) j = coeffAt data o j := by
  have hne : ((List.finRange 64).map fun j : Fin 64 => (coeffAt data o j).toUInt32) ≠ [] := by simp
  unfold componentWords
  rw [quantTbl_stored hparse, ← quantCount_stored hparse]
  by_cases hcount : keptTq data c < h.quantTableCount
  · rw [if_pos hcount]
    by_cases hlt : keptTq data c < 4
    · rw [Vector.getElem?_eq_getElem hlt]
      have hcoeff (j : Fin 64) := quantTables_stored hparse ⟨keptTq data c, hlt⟩ j
      simp only [hlt, hcount, true_and, Option.elim_some, slotWords, List.map_inj_left,
        List.mem_finRange, forall_const]
      constructor
      · intro hwords j hj
        have hword := hwords ⟨j, hj⟩
        rw [← hcoeff ⟨j, hj⟩]
        exact UInt16.toUInt32_inj.mp hword
      · intro hslot j
        rw [← hslot j j.2, ← hcoeff j]
        rfl
    · rw [Vector.getElem?_eq_none (by omega)]
      exact iff_of_false (fun h => hne h.symm) fun h => hlt h.1
  · rw [if_neg hcount]
    exact iff_of_false (fun h => hne h.symm) fun h => hcount h.2.1

/-- **When a component is dequantised with the table it names.** -/
theorem ownTable_iff (dec : JpuDecoder) (data : List UInt8) (s : Started)
    (hstart : dec.start data = .ok s) :
    (∀ c : Fin 3, c.1 < s.header.numComponents.toNat → OwnTable data s c) ↔
      ∀ c : Fin 3, c.1 < s.header.numComponents.toNat → OwnSelected data c := by
  obtain ⟨hprepare, -, hquant, -⟩ := start_cases hstart
  have hparse := (prepare_passed hprepare).parsed
  refine forall_congr' fun c => imp_congr_right fun hc => exists_congr fun o =>
    and_congr_right fun hnames => ?_
  obtain ⟨hmem, hlt⟩ := named_lt hparse hnames
  rw [qmatWords_upload hquant hc, componentWords_iff hparse c o]
  constructor
  · exact .inr
  · rintro (hsame | hslot)
    · obtain ⟨seg, -, -, hlast, hwhole⟩ := hnames
      have htq := eq_of_beq (lastSelected_some hlast).2
      rw [← htq] at hlast
      rw [hsame]
      exact ⟨hlt, ⟨o, hmem, Nat.le_refl _⟩, fun j hj => slotCoeff_last hlast (hwhole j hj)⟩
    · exact hslot

/-- A grey frame of one block with a quantisation table of ones, both of which go by `tq`. -/
def greyFrame (tq : UInt8) : List UInt8 :=
  [0xFF, 0xDB, 0, 0x43, tq] ++ List.replicate 64 1 ++
    [0xFF, 0xC0, 0, 0x0B, 8, 0, 8, 0, 8, 1, 1, 0x11, tq, 0xFF, 0xDA, 0, 2]

/-- The first slot is used for table 0. -/
theorem ownTable_grey :
    ∃ s, platformDecoder.start (greyFrame 0) = .ok s ∧
      ∀ c : Fin 3, c.1 < s.header.numComponents.toNat → OwnTable (greyFrame 0) s c := by
  have hstart : (platformDecoder.start (greyFrame 0)).map (fun s => s.header.numComponents) =
      .ok 1 := by decide +kernel
  obtain ⟨s, hs, hcomps⟩ := ok_of_map hstart
  refine ⟨s, hs, (ownTable_iff platformDecoder (greyFrame 0) s hs).mpr fun c hc => ?_⟩
  rw [hcomps] at hc
  obtain rfl : c = 0 := Fin.ext (Nat.lt_one_iff.mp hc)
  exact ⟨4, ⟨⟨.sof, 69, 11⟩, by decide +kernel, by decide +kernel, by decide +kernel,
    by decide +kernel⟩, .inl (by decide +kernel)⟩

/-- **A start without the table**: three components and no table at all; and a grey frame that names
table 1, which gets the empty slot 0. -/
theorem missingTable_starts :
    (∃ s, platformDecoder.start (smallFrame 0x22) = .ok s ∧ s.header.numComponents = 3 ∧
      ¬ OwnTable (smallFrame 0x22) s 0) ∧
    ∃ s, platformDecoder.start (greyFrame 1) = .ok s ∧ s.header.numComponents = 1 ∧
      ¬ OwnTable (greyFrame 1) s 0 := by
  constructor
  · have hstart : (platformDecoder.start (smallFrame 0x22)).map
        (fun s => s.header.numComponents) = .ok 3 := by decide +kernel
    have hnone : dqtTables (smallFrame 0x22) = [] := by decide +kernel
    obtain ⟨s, hs, hcomps⟩ := ok_of_map hstart
    refine ⟨s, hs, hcomps, ?_⟩
    rintro ⟨o, ⟨seg, -, -, hlast, -⟩, -⟩
    have hmem := (lastSelected_some hlast).1
    rw [hnone] at hmem
    cases hmem
  · have hstart : (platformDecoder.start (greyFrame 1)).map
        (fun s => (s.header.numComponents, qmatWords (qmatPhase 0) 0 s.quant)) =
        .ok (1, List.replicate 64 0) := by decide +kernel
    have htables : dqtTables (greyFrame 1) = [4] := by decide +kernel
    obtain ⟨s, hs, heq⟩ := ok_of_map hstart
    injection heq with hcomps hwords
    refine ⟨s, hs, hcomps, ?_⟩
    rintro ⟨o, ⟨seg, -, -, hlast, -⟩, hown⟩
    have hmem := (lastSelected_some hlast).1
    rw [htables, List.mem_singleton] at hmem
    rw [hwords, hmem] at hown
    revert hown
    decide +kernel

end Cvirtos.Jpu
