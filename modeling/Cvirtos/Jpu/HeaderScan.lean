import Cvirtos.Jpu.HeaderTables

/-!
# The marker scan as a walk over segments

Where the scan of `parse_jpeg_header` goes depends on the data alone, not on what it has stored:

* `siteAt`, `scanStep_eq` — what the scan meets at a position, and what one turn does there;
* `walk` — the segments the scan visits and how it ends;
* `parseJpegHeader_ok`, `parseJpegHeader_panic` — **the parser stores the visited segments in
  order**, unless one of them holds a table it cannot store.
-/

set_option autoImplicit false

namespace Cvirtos.Jpu

open Cvirtos.Lib

/-! ## The segments without tables -/

/-- The effect of the SOF at `i`. -/
def storeSof (data : List UInt8) (i : Nat) (h : JpegHeaderInfo) : JpegHeaderInfo :=
  let h := { h with
    height := UInt32.ofNat (wordAt data (i + 5))
    width := UInt32.ofNat (wordAt data (i + 7))
    numComponents := (byteAt data (i + 9)).toUInt32 }
  if (byteAt data (i + 9)).toNat = 3 then
    if i + 19 ≤ data.length then
      let sampling : Vector (UInt8 × UInt8) 3 := filled 3 (fun _ => True) (fun c =>
        (highNibble (byteAt data (i + 11 + 3 * c)), lowNibble (byteAt data (i + 11 + 3 * c))))
        h.sampling
      { h with
        sampling := sampling
        quantTbl := filled 3 (fun _ => True) (fun c => (byteAt data (i + 12 + 3 * c)).toNat) h.quantTbl
        format := formatOf sampling }
    else h
  else { h with sampling := .replicate 3 (1, 1), format := .f400 }

/-- A SOF stores no table. -/
theorem storeSof_tables (data : List UInt8) (i : Nat) (h : JpegHeaderInfo) :
    (storeSof data i h).huffTables = h.huffTables ∧
      (storeSof data i h).quantTables = h.quantTables ∧
      (storeSof data i h).quantTableCount = h.quantTableCount := by
  unfold storeSof
  split
  · split <;> exact ⟨rfl, rfl, rfl⟩
  · exact ⟨rfl, rfl, rfl⟩

theorem readComp_filled {data : List UInt8} {comps c : Nat} (hc : c < 3)
    (hlen : comps + 9 ≤ data.length) (h : JpegHeaderInfo) :
    readComp data comps c { h with
        sampling := filled c (fun _ => True) (fun c =>
          (highNibble (byteAt data (comps + 1 + 3 * c)), lowNibble (byteAt data (comps + 1 + 3 * c))))
          h.sampling
        quantTbl := filled c (fun _ => True) (fun c => (byteAt data (comps + 2 + 3 * c)).toNat)
          h.quantTbl } =
      .ok { h with
        sampling := filled (c + 1) (fun _ => True) (fun c =>
          (highNibble (byteAt data (comps + 1 + 3 * c)), lowNibble (byteAt data (comps + 1 + 3 * c))))
          h.sampling
        quantTbl := filled (c + 1) (fun _ => True) (fun c =>
          (byteAt data (comps + 2 + 3 * c)).toNat) h.quantTbl } := by
  have h1 : comps + c * COMP_ENTRY_SIZE + COMP_SAMPLING_OFF = comps + 1 + 3 * c := by
    unfold COMP_ENTRY_SIZE COMP_SAMPLING_OFF
    omega
  have h2 : comps + c * COMP_ENTRY_SIZE + COMP_QUANT_OFF = comps + 2 + 3 * c := by
    unfold COMP_ENTRY_SIZE COMP_QUANT_OFF
    omega
  unfold readComp
  simp only [h1, h2, index_eq (show comps + 1 + 3 * c < data.length by omega),
    index_eq (show comps + 2 + 3 * c < data.length by omega), bind, Except.bind,
    setAt_eq _ _ hc, ← filled_succ_in (c := fun _ => True) hc trivial]
  rfl

theorem readSof_eq {data : List UInt8} {i : Nat} (hlen : i + 10 < data.length)
    (h : JpegHeaderInfo) : readSof data i h = .ok (storeSof data i h) := by
  have e5 : i + SOF_HEIGHT_OFF = i + 5 := rfl
  have e7 : i + SOF_WIDTH_OFF = i + 7 := rfl
  have e9 : i + SOF_NCOMP_OFF = i + 9 := rfl
  have e10 : i + SOF_COMPS_OFF + 3 * COMP_ENTRY_SIZE = i + 19 := rfl
  have e3 : NUM_JPEG_COMPS = 3 := rfl
  have hn : (byteAt data (i + 9)).toUInt32.toNat = (byteAt data (i + 9)).toNat := by simp
  unfold readSof storeSof
  simp only [e5, e7, e9, e10, e3, hn, be16_eq (show i + 5 + 1 < data.length by omega),
    be16_eq (show i + 7 + 1 < data.length by omega),
    index_eq (show i + 9 < data.length by omega), bind, Except.bind]
  by_cases h3 : (byteAt data (i + 9)).toNat = 3
  · rw [if_pos h3, if_pos h3]
    by_cases h19 : i + 19 ≤ data.length
    · rw [if_pos h19, if_pos h19]
      have hloop := forRange_eq (n := 3) (fun c => { h with
        height := UInt32.ofNat (wordAt data (i + 5))
        width := UInt32.ofNat (wordAt data (i + 7))
        numComponents := (byteAt data (i + 9)).toUInt32
        sampling := filled c (fun _ => True) (fun c =>
          (highNibble (byteAt data (i + 10 + 1 + 3 * c)),
            lowNibble (byteAt data (i + 10 + 1 + 3 * c)))) h.sampling
        quantTbl := filled c (fun _ => True) (fun c => (byteAt data (i + 10 + 2 + 3 * c)).toNat)
          h.quantTbl }) fun c hc => readComp_filled hc (by omega) { h with
            height := UInt32.ofNat (wordAt data (i + 5))
            width := UInt32.ofNat (wordAt data (i + 7))
            numComponents := (byteAt data (i + 9)).toUInt32 }
      simp only [filled_zero] at hloop
      have e10' : i + SOF_COMPS_OFF = i + 10 := rfl
      rw [e10', hloop]
      rfl
    · rw [if_neg h19, if_neg h19]
      rfl
  · rw [if_neg h3, if_neg h3]
    rfl

/-- The header once the first `n` selector entries of the SOS at `i` are read. -/
def scanUpTo (data : List UInt8) (i n : Nat) (h : JpegHeaderInfo) : JpegHeaderInfo :=
  { h with
    dcHuffTbl := filled n (fun c => i + 7 + 2 * c ≤ data.length)
      (fun c => (highNibble (byteAt data (i + 6 + 2 * c))).toNat) h.dcHuffTbl
    acHuffTbl := filled n (fun c => i + 7 + 2 * c ≤ data.length)
      (fun c => (lowNibble (byteAt data (i + 6 + 2 * c))).toNat) h.acHuffTbl }

/-- The effect of the selectors of the SOS at `i`. -/
def storeScan (data : List UInt8) (i : Nat) (h : JpegHeaderInfo) : JpegHeaderInfo :=
  scanUpTo data i (min (byteAt data (i + 4)).toNat 3) h

/-- What the loop over the selectors carries: entries past the data are not read, and the offset
stays where the first of them would begin. -/
def ScanAt (data : List UInt8) (i : Nat) (h : JpegHeaderInfo) (c : Nat)
    (s : JpegHeaderInfo × Nat) : Prop :=
  s.1 = scanUpTo data i c h ∧
    (s.2 = i + 5 + 2 * c ∨ s.2 ≤ i + 5 + 2 * c ∧ data.length < s.2 + 2)

theorem readScanComp_at {data : List UInt8} {i : Nat} {h : JpegHeaderInfo} {c : Nat} (hc : c < 3)
    {s : JpegHeaderInfo × Nat} (hs : ScanAt data i h c s) :
    ∃ s', readScanComp data c s = .ok s' ∧ ScanAt data i h (c + 1) s' := by
  obtain ⟨h', off⟩ := s
  obtain ⟨rfl, hoff⟩ := hs
  have e2 : SCAN_COMP_ENTRY_SIZE = 2 := rfl
  have e1 : SCAN_COMP_TABLES_OFF = 1 := rfl
  simp only at hoff
  unfold readScanComp ScanAt
  simp only [e1, e2]
  by_cases hin : off + 2 ≤ data.length
  · obtain rfl : off = i + 5 + 2 * c := by omega
    have hc' : i + 7 + 2 * c ≤ data.length := by omega
    have hidx : i + 5 + 2 * c + 1 = i + 6 + 2 * c := by omega
    refine ⟨(scanUpTo data i (c + 1) h, i + 5 + 2 * c + 2), ?_, rfl, Or.inl ?_⟩
    · rw [if_pos hin, hidx, index_eq (by omega)]
      unfold scanUpTo
      simp only [bind, Except.bind, setAt_eq _ _ hc,
        ← filled_succ_in (c := fun c => i + 7 + 2 * c ≤ data.length) hc hc']
      rfl
    · show i + 5 + 2 * c + 2 = i + 5 + 2 * (c + 1)
      omega
  · rw [if_neg hin]
    have hc' : ¬ i + 7 + 2 * c ≤ data.length := by omega
    refine ⟨_, rfl, ?_, Or.inr ?_⟩
    · unfold scanUpTo
      simp only [filled_succ_out (c := fun c => i + 7 + 2 * c ≤ data.length) (Or.inr hc')]
    · show off ≤ i + 5 + 2 * (c + 1) ∧ data.length < off + 2
      omega

/-- Entries past the data change nothing. -/
theorem scanUpTo_short {data : List UInt8} {i : Nat} (h5 : data.length ≤ i + 5) (n : Nat)
    (h : JpegHeaderInfo) : scanUpTo data i n h = h := by
  have hout : ∀ (x : Nat → Nat) (v : Vector Nat 3),
      filled n (fun c => i + 7 + 2 * c ≤ data.length) x v = v := by
    intro x v
    ext k hk
    rw [filled_getElem, if_neg (by omega)]
  unfold scanUpTo
  simp only [hout]

theorem readScan_eq (data : List UInt8) (i : Nat) (h : JpegHeaderInfo) :
    readScan data i h = .ok (storeScan data i h) := by
  have e4 : i + SOS_NCOMP_OFF = i + 4 := rfl
  have e5 : i + SOS_COMPS_OFF = i + 5 := rfl
  have e3 : NUM_JPEG_COMPS = 3 := rfl
  unfold readScan storeScan
  rw [e4, e5, e3]
  by_cases h5 : i + 5 < data.length
  · have h0 : ScanAt data i h 0 (h, i + 5) := by
      refine ⟨?_, Or.inl rfl⟩
      unfold scanUpTo
      simp only [filled_zero]
    have hstep : ∀ c, c < min (byteAt data (i + 4)).toNat 3 → ∀ s, ScanAt data i h c s →
        ∃ s', readScanComp data c s = .ok s' ∧ ScanAt data i h (c + 1) s' :=
      fun c hc s hs => readScanComp_at (by omega) hs
    obtain ⟨s, hloop, hs⟩ := forRange_ok (ScanAt data i h) h0 hstep
    rw [if_pos h5, ← hs.1]
    simp only [index_eq (show i + 4 < data.length by omega), bind, Except.bind, hloop]
    rfl
  · rw [if_neg h5, scanUpTo_short (by omega)]
    rfl

/-- The effect of the DRI at `i`. -/
def storeDri (data : List UInt8) (i : Nat) (h : JpegHeaderInfo) : JpegHeaderInfo :=
  if i + 6 ≤ data.length then { h with restartInterval := UInt32.ofNat (wordAt data (i + 4)) } else h

theorem readDri_eq (data : List UInt8) (i : Nat) (h : JpegHeaderInfo) :
    readDri data i h = .ok (storeDri data i h) := by
  have e4 : i + DRI_INTERVAL_OFF = i + 4 := rfl
  unfold readDri storeDri
  rw [e4]
  by_cases h6 : i + 4 + 2 ≤ data.length
  · rw [if_pos h6, if_pos (by omega), be16_eq (by omega)]
    rfl
  · rw [if_neg h6, if_neg (by omega)]
    rfl

/-! ## One turn of the scan -/

/-- The segments the scan looks into, and those it passes over. -/
inductive Kind where
  | sof
  | dht
  | dqt
  | dri
  | other
  deriving DecidableEq, Repr

/-- What the scan meets at a position. -/
inductive Site where
  /-- Nothing: the scan moves on by `more + 1` bytes. -/
  | skip (more : Nat)
  | eoi
  /-- A SOF too close to the end of the data. -/
  | sofShort
  /-- A segment with its length field. -/
  | segment (kind : Kind) (length : Nat)
  /-- A SOS with its length field. -/
  | sos (length : Nat)
  deriving DecidableEq, Repr

/-- A site whose length field may lie past the data. -/
def sizedSite (data : List UInt8) (i more : Nat) (site : Nat → Site) : Site :=
  if i + 3 < data.length then site (wordAt data (i + 2)) else .skip more

/-- What the scan meets at `i`. -/
def siteAt (data : List UInt8) (i : Nat) : Site :=
  if byteAt data i ≠ MARKER_PREFIX then .skip 0 else
  match Marker.fromByte (byteAt data (i + 1)) with
  | .fill => .skip 0
  | .stuffing | .soi | .other => .skip 1
  | .eoi => .eoi
  | .sof0 | .sof2 =>
    if i + 10 < data.length then .segment .sof (wordAt data (i + 2)) else .sofShort
  | .dht => sizedSite data i 0 (.segment .dht)
  | .sos => sizedSite data i 0 .sos
  | .dqt => sizedSite data i 0 (.segment .dqt)
  | .dri => sizedSite data i 0 (.segment .dri)
  | .otherWithLength => sizedSite data i 1 (.segment .other)

/-- The run of the segment at `i`. -/
def runSegment (data : List UInt8) (kind : Kind) (i length : Nat) (h : JpegHeaderInfo) :
    Run JpegHeaderInfo :=
  match kind with
  | .sof => .ok (storeSof data i h)
  | .dht => parseDht data (i + 4) (i + 2 + length) h
  | .dqt => parseDqt data (i + 4) (i + 2 + length) h
  | .dri => .ok (storeDri data i h)
  | .other => .ok h

/-- One turn at the given site. -/
def runSite (data : List UInt8) (i : Nat) (h : JpegHeaderInfo) : Site → Run (Next × JpegHeaderInfo)
  | .skip more => .ok (.goto (i + (more + 1)), h)
  | .eoi => .ok (.stop, h)
  | .sofShort => .error (.error "SOF too short")
  | .segment kind length =>
    (runSegment data kind i length h).map fun h => (.goto (i + (2 + length)), h)
  | .sos length => .ok (.accept, { storeScan data i h with ecsOffset := i + 2 + length })

/-- **One turn of the scan** does what its site says. -/
theorem scanStep_eq {data : List UInt8} {i : Nat} (hlt : i + 1 < data.length)
    (h : JpegHeaderInfo) : scanStep data i h = runSite data i h (siteAt data i) := by
  have em : MARKER_SIZE = 2 := rfl
  have e10 : i + SOF_COMPS_OFF = i + 10 := rfl
  have e4 : i + 2 + SEG_LENGTH_OFF = i + 4 := rfl
  unfold scanStep siteAt
  rw [index_eq (Nat.lt_of_succ_lt hlt)]
  simp only [bind, Except.bind, index_eq hlt, em, e10, e4]
  by_cases hff : byteAt data i ≠ MARKER_PREFIX
  · rw [if_pos hff, if_pos hff]
    rfl
  rw [if_neg hff, if_neg hff]
  by_cases h3 : i + 3 < data.length
  · simp only [sizedSite, if_pos h3, segLength_eq h3, readScan_eq, readDri_eq]
    cases Marker.fromByte (byteAt data (i + 1)) with
    | fill | stuffing | soi | other | eoi | sos | dri | otherWithLength => rfl
    | dht => simp only [runSite, runSegment]; cases parseDht data (i + 4) _ h <;> rfl
    | dqt => simp only [runSite, runSegment]; cases parseDqt data (i + 4) _ h <;> rfl
    | sof0 | sof2 =>
      by_cases h10 : i + 10 < data.length
      · simp only [if_pos h10, ge_iff_le, if_neg (Nat.not_le_of_lt h10), readSof_eq h10]
        rfl
      · simp only [if_neg h10, ge_iff_le, if_pos (Nat.le_of_not_lt h10)]
        rfl
  · -- the length field lies past the data, and so does all that follows it
    have hdri : storeDri data i h = h := if_neg (by omega)
    have h10 : ¬ i + 10 < data.length := by omega
    simp only [sizedSite, if_neg h3, segLength_none (Nat.le_of_not_lt h3), readDri_eq, hdri,
      if_neg h10, ge_iff_le, if_pos (Nat.le_of_not_lt h10)]
    cases Marker.fromByte (byteAt data (i + 1)) <;> rfl

/-! ## The walk -/

/-- A segment the scan visits: its position and its length field. -/
structure Seg where
  kind : Kind
  pos : Nat
  length : Nat
  deriving DecidableEq, Repr

/-- How the scan ends when no table stops it. -/
inductive Ending where
  /-- At the SOS at `pos`, with its length field. -/
  | sos (pos length : Nat)
  | sofShort
  | noSos
  deriving DecidableEq, Repr

/-- The segments visited from `i` on, in order, and the end of the scan. -/
def walk (data : List UInt8) (i : Nat) : List Seg × Ending :=
  if i + 1 < data.length then
    match siteAt data i with
    | .skip more => walk data (i + (more + 1))
    | .eoi => ([], .noSos)
    | .sofShort => ([], .sofShort)
    | .segment kind length =>
      let (segs, ending) := walk data (i + (2 + length))
      (⟨kind, i, length⟩ :: segs, ending)
    | .sos length => ([], .sos i length)
  else ([], .noSos)
termination_by data.length - i

/-- The Huffman tables of a segment. -/
def Seg.dhts (data : List UInt8) (seg : Seg) : List Nat :=
  match seg.kind with
  | .dht => dhtOffsets data seg.pos seg.length
  | _ => []

/-- The quantisation tables of a segment. -/
def Seg.dqts (data : List UInt8) (seg : Seg) : List Nat :=
  match seg.kind with
  | .dqt => dqtOffsets data seg.pos seg.length
  | _ => []

/-- The segment holds a table that cannot be stored. -/
def Seg.Bad (data : List UInt8) (seg : Seg) : Prop :=
  (∃ o ∈ seg.dhts data, Overfull data o) ∨ ∃ o ∈ seg.dqts data, Misnumbered data o

/-- The effect of a segment. -/
def Seg.store (data : List UInt8) (seg : Seg) (h : JpegHeaderInfo) : JpegHeaderInfo :=
  match seg.kind with
  | .sof => storeSof data seg.pos h
  | .dht => storeAll (storeDht data) (dhtOffsets data seg.pos seg.length) h
  | .dqt => storeAll (storeDqt data) (dqtOffsets data seg.pos seg.length) h
  | .dri => storeDri data seg.pos h
  | .other => h

/-- **What a segment keeps**: whatever every store of its kind keeps. -/
theorem Seg.store_inv {P : JpegHeaderInfo → Prop} {data : List UInt8} {seg : Seg}
    (hsof : seg.kind = .sof → ∀ h, P h → P (storeSof data seg.pos h))
    (hdht : seg.kind = .dht → ∀ o h, P h → P (storeDht data o h))
    (hdqt : seg.kind = .dqt → ∀ o h, P h → P (storeDqt data o h))
    (hdri : ∀ interval h, P h → P { h with restartInterval := interval })
    {h : JpegHeaderInfo} (hp : P h) : P (seg.store data h) := by
  obtain ⟨kind, pos, length⟩ := seg
  cases kind with
  | sof => exact hsof rfl h hp
  | dht => exact storeAll_inv (storeDht data) (hdht rfl) _ hp
  | dqt => exact storeAll_inv (storeDqt data) (hdqt rfl) _ hp
  | dri =>
    show P (storeDri data pos h)
    unfold storeDri
    split
    · exact hdri _ h hp
    · exact hp
  | other => exact hp

/-- The effect of segments, in order. -/
def storeSegs (data : List UInt8) (segs : List Seg) (h : JpegHeaderInfo) : JpegHeaderInfo :=
  segs.foldl (fun h seg => seg.store data h) h

theorem runSegment_ok {data : List UInt8} {seg : Seg} (hgood : ¬ seg.Bad data)
    (h : JpegHeaderInfo) :
    runSegment data seg.kind seg.pos seg.length h = .ok (seg.store data h) := by
  obtain ⟨kind, pos, length⟩ := seg
  unfold Seg.Bad Seg.dhts Seg.dqts at hgood
  cases kind with
  | dht => exact parseDht_ok (fun o ho hover => hgood (Or.inl ⟨o, ho, hover⟩)) h
  | dqt => exact parseDqt_ok (fun o ho hnum => hgood (Or.inr ⟨o, ho, hnum⟩)) h
  | sof | dri | other => rfl

theorem runSegment_panic {data : List UInt8} {seg : Seg} (hbad : seg.Bad data)
    (h : JpegHeaderInfo) : runSegment data seg.kind seg.pos seg.length h = .error .panic := by
  obtain ⟨kind, pos, length⟩ := seg
  unfold Seg.Bad Seg.dhts Seg.dqts at hbad
  cases kind with
  | dht =>
    rcases hbad with hbad | ⟨o, ho, -⟩
    · exact parseDht_panic hbad h
    · cases ho
  | dqt =>
    rcases hbad with ⟨o, ho, -⟩ | hbad
    · cases ho
    · exact parseDqt_panic hbad h
  | sof | dri | other => rcases hbad with ⟨o, ho, -⟩ | ⟨o, ho, -⟩ <;> cases ho

/-- What the parser returns at the end of its scan. -/
def finish (data : List UInt8) (h : JpegHeaderInfo) : Ending → Run JpegHeaderInfo
  | .sos pos length => .ok { storeScan data pos h with ecsOffset := pos + 2 + length }
  | .sofShort => .error (.error "SOF too short")
  | .noSos => .error (.error "SOS not found")

/-- One turn of the loop, on the site at `i`. -/
theorem parseLoop_site {data : List UInt8} {i : Nat} (hlt : i + 1 < data.length)
    (h : JpegHeaderInfo) :
    parseLoop data i h =
      match runSite data i h (siteAt data i) with
      | .error f => .error f
      | .ok (.goto i, h) => parseLoop data i h
      | .ok (.stop, _) => .error (.error "SOS not found")
      | .ok (.accept, h) => .ok h := by
  rw [← scanStep_eq hlt, parseLoop, if_pos (by omega)]
  cases hs : scanStep data i h with
  | error f => rfl
  | ok r =>
    obtain ⟨next, h'⟩ := r
    cases next <;> rfl

theorem parseLoop_end {data : List UInt8} {i : Nat} (hge : ¬ i + 1 < data.length)
    (h : JpegHeaderInfo) : parseLoop data i h = .error (.error "SOS not found") := by
  rw [parseLoop, if_neg (by omega)]

/-- **The scan stores the segments of its walk.** -/
theorem parseLoop_ok (data : List UInt8) (i : Nat) (h : JpegHeaderInfo)
    (hgood : ∀ seg ∈ (walk data i).1, ¬ seg.Bad data) :
    parseLoop data i h = finish data (storeSegs data (walk data i).1 h) (walk data i).2 := by
  rw [walk] at hgood ⊢
  by_cases hlt : i + 1 < data.length
  · rw [if_pos hlt] at hgood ⊢
    rw [parseLoop_site hlt]
    cases hsite : siteAt data i with
    | skip more =>
      rw [hsite] at hgood
      exact parseLoop_ok data _ h hgood
    | eoi | sofShort => rfl
    | sos length => rfl
    | segment kind length =>
      rw [hsite] at hgood
      have hseg := hgood ⟨kind, i, length⟩ (by simp)
      have hrun := runSegment_ok hseg h
      simp only at hrun
      simp only [runSite, hrun, Except.map]
      exact parseLoop_ok data _ _ fun seg hs => hgood seg (List.mem_cons_of_mem _ hs)
  · rw [if_neg hlt, parseLoop_end hlt]
    rfl
termination_by data.length - i

/-- A segment of the walk that holds a table it cannot store makes the scan panic. -/
theorem parseLoop_panic (data : List UInt8) (i : Nat) (h : JpegHeaderInfo)
    (hbad : ∃ seg ∈ (walk data i).1, seg.Bad data) : parseLoop data i h = .error .panic := by
  obtain ⟨seg, hs, hbad⟩ := hbad
  rw [walk] at hs
  by_cases hlt : i + 1 < data.length
  · rw [if_pos hlt] at hs
    rw [parseLoop_site hlt]
    cases hsite : siteAt data i with
    | skip more =>
      rw [hsite] at hs
      exact parseLoop_panic data _ h ⟨seg, hs, hbad⟩
    | eoi | sofShort => rw [hsite] at hs; cases hs
    | sos length => rw [hsite] at hs; cases hs
    | segment kind length =>
      rw [hsite] at hs
      by_cases hfirst : Seg.Bad data ⟨kind, i, length⟩
      · have hrun := runSegment_panic hfirst h
        simp only at hrun
        simp only [runSite, hrun, Except.map]
      · have hrun := runSegment_ok hfirst h
        simp only at hrun
        simp only [runSite, hrun, Except.map]
        rcases List.mem_cons.mp hs with rfl | hs
        · exact absurd hbad hfirst
        · exact parseLoop_panic data _ _ ⟨seg, hs, hbad⟩
  · rw [if_neg hlt] at hs
    cases hs
termination_by data.length - i

/-- The segments a parse visits. -/
def segments (data : List UInt8) : List Seg := (walk data 0).1

/-- The end of a parse. -/
def ending (data : List UInt8) : Ending := (walk data 0).2

/-- **The parser stores the segments it visits**, in order, when every table has a place. -/
theorem parseJpegHeader_ok {data : List UInt8} (hgood : ∀ seg ∈ segments data, ¬ seg.Bad data) :
    parseJpegHeader data = finish data (storeSegs data (segments data) .new) (ending data) :=
  parseLoop_ok data 0 .new hgood

/-- **The parser panics** at a table that has none. -/
theorem parseJpegHeader_panic {data : List UInt8} (hbad : ∃ seg ∈ segments data, seg.Bad data) :
    parseJpegHeader data = .error .panic := parseLoop_panic data 0 .new hbad

end Cvirtos.Jpu
