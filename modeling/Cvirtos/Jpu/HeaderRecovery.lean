import Cvirtos.Jpu.HeaderEncoding

/-!
# Parsing a well-formed header

* `storeDht_encode`, `storeDqt_encode` — a table in the data is stored as its item says;
* `parseLoop_segment`, `parseLoop_frame`, `parseLoop_scan` — the scan runs in step with the
  segments of an encoding, whatever their payloads contain;
* `parseJpegHeader_encode` — **the parsed header is what the items make of the initial one**.
-/

set_option autoImplicit false

namespace Cvirtos.Jpu

open Cvirtos.Lib

/-! ## Huffman tables -/

theorem dhtTable_length (t : DhtTable) : t.encode.length = 17 + t.values.length := by
  simp [DhtTable.encode]
  omega

theorem dhtTable_slotAt {data : List UInt8} {o : Nat} {t : DhtTable}
    (hc : Carries data o t.encode) : slotAt data o = t.slot.1 := by
  have h0 := hc.byteAt (k := 0) (by rw [dhtTable_length]; omega)
  rw [Nat.add_zero] at h0
  have hhead : byteAt t.encode 0 = t.head := rfl
  unfold slotAt
  rw [h0, hhead]
  have hall : ∀ tc th : Fin 2, huffSlot
      (highNibble (nibbles ⟨tc.1, by omega⟩ ⟨th.1, by omega⟩))
      (lowNibble (nibbles ⟨tc.1, by omega⟩ ⟨th.1, by omega⟩)) = th.1 * 2 + tc.1 := by decide
  exact hall t.tc t.th

theorem dhtTable_bits {data : List UInt8} {o : Nat} {t : DhtTable}
    (hc : Carries data o t.encode) {j : Nat} (hj : j < 16) :
    byteAt data (o + 1 + j) = t.bits[j] := by
  have hlen : 1 + j < t.encode.length := by rw [dhtTable_length]; omega
  rw [Nat.add_assoc, hc.byteAt hlen, byteAt_eq hlen]
  simp only [DhtTable.encode, Nat.add_comm 1 j, List.getElem_cons_succ]
  rw [List.getElem_append_left (by simpa using hj)]
  simp

theorem dhtTable_values {data : List UInt8} {o : Nat} {t : DhtTable}
    (hc : Carries data o t.encode) {j : Nat} (hj : j < t.values.length) :
    byteAt data (o + 17 + j) = t.values[j] := by
  have hlen : 17 + j < t.encode.length := by rw [dhtTable_length]; omega
  have hsucc : 17 + j = (16 + j) + 1 := by omega
  rw [Nat.add_assoc, hc.byteAt hlen, byteAt_eq hlen]
  simp only [DhtTable.encode, hsucc, List.getElem_cons_succ]
  rw [List.getElem_append_right (by simp)]
  simp

theorem dhtTable_inside {data : List UInt8} {o : Nat} {t : DhtTable}
    (hc : Carries data o t.encode) : o + 17 + t.values.length ≤ data.length := by
  have := hc.length_le
  rw [dhtTable_length] at this
  omega

theorem dhtTable_countSum {data : List UInt8} {o : Nat} {t : DhtTable}
    (hc : Carries data o t.encode) : countSum data o 16 = t.values.length := by
  have hin := dhtTable_inside hc
  rw [t.count]
  unfold countSum totalCount
  congr 1
  apply List.ext_getElem
  · simp
  · intro j hj _
    have hj16 : j < 16 := by simpa using hj
    simp only [List.getElem_map, List.getElem_range, Vector.getElem_toList]
    unfold countAt
    rw [if_pos (by omega), dhtTable_bits hc hj16]

/-- **A Huffman table in the data is stored as its item says.** -/
theorem storeDht_encode {data : List UInt8} {o : Nat} {t : DhtTable}
    (hc : Carries data o t.encode) (h : JpegHeaderInfo) :
    storeDht data o h = Item.apply h (.dht t) := by
  have hin := dhtTable_inside hc
  have hsum := dhtTable_countSum hc
  have hbits : ∀ old, bitsAt data o old = t.bits := by
    intro old
    ext j hj
    unfold bitsAt
    rw [filled_getElem, if_pos ⟨hj, by omega⟩, dhtTable_bits hc hj]
  have hvalues : ∀ old, valuesAt data o old =
      filled t.values.length (fun _ => True) (fun j => t.values.getD j 0) old := by
    intro old
    ext j hj
    unfold valuesAt
    rw [filled_getElem, filled_getElem, hsum]
    by_cases hjv : j < t.values.length
    · rw [if_pos ⟨hjv, by omega⟩, if_pos ⟨hjv, trivial⟩, dhtTable_values hc hjv]
      simp [hjv]
    · rw [if_neg (fun hh => hjv hh.1), if_neg (fun hh => hjv hh.1)]
  have hread : ∀ old : HuffTable, old.readAt data o = t.fill old := by
    intro old
    unfold HuffTable.readAt DhtTable.fill
    rw [hbits, hvalues, hsum]
  unfold storeDht Item.apply
  simp only [hread, dhtTable_slotAt hc, getElem_fin]

/-! ## Quantisation tables -/

theorem coeffs_length (c : Coeffs) :
    c.encode.length = if c.is8 then 64 else 128 := by
  cases c with
  | bits8 values => simp [Coeffs.encode, Coeffs.is8]
  | bits16 values =>
    have h2 : ∀ l : List UInt16, (l.flatMap fun v => bytes16 v.toNat).length = 2 * l.length := by
      intro l
      induction l with
      | nil => rfl
      | cons v l ih =>
          rw [List.flatMap_cons, List.length_append, ih]
          simp [bytes16]
          omega
    rw [Coeffs.encode, h2]
    simp [Coeffs.is8]

/-- The bytes of the 16-bit coefficient `j`. -/
theorem getElem_bytes16 (l : List UInt16) {j : Nat} (hj : j < l.length) :
    byteAt (l.flatMap fun v => bytes16 v.toNat) (j * 2) = UInt8.ofNat (l[j].toNat / 256) ∧
      byteAt (l.flatMap fun v => bytes16 v.toNat) (j * 2 + 1) =
        UInt8.ofNat (l[j].toNat % 256) := by
  induction l generalizing j with
  | nil => simp at hj
  | cons v l ih =>
      cases j with
      | zero => exact ⟨rfl, rfl⟩
      | succ j =>
          have hlen : (bytes16 v.toNat).length = 2 := rfl
          have e1 : (j + 1) * 2 = (bytes16 v.toNat).length + j * 2 := by rw [hlen]; omega
          have e2 : (j + 1) * 2 + 1 = (bytes16 v.toNat).length + (j * 2 + 1) := by rw [hlen]; omega
          rw [List.flatMap_cons, e2, e1, byteAt_append_right, byteAt_append_right]
          exact ih (by simpa using hj)

theorem uint16_split (v : UInt16) :
    (UInt8.ofNat (v.toNat / 256)).toUInt16 <<< 8 ||| (UInt8.ofNat (v.toNat % 256)).toUInt16 = v := by
  apply UInt16.toNat_inj.mp
  have hv := v.toNat_lt
  rw [UInt16.toNat_or, UInt16.toNat_shiftLeft, UInt8.toNat_toUInt16, UInt8.toNat_toUInt16,
    UInt8.toNat_ofNat', UInt8.toNat_ofNat']
  have h1 : v.toNat / 256 % 2 ^ 8 = v.toNat / 256 := by omega
  have h2 : v.toNat % 256 % 2 ^ 8 = v.toNat % 256 := by omega
  have h3 : (v.toNat / 256) <<< 8 % 2 ^ 16 = (v.toNat / 256) <<< 8 := by
    rw [Nat.shiftLeft_eq]
    omega
  show (v.toNat / 256 % 2 ^ 8) <<< 8 % 2 ^ 16 ||| v.toNat % 256 % 2 ^ 8 = v.toNat
  rw [h1, h2, h3, shiftLeft_or _ _ (by omega)]
  omega

theorem uint32_ofNat (v : UInt16) : UInt32.ofNat v.toNat = v.toUInt32 := by
  apply UInt32.toNat_inj.mp
  have hv := v.toNat_lt
  rw [UInt32.toNat_ofNat', UInt16.toNat_toUInt32]
  omega

theorem dqtTable_head {data : List UInt8} {o : Nat} {t : DqtTable}
    (hc : Carries data o t.encode) :
    is8BitAt data o = t.coeffs.is8 ∧ tqAt data o = t.tq.1 := by
  have h0 := hc.byteAt (k := 0) (by simp [DqtTable.encode])
  rw [Nat.add_zero] at h0
  have hhead : byteAt t.encode 0 = nibbles t.coeffs.pq ⟨t.tq.1, by omega⟩ := rfl
  obtain ⟨hhi, hlo⟩ := nibbles_split t.coeffs.pq ⟨t.tq.1, by omega⟩
  unfold is8BitAt tqAt
  rw [h0, hhead, hhi, hlo]
  constructor
  · cases t.coeffs <;> rfl
  · have hall : ∀ q : Fin 4, (UInt8.ofNat q.1).toNat = q.1 := by decide
    exact hall t.tq

theorem dqtTable_inside {data : List UInt8} {o : Nat} {t : DqtTable}
    (hc : Carries data o t.encode) :
    o + 1 + (if t.coeffs.is8 then 64 else 128) ≤ data.length := by
  have := hc.length_le
  unfold DqtTable.encode at this
  rw [List.length_cons, coeffs_length] at this
  omega

/-- The coefficients of a table in the data. -/
theorem dqtTable_coeffs {data : List UInt8} {o : Nat} {t : DqtTable}
    (hc : Carries data o t.encode) {j : Nat} (hj : j < 64) :
    CoeffIn data o j ∧ coeffAt data o j = t.coeffs.stored[j] := by
  have hin := dqtTable_inside hc
  obtain ⟨h8, -⟩ := dqtTable_head hc
  have hcons : ∀ k, k < t.coeffs.encode.length →
      byteAt data (o + 1 + k) = byteAt t.coeffs.encode k := by
    intro k hk
    rw [Nat.add_assoc, Nat.add_comm 1 k, hc.byteAt (by simpa [DqtTable.encode] using hk)]
    rfl
  have hlen := coeffs_length t.coeffs
  unfold CoeffIn coeffAt
  rw [h8]
  cases hco : t.coeffs with
  | bits8 values =>
    rw [hco] at hcons hin hlen
    simp only [Coeffs.is8, ↓reduceIte] at hin hlen
    simp only [Coeffs.is8, ↓reduceIte]
    refine ⟨by omega, ?_⟩
    rw [hcons j (by omega), byteAt_eq (by omega)]
    simp [Coeffs.encode, Coeffs.stored]
  | bits16 values =>
    rw [hco] at hcons hin hlen
    simp only [Coeffs.is8, Bool.false_eq_true, ↓reduceIte] at hin hlen
    simp only [Coeffs.is8, Bool.false_eq_true, ↓reduceIte]
    refine ⟨by omega, ?_⟩
    obtain ⟨e1, e2⟩ := getElem_bytes16 values.toList (show j < values.toList.length by simpa using hj)
    have e2' := hcons (j * 2 + 1) (by omega)
    rw [← Nat.add_assoc] at e2'
    rw [hcons (j * 2) (by omega), e2', Coeffs.encode, e1, e2, uint16_split]
    simp [Coeffs.stored]

/-- **A quantisation table in the data is stored as its item says.** -/
theorem storeDqt_encode {data : List UInt8} {o : Nat} {t : DqtTable}
    (hc : Carries data o t.encode) (h : JpegHeaderInfo) :
    storeDqt data o h = Item.apply h (.dqt t) := by
  obtain ⟨-, htq⟩ := dqtTable_head hc
  have hfill : ∀ old, filled 64 (CoeffIn data o) (coeffAt data o) old = t.coeffs.stored := by
    intro old
    ext j hj
    obtain ⟨hin, he⟩ := dqtTable_coeffs hc hj
    rw [filled_getElem, if_pos ⟨hj, hin⟩, he]
  unfold storeDqt Item.apply quantUpTo
  simp only [htq, dif_pos t.tq.2, hfill]

/-! ## The tables of a segment -/

/-- **Tables in the data, one after the other**: the walk meets each at its place, none is bad, and
they are stored as their items say. -/
theorem storeAll_encode {τ : Type} {data : List UInt8} {encode : τ → List UInt8} {item : τ → Item}
    {body : Nat → Nat} {store : Nat → JpegHeaderInfo → JpegHeaderInfo} {bad : Nat → Prop}
    (hone : ∀ t o, Carries data o (encode t) → (encode t).length = 1 + body o ∧
      o + 1 < data.length ∧ ¬ bad o ∧ ∀ h, store o h = Item.apply h (item t))
    (ts : List τ) {o : Nat} (hc : Carries data o (ts.flatMap encode)) :
    (∀ p ∈ tableOffsets data body o (o + (ts.flatMap encode).length), ¬ bad p) ∧
      ∀ h, storeAll store (tableOffsets data body o (o + (ts.flatMap encode).length)) h =
        (ts.map item).foldl Item.apply h := by
  induction ts generalizing o with
  | nil =>
      rw [tableOffsets, if_neg (by simp)]
      exact ⟨by simp, fun h => rfl⟩
  | cons t ts ih =>
      rw [List.flatMap_cons] at hc
      obtain ⟨hlen, hin, hgood, hstore⟩ := hone t o hc.left
      obtain ⟨hgoods, hstores⟩ := ih hc.right
      have hstop : o + (encode t ++ ts.flatMap encode).length =
          o + (encode t).length + (ts.flatMap encode).length := by
        rw [List.length_append, Nat.add_assoc]
      rw [List.flatMap_cons, hstop, tableOffsets, if_pos ⟨by omega, hin⟩, ← hlen]
      constructor
      · intro p hp
        rcases List.mem_cons.mp hp with rfl | hp
        · exact hgood
        · exact hgoods p hp
      · intro h
        rw [List.map_cons, List.foldl_cons, ← hstore h, ← hstores]
        rfl

theorem dht_encode (data : List UInt8) (t : DhtTable) (o : Nat) (hc : Carries data o t.encode) :
    t.encode.length = 1 + dhtBody data o ∧ o + 1 < data.length ∧ ¬ Overfull data o ∧
      ∀ h, storeDht data o h = Item.apply h (.dht t) := by
  have hin := dhtTable_inside hc
  have hsum := dhtTable_countSum hc
  refine ⟨?_, by omega, ?_, storeDht_encode hc⟩
  · rw [dhtTable_length, dhtBody, hsum]
    omega
  · rintro ⟨hover, -⟩
    have := t.le
    omega

theorem dqt_encode (data : List UInt8) (t : DqtTable) (o : Nat) (hc : Carries data o t.encode) :
    t.encode.length = 1 + dqtBody data o ∧ o + 1 < data.length ∧ ¬ Misnumbered data o ∧
      ∀ h, storeDqt data o h = Item.apply h (.dqt t) := by
  have hin := dqtTable_inside hc
  obtain ⟨h8, htq⟩ := dqtTable_head hc
  refine ⟨?_, ?_, ?_, storeDqt_encode hc⟩
  · unfold DqtTable.encode dqtBody
    rw [List.length_cons, coeffs_length, h8, Nat.add_comm]
  · split at hin <;> omega
  · rintro ⟨hnum, -⟩
    omega

/-! ## The scan in step with the segments -/

/-- The marker and the length field of a segment in the data. -/
theorem segment_head {data : List UInt8} {i : Nat} {marker : UInt8} {body : List UInt8}
    (hc : Carries data i ([0xFF, marker] ++ bytes16 (body.length + 2) ++ body))
    (hlen : body.length + 2 < 2 ^ 16) :
    byteAt data i = MARKER_PREFIX ∧ byteAt data (i + 1) = marker ∧
      wordAt data (i + 2) = body.length + 2 ∧ Carries data (i + 4) body ∧
      i + 4 + body.length ≤ data.length := by
  have hmarker := hc.left.left
  have h0 := hmarker.byteAt (k := 0) (by simp)
  have h1 := hmarker.byteAt (k := 1) (by simp)
  have hword := hc.left.right.wordAt hlen
  have hbody := hc.right
  have hin := hc.right.length_le
  simp only [List.length_append, List.length_cons, List.length_nil, bytes16] at hbody hin
  exact ⟨h0, h1, hword, hbody, by omega⟩

/-- The scan passes over fill bytes one at a time. -/
theorem parseLoop_fill {data : List UInt8} (fill : Nat) {i : Nat} {x : List UInt8}
    (hc : Carries data i (List.replicate fill 0xFF ++ 0xFF :: x)) (h : JpegHeaderInfo) :
    parseLoop data i h = parseLoop data (i + fill) h := by
  induction fill generalizing i with
  | zero => rfl
  | succ fill ih =>
      rw [List.replicate_succ, List.cons_append] at hc
      have hin := hc.length_le
      simp only [List.length_cons, List.length_append, List.length_replicate] at hin
      have h0 := hc.byteAt (k := 0) (by simp)
      have hnext : Carries data (i + 1) (List.replicate fill 0xFF ++ 0xFF :: x) :=
        Carries.right (x := [0xFF]) hc
      have h1 : byteAt data (i + 1) = 0xFF := by
        have := hnext.byteAt (k := 0) (by simp only [List.length_append, List.length_cons]; omega)
        rw [Nat.add_zero] at this
        rw [this]
        cases fill <;> rfl
      have hsite : siteAt data i = .skip 0 := by
        rw [Nat.add_zero] at h0
        unfold siteAt
        rw [h0, h1]
        rfl
      rw [parseLoop_site (by omega), hsite]
      show parseLoop data (i + 1) h = _
      rw [ih hnext]
      congr 1
      omega

/-- One turn on a segment whose tables have a place. -/
theorem parseLoop_turn {data : List UInt8} {i length : Nat} {kind : Kind}
    (hlt : i + 1 < data.length) (hsite : siteAt data i = .segment kind length)
    (hgood : ¬ Seg.Bad data ⟨kind, i, length⟩) (h : JpegHeaderInfo) :
    parseLoop data i h = parseLoop data (i + (2 + length)) (Seg.store data ⟨kind, i, length⟩ h) := by
  have hrun := runSegment_ok hgood h
  simp only at hrun
  rw [parseLoop_site hlt, hsite]
  simp only [runSite, hrun, Except.map]

/-- The kind the scan takes a segment for. -/
def Segment.kind : Segment → Kind
  | .app _ _ _ => .other
  | .com _ _ => .other
  | .dqt _ _ => .dqt
  | .dht _ _ => .dht
  | .dri _ => .dri

theorem segment_length (s : Segment) : s.body.length + 2 < 2 ^ 16 := by
  cases s with
  | app n payload h => exact h
  | com payload h => exact h
  | dqt tables h => exact h
  | dht tables h => exact h
  | dri interval => simp [Segment.body, bytes16]

theorem segment_site {data : List UInt8} {i : Nat} (s : Segment)
    (h0 : byteAt data i = MARKER_PREFIX) (h1 : byteAt data (i + 1) = s.marker)
    (hin : i + 3 < data.length) :
    siteAt data i = .segment s.kind (wordAt data (i + 2)) := by
  have happ : ∀ n : Fin 16, Marker.fromByte (0xE0 + UInt8.ofNat n.1) = .otherWithLength := by decide
  unfold siteAt
  rw [h0, h1, if_neg (by simp)]
  cases s with
  | app n payload h =>
    simp only [Segment.marker, happ, sizedSite, if_pos hin]
    rfl
  | com payload h =>
    simp only [Segment.marker, show Marker.fromByte 0xFE = .otherWithLength by decide, sizedSite,
      if_pos hin]
    rfl
  | dqt tables h =>
    simp only [Segment.marker, show Marker.fromByte MARKER_DQT = .dqt by decide, sizedSite,
      if_pos hin]
    rfl
  | dht tables h =>
    simp only [Segment.marker, show Marker.fromByte MARKER_DHT = .dht by decide, sizedSite,
      if_pos hin]
    rfl
  | dri interval =>
    simp only [Segment.marker, show Marker.fromByte MARKER_DRI = .dri by decide, sizedSite,
      if_pos hin]
    rfl

/-- **A segment in the data is stored as its items say.** -/
theorem segment_store {data : List UInt8} {i : Nat} (s : Segment)
    (hbody : Carries data (i + 4) s.body) :
    ¬ Seg.Bad data ⟨s.kind, i, s.body.length + 2⟩ ∧
      ∀ h, Seg.store data ⟨s.kind, i, s.body.length + 2⟩ h = s.items.foldl Item.apply h := by
  have hstop : i + 2 + (s.body.length + 2) = i + 4 + s.body.length := by omega
  unfold Seg.Bad Seg.dhts Seg.dqts Seg.store
  cases s with
  | app n payload h => exact ⟨by simp [Segment.kind], fun h => rfl⟩
  | com payload h => exact ⟨by simp [Segment.kind], fun h => rfl⟩
  | dqt tables h =>
    obtain ⟨hgood, hstore⟩ := storeAll_encode (dqt_encode data) tables hbody
    simp only [Segment.kind, dqtOffsets, hstop]
    exact ⟨by simpa [Segment.body] using hgood, hstore⟩
  | dht tables h =>
    obtain ⟨hgood, hstore⟩ := storeAll_encode (dht_encode data) tables hbody
    simp only [Segment.kind, dhtOffsets, hstop]
    exact ⟨by simpa [Segment.body] using hgood, hstore⟩
  | dri interval =>
    refine ⟨by simp [Segment.kind], fun h => ?_⟩
    have hin := hbody.length_le
    have hword := Carries.wordAt hbody interval.toNat_lt
    simp only [Segment.body, bytes16, List.length_cons, List.length_nil] at hin
    show storeDri data i h = Item.apply h (.dri interval)
    unfold storeDri
    rw [if_pos (by omega), hword, uint32_ofNat]
    rfl

/-- **The scan runs in step with a segment.** -/
theorem parseLoop_segment {data : List UInt8} {i : Nat} (fill : Nat) (s : Segment)
    (hc : Carries data i (encodeSegment fill s.marker s.body)) (h : JpegHeaderInfo) :
    parseLoop data i h =
      parseLoop data (i + (encodeSegment fill s.marker s.body).length)
        (s.items.foldl Item.apply h) := by
  unfold encodeSegment at hc ⊢
  have hseg := hc.right
  rw [List.length_replicate] at hseg
  obtain ⟨h0, h1, hword, hbody, hin⟩ := segment_head hseg (segment_length s)
  have hsite := segment_site s h0 h1 (by omega)
  rw [hword] at hsite
  obtain ⟨hgood, hstore⟩ := segment_store s hbody
  rw [parseLoop_fill fill hc, parseLoop_turn (by omega) hsite hgood, hstore]
  congr 1
  simp only [List.length_append, List.length_replicate, List.length_cons, List.length_nil, bytes16]
  omega

/-- The scan runs in step with any number of segments. -/
theorem parseLoop_segments {data : List UInt8} (segs : List (Nat × Segment)) {i : Nat}
    (hc : Carries data i (encodeSegments segs)) (h : JpegHeaderInfo) :
    parseLoop data i h = parseLoop data (i + (encodeSegments segs).length)
      ((segs.flatMap fun s => s.2.items).foldl Item.apply h) := by
  unfold encodeSegments at hc ⊢
  induction segs generalizing i h with
  | nil => rfl
  | cons s segs ih =>
      rw [List.flatMap_cons] at hc ⊢
      rw [parseLoop_segment s.1 s.2 hc.left, ih hc.right, List.flatMap_cons, List.foldl_append,
        List.length_append, Nat.add_assoc]

/-! ## The frame and the scan -/

theorem frame_length (f : Frame) : f.body.length = 15 := by
  simp [Frame.body, FrameComp.encode, bytes16]

theorem scan_length (s : Scan) : s.body.length = 10 := by
  simp [Scan.body, ScanComp.encode]

/-- **A frame in the data is stored as its item says.** -/
theorem storeSof_encode {data : List UInt8} {i : Nat} {f : Frame}
    (hc : Carries data (i + 4) f.body) (h : JpegHeaderInfo) :
    storeSof data i h = Item.apply h (.frame f) := by
  have hin := hc.length_le
  rw [frame_length] at hin
  have hbyte : ∀ k, k < 15 → byteAt data (i + 4 + k) = byteAt f.body k :=
    fun k hk => hc.byteAt (by rw [frame_length]; exact hk)
  have hheight : wordAt data (i + 5) = f.height.toNat :=
    Carries.wordAt (hc.left.left.left.left.left.right) f.height.toNat_lt
  have hwidth : wordAt data (i + 7) = f.width.toNat :=
    Carries.wordAt (hc.left.left.left.left.right) f.width.toNat_lt
  have hcomp : ∀ c : Fin 3, byteAt data (i + 11 + 3 * c.1) = nibbles f.comps[c].h f.comps[c].v ∧
      byteAt data (i + 12 + 3 * c.1) = f.comps[c].tq := by
    intro c
    have h1 := hbyte (7 + 3 * c.1) (by omega)
    have h2 := hbyte (8 + 3 * c.1) (by omega)
    have e1 : i + 4 + (7 + 3 * c.1) = i + 11 + 3 * c.1 := by omega
    have e2 : i + 4 + (8 + 3 * c.1) = i + 12 + 3 * c.1 := by omega
    rw [e1] at h1
    rw [e2] at h2
    rw [h1, h2]
    match c with
    | 0 | 1 | 2 => exact ⟨rfl, rfl⟩
  have hcount : byteAt data (i + 9) = 3 := hbyte 5 (by omega)
  have hsampling : ∀ old, filled 3 (fun _ => True) (fun c =>
      (highNibble (byteAt data (i + 11 + 3 * c)), lowNibble (byteAt data (i + 11 + 3 * c)))) old =
      f.sampling := by
    intro old
    ext c hc
    · rw [filled_getElem, if_pos ⟨hc, trivial⟩, (hcomp ⟨c, hc⟩).1, (nibbles_split _ _).1]
      simp [Frame.sampling]
    · rw [filled_getElem, if_pos ⟨hc, trivial⟩, (hcomp ⟨c, hc⟩).1, (nibbles_split _ _).2]
      simp [Frame.sampling]
  have hquant : ∀ old, filled 3 (fun _ => True)
      (fun c => (byteAt data (i + 12 + 3 * c)).toNat) old = f.quantTbl := by
    intro old
    ext c hc
    rw [filled_getElem, if_pos ⟨hc, trivial⟩, (hcomp ⟨c, hc⟩).2]
    simp [Frame.quantTbl]
  unfold storeSof Item.apply
  simp only [hcount, hheight, hwidth, uint32_ofNat, hsampling, hquant]
  rw [if_pos (by decide), if_pos (by omega)]
  rfl

/-- **The scan runs in step with the frame.** -/
theorem parseLoop_frame {data : List UInt8} {i : Nat} (fill : Nat) (f : Frame)
    (hc : Carries data i (encodeSegment fill MARKER_SOF0 f.body)) (h : JpegHeaderInfo) :
    parseLoop data i h =
      parseLoop data (i + (encodeSegment fill MARKER_SOF0 f.body).length)
        (Item.apply h (.frame f)) := by
  unfold encodeSegment at hc ⊢
  have hseg := hc.right
  rw [List.length_replicate] at hseg
  have hlen := frame_length f
  obtain ⟨h0, h1, hword, hbody, hin⟩ := segment_head hseg (by rw [hlen]; omega)
  have hsite : siteAt data (i + fill) = .segment .sof (f.body.length + 2) := by
    unfold siteAt
    rw [h0, h1, if_neg (by simp)]
    show (if i + fill + 10 < data.length then _ else _) = _
    rw [if_pos (by omega), hword]
  have hgood : ¬ Seg.Bad data ⟨.sof, i + fill, f.body.length + 2⟩ := by
    simp [Seg.Bad, Seg.dhts, Seg.dqts]
  rw [parseLoop_fill fill hc, parseLoop_turn (by omega) hsite hgood, ← storeSof_encode hbody]
  show parseLoop data _ (storeSof data (i + fill) h) = _
  congr 1
  simp only [List.length_append, List.length_replicate, List.length_cons, List.length_nil, bytes16]
  omega

/-- The header once the scan's selectors are read, with the offset of the entropy-coded bytes. -/
def Scan.apply (h : JpegHeaderInfo) (s : Scan) (ecsOffset : Nat) : JpegHeaderInfo :=
  { h with
    dcHuffTbl := s.comps.map fun c => c.td.1
    acHuffTbl := s.comps.map fun c => c.ta.1
    ecsOffset := ecsOffset }

/-- The selectors of a scan in the data are stored in scan order. -/
theorem storeScan_encode {data : List UInt8} {i : Nat} {s : Scan}
    (hc : Carries data (i + 4) s.body) (h : JpegHeaderInfo) :
    storeScan data i h = { h with
      dcHuffTbl := s.comps.map fun c => c.td.1
      acHuffTbl := s.comps.map fun c => c.ta.1 } := by
  have hin := hc.length_le
  rw [scan_length] at hin
  have hbyte : ∀ k, k < 10 → byteAt data (i + 4 + k) = byteAt s.body k :=
    fun k hk => hc.byteAt (by rw [scan_length]; exact hk)
  have hcount : byteAt data (i + 4) = 3 := hbyte 0 (by omega)
  have hcomp : ∀ c : Fin 3, byteAt data (i + 6 + 2 * c.1) = nibbles s.comps[c].td s.comps[c].ta := by
    intro c
    have h1 := hbyte (2 + 2 * c.1) (by omega)
    have e1 : i + 4 + (2 + 2 * c.1) = i + 6 + 2 * c.1 := by omega
    rw [e1] at h1
    rw [h1]
    match c with
    | 0 | 1 | 2 => rfl
  have hnibble : ∀ n : Fin 16, (UInt8.ofNat n.1).toNat = n.1 := by decide
  have hmin : min (byteAt data (i + 4)).toNat 3 = 3 := by rw [hcount]; rfl
  have hdc : ∀ old, filled 3 (fun c => i + 7 + 2 * c ≤ data.length)
      (fun c => (highNibble (byteAt data (i + 6 + 2 * c))).toNat) old =
      s.comps.map fun c => c.td.1 := by
    intro old
    ext c hc
    rw [filled_getElem, if_pos ⟨hc, by omega⟩, hcomp ⟨c, hc⟩, (nibbles_split _ _).1, hnibble]
    simp
  have hac : ∀ old, filled 3 (fun c => i + 7 + 2 * c ≤ data.length)
      (fun c => (lowNibble (byteAt data (i + 6 + 2 * c))).toNat) old =
      s.comps.map fun c => c.ta.1 := by
    intro old
    ext c hc
    rw [filled_getElem, if_pos ⟨hc, by omega⟩, hcomp ⟨c, hc⟩, (nibbles_split _ _).2, hnibble]
    simp
  unfold storeScan scanUpTo
  simp only [hmin, hdc, hac]

/-- **The scan stops at the SOS**, behind which the entropy-coded bytes begin. -/
theorem parseLoop_scan {data : List UInt8} {i : Nat} (fill : Nat) (s : Scan)
    (hc : Carries data i (encodeSegment fill MARKER_SOS s.body)) (h : JpegHeaderInfo) :
    parseLoop data i h =
      .ok (s.apply h (i + (encodeSegment fill MARKER_SOS s.body).length)) := by
  unfold encodeSegment at hc ⊢
  have hseg := hc.right
  rw [List.length_replicate] at hseg
  have hlen := scan_length s
  obtain ⟨h0, h1, hword, hbody, hin⟩ := segment_head hseg (by rw [hlen]; omega)
  have hsite : siteAt data (i + fill) = .sos (s.body.length + 2) := by
    unfold siteAt
    rw [h0, h1, if_neg (by simp)]
    show sizedSite data (i + fill) 0 Site.sos = _
    unfold sizedSite
    rw [if_pos (by omega), hword]
  rw [parseLoop_fill fill hc, parseLoop_site (by omega), hsite]
  simp only [runSite, storeScan_encode hbody, Scan.apply]
  congr 2
  simp only [List.length_append, List.length_replicate, List.length_cons, List.length_nil, bytes16]
  omega

/-- The scan steps over SOI. -/
theorem soi_site {data : List UInt8} {i : Nat} (hc : Carries data i [0xFF, MARKER_SOI]) :
    siteAt data i = .skip 1 := by
  have h0 := hc.byteAt (k := 0) (by simp)
  have h1 := hc.byteAt (k := 1) (by simp)
  unfold siteAt
  rw [Nat.add_zero] at h0
  rw [h0, h1]
  rfl

/-- The header that `items`, then the scan, make of the initial one. -/
def Headers.parsed (hd : Headers) : JpegHeaderInfo :=
  hd.scan.apply (hd.items.foldl Item.apply .new) hd.encode.length

/-- **The parsed header is what the items make of the initial one**, whatever bytes follow. -/
theorem parseJpegHeader_encode (hd : Headers) (ecs : List UInt8) :
    parseJpegHeader (hd.encode ++ ecs) = .ok hd.parsed := by
  have hc : Carries (hd.encode ++ ecs) 0 hd.encode := ⟨[], ecs, rfl, rfl⟩
  generalize hd.encode ++ ecs = data at hc ⊢
  have hlen : hd.encode.length = 0 + (hd.soiFill + 2) + (encodeSegments hd.before).length +
      (encodeSegment hd.frameFill MARKER_SOF0 hd.frame.body).length +
      (encodeSegments hd.after).length +
      (encodeSegment hd.scanFill MARKER_SOS hd.scan.body).length := by
    simp only [Headers.encode, List.length_append, List.length_replicate, List.length_cons,
      List.length_nil]
    omega
  unfold Headers.parsed Headers.items
  rw [hlen, List.foldl_append, List.foldl_append]
  unfold Headers.encode at hc
  have hscan := hc.right
  have hafter := hc.left.right
  have hframe := hc.left.left.right
  have hbefore := hc.left.left.left.right
  have hsoi := hc.left.left.left.left
  have hsite := soi_site hsoi.right
  have hin := hsoi.length_le
  simp only [List.length_append, List.length_replicate, List.length_cons, List.length_nil,
    ← Nat.add_assoc] at hscan hafter hframe hbefore hin hsite
  unfold parseJpegHeader
  rw [parseLoop_fill hd.soiFill hsoi, parseLoop_site (by omega), hsite]
  show parseLoop data (0 + hd.soiFill + 2) .new = _
  rw [parseLoop_segments hd.before hbefore, parseLoop_frame hd.frameFill hd.frame hframe,
    parseLoop_segments hd.after hafter, parseLoop_scan hd.scanFill hd.scan hscan]
  rfl

end Cvirtos.Jpu
