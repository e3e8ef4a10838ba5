import Cvirtos.Lib.LastWriter
import Cvirtos.Jpu.HeaderScan

/-!
# What an accepted header holds

The parser checks lengths against the data only where it reads.

* `Accepted` — what does hold of every header the parser returns;
* `parseJpegHeader_accepted` — **acceptance needs a SOS with a length field in the data**, and
  then guarantees `Accepted`.
-/

set_option autoImplicit false

namespace Cvirtos.Jpu

open Cvirtos.Lib

theorem wordAt_lt (data : List UInt8) (off : Nat) : wordAt data off < 2 ^ 16 := by
  unfold wordAt
  have h1 := (byteAt data off).toNat_lt
  have h2 := (byteAt data (off + 1)).toNat_lt
  refine Nat.or_lt_two_pow ?_ (by omega)
  rw [Nat.shiftLeft_eq]
  omega

/-- The last SOF the scan visited. -/
def lastSof (data : List UInt8) : Option Seg :=
  lastSelected (fun seg => seg.kind == .sof) (segments data)

/-- The frame of the header is that of the given SOF; zero without one. -/
def FrameFrom (data : List UInt8) (seg : Option Seg) (h : JpegHeaderInfo) : Prop :=
  match seg with
  | none => h.width = 0 ∧ h.height = 0 ∧ h.numComponents = 0
  | some seg => h.width.toNat = wordAt data (seg.pos + 7) ∧
      h.height.toNat = wordAt data (seg.pos + 5) ∧
      h.numComponents = (byteAt data (seg.pos + 9)).toUInt32

/-- Selectors are four bits wide, table numbers eight. -/
structure Bounded (h : JpegHeaderInfo) : Prop where
  dc : ∀ c : Fin 3, h.dcHuffTbl[c] ≤ 15
  ac : ∀ c : Fin 3, h.acHuffTbl[c] ≤ 15
  quant : ∀ c : Fin 3, h.quantTbl[c] ≤ 255

/-- What holds of a header the parser returns: the scan ended at the SOS at `pos`. -/
structure Accepted (data : List UInt8) (h : JpegHeaderInfo) (pos length : Nat) : Prop where
  sos : siteAt data pos = .sos length
  inside : pos + 3 < data.length ∧ length = wordAt data (pos + 2)
  ecs : h.ecsOffset = pos + 2 + length
  /-- The header holds what the visited segments stored, in order, and nothing else. -/
  stored : h = { storeScan data pos (storeSegs data (segments data) .new) with
    ecsOffset := pos + 2 + length }
  frame : FrameFrom data (lastSof data) h
  /-- Every stored table starts inside its own segment and inside the data. -/
  tables : ∀ seg ∈ segments data, ∀ o ∈ seg.dhts data ++ seg.dqts data,
    seg.pos + 4 ≤ o ∧ o < seg.pos + 2 + seg.length ∧ o + 1 < data.length
  bounded : Bounded h

/-! ## The end of the walk -/

theorem siteAt_sos {data : List UInt8} {i length : Nat} (h : siteAt data i = .sos length) :
    i + 3 < data.length ∧ length = wordAt data (i + 2) := by
  unfold siteAt sizedSite at h
  repeat' split at h
  all_goals cases h
  exact ⟨by assumption, rfl⟩

/-- The walk ends at a SOS it has met. -/
theorem walk_sos (data : List UInt8) (i : Nat) {pos length : Nat}
    (h : (walk data i).2 = .sos pos length) : siteAt data pos = .sos length := by
  rw [walk] at h
  split at h
  · cases hsite : siteAt data i with
    | skip more =>
      rw [hsite] at h
      exact walk_sos data _ h
    | eoi | sofShort => rw [hsite] at h; cases h
    | sos length' =>
      rw [hsite] at h
      cases h
      exact hsite
    | segment kind length' =>
      rw [hsite] at h
      exact walk_sos data _ h
  · cases h
termination_by data.length - i

/-! ## What the segments store -/

theorem filled_le {m b n : Nat} {c : Nat → Prop} [DecidablePred c] {x : Nat → Nat}
    {v : Vector Nat m} (hx : ∀ k, x k ≤ b) (hv : ∀ k : Fin m, v[k] ≤ b) (k : Fin m) :
    (filled n c x v)[k] ≤ b := by
  rw [getElem_fin, filled_getElem k.2]
  split
  · exact hx _
  · exact hv k

theorem nibble_le (b : UInt8) : (highNibble b).toNat ≤ 15 ∧ (lowNibble b).toNat ≤ 15 := by
  unfold highNibble lowNibble
  have hb := b.toNat_lt
  constructor
  · rw [UInt8.toNat_shiftRight]
    show b.toNat >>> 4 ≤ 15
    rw [Nat.shiftRight_eq_div_pow]
    omega
  · rw [UInt8.toNat_and]
    exact Nat.and_le_right

theorem bounded_new : Bounded .new := ⟨by decide, by decide, by decide⟩

/-- Every stored segment keeps the header bounded. -/
theorem store_bounded {data : List UInt8} {h : JpegHeaderInfo} (hb : Bounded h) (seg : Seg) :
    Bounded (seg.store data h) := by
  refine Seg.store_inv (fun _ h hb => ?_) (fun _ o h hb => ⟨hb.dc, hb.ac, hb.quant⟩)
    (fun _ o h hb => ⟨hb.dc, hb.ac, hb.quant⟩) (fun _ h hb => ⟨hb.dc, hb.ac, hb.quant⟩) hb
  unfold storeSof
  split
  · split
    · refine ⟨hb.dc, hb.ac, filled_le (fun k => ?_) hb.quant⟩
      have := (byteAt data (seg.pos + 12 + 3 * k)).toNat_lt
      omega
    · exact ⟨hb.dc, hb.ac, hb.quant⟩
  · exact ⟨hb.dc, hb.ac, hb.quant⟩

theorem storeScan_bounded (data : List UInt8) (i : Nat) {h : JpegHeaderInfo} (hb : Bounded h) :
    Bounded (storeScan data i h) :=
  ⟨filled_le (fun _ => (nibble_le _).1) hb.dc, filled_le (fun _ => (nibble_le _).2) hb.ac, hb.quant⟩

theorem storeSof_frame (data : List UInt8) (seg : Seg) (h : JpegHeaderInfo) :
    FrameFrom data (some seg) (storeSof data seg.pos h) := by
  have hw : ∀ off, (UInt32.ofNat (wordAt data off)).toNat = wordAt data off := by
    intro off
    have := wordAt_lt data off
    rw [UInt32.toNat_ofNat']
    omega
  unfold storeSof
  split
  · split <;> exact ⟨hw _, hw _, rfl⟩
  · exact ⟨hw _, hw _, rfl⟩

/-- Segments other than a SOF leave the frame alone. -/
theorem store_frame {data : List UInt8} {h : JpegHeaderInfo} {seg : Seg} (hk : seg.kind ≠ .sof)
    {o : Option Seg} (hf : FrameFrom data o h) : FrameFrom data o (seg.store data h) := by
  refine Seg.store_inv (fun hsof => absurd hsof hk) (fun _ _ h hf => ?_) (fun _ _ h hf => ?_)
    (fun _ h hf => ?_) hf
  all_goals cases o <;> exact hf

theorem storeSegs_frame (data : List UInt8) :
    FrameFrom data (lastSof data) (storeSegs data (segments data) .new) := by
  refine foldl_lastSelected (R := FrameFrom data) ?_ ?_ ⟨rfl, rfl, rfl⟩ (segments data)
  · intro h seg hsel
    obtain ⟨kind, pos, length⟩ := seg
    obtain rfl : kind = .sof := by simpa using hsel
    exact storeSof_frame data ⟨.sof, pos, length⟩ h
  · intro h seg o hsel hf
    exact store_frame (by simpa using hsel) hf

theorem storeSegs_bounded (data : List UInt8) (segs : List Seg) {h : JpegHeaderInfo}
    (hb : Bounded h) : Bounded (storeSegs data segs h) := by
  unfold storeSegs
  induction segs generalizing h with
  | nil => exact hb
  | cons seg segs ih => exact ih (store_bounded hb seg)

theorem seg_tables {data : List UInt8} {seg : Seg} {o : Nat}
    (h : o ∈ seg.dhts data ++ seg.dqts data) :
    seg.pos + 4 ≤ o ∧ o < seg.pos + 2 + seg.length ∧ o + 1 < data.length := by
  obtain ⟨kind, pos, length⟩ := seg
  unfold Seg.dhts Seg.dqts at h
  cases kind with
  | dht => exact mem_tableOffsets ((List.mem_append.mp h).resolve_right (by simp))
  | dqt => exact mem_tableOffsets ((List.mem_append.mp h).resolve_left (by simp))
  | sof | dri | other => simp at h

/-! ## Acceptance -/

/-- **What acceptance guarantees**: a returned header comes from a scan that ended at a SOS whose
length field lies in the data, and holds what the visited segments stored. -/
theorem parseJpegHeader_accepted {data : List UInt8} {h : JpegHeaderInfo}
    (hok : parseJpegHeader data = .ok h) :
    ∃ pos length, ending data = .sos pos length ∧ Accepted data h pos length := by
  by_cases hgood : ∀ seg ∈ segments data, ¬ seg.Bad data
  · rw [parseJpegHeader_ok hgood] at hok
    cases hend : ending data with
    | sofShort | noSos => rw [hend] at hok; cases hok
    | sos pos length =>
      rw [hend] at hok
      cases hok
      have hsos := walk_sos data 0 hend
      refine ⟨pos, length, rfl, hsos, siteAt_sos hsos, rfl, rfl, storeSegs_frame data, ?_, ?_⟩
      · intro seg _ o ho
        exact seg_tables ho
      · have hb := storeScan_bounded data pos (storeSegs_bounded data (segments data) bounded_new)
        exact ⟨hb.dc, hb.ac, hb.quant⟩
  · have hbad : ∃ seg ∈ segments data, seg.Bad data := by simpa using hgood
    rw [parseJpegHeader_panic hbad] at hok
    cases hok

end Cvirtos.Jpu
