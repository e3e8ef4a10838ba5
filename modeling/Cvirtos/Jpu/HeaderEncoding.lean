import Cvirtos.Jpu.HeaderScan

/-!
# Well-formed baseline headers

The JPEG headers of T.81 as data, with their encoding, and what a parser is to make of them.

* `DhtTable`, `DqtTable`, `Segment`, `Frame`, `Scan`, `Headers` — a header, well formed by
  construction;
* `Headers.encode` — its bytes, up to the first entropy-coded byte;
* `Item.apply` — what each table, frame and restart interval contributes to the parsed header.
-/

set_option autoImplicit false

namespace Cvirtos.Jpu

open Cvirtos.Lib

/-- Two bytes, the high one first. -/
def bytes16 (n : Nat) : List UInt8 := [UInt8.ofNat (n / 256), UInt8.ofNat (n % 256)]

/-- Two nibbles as a byte. -/
def nibbles (hi lo : Fin 16) : UInt8 := UInt8.ofNat (hi.1 * 16 + lo.1)

/-- All counts of a Huffman table. -/
def totalCount (bits : Vector UInt8 16) : Nat := (bits.toList.map UInt8.toNat).sum

/-- A Huffman table of a DHT segment. -/
structure DhtTable where
  tc : Fin 2
  th : Fin 2
  bits : Vector UInt8 16
  values : List UInt8
  count : values.length = totalCount bits
  le : values.length ≤ 256

/-- `Tc` and `Th` as the nibbles of the table's first byte. -/
def DhtTable.head (t : DhtTable) : UInt8 := nibbles ⟨t.tc.1, by omega⟩ ⟨t.th.1, by omega⟩

def DhtTable.encode (t : DhtTable) : List UInt8 := t.head :: (t.bits.toList ++ t.values)

/-- The slot of the table. -/
def DhtTable.slot (t : DhtTable) : Fin 4 := ⟨t.th.1 * 2 + t.tc.1, by omega⟩

/-- The coefficients of a quantisation table. -/
inductive Coeffs where
  | bits8 (values : Vector UInt8 64)
  | bits16 (values : Vector UInt16 64)

/-- A quantisation table of a DQT segment. -/
structure DqtTable where
  tq : Fin 4
  coeffs : Coeffs

/-- The coefficients have 8 bits. -/
def Coeffs.is8 : Coeffs → Bool
  | .bits8 _ => true
  | .bits16 _ => false

def Coeffs.pq (c : Coeffs) : Fin 16 := if c.is8 then 0 else 1

def Coeffs.encode : Coeffs → List UInt8
  | .bits8 values => values.toList
  | .bits16 values => values.toList.flatMap fun v => bytes16 v.toNat

/-- The coefficients as the parser stores them. -/
def Coeffs.stored : Coeffs → Vector UInt16 64
  | .bits8 values => values.map UInt8.toUInt16
  | .bits16 values => values

def DqtTable.encode (t : DqtTable) : List UInt8 :=
  nibbles t.coeffs.pq ⟨t.tq.1, by omega⟩ :: t.coeffs.encode

/-- A segment other than SOF and SOS, whose length field can be written. -/
inductive Segment where
  | app (n : Fin 16) (payload : List UInt8) (h : payload.length + 2 < 2 ^ 16)
  | com (payload : List UInt8) (h : payload.length + 2 < 2 ^ 16)
  | dqt (tables : List DqtTable) (h : (tables.flatMap DqtTable.encode).length + 2 < 2 ^ 16)
  | dht (tables : List DhtTable) (h : (tables.flatMap DhtTable.encode).length + 2 < 2 ^ 16)
  | dri (interval : UInt16)

/-- A component of the frame. -/
structure FrameComp where
  id : UInt8
  h : Fin 16
  v : Fin 16
  tq : UInt8

/-- A baseline frame of three components. -/
structure Frame where
  precision : UInt8
  height : UInt16
  width : UInt16
  comps : Vector FrameComp 3

/-- A component of the scan. -/
structure ScanComp where
  id : UInt8
  td : Fin 16
  ta : Fin 16

/-- A scan of three components. -/
structure Scan where
  comps : Vector ScanComp 3
  ss : UInt8
  se : UInt8
  ahAl : UInt8

/-- A baseline header: SOI, segments around one frame, then the scan, each behind its fill bytes. -/
structure Headers where
  soiFill : Nat
  before : List (Nat × Segment)
  frameFill : Nat
  frame : Frame
  after : List (Nat × Segment)
  scanFill : Nat
  scan : Scan

/-- The bytes of a marker segment, behind `fill` fill bytes. -/
def encodeSegment (fill : Nat) (marker : UInt8) (body : List UInt8) : List UInt8 :=
  List.replicate fill 0xFF ++ ([0xFF, marker] ++ bytes16 (body.length + 2) ++ body)

def Segment.marker : Segment → UInt8
  | .app n _ _ => 0xE0 + UInt8.ofNat n.1
  | .com _ _ => 0xFE
  | .dqt _ _ => MARKER_DQT
  | .dht _ _ => MARKER_DHT
  | .dri _ => MARKER_DRI

def Segment.body : Segment → List UInt8
  | .app _ payload _ => payload
  | .com payload _ => payload
  | .dqt tables _ => tables.flatMap DqtTable.encode
  | .dht tables _ => tables.flatMap DhtTable.encode
  | .dri interval => bytes16 interval.toNat

def FrameComp.encode (c : FrameComp) : List UInt8 := [c.id, nibbles c.h c.v, c.tq]

def Frame.body (f : Frame) : List UInt8 :=
  [f.precision] ++ bytes16 f.height.toNat ++ bytes16 f.width.toNat ++ [(3 : UInt8)] ++
    (f.comps.get 0).encode ++ (f.comps.get 1).encode ++ (f.comps.get 2).encode

def ScanComp.encode (c : ScanComp) : List UInt8 := [c.id, nibbles c.td c.ta]

def Scan.body (s : Scan) : List UInt8 :=
  [(3 : UInt8)] ++ (s.comps.get 0).encode ++ (s.comps.get 1).encode ++ (s.comps.get 2).encode ++
    [s.ss, s.se, s.ahAl]

def encodeSegments (segs : List (Nat × Segment)) : List UInt8 :=
  segs.flatMap fun s => encodeSegment s.1 s.2.marker s.2.body

/-- The header's bytes, from SOI to the first entropy-coded byte. -/
def Headers.encode (hd : Headers) : List UInt8 :=
  (List.replicate hd.soiFill 0xFF ++ [0xFF, MARKER_SOI]) ++ encodeSegments hd.before ++
    encodeSegment hd.frameFill MARKER_SOF0 hd.frame.body ++ encodeSegments hd.after ++
    encodeSegment hd.scanFill MARKER_SOS hd.scan.body

/-! ## What the parser is to make of a header -/

/-- What a header contributes to the parsed header, one thing at a time. -/
inductive Item where
  | dht (t : DhtTable)
  | dqt (t : DqtTable)
  | dri (interval : UInt16)
  | frame (f : Frame)

/-- The slot `old` once the table is read into it. -/
def DhtTable.fill (t : DhtTable) (old : HuffTable) : HuffTable :=
  { old with
    bits := t.bits
    values := filled t.values.length (fun _ => True) (fun j => t.values.getD j 0) old.values
    numValues := t.values.length }

def Frame.sampling (f : Frame) : Vector (UInt8 × UInt8) 3 :=
  f.comps.map fun c => (UInt8.ofNat c.h.1, UInt8.ofNat c.v.1)

def Frame.quantTbl (f : Frame) : Vector Nat 3 := f.comps.map fun c => c.tq.toNat

/-- The parsed header once the item is read. -/
def Item.apply (h : JpegHeaderInfo) : Item → JpegHeaderInfo
  | .dht t => { h with huffTables := h.huffTables.set t.slot (t.fill h.huffTables[t.slot]).generate }
  | .dqt t => { h with
      quantTables := h.quantTables.set t.tq ⟨t.coeffs.stored⟩
      quantTableCount := max h.quantTableCount (t.tq.1 + 1) }
  | .dri interval => { h with restartInterval := interval.toUInt32 }
  | .frame f => { h with
      height := f.height.toUInt32
      width := f.width.toUInt32
      numComponents := 3
      sampling := f.sampling
      quantTbl := f.quantTbl
      format := formatOf f.sampling }

def Segment.items : Segment → List Item
  | .app _ _ _ => []
  | .com _ _ => []
  | .dqt tables _ => tables.map Item.dqt
  | .dht tables _ => tables.map Item.dht
  | .dri interval => [.dri interval]

/-- The items of a header, in order. -/
def Headers.items (hd : Headers) : List Item :=
  hd.before.flatMap (fun s => s.2.items) ++ [.frame hd.frame] ++
    hd.after.flatMap (fun s => s.2.items)

/-! ## Bytes of an encoding -/

theorem byteAt_append_right (pre x : List UInt8) (k : Nat) :
    byteAt (pre ++ x) (pre.length + k) = byteAt x k := by
  unfold byteAt
  rw [List.getElem?_append_right (Nat.le_add_right _ _), Nat.add_sub_cancel_left]

theorem byteAt_append_left {x rest : List UInt8} {k : Nat} (hk : k < x.length) :
    byteAt (x ++ rest) k = byteAt x k := by
  unfold byteAt
  rw [List.getElem?_append_left hk]

theorem byteAt_eq {x : List UInt8} {k : Nat} (hk : k < x.length) : byteAt x k = x[k] := by
  unfold byteAt
  rw [List.getElem?_eq_getElem hk]
  rfl

/-- `data` carries the bytes `x` at `i`. -/
def Carries (data : List UInt8) (i : Nat) (x : List UInt8) : Prop :=
  ∃ pre rest, data = pre ++ (x ++ rest) ∧ i = pre.length

theorem Carries.byteAt {data x : List UInt8} {i k : Nat} (h : Carries data i x)
    (hk : k < x.length) : byteAt data (i + k) = byteAt x k := by
  obtain ⟨pre, rest, rfl, rfl⟩ := h
  rw [byteAt_append_right, byteAt_append_left hk]

theorem Carries.length_le {data x : List UInt8} {i : Nat} (h : Carries data i x) :
    i + x.length ≤ data.length := by
  obtain ⟨pre, rest, rfl, rfl⟩ := h
  simp only [List.length_append]
  omega

theorem Carries.left {data x y : List UInt8} {i : Nat} (h : Carries data i (x ++ y)) :
    Carries data i x := by
  obtain ⟨pre, rest, rfl, rfl⟩ := h
  exact ⟨pre, y ++ rest, by rw [List.append_assoc], rfl⟩

theorem Carries.right {data x y : List UInt8} {i : Nat} (h : Carries data i (x ++ y)) :
    Carries data (i + x.length) y := by
  obtain ⟨pre, rest, rfl, rfl⟩ := h
  exact ⟨pre ++ x, rest, by simp only [List.append_assoc], by simp⟩

theorem shiftLeft_or (hi lo : Nat) (h : lo < 256) : hi <<< 8 ||| lo = hi * 256 + lo := by
  rw [← Nat.shiftLeft_add_eq_or_of_lt (by simpa using h), Nat.shiftLeft_eq]

theorem Carries.wordAt {data : List UInt8} {i n : Nat} (h : Carries data i (bytes16 n))
    (hn : n < 2 ^ 16) : wordAt data i = n := by
  have h0 := h.byteAt (k := 0) (by simp [bytes16])
  have h1 := h.byteAt (k := 1) (by simp [bytes16])
  unfold Jpu.wordAt
  rw [Nat.add_zero] at h0
  rw [h0, h1, shiftLeft_or _ _ (UInt8.toNat_lt _)]
  show (UInt8.ofNat (n / 256)).toNat * 256 + (UInt8.ofNat (n % 256)).toNat = n
  rw [UInt8.toNat_ofNat', UInt8.toNat_ofNat']
  omega

theorem nibbles_split (hi lo : Fin 16) :
    highNibble (nibbles hi lo) = UInt8.ofNat hi.1 ∧ lowNibble (nibbles hi lo) = UInt8.ofNat lo.1 := by
  revert hi lo
  decide

end Cvirtos.Jpu
