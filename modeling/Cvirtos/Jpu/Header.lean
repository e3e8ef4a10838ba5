import Cvirtos.Lib.Index
import Cvirtos.Lib.Loop

/-!
# JPEG header parsing

`drivers/jpu/header.rs`.  Every index into the data and into a table is checked here: a run ends
in `Fault.panic` where the source would index out of bounds, and in `Fault.error` where it
returns `Err`.
-/

set_option autoImplicit false

namespace Cvirtos.Jpu

open Cvirtos.Lib

/-- How a run that does not return a value ends. -/
inductive Fault where
  /-- `Err(msg)`. -/
  | error (msg : String)
  /-- An index out of bounds. -/
  | panic
  deriving DecidableEq, Repr

abbrev Run (α : Type) := Except Fault α

/-- `data[off]`. -/
def index (data : List UInt8) (off : Nat) : Run UInt8 :=
  match data[off]? with
  | some b => .ok b
  | none => .error .panic

/-- `v[j]` for an array. -/
def getAt {α : Type} {n : Nat} (v : Vector α n) (j : Nat) : Run α :=
  if h : j < n then .ok v[j] else .error .panic

/-- `v[j] = x` for an array. -/
def setAt {α : Type} {n : Nat} (v : Vector α n) (j : Nat) (x : α) : Run (Vector α n) :=
  if h : j < n then .ok (v.set j x h) else .error .panic

def MARKER_SIZE : Nat := 2
def SEG_LENGTH_OFF : Nat := 2
def SOF_HEIGHT_OFF : Nat := 5
def SOF_WIDTH_OFF : Nat := 7
def SOF_NCOMP_OFF : Nat := 9
def SOF_COMPS_OFF : Nat := 10
def COMP_ENTRY_SIZE : Nat := 3
def COMP_SAMPLING_OFF : Nat := 1
def COMP_QUANT_OFF : Nat := 2
def NUM_JPEG_COMPS : Nat := 3
def SOS_NCOMP_OFF : Nat := 4
def SOS_COMPS_OFF : Nat := 5
def SCAN_COMP_ENTRY_SIZE : Nat := 2
def SCAN_COMP_TABLES_OFF : Nat := 1
def DRI_INTERVAL_OFF : Nat := 4
def HUFF_LENGTH_COUNT : Nat := 16
def DHT_TABLE_HDR_SIZE : Nat := 1 + HUFF_LENGTH_COUNT
def DQT_TABLE_ENTRIES : Nat := 64
def HUFF_NO_CODE : UInt32 := 0xFFFF
def HUFF_NO_PTR : UInt8 := 0xFF

def MARKER_PREFIX : UInt8 := 0xFF
def BYTE_STUFFING : UInt8 := 0x00
def MARKER_SOI : UInt8 := 0xD8
def MARKER_EOI : UInt8 := 0xD9
def MARKER_SOF0 : UInt8 := 0xC0
def MARKER_SOF2 : UInt8 := 0xC2
def MARKER_DHT : UInt8 := 0xC4
def MARKER_SOS : UInt8 := 0xDA
def MARKER_DQT : UInt8 := 0xDB
def MARKER_DRI : UInt8 := 0xDD
def MARKER_LEN_SEGMENT_MIN : UInt8 := 0xC0

inductive Marker where
  | fill
  | stuffing
  | soi
  | eoi
  | sof0
  | sof2
  | dht
  | sos
  | dqt
  | dri
  | otherWithLength
  | other
  deriving DecidableEq, Repr

/-- `Marker::from_byte`. -/
def Marker.fromByte (b : UInt8) : Marker :=
  if b = MARKER_PREFIX then .fill
  else if b = BYTE_STUFFING then .stuffing
  else if b = MARKER_SOI then .soi
  else if b = MARKER_EOI then .eoi
  else if b = MARKER_SOF0 then .sof0
  else if b = MARKER_SOF2 then .sof2
  else if b = MARKER_DHT then .dht
  else if b = MARKER_SOS then .sos
  else if b = MARKER_DQT then .dqt
  else if b = MARKER_DRI then .dri
  else if MARKER_LEN_SEGMENT_MIN ≤ b ∧ b ≤ 0xFE then .otherWithLength
  else .other

/-- `huff_slot`: bit 1 from `Th`, bit 0 from `Tc`. -/
def huffSlot (tc th : UInt8) : Nat := (((th &&& 1) <<< 1) ||| (tc &&& 1)).toNat

def highNibble (b : UInt8) : UInt8 := b >>> 4

def lowNibble (b : UInt8) : UInt8 := b &&& 0x0F

def be16 (data : List UInt8) (off : Nat) : Run Nat := do
  let hi ← index data off
  let lo ← index data (off + 1)
  return hi.toNat <<< 8 ||| lo.toNat

/-- `seg_length`: the length field of the segment at `i`, if it lies inside the data. -/
def segLength (data : List UInt8) (i : Nat) : Run (Option Nat) :=
  let off := i + SEG_LENGTH_OFF
  if off + 1 < data.length then (be16 data off).map some else .ok none

structure HuffTable where
  bits : Vector UInt8 16
  values : Vector UInt8 256
  numValues : Nat
  minCodes : Vector UInt32 16
  maxCodes : Vector UInt32 16
  ptrs : Vector UInt8 16
  deriving DecidableEq

def HuffTable.new : HuffTable :=
  ⟨.replicate 16 0, .replicate 256 0, 0, .replicate 16 HUFF_NO_CODE, .replicate 16 HUFF_NO_CODE,
    .replicate 16 HUFF_NO_PTR⟩

/-- The codes of one length. -/
def HuffTable.setCodes (t : HuffTable) (i : Fin 16) (ptr : UInt8) (minCode maxCode : UInt32) :
    HuffTable :=
  { t with
    ptrs := t.ptrs.set i ptr
    minCodes := t.minCodes.set i minCode
    maxCodes := t.maxCodes.set i maxCode }

/-- What the loop of `generate` carries. -/
structure Generation where
  table : HuffTable
  ptrCnt : Nat
  huffCode : UInt32
  dataFlag : Bool

/-- One code length of `generate`. -/
def Generation.step (g : Generation) (i : Fin 16) : Generation :=
  let t := g.table
  let b := t.bits[i]
  let g :=
    if b ≠ 0 then
      { g with
        table := { t with
          ptrs := t.ptrs.set i (UInt8.ofNat g.ptrCnt)
          minCodes := t.minCodes.set i g.huffCode
          maxCodes := t.maxCodes.set i (g.huffCode + (b.toUInt32 - 1)) }
        ptrCnt := g.ptrCnt + b.toNat
        dataFlag := true }
    else
      { g with
        table := { t with
          ptrs := t.ptrs.set i HUFF_NO_PTR
          minCodes := t.minCodes.set i HUFF_NO_CODE
          maxCodes := t.maxCodes.set i HUFF_NO_CODE } }
  if g.dataFlag then
    { g with
      huffCode := if b = 0 then g.huffCode <<< 1 else (g.table.maxCodes[i] + 1) <<< 1 }
  else g

/-- `HuffTable::generate`. -/
def HuffTable.generate (t : HuffTable) : HuffTable :=
  ((List.finRange 16).foldl Generation.step ⟨t, 0, 0, false⟩).table

structure QuantTable where
  values : Vector UInt16 64
  deriving DecidableEq

def QuantTable.new : QuantTable := ⟨.replicate 64 0⟩

/-- The `FORMAT_*` codes. -/
inductive Format where
  | f420
  | f422
  | f224
  | f444
  | f400
  deriving DecidableEq, Repr

structure JpegHeaderInfo where
  width : UInt32
  height : UInt32
  numComponents : UInt32
  sampling : Vector (UInt8 × UInt8) 3
  format : Format
  ecsOffset : Nat
  restartInterval : UInt32
  dcHuffTbl : Vector Nat 3
  acHuffTbl : Vector Nat 3
  quantTbl : Vector Nat 3
  huffTables : Vector HuffTable 4
  quantTables : Vector QuantTable 4
  quantTableCount : Nat
  deriving DecidableEq

def JpegHeaderInfo.new : JpegHeaderInfo where
  width := 0
  height := 0
  numComponents := 0
  sampling := #v[(2, 2), (1, 1), (1, 1)]
  format := .f420
  ecsOffset := 0
  restartInterval := 0
  dcHuffTbl := .replicate 3 0
  acHuffTbl := .replicate 3 0
  quantTbl := .replicate 3 0
  huffTables := .replicate 4 HuffTable.new
  quantTables := .replicate 4 QuantTable.new
  quantTableCount := 0

/-! ## Huffman and quantisation tables -/

/-- The count for codes of length `j + 1`; a byte past the data leaves its entry as it was. -/
def readCount (data : List UInt8) (offset j : Nat) (acc : Vector UInt8 16 × Nat) :
    Run (Vector UInt8 16 × Nat) := do
  if offset + 1 + j < data.length then
    let b ← index data (offset + 1 + j)
    let bits ← setAt acc.1 j b
    return (bits, acc.2 + b.toNat)
  else return acc

/-- The counts of the table at `offset`, and their sum. -/
def readBits (data : List UInt8) (offset : Nat) (bits : Vector UInt8 16) :
    Run (Vector UInt8 16 × Nat) :=
  forRange HUFF_LENGTH_COUNT (readCount data offset) (bits, 0)

def readValue (data : List UInt8) (offset j : Nat) (values : Vector UInt8 256) :
    Run (Vector UInt8 256) := do
  if offset + DHT_TABLE_HDR_SIZE + j < data.length then
    let b ← index data (offset + DHT_TABLE_HDR_SIZE + j)
    setAt values j b
  else return values

/-- The values of the table at `offset`. -/
def readValues (data : List UInt8) (offset numValues : Nat) (values : Vector UInt8 256) :
    Run (Vector UInt8 256) :=
  forRange numValues (readValue data offset) values

/-- One table of `parse_dht`: the offset of the next, and the header. -/
def parseDhtTable (data : List UInt8) (offset : Nat) (h : JpegHeaderInfo) :
    Run (Nat × JpegHeaderInfo) := do
  let tcTh ← index data offset
  let tableIdx := huffSlot (highNibble tcTh) (lowNibble tcTh)
  let t ← getAt h.huffTables tableIdx
  let (bits, numValues) ← readBits data offset t.bits
  let values ← readValues data offset numValues t.values
  let t := { t with bits := bits, values := values, numValues := numValues }
  let huffTables ← setAt h.huffTables tableIdx t.generate
  return (offset + (DHT_TABLE_HDR_SIZE + numValues), { h with huffTables := huffTables })

theorem parseDhtTable_lt {data : List UInt8} {offset next : Nat} {h h' : JpegHeaderInfo}
    (he : parseDhtTable data offset h = .ok (next, h')) : offset < next := by
  unfold parseDhtTable at he
  simp only [bind, Except.bind, pure, Except.pure] at he
  repeat' split at he
  all_goals cases he
  unfold DHT_TABLE_HDR_SIZE
  omega

/-- `parse_dht`. -/
def parseDht (data : List UInt8) (offset stop : Nat) (h : JpegHeaderInfo) : Run JpegHeaderInfo :=
  if offset < stop ∧ offset + 1 < data.length then
    match _he : parseDhtTable data offset h with
    | .error f => .error f
    | .ok (next, h) => parseDht data next stop h
  else .ok h
termination_by stop - offset
decreasing_by
  have := parseDhtTable_lt _he
  omega

/-- Coefficient `j` of a table of 8-bit coefficients. -/
def readCoeff8 (data : List UInt8) (offset tq j : Nat) (tables : Vector QuantTable 4) :
    Run (Vector QuantTable 4) := do
  if offset + 1 + j < data.length then
    let t ← getAt tables tq
    let b ← index data (offset + 1 + j)
    let values ← setAt t.values j b.toUInt16
    setAt tables tq ⟨values⟩
  else return tables

/-- Coefficient `j` of a table of 16-bit coefficients. -/
def readCoeff16 (data : List UInt8) (offset tq j : Nat) (tables : Vector QuantTable 4) :
    Run (Vector QuantTable 4) := do
  if offset + 1 + j * 2 + 1 < data.length then
    let t ← getAt tables tq
    let hi ← index data (offset + 1 + j * 2)
    let lo ← index data (offset + 1 + j * 2 + 1)
    let values ← setAt t.values j (hi.toUInt16 <<< 8 ||| lo.toUInt16)
    setAt tables tq ⟨values⟩
  else return tables

/-- One table of `parse_dqt`: the offset of the next, and the header. -/
def parseDqtTable (data : List UInt8) (offset : Nat) (h : JpegHeaderInfo) :
    Run (Nat × JpegHeaderInfo) := do
  let pqTq ← index data offset
  let tq := (lowNibble pqTq).toNat
  let count := if tq ≥ h.quantTableCount then tq + 1 else h.quantTableCount
  if highNibble pqTq = 0 then
    let tables ← forRange DQT_TABLE_ENTRIES (readCoeff8 data offset tq) h.quantTables
    return (offset + (1 + DQT_TABLE_ENTRIES),
      { h with quantTables := tables, quantTableCount := count })
  else
    let tables ← forRange DQT_TABLE_ENTRIES (readCoeff16 data offset tq) h.quantTables
    return (offset + (1 + DQT_TABLE_ENTRIES * 2),
      { h with quantTables := tables, quantTableCount := count })

theorem parseDqtTable_lt {data : List UInt8} {offset next : Nat} {h h' : JpegHeaderInfo}
    (he : parseDqtTable data offset h = .ok (next, h')) : offset < next := by
  unfold parseDqtTable at he
  simp only [bind, Except.bind, pure, Except.pure] at he
  repeat' split at he
  all_goals cases he
  all_goals unfold DQT_TABLE_ENTRIES; omega

/-- `parse_dqt`. -/
def parseDqt (data : List UInt8) (offset stop : Nat) (h : JpegHeaderInfo) : Run JpegHeaderInfo :=
  if offset < stop ∧ offset + 1 < data.length then
    match _he : parseDqtTable data offset h with
    | .error f => .error f
    | .ok (next, h) => parseDqt data next stop h
  else .ok h
termination_by stop - offset
decreasing_by
  have := parseDqtTable_lt _he
  omega

/-! ## Frame, scan and restart segments -/

/-- The format a SOF's sampling factors stand for. -/
def formatOf (sampling : Vector (UInt8 × UInt8) 3) : Format :=
  let (h1, v1) := sampling[0]
  let (h2, v2) := sampling[1]
  if h1 = 2 ∧ v1 = 2 ∧ h2 = 1 ∧ v2 = 1 then .f420
  else if h1 = 2 ∧ v1 = 1 then .f422
  else if h1 = 1 ∧ v1 = 2 then .f224
  else .f444

/-- Component entry `c` of a SOF. -/
def readComp (data : List UInt8) (comps c : Nat) (h : JpegHeaderInfo) : Run JpegHeaderInfo := do
  let entry := comps + c * COMP_ENTRY_SIZE
  let hv ← index data (entry + COMP_SAMPLING_OFF)
  let sampling ← setAt h.sampling c (highNibble hv, lowNibble hv)
  let tq ← index data (entry + COMP_QUANT_OFF)
  let quantTbl ← setAt h.quantTbl c tq.toNat
  return { h with sampling := sampling, quantTbl := quantTbl }

/-- The SOF at `i`, up to the skip over its segment. -/
def readSof (data : List UInt8) (i : Nat) (h : JpegHeaderInfo) : Run JpegHeaderInfo := do
  let height ← be16 data (i + SOF_HEIGHT_OFF)
  let width ← be16 data (i + SOF_WIDTH_OFF)
  let ncomp ← index data (i + SOF_NCOMP_OFF)
  let h := { h with
    height := UInt32.ofNat height
    width := UInt32.ofNat width
    numComponents := ncomp.toUInt32 }
  if h.numComponents.toNat = NUM_JPEG_COMPS then
    let comps := i + SOF_COMPS_OFF
    if comps + NUM_JPEG_COMPS * COMP_ENTRY_SIZE ≤ data.length then
      let h ← forRange NUM_JPEG_COMPS (readComp data comps) h
      return { h with format := formatOf h.sampling }
    else return h
  else return { h with sampling := .replicate 3 (1, 1), format := .f400 }

/-- Component entry `compIdx` of a SOS, and the offset of the next one. -/
def readScanComp (data : List UInt8) (compIdx : Nat) (acc : JpegHeaderInfo × Nat) :
    Run (JpegHeaderInfo × Nat) := do
  let (h, compOffset) := acc
  if compOffset + SCAN_COMP_ENTRY_SIZE ≤ data.length then
    let tables ← index data (compOffset + SCAN_COMP_TABLES_OFF)
    let dc ← setAt h.dcHuffTbl compIdx (highNibble tables).toNat
    let ac ← setAt h.acHuffTbl compIdx (lowNibble tables).toNat
    return ({ h with dcHuffTbl := dc, acHuffTbl := ac }, compOffset + SCAN_COMP_ENTRY_SIZE)
  else return acc

/-- The component selectors of the SOS at `i`. -/
def readScan (data : List UInt8) (i : Nat) (h : JpegHeaderInfo) : Run JpegHeaderInfo := do
  if i + SOS_COMPS_OFF < data.length then
    let numScanComponents ← index data (i + SOS_NCOMP_OFF)
    let (h, _) ← forRange (min numScanComponents.toNat NUM_JPEG_COMPS) (readScanComp data)
      (h, i + SOS_COMPS_OFF)
    return h
  else return h

/-- The restart interval of the DRI at `i`. -/
def readDri (data : List UInt8) (i : Nat) (h : JpegHeaderInfo) : Run JpegHeaderInfo := do
  if i + DRI_INTERVAL_OFF + 2 ≤ data.length then
    let ri ← be16 data (i + DRI_INTERVAL_OFF)
    return { h with restartInterval := UInt32.ofNat ri }
  else return h

/-! ## The marker scan -/

/-- Where one turn of the scan leaves off. -/
inductive Next where
  /-- The scan goes on at `i`. -/
  | goto (i : Nat)
  /-- An EOI ends the scan. -/
  | stop
  /-- An SOS ends the scan: the header is returned. -/
  | accept
  deriving DecidableEq, Repr

/-- One turn of the scan, at `i < data.len() - 1`. -/
def scanStep (data : List UInt8) (i : Nat) (h : JpegHeaderInfo) : Run (Next × JpegHeaderInfo) := do
  let b ← index data i
  if b ≠ MARKER_PREFIX then return (.goto (i + 1), h)
  let m ← index data (i + 1)
  match Marker.fromByte m with
  | .fill => return (.goto (i + 1), h)
  | .stuffing | .soi | .other => return (.goto (i + MARKER_SIZE), h)
  | .eoi => return (.stop, h)
  | .sof0 | .sof2 =>
    if i + SOF_COMPS_OFF ≥ data.length then throw (.error "SOF too short")
    let h ← readSof data i h
    match ← segLength data i with
    | none => return (.goto (i + 1), h)
    | some length => return (.goto (i + (MARKER_SIZE + length)), h)
  | .dht =>
    match ← segLength data i with
    | none => return (.goto (i + 1), h)
    | some length =>
      let h ← parseDht data (i + MARKER_SIZE + SEG_LENGTH_OFF) (i + MARKER_SIZE + length) h
      return (.goto (i + (MARKER_SIZE + length)), h)
  | .sos =>
    match ← segLength data i with
    | none => return (.goto (i + 1), h)
    | some sosLength =>
      let h ← readScan data i h
      return (.accept, { h with ecsOffset := i + MARKER_SIZE + sosLength })
  | .dqt =>
    match ← segLength data i with
    | none => return (.goto (i + 1), h)
    | some length =>
      let h ← parseDqt data (i + MARKER_SIZE + SEG_LENGTH_OFF) (i + MARKER_SIZE + length) h
      return (.goto (i + (MARKER_SIZE + length)), h)
  | .dri =>
    let h ← readDri data i h
    match ← segLength data i with
    | none => return (.goto (i + 1), h)
    | some length => return (.goto (i + (MARKER_SIZE + length)), h)
  | .otherWithLength =>
    match ← segLength data i with
    | none => return (.goto (i + MARKER_SIZE), h)
    | some length => return (.goto (i + (MARKER_SIZE + length)), h)

theorem scanStep_lt {data : List UInt8} {i i' : Nat} {h h' : JpegHeaderInfo}
    (he : scanStep data i h = .ok (.goto i', h')) : i < i' := by
  have hm : MARKER_SIZE = 2 := rfl
  unfold scanStep at he
  simp only [bind, Except.bind, pure, Except.pure, throw, throwThe, MonadExceptOf.throw] at he
  repeat' split at he
  all_goals cases he
  all_goals omega

/-- The scan of `parse_jpeg_header` from `i` on. -/
def parseLoop (data : List UInt8) (i : Nat) (h : JpegHeaderInfo) : Run JpegHeaderInfo :=
  if i < data.length - 1 then
    match _he : scanStep data i h with
    | .error f => .error f
    | .ok (.goto i, h) => parseLoop data i h
    | .ok (.stop, _) => .error (.error "SOS not found")
    | .ok (.accept, h) => .ok h
  else .error (.error "SOS not found")
termination_by data.length - i
decreasing_by
  have := scanStep_lt _he
  omega

/-- `parse_jpeg_header`. -/
def parseJpegHeader (data : List UInt8) : Run JpegHeaderInfo := parseLoop data 0 .new

end Cvirtos.Jpu
