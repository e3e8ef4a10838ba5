import Cvirtos.Jpu.Header

/-!
# From a parsed header to the decoder's registers

`drivers/jpu/decoder.rs`: the frame layout and the upload of the Huffman and quantisation tables.
An upload is the list of the register writes it makes, in order.
-/

set_option autoImplicit false

namespace Cvirtos.Jpu

open Cvirtos.Lib

/-- A write to one of the table registers. -/
inductive RegWrite where
  | huffCtrl (phase : UInt32)
  | huffAddr (addr : UInt32)
  | huffData (word : UInt32)
  | qmatCtrl (phase : UInt32)
  | qmatData (word : UInt32)
  deriving DecidableEq, Repr

def HUFF_PHASE_MIN : UInt32 := 0x003
def HUFF_PHASE_MAX : UInt32 := 0x403
def HUFF_PHASE_PTR : UInt32 := 0x803
def HUFF_PHASE_VAL : UInt32 := 0xC03
def HUFF_ADDR_MAX : UInt32 := 0x440
def HUFF_ADDR_PTR : UInt32 := 0x880
def QMAT_PHASE_Y : UInt32 := 0x03
def QMAT_PHASE_CB : UInt32 := 0x43
def QMAT_PHASE_CR : UInt32 := 0x83

def BUS_REQ_NUM_SPARSE : UInt32 := 2
def BUS_REQ_NUM_MEDIUM : UInt32 := 3
def BUS_REQ_NUM_DENSE : UInt32 := 4

structure FrameLayout where
  alignedWidth : UInt32
  alignedHeight : UInt32
  strideY : UInt32
  strideC : UInt32
  lumaSize : Nat
  chromaSize : Nat
  mcuBlockNum : UInt32
  compInfo : UInt32
  busReqNum : UInt32
  deriving DecidableEq, Repr

/-- `u32::div_ceil`. -/
def divCeil (x d : UInt32) : UInt32 := if x % d ≠ 0 then x / d + 1 else x / d

/-- `frame_layout`, in wrapping `u32` arithmetic. -/
def frameLayout (h : JpegHeaderInfo) : Run (Nat × FrameLayout) :=
  let alignedWidth := match h.format with
    | .f420 | .f422 => divCeil h.width 16 * 16
    | _ => divCeil h.width 8 * 8
  let alignedHeight := match h.format with
    | .f420 | .f224 => divCeil h.height 16 * 16
    | _ => divCeil h.height 8 * 8
  let strideY := alignedWidth
  let strideC := match h.format with
    | .f420 | .f422 => alignedWidth / 2
    | .f400 => 0
    | _ => alignedWidth
  let lumaSize := (strideY * alignedHeight).toNat
  let chromaSize := match h.format with
    | .f420 => (strideC * alignedHeight / 2).toNat
    | .f422 | .f224 => lumaSize / 2
    | .f444 => lumaSize
    | .f400 => 0
  let (compInfo, mcuBlockNum) :=
    (h.sampling.toList.zipIdx.take h.numComponents.toNat).foldl
      (fun (compInfo, mcuBlockNum) ((hs, vs), i) =>
        (compInfo ||| ((hs.toUInt32 <<< 2 ||| vs.toUInt32) <<< UInt32.ofNat (8 - 4 * i)),
          mcuBlockNum + hs.toUInt32 * vs.toUInt32))
      (0, 0)
  let busReqNum := match h.format with
    | .f420 => BUS_REQ_NUM_SPARSE
    | .f422 | .f224 => BUS_REQ_NUM_MEDIUM
    | .f444 | .f400 => BUS_REQ_NUM_DENSE
  .ok (lumaSize + chromaSize * 2,
    { alignedWidth, alignedHeight, strideY, strideC, lumaSize, chromaSize, mcuBlockNum, compInfo,
      busReqNum })

def NEG_FILL_16 : UInt32 := 0xFFFF
def NEG_FILL_24 : UInt32 := 0xFFFFFF

def signExtend16 (huffData : UInt32) : UInt32 :=
  if huffData &&& 0x8000 ≠ 0 then NEG_FILL_16 else 0

def signExtend8 (huffData : UInt32) : UInt32 :=
  if huffData &&& 0x80 ≠ 0 then NEG_FILL_24 else 0

/-- The word a code is written as. -/
def codeWord (huffData : UInt32) : UInt32 :=
  ((signExtend16 huffData &&& 0xFFFF) <<< 16) ||| huffData

/-- The word a pointer or a value is written as. -/
def byteWord (huffData : UInt32) : UInt32 :=
  ((signExtend8 huffData &&& 0xFFFFFF) <<< 8) ||| huffData

/-- The tables in upload order. -/
def uploadOrder : List (Fin 4) := [0, 2, 1, 3]

/-- One phase that writes an entry for each code length of each table. -/
def uploadLengths (h : JpegHeaderInfo) (entry : HuffTable → Fin 16 → UInt32) : List RegWrite :=
  uploadOrder.flatMap fun idx =>
    (List.finRange 16).map fun j => .huffData (entry h.huffTables[idx] j)

/-- `v[..k]`. -/
def sliceTo {α : Type} {n : Nat} (v : Vector α n) (k : Nat) : Run (List α) :=
  if k ≤ n then .ok (v.toList.take k) else .error .panic

def uploadValue (t : HuffTable) (j : Nat) (words : List RegWrite) : Run (List RegWrite) := do
  let val ← getAt t.values j
  return words ++ [.huffData (byteWord val.toUInt32)]

/-- The values of one table, then the fill. -/
def uploadValues (h : JpegHeaderInfo) (tableIdx : Fin 4) : Run (List RegWrite) := do
  let isDc : Bool := tableIdx = 0 ∨ tableIdx = 2
  let maxCount := if isDc then 12 else 162
  let bitsLen := if isDc then 12 else 16
  let t := h.huffTables[tableIdx]
  let bits ← sliceTo t.bits bitsLen
  let count := (bits.map UInt8.toNat).sum
  let words ← forRange (min count t.numValues) (uploadValue t) []
  return words ++ List.replicate (maxCount - count) (.huffData 0xFFFFFFFF)

/-- `upload_huff_tables`. -/
def uploadHuffTables (h : JpegHeaderInfo) : Run (List RegWrite) := do
  let values ← uploadOrder.mapM (uploadValues h)
  return [.huffCtrl HUFF_PHASE_MIN] ++
    uploadLengths h (fun t j => codeWord t.minCodes[j]) ++
    [.huffCtrl HUFF_PHASE_MAX, .huffAddr HUFF_ADDR_MAX] ++
    uploadLengths h (fun t j => codeWord t.maxCodes[j]) ++
    [.huffCtrl HUFF_PHASE_PTR, .huffAddr HUFF_ADDR_PTR] ++
    uploadLengths h (fun t j => byteWord t.ptrs[j].toUInt32) ++
    [.huffCtrl HUFF_PHASE_VAL] ++ values.flatten ++ [.huffCtrl 0]

/-- The table of one component. -/
def uploadQuantTable (h : JpegHeaderInfo) (comp : Fin 3 × UInt32) : Run (List RegWrite) := do
  let tableIdx := h.quantTbl[comp.1]
  if tableIdx ≥ 4 ∨ tableIdx ≥ h.quantTableCount then return []
  let t ← getAt h.quantTables tableIdx
  return [.qmatCtrl comp.2] ++
    (List.finRange 64).map (fun j => .qmatData t.values[j].toUInt32) ++ [.qmatCtrl 0]

/-- `upload_quant_tables`. -/
def uploadQuantTables (h : JpegHeaderInfo) : Run (List RegWrite) := do
  let qmatPhases : List (Fin 3 × UInt32) := [(0, QMAT_PHASE_Y), (1, QMAT_PHASE_CB), (2, QMAT_PHASE_CR)]
  let compCount := min h.numComponents.toNat 3
  let writes ← (qmatPhases.take compCount).mapM (uploadQuantTable h)
  return writes.flatten

end Cvirtos.Jpu
