import Cvirtos.Usb.Dwc2.Channel

/-!
# Isochronous IN on a machine

`read_uframe` and `read_payload` of `drivers/usb/dwc2/isoch.rs` again, this time with the controller
and the cache behind them: what the channel is armed with, and which bytes are invalidated before
they are read.
-/

set_option autoImplicit false

namespace Cvirtos.Usb.Dwc2.OnMachine

open Cvirtos.Lib

variable {σ : Type} (m : Machine σ)

/-- `dma_rx_slice`, with the slice read where it is handed out. -/
def dmaRxSlice (off len : Nat) : Io σ (Option (List UInt8)) :=
  if len = 0 ∨ off + len > DMA_BUF_TOTAL then return none
  else do
    let bytes ← query (m.read off len)
    return some bytes

/-- `dma_write_at`. -/
def dmaWriteAt (off : Nat) (src : List UInt8) : Io σ Unit :=
  if off + src.length ≥ 2 ^ 64 then throw (.err (.protocol "dma write overflow"))
  else if off + src.length > DMA_BUF_TOTAL then throw (.err (.protocol "dma write out of buf"))
  else effect (m.write off src)

/-- The transfer of one microframe. -/
def isochTransfer (ep : IsochInEp) (transferSize dmaOff : Nat) : Transfer where
  dev := ep.dev
  epNum := ep.epNum.toNat
  mps := transferSize
  dirIn := true
  pid := .data0
  xferSize := transferSize
  dmaOff := dmaOff

/-- `IsochInEp::read_uframe`. -/
def readUframe (ep : IsochInEp) (dmaOff : Nat) : Io σ Nat :=
  let transferSize := wmaxMps ep.mpsRaw
  if transferSize = 0 then throw (.err (.protocol "bad isoch mps_raw"))
  else if transferSize > UVC_BULK_DMA_CAP then throw (.err (.protocol "isoch xfer > dma cap"))
  else do
    Channel.video.arm m (isochTransfer ep transferSize dmaOff)
    let hcint ← Channel.video.waitHalted m
    if isSet hcint HCINT.STALL then throw (.err .stall)
    else if isSet hcint HCINT.AHBERR then throw (.err (.hardware "AHBERR on isoch"))
    else if isSet hcint HCINT.FRMOVRN || isSet hcint HCINT.XACTERR || isSet hcint HCINT.BBLERR
        || isSet hcint HCINT.DATATGLERR || isSet hcint HCINT.NYET || isSet hcint HCINT.NAK then
      return 0
    else if !isSet hcint HCINT.XFERCOMPL then return 0
    else
      let remainingBytes ← query fun s => (m.xferSizeLeft .video s, s)
      let receivedBytes := transferSize - remainingBytes
      if receivedBytes > 0 then
        effect (m.invalidate dmaOff receivedBytes)
        return receivedBytes
      else return receivedBytes

/-- The loop of `read_payload`; the first argument counts the microframes still allowed. -/
def readPayloadLoop (ep : IsochInEp) (dmaOff : Nat) : Nat → Io σ (List UInt8)
  | 0 => throw (.err .timeout)
  | left + 1 => do
    let actual ← readUframe m ep dmaOff
    if actual > 0 then
      match ← dmaRxSlice m dmaOff actual with
      | some s => return s
      | none => throw (.err (.hardware "dma view"))
    else readPayloadLoop ep dmaOff left

/-- `IsochInEp::read_payload`. -/
def readPayload (ep : IsochInEp) (dmaOff : Nat) : Io σ (List UInt8) :=
  readPayloadLoop m ep dmaOff MAX_UFRAMES

end Cvirtos.Usb.Dwc2.OnMachine
