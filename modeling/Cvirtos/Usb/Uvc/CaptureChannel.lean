import Cvirtos.Usb.Uvc.Capture
import Cvirtos.Usb.Dwc2.IsochChannel

/-!
# Capturing one video frame on a machine

`drivers/usb/uvc/capture.rs` with the controller and the cache behind it.  The two loops of
`try_frame` run on a number of packets here: `none` is a capture that still runs when they are
read.
-/

set_option autoImplicit false

namespace Cvirtos.Usb.Uvc.OnMachine

open Cvirtos.Lib Cvirtos.Usb.Dwc2 Cvirtos.Usb.Dwc2.OnMachine

variable {σ : Type} (m : Machine σ)

/-- `UvcPacket::append`: the new length and data flag. -/
def append (p : UvcPacket) (jpegLen : Nat) (sawData : Bool) (jpegCap : Nat) : Io σ (Nat × Bool) :=
  if p.payload.isEmpty then return (jpegLen, sawData)
  else if !sawData && !p.soi then return (jpegLen, sawData)
  else if jpegLen + p.payload.length > jpegCap then
    throw (.err (.hardware "video assemble overflow"))
  else do
    dmaWriteAt m (UVC_ASSEMBLED_JPEG_DMA_OFF + jpegLen) p.payload
    return (jpegLen + p.payload.length, true)

/-- `tail_is_eoi`. -/
def tailIsEoi (jpegLen : Nat) : Io σ Bool := do
  let t ← dmaRxSlice m (UVC_ASSEMBLED_JPEG_DMA_OFF + (jpegLen - 2)) 2
  return t.any (· == [0xff, 0xd9])

/-- `c && tail_is_eoi(jpeg_len)`. -/
def andTailIsEoi (c : Bool) (jpegLen : Nat) : Io σ Bool :=
  if c then tailIsEoi m jpegLen else return false

/-- Phase 1 of `try_frame`. -/
def waitFlip (iso : IsochInEp) (workOff : Nat) : Nat → Option UInt8 → Io σ (Option UvcPacket)
  | 0, _ => return none
  | packets + 1, prevFid => do
    let pkt ← readPayload m iso workOff
    match UvcPacket.new pkt with
    | none => waitFlip iso workOff packets prevFid
    | some p =>
      match prevFid with
      | none => waitFlip iso workOff packets (some p.fid)
      | some prev =>
        if prev ≠ p.fid then return some p else waitFlip iso workOff packets (some prev)

/-- The end of one packet: it is appended, then its EOF bit is looked at.  `none` asks for the next
packet. -/
def finishPacket (jpegCap : Nat) (p : UvcPacket) (a : Assembly) : Io σ (Option Nat × Assembly) := do
  let (jpegLen, sawData) ← append m p a.jpegLen a.sawData jpegCap
  let whole ← andTailIsEoi m (p.eof && sawData) jpegLen
  if whole then return (some jpegLen, { a with jpegLen := jpegLen, sawData := sawData })
  else if p.eof then throw (.err .timeout)
  else return (none, { a with jpegLen := jpegLen, sawData := sawData })

/-- Phase 2 of `try_frame`, after the first packet. -/
def assembleLoop (iso : IsochInEp) (workOff jpegCap : Nat) : Nat → Assembly → Io σ (Option Nat)
  | 0, _ => return none
  | packets + 1, a => do
    let pkt ← readPayload m iso workOff
    match UvcPacket.new pkt with
    | none => assembleLoop iso workOff jpegCap packets a
    | some p =>
      let whole ← andTailIsEoi m (!p.isFid a.fid && a.sawData) a.jpegLen
      if whole then return some a.jpegLen
      else
        match ← finishPacket m jpegCap p (if !p.isFid a.fid then ⟨0, false, p.fid⟩ else a) with
        | (some len, _) => return some len
        | (none, a) => assembleLoop iso workOff jpegCap packets a

/-- `UvcCamera::try_frame`: the length of the frame, and the FID to remember. -/
def tryFrame (iso : IsochInEp) (workOff : Nat) (initFid : Option UInt8) (jpegCap packets : Nat) :
    Io σ (Option (Nat × UInt8)) := do
  match ← waitFlip m iso workOff packets initFid with
  | none => return none
  | some first =>
    match ← finishPacket m jpegCap first ⟨0, false, first.fid⟩ with
    | (some len, _) => return some (len, first.fid)
    | (none, a) =>
      let len ← assembleLoop m iso workOff jpegCap packets a
      return len.map fun len => (len, first.fid)

/-- The rounds of `capture_frame`, of which every arm leaves the loop. -/
def captureRounds (iso : IsochInEp) (workOff : Nat) (initFid : Option UInt8)
    (jpegCap packets : Nat) : Nat → Io σ (Option (Nat × UInt8))
  | 0 => throw (.err .timeout)
  | _ + 1 => do
    match ← attempt (tryFrame m iso workOff initFid jpegCap packets) with
    | .ok r => return r
    | .error (.err .timeout) => throw (.err .timeout)
    | .error e => throw e

/-- `UvcCamera::capture_frame`, with `LAST_EOF_FID` as it is before. -/
def captureFrame (cam : UvcCamera) (lastEofFid : UInt8) (packets : Nat) :
    Io σ (Option (Nat × UInt8)) :=
  captureRounds m cam.iso DMA_OFF_UVC_BULK (initFid lastEofFid) jpegCap packets 4

end Cvirtos.Usb.Uvc.OnMachine
