import Cvirtos.Usb.Dwc2.Isoch

/-!
# Capturing one video frame

`drivers/usb/uvc/capture.rs`: wait for the frame identifier to flip, append payloads to the
assembly area, and take the frame when an end-of-frame packet (or the next flip) finds an
end-of-image marker at its tail.

The two loops of `try_frame` have no counter of their own.  They recurse here on the
microframes that are left, so a run that never returns is one that waits for more microframes
however many it is given.
-/

set_option autoImplicit false

namespace Cvirtos.Usb.Uvc

open Cvirtos.Lib Cvirtos.Usb.Dwc2

def UVC_WORK_AREA_BYTES : Nat := 4096

def UVC_ASSEMBLED_JPEG_DMA_OFF : Nat := DMA_OFF_UVC_BULK + UVC_WORK_AREA_BYTES

/-- A UVC payload packet whose header length lies inside the packet. -/
structure UvcPacket where
  pkt : List UInt8
  hlen : Nat
  two_le : 2 ≤ hlen
  hlen_le : hlen ≤ pkt.length
  deriving DecidableEq

namespace UvcPacket

/-- `UvcPacket::new`. -/
def new (pkt : List UInt8) : Option UvcPacket :=
  match pkt.head? with
  | none => none
  | some b =>
    if h : b.toNat < 2 ∨ b.toNat > pkt.length then none
    else some ⟨pkt, b.toNat, by omega, by omega⟩

/-- `bInfo`, the second header byte. -/
def info (p : UvcPacket) : UInt8 :=
  have : 1 < p.pkt.length := by have := p.two_le; have := p.hlen_le; omega
  p.pkt[1]

def eof (p : UvcPacket) : Bool := p.info &&& 0x02 != 0

def fid (p : UvcPacket) : UInt8 := p.info &&& 0x01

def payload (p : UvcPacket) : List UInt8 := p.pkt.drop p.hlen

def isFid (p : UvcPacket) (fid : UInt8) : Bool := p.fid == fid

/-- The payload opens with a start-of-image marker. -/
def soi (p : UvcPacket) : Bool := [0xff, 0xd8].isPrefixOf p.payload

/-- `append`: the new length and data flag, and the window. -/
def append (p : UvcPacket) (jpegLen : Nat) (sawData : Bool) (jpegCap : Nat) (w : DmaBuf) :
    UsbResult (Nat × Bool × DmaBuf) :=
  if p.payload.isEmpty then .ok (jpegLen, sawData, w)
  else if !sawData && !p.soi then .ok (jpegLen, sawData, w)
  else if jpegLen + p.payload.length > jpegCap then
    .error (.hardware "video assemble overflow")
  else
    match dmaWriteAt w (UVC_ASSEMBLED_JPEG_DMA_OFF + jpegLen) p.payload with
    | .error e => .error e
    | .ok w => .ok (jpegLen + p.payload.length, true, w)

end UvcPacket

/-- `tail_is_eoi`. -/
def tailIsEoi (w : DmaBuf) (jpegLen : Nat) : Bool :=
  (dmaRxSlice w (UVC_ASSEMBLED_JPEG_DMA_OFF + (jpegLen - 2)) 2).any (· == [0xff, 0xd9])

/-- The driver state a capture reads and writes. -/
structure CaptureState where
  dma : DmaBuf
  /-- `LAST_EOF_FID`. -/
  lastEofFid : UInt8

/-- The state before a run: any memory, any `LAST_EOF_FID`, nothing recorded yet. -/
def CaptureState.start (mem : Memory UInt8) (lastEofFid : UInt8) : CaptureState :=
  ⟨⟨mem, []⟩, lastEofFid⟩

/-- What a capture uses of the camera session. -/
structure UvcCamera where
  dev : Nat
  epNum : UInt8
  mpsRaw : UInt16
  deriving DecidableEq, Repr

/-- Phase 1 of `try_frame`: read packets until one carries another FID than the reference. -/
def waitFlip (iso : IsochInEp) (workOff : Nat) (prevFid : Option UInt8) (us : List Uframe)
    (w : DmaBuf) : Outcome DmaBuf UvcPacket :=
  match _h : readPayload iso workOff us w with
  | .waiting w => .waiting w
  | .done (.error e) us w => .done (.error e) us w
  | .done (.ok pkt) us w =>
    match UvcPacket.new pkt with
    | none => waitFlip iso workOff prevFid us w
    | some p =>
      match prevFid with
      | none => waitFlip iso workOff (some p.fid) us w
      | some prev =>
        if prev ≠ p.fid then .done (.ok p) us w
        else waitFlip iso workOff (some prev) us w
termination_by us.length
decreasing_by all_goals exact readPayload_lt _h

/-- What the assembly keeps from packet to packet. -/
structure Assembly where
  jpegLen : Nat
  sawData : Bool
  fid : UInt8
  deriving DecidableEq, Repr

/-- The end of one packet: it is appended, then its EOF bit is looked at.  `none` asks for the
next packet. -/
def finishPacket (frameFid : UInt8) (jpegCap : Nat) (p : UvcPacket) (a : Assembly)
    (st : CaptureState) : UsbResult (Option Nat) × Assembly × CaptureState :=
  match p.append a.jpegLen a.sawData jpegCap st.dma with
  | .error e => (.error e, a, st)
  | .ok (jpegLen, sawData, w) =>
    let a := { a with jpegLen := jpegLen, sawData := sawData }
    let st := { st with dma := w }
    if p.eof && sawData && tailIsEoi w jpegLen then
      (.ok (some jpegLen), a, { st with lastEofFid := frameFid })
    else if p.eof then (.error .timeout, a, st)
    else (.ok none, a, st)

/-- Phase 2 of `try_frame`, after the first packet. -/
def assembleLoop (iso : IsochInEp) (workOff : Nat) (frameFid : UInt8) (jpegCap : Nat)
    (a : Assembly) (us : List Uframe) (st : CaptureState) : Outcome CaptureState Nat :=
  match _h : readPayload iso workOff us st.dma with
  | .waiting w => .waiting { st with dma := w }
  | .done (.error e) us w => .done (.error e) us { st with dma := w }
  | .done (.ok pkt) us w =>
    let st := { st with dma := w }
    match UvcPacket.new pkt with
    | none => assembleLoop iso workOff frameFid jpegCap a us st
    | some p =>
      if !p.isFid a.fid && (a.sawData && tailIsEoi w a.jpegLen) then
        .done (.ok a.jpegLen) us { st with lastEofFid := frameFid }
      else
        -- a flip without an end-of-image marker drops what was assembled
        let a := if !p.isFid a.fid then ⟨0, false, p.fid⟩ else a
        match finishPacket frameFid jpegCap p a st with
        | (.error e, _, st) => .done (.error e) us st
        | (.ok (some len), _, st) => .done (.ok len) us st
        | (.ok none, a, st) => assembleLoop iso workOff frameFid jpegCap a us st
termination_by us.length
decreasing_by all_goals exact readPayload_lt _h

/-- Phase 2 of `try_frame`, from the packet that flipped. -/
def assemble (iso : IsochInEp) (workOff : Nat) (first : UvcPacket) (jpegCap : Nat)
    (us : List Uframe) (st : CaptureState) : Outcome CaptureState Nat :=
  match finishPacket first.fid jpegCap first ⟨0, false, first.fid⟩ st with
  | (.error e, _, st) => .done (.error e) us st
  | (.ok (some len), _, st) => .done (.ok len) us st
  | (.ok none, a, st) => assembleLoop iso workOff first.fid jpegCap a us st

/-- `UvcCamera::try_frame`. -/
def tryFrame (iso : IsochInEp) (workOff : Nat) (initFid : Option UInt8) (jpegCap : Nat)
    (us : List Uframe) (st : CaptureState) : Outcome CaptureState Nat :=
  match waitFlip iso workOff initFid us st.dma with
  | .waiting w => .waiting { st with dma := w }
  | .done (.error e) us w => .done (.error e) us { st with dma := w }
  | .done (.ok first) us w => assemble iso workOff first jpegCap us { st with dma := w }

/-- The rounds of `capture_frame`.  Every arm of the source's `match` leaves the loop: `Timeout`
breaks out of it, the other results return. -/
def captureRounds (iso : IsochInEp) (workOff : Nat) (initFid : Option UInt8) (jpegCap : Nat) :
    Nat → List Uframe → CaptureState → Outcome CaptureState Nat
  | 0, us, st => .done (.error .timeout) us st
  | _ + 1, us, st =>
    match tryFrame iso workOff initFid jpegCap us st with
    | .waiting st => .waiting st
    | .done (.ok len) us st => .done (.ok len) us st
    | .done (.error .timeout) us st => .done (.error .timeout) us st
    | .done (.error e) us st => .done (.error e) us st

/-- `LAST_EOF_FID` as the reference of the flip wait. -/
def initFid (lastEofFid : UInt8) : Option UInt8 :=
  if lastEofFid ≤ 1 then some lastEofFid else none

def UvcCamera.iso (cam : UvcCamera) : IsochInEp := ⟨cam.dev, cam.epNum, cam.mpsRaw⟩

/-- Room for the assembled JPEG. -/
def jpegCap : Nat := UVC_BULK_DMA_CAP - UVC_WORK_AREA_BYTES

/-- `UvcCamera::capture_frame`. -/
def captureFrame (cam : UvcCamera) (us : List Uframe) (st : CaptureState) :
    Outcome CaptureState Nat :=
  captureRounds cam.iso DMA_OFF_UVC_BULK (initFid st.lastEofFid) jpegCap 4 us st

end Cvirtos.Usb.Uvc
