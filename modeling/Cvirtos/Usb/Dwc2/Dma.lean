import Cvirtos.Lib.Memory
import Cvirtos.Usb.Error

/-!
# The DMA window

`drivers/usb/dwc2/dma.rs`: one contiguous buffer whose first 1 KiB serves EP0 and whose rest is
the isochronous area (one microframe of receive work area, then the assembled JPEG).

Offsets are relative to `dma_ptr()`.  The memory is total, so a write past the window is a
change a statement can see; `trace` records every write and every packet handed out, in order.
-/

set_option autoImplicit false

namespace Cvirtos.Usb.Dwc2

open Cvirtos.Lib

def EP0_REGION_BYTES : Nat := 1024

/-- Start of the isochronous area. -/
def DMA_OFF_UVC_BULK : Nat := EP0_REGION_BYTES

def UVC_BULK_DMA_CAP : Nat := 384 * 1024

def DMA_BUF_TOTAL : Nat := EP0_REGION_BYTES + UVC_BULK_DMA_CAP

/-- What happens to the window, in order. -/
inductive Event where
  /-- The controller wrote `len` received bytes at `off`. -/
  | dmaWrite (off len : Nat)
  /-- The CPU wrote `len` bytes at `off`. -/
  | cpuWrite (off len : Nat)
  /-- `read_payload` handed out the bytes of one microframe. -/
  | payload (pkt : List UInt8)
  deriving DecidableEq, Repr

structure DmaBuf where
  mem : Memory UInt8
  trace : List Event

/-- A channel's DMA engine writing received bytes into the window. -/
def DmaBuf.receive (w : DmaBuf) (off : Nat) (bytes : List UInt8) : DmaBuf :=
  ⟨store w.mem off bytes, w.trace ++ [.dmaWrite off bytes.length]⟩

/-- `dma_rx_slice`. -/
def dmaRxSlice (w : DmaBuf) (off len : Nat) : Option (List UInt8) :=
  if len = 0 ∨ off + len > DMA_BUF_TOTAL then none else some (load w.mem off len)

/-- `dma_write_at`. -/
def dmaWriteAt (w : DmaBuf) (off : Nat) (src : List UInt8) : UsbResult DmaBuf :=
  if off + src.length ≥ 2 ^ 64 then .error (.protocol "dma write overflow")
  else if off + src.length > DMA_BUF_TOTAL then .error (.protocol "dma write out of buf")
  else .ok ⟨store w.mem off src, w.trace ++ [.cpuWrite off src.length]⟩

theorem dmaRxSlice_eq {w : DmaBuf} {off len : Nat} (h0 : 0 < len)
    (h : off + len ≤ DMA_BUF_TOTAL) : dmaRxSlice w off len = some (load w.mem off len) := by
  unfold dmaRxSlice
  rw [if_neg (by omega)]

theorem dmaWriteAt_eq {w : DmaBuf} {off : Nat} {src : List UInt8}
    (h : off + src.length ≤ DMA_BUF_TOTAL) :
    dmaWriteAt w off src =
      .ok ⟨store w.mem off src, w.trace ++ [.cpuWrite off src.length]⟩ := by
  have : DMA_BUF_TOTAL < 2 ^ 64 := by decide
  unfold dmaWriteAt
  rw [if_neg (by omega), if_neg (by omega)]

/-- The packets a trace hands out, in order. -/
def received (t : List Event) : List (List UInt8) :=
  t.filterMap fun
    | .payload pkt => some pkt
    | _ => none

@[simp] theorem received_append (t t' : List Event) :
    received (t ++ t') = received t ++ received t' := by
  simp [received]

@[simp] theorem received_payload (pkt : List UInt8) : received [.payload pkt] = [pkt] := rfl

@[simp] theorem received_dmaWrite (off len : Nat) : received [.dmaWrite off len] = [] := rfl

@[simp] theorem received_cpuWrite (off len : Nat) : received [.cpuWrite off len] = [] := rfl

end Cvirtos.Usb.Dwc2
