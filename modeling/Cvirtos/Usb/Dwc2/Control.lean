import Cvirtos.Usb.Device
import Cvirtos.Usb.Dwc2.Channel

/-!
# Control transfers

`drivers/usb/dwc2/control.rs`: SETUP, the data stage in chunks of the packet size, and the status
stage, all on channel 0 and through two fixed places of the DMA window.
-/

set_option autoImplicit false

namespace Cvirtos.Usb.Dwc2

open Cvirtos.Lib

/-- Where SETUP packets lie in the window. -/
def OFF_EP0 : Nat := 0

/-- Where the data of control transfers lies. -/
def DMA_OFF_SMALL_IO : Nat := 256

/-- `slice::chunks`. -/
def chunks {α : Type} (n : Nat) (xs : List α) : List (List α) :=
  if _h : n = 0 ∨ xs = [] then [] else xs.take n :: chunks n (xs.drop n)
termination_by xs.length
decreasing_by
  have := List.length_pos_of_ne_nil fun hnil => _h (.inr hnil)
  rw [List.length_drop]
  omega

/-- The lengths of the chunks of a slice. -/
def chunkLens (n len : Nat) : List Nat :=
  if n = 0 ∨ len = 0 then [] else min n len :: chunkLens n (len - n)
termination_by len

theorem flatten_chunks {α : Type} {n : Nat} (hn : n ≠ 0) (xs : List α) :
    (chunks n xs).flatten = xs := by
  fun_induction chunks n xs with
  | case1 xs h =>
    rcases h with h | rfl
    · exact absurd h hn
    · rfl
  | case2 xs h ih =>
    rw [List.flatten_cons, ih]
    exact List.take_append_drop n xs

theorem chunkLens_cons {n len : Nat} (hn : 0 < n) (hlen : 0 < len) :
    chunkLens n len = min n len :: chunkLens n (len - n) := by
  rw [chunkLens, if_neg (by omega)]

theorem chunkLens_zero (n : Nat) : chunkLens n 0 = [] := by
  rw [chunkLens, if_pos (Or.inr rfl)]

theorem chunks_bounds {α : Type} {n : Nat} {xs : List α} :
    ∀ c ∈ chunks n xs, 0 < c.length ∧ c.length ≤ n := by
  fun_induction chunks n xs with
  | case1 xs h => exact fun c hc => absurd hc List.not_mem_nil
  | case2 xs h ih =>
    refine List.forall_mem_cons.mpr ⟨⟨?_, List.length_take_le n xs⟩, ih⟩
    have hpos := List.length_pos_of_ne_nil fun hnil => h (.inr hnil)
    rw [List.length_take]
    omega

theorem chunkLens_le {n len : Nat} : ∀ k ∈ chunkLens n len, k ≤ n := by
  fun_induction chunkLens n len with
  | case1 len h => exact fun k hk => absurd hk List.not_mem_nil
  | case2 len h ih => exact List.forall_mem_cons.mpr ⟨Nat.min_le_left n len, ih⟩

theorem chunkLens_pos {n len : Nat} : ∀ k ∈ chunkLens n len, 0 < k := by
  fun_induction chunkLens n len with
  | case1 len h => exact fun k hk => absurd hk List.not_mem_nil
  | case2 len h ih =>
    refine List.forall_mem_cons.mpr ⟨?_, ih⟩
    omega

/-- There are as many chunks as packets of the size are needed. -/
theorem length_chunkLens {n : Nat} (hn : 0 < n) (len : Nat) :
    (chunkLens n len).length = (len + n - 1) / n := by
  fun_induction chunkLens n len with
  | case1 len h =>
    obtain rfl : len = 0 := by omega
    exact (Nat.div_eq_of_lt (by omega)).symm
  | case2 len h ih =>
    rw [List.length_cons, ih]
    by_cases hle : len ≤ n
    · rw [Nat.sub_eq_zero_of_le hle, Nat.div_eq_of_lt (by omega : 0 + n - 1 < n)]
      exact (Nat.div_eq_of_lt_le (by omega) (by omega)).symm
    · rw [← Nat.add_div_right _ hn]
      congr 1
      omega

theorem sum_chunkLens {n : Nat} (hn : 0 < n) (len : Nat) : (chunkLens n len).sum = len := by
  fun_induction chunkLens n len with
  | case1 len h =>
    simp
    omega
  | case2 len h ih =>
    rw [List.sum_cons, ih]
    omega

namespace StdRequest

/-- `StdRequest::get_descriptor_device`. -/
def getDescriptorDevice : Vector UInt8 8 := #v[0x80, 6, 0x00, 0x01, 0x00, 0x00, 18, 0]

/-- `StdRequest::set_interface`. -/
def setInterface (alt interface : UInt8) : Vector UInt8 8 := #v[0x01, 0x0B, alt, 0, interface, 0, 0, 0]

end StdRequest

variable {σ : Type} (m : Machine σ) (ep : ControlEp)

/-- A transfer of the endpoint. -/
def ControlEp.transfer (dirIn : Bool) (pid : Pid) (xferSize dmaOff : Nat) : Transfer where
  dev := ep.dev
  epNum := 0
  mps := ep.mps
  dirIn := dirIn
  pid := pid
  xferSize := xferSize
  dmaOff := dmaOff

/-- The PID of a data packet. -/
def dataPid (data1 : Bool) : Pid := if data1 then .data1 else .data0

/-- `ControlEp::setup_stage`. -/
def ControlEp.setupStage (setupPacket : Vector UInt8 8) : Io σ Unit := do
  effect (m.write OFF_EP0 setupPacket.toList)
  effect (m.clean OFF_EP0 8)
  let _ ← Channel.control.xfer m (ControlEp.transfer ep false .setup 8 OFF_EP0)

/-- `ControlEp::status_stage`. -/
def ControlEp.statusStage (dirIn : Bool) : Io σ Unit := do
  let _ ← Channel.control.xfer m (ControlEp.transfer ep dirIn .data1 0 OFF_EP0)

/-- `ControlEp::write_no_data`. -/
def ControlEp.writeNoData (setupPacket : Vector UInt8 8) : Io σ Unit := do
  ControlEp.setupStage m ep setupPacket
  ControlEp.statusStage m ep true

/-- `ControlEp::set_interface`. -/
def ControlEp.setInterface (alt interface : UInt8) : Io σ Unit :=
  ControlEp.writeNoData m ep (StdRequest.setInterface alt interface)

/-- The data stage of `read`: what it copies into the chunks of `out`. -/
def ControlEp.readChunks : (data1 : Bool) → (lens : List Nat) → Io σ (List UInt8)
  | _, [] => return []
  | data1, len :: lens => do
    let _ ← Channel.control.xfer m
      (ControlEp.transfer ep true (dataPid data1) len DMA_OFF_SMALL_IO)
    effect (m.invalidate DMA_OFF_SMALL_IO len)
    let bytes ← query (m.read DMA_OFF_SMALL_IO len)
    let rest ← ControlEp.readChunks (!data1) lens
    return bytes ++ rest

/-- `ControlEp::read`: the contents of `out`, of length `len`. -/
def ControlEp.read (setupPacket : Vector UInt8 8) (len : Nat) : Io σ (List UInt8) :=
  if len = 0 ∨ len > 4096 then throw (.err (.protocol "bad control_ep read len"))
  else do
    ControlEp.setupStage m ep setupPacket
    -- `chunks_mut` panics when asked for empty chunks
    if ep.mps = 0 then throw .panic
    else
      let out ← ControlEp.readChunks m ep true (chunkLens ep.mps len)
      ControlEp.statusStage m ep false
      return out

/-- The data stage of `write`. -/
def ControlEp.writeChunks : (data1 : Bool) → (chunks : List (List UInt8)) → Io σ Unit
  | _, [] => return ()
  | data1, chunk :: chunks => do
    effect (m.write DMA_OFF_SMALL_IO chunk)
    effect (m.clean DMA_OFF_SMALL_IO chunk.length)
    let _ ← Channel.control.xfer m
      (ControlEp.transfer ep false (dataPid data1) chunk.length DMA_OFF_SMALL_IO)
    ControlEp.writeChunks (!data1) chunks

/-- `ControlEp::write`. -/
def ControlEp.write (setupPacket : Vector UInt8 8) (data : List UInt8) : Io σ Unit :=
  if data.length > 4096 then throw (.err (.protocol "bad control_ep write data len"))
  else do
    ControlEp.setupStage m ep setupPacket
    if ep.mps = 0 then throw .panic
    else
      ControlEp.writeChunks m ep true (chunks ep.mps data)
      ControlEp.statusStage m ep true

/-- Reads of the window return as many bytes as were asked for. -/
def Machine.Reads : Prop := ∀ off len s, (m.read off len s).1.length = len

theorem readChunks_length {m : Machine σ} {ep : ControlEp} (hm : m.Reads) {data1 : Bool}
    {lens : List Nat} {out : List UInt8} {s s' : σ}
    (h : (ControlEp.readChunks m ep data1 lens).run s = .ok out s') : out.length = lens.sum := by
  induction lens generalizing data1 out s with
  | nil =>
    cases h
    rfl
  | cons len lens ih =>
    unfold ControlEp.readChunks at h
    obtain ⟨_, s₁, -, h₁⟩ := run_bind_ok h
    obtain ⟨_, s₂, -, h₂⟩ := run_bind_ok h₁
    obtain ⟨bytes, s₃, hquery, h₃⟩ := run_bind_ok h₂
    obtain ⟨rest, s₄, hrest, h₄⟩ := run_bind_ok h₃
    cases hquery
    cases h₄
    rw [List.length_append, hm, ih hrest, List.sum_cons]

/-- **A read that returns has filled its buffer.** -/
theorem read_length {m : Machine σ} {ep : ControlEp} (hm : m.Reads) {setupPacket : Vector UInt8 8}
    {len : Nat} {out : List UInt8} {s s' : σ}
    (h : (ControlEp.read m ep setupPacket len).run s = .ok out s') : out.length = len := by
  unfold ControlEp.read at h
  split at h
  · cases h
  obtain ⟨_, s₁, -, h₁⟩ := run_bind_ok h
  split at h₁
  · cases h₁
  · rename_i hmps
    obtain ⟨bytes, s₂, hchunks, h₂⟩ := run_bind_ok h₁
    obtain ⟨_, s₃, -, h₃⟩ := run_bind_ok h₂
    cases h₃
    rw [readChunks_length hm hchunks, sum_chunkLens (Nat.pos_of_ne_zero hmps)]

/-- A field of the device descriptor in the window; `DeviceDescriptor` keeps no copy of it. -/
def descriptorByte (off : Nat) : Io σ UInt8 := do
  let bytes ← query (m.read (OFF_EP0 + off) 1)
  return bytes.headD 0

/-- `ControlEp::probe_default_addr`. -/
def ControlEp.probeDefaultAddr : Io σ Identity := do
  let ep := ControlEp.new 64
  ControlEp.setupStage m ep StdRequest.getDescriptorDevice
  let _ ← Channel.control.xfer m (ControlEp.transfer ep true .data1 18 OFF_EP0)
  effect (m.invalidate OFF_EP0 18)
  let mps := normalizeEp0Mps (← descriptorByte m 7)
  ControlEp.statusStage m ep false
  -- the other fields are read once the status stage is over
  let vid0 ← descriptorByte m 8
  let vid1 ← descriptorByte m 9
  let pid0 ← descriptorByte m 10
  let pid1 ← descriptorByte m 11
  let devClass ← descriptorByte m 4
  return ⟨vid0.toUInt16 ||| vid1.toUInt16 <<< 8, pid0.toUInt16 ||| pid1.toUInt16 <<< 8, mps, devClass⟩

end Cvirtos.Usb.Dwc2
