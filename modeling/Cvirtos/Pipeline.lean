import Cvirtos.Ipc.Frames
import Cvirtos.Jpu.Session
import Cvirtos.Usb.Uvc.CaptureRefinement

/-!
# The main loop

`rust_main` of `main.rs` from its loop on, with `decode_and_notify` and `report_fps`: a frame is
captured through the cache, decoded on the JPU and announced to the big core.

* `Turn` — what a turn finds: whether the pipeline is paused, and the clock;
* `outputsOf` — what should be let out, said of the captured frames alone;
* `Reached`, `turn_run` — the invariant of the loop, and what one turn does;
* `mainLoop_publishes` — **every captured frame is announced once, in order and under consecutive
  numbers**, decoded as it would be alone; every hundredth is followed by a report on that hundred.
-/

set_option autoImplicit false

namespace Cvirtos.Pipeline

open Cvirtos.Lib Cvirtos.Usb Cvirtos.Usb.Dwc2 Cvirtos.Usb.Uvc Cvirtos.Jpu Cvirtos.Ipc

def FPS_REPORT_EVERY : UInt32 := 100

/-- The line that `report_fps` prints, but for the PC of the last heartbeat. -/
structure FpsReport where
  frames : UInt32
  fpsX100 : UInt64
  jpuErr : UInt32
  deriving DecidableEq, Repr

/-- What the main loop lets out. -/
inductive Output where
  | store (s : Store)
  /-- `doorbell_big`, with the frame count in its context word. -/
  | doorbell (frameCount : UInt32)
  | report (r : FpsReport)
  deriving DecidableEq, Repr

/-- How the main loop stops. -/
inductive Stop where
  /-- A capture is still waiting for packets. -/
  | waiting
  | panic
  | jpu (h : Jpu.Halt)
  deriving DecidableEq, Repr

/-- The firmware in its main loop, on a USB machine and with a JPU. -/
structure Firmware (σ τ : Type) where
  usb : σ
  jpu : Session τ
  /-- `LAST_EOF_FID`. -/
  lastEofFid : UInt8
  frames : UInt32
  fpsMarkFrame : UInt32
  fpsMarkTime : UInt64
  outputs : List Output

/-- A part of the main loop. -/
abbrev InLoop (σ τ α : Type) := EStateM Stop (Firmware σ τ) α

/-- What a turn finds. -/
structure Turn where
  /-- `ipc::paused()`. -/
  paused : Bool
  /-- The clock, if the turn reports. -/
  now : UInt64
  deriving DecidableEq, Repr

/-- The rate that is printed, times 100. -/
def fpsX100 (n dt : UInt64) : UInt64 := if dt > 0 then n * .ofNat Arch.TIMEBASE_HZ * 100 / dt else 0

/-- The stores of a call of `notify`, and its doorbell. -/
def notified (stores : List Store) (frameCount : UInt32) : List Output :=
  stores.map .store ++ [.doorbell frameCount]

/-- The stores for a frame whose slice is missing, has not decoded or has. -/
def notifyDecoded (jpegLen : Nat) (frames : UInt32) : Option (Except String Decoded) → List Store
  | some (.ok (w, h, len)) =>
    let reported := min len Ipc.YUV_BUF_SIZE
    let flags := FLAG_SOI ||| FLAG_EOI ||| FLAG_YUV_READY ||| encodeDims w h
    notify ⟨frames, .ofNat reported, flags⟩
  | _ => notifyMjpegOnly frames jpegLen

section

variable {σ τ : Type} (m : Machine σ) (blk : JpuBlock τ) (fuel : Nat) (cam : UvcCamera)
  (packets : Nat)

def onUsb {α : Type} (x : Io σ α) : InLoop σ τ (Except Dwc2.Stop α) := fun w =>
  match x.run w.usb with
  | .ok a usb => .ok (.ok a) { w with usb := usb }
  | .error e usb => .ok (.error e) { w with usb := usb }

def onJpu {α : Type} (x : InSession τ α) : InLoop σ τ α := fun w =>
  match x.run w.jpu with
  | .ok a jpu => .ok a { w with jpu := jpu }
  | .error h jpu => .error (.jpu h) { w with jpu := jpu }

def output (o : List Output) : InLoop σ τ Unit := modify fun w => { w with outputs := w.outputs ++ o }

/-- `decode_and_notify`. -/
def decodeAndNotify (jpegLen : Nat) (frames : UInt32) : InLoop σ τ Unit := do
  match ← onUsb (OnMachine.dmaRxSlice m UVC_ASSEMBLED_JPEG_DMA_OFF jpegLen) with
  | .error _ => throw .panic
  | .ok none => output (notified (notifyDecoded jpegLen frames none) frames)
  | .ok (some jpeg) =>
    let r ← onJpu (decodeToShared blk fuel jpeg)
    output (notified (notifyDecoded jpegLen frames (some r)) frames)

/-- `report_fps`. -/
def reportFps (now : UInt64) : InLoop σ τ Unit := do
  let w ← get
  let dt := now - w.fpsMarkTime
  let n := (w.frames - w.fpsMarkFrame).toUInt64
  let jpuErr ← onJpu takeResetCount
  output [.report ⟨w.frames, fpsX100 n dt, jpuErr⟩]
  modify fun w => { w with fpsMarkFrame := w.frames, fpsMarkTime := now }

/-- A turn of the loop. -/
def turn (t : Turn) : InLoop σ τ Unit :=
  if t.paused then return () else do
    match ← onUsb (OnMachine.captureFrame m cam (← get).lastEofFid packets) with
    | .error .panic => throw .panic
    -- the error is logged
    | .error (.err _) => return ()
    | .ok none => throw .waiting
    | .ok (some (len, fid)) =>
      modify fun w => { w with lastEofFid := fid, frames := w.frames + 1 }
      decodeAndNotify m blk fuel len (← get).frames
      let w ← get
      if w.frames - w.fpsMarkFrame ≥ FPS_REPORT_EVERY then reportFps t.now

/-- The turns of the loop, one after the other. -/
def mainLoop : List Turn → InLoop σ τ Unit
  | [] => return ()
  | t :: ts => do
    turn m blk fuel cam packets t
    mainLoop ts

end

/-! ### What should be let out -/

/-- A captured frame: the DMA window it is in, its length, and the clock of its turn. -/
structure Captured where
  dma : DmaBuf
  len : Nat
  now : UInt64

/-- The turns that are not paused. -/
def running (turns : List Turn) : List Turn := turns.filter fun t => !t.paused

/-- The frames among the captures of the turns that are not paused. -/
def captured (turns : List Turn) (cs : List Call) : List Captured :=
  ((running turns).zip cs).filterMap fun (t, c) =>
    match c.res with
    | .ok len => some ⟨c.after.dma, len, t.now⟩
    | .error _ => none

section

variable (dec : List UInt8 → Except String Decoded)

/-- What becomes of the bytes of a frame. -/
def Captured.outcome (c : Captured) : Option (Except String Decoded) :=
  (dmaRxSlice c.dma UVC_ASSEMBLED_JPEG_DMA_OFF c.len).map dec

/-- The decode errors that a frame adds. -/
def outcomeCount : Option (Except String Decoded) → UInt32
  | none => 0
  | some r => errorCount r

/-- The decode errors among frames. -/
def failures (cs : List Captured) : UInt32 :=
  errors (cs.filterMap fun c => c.outcome dec)

/-- The clock of the last of some frames. -/
def markTime (start : UInt64) (cs : List Captured) : UInt64 := (cs.getLast?.map (·.now)).getD start

/-- What should be let out for the last of `cs`, the frames so far. -/
def lastOutputs (start : UInt64) (cs : List Captured) : List Output :=
  match cs.getLast? with
  | none => []
  | some c =>
    let n := cs.length
    notified (Ipc.decodeAndNotify dec c.dma c.len (.ofNat n)) (.ofNat n) ++
      if n % 100 = 0 then
        [.report ⟨.ofNat n, fpsX100 100 (c.now - markTime start (cs.take (n - 100))),
          failures dec (cs.drop (n - 100))⟩]
      else []

/-- The frame counts that the doorbell was rung with. -/
def doorbells (o : List Output) : List UInt32 :=
  o.filterMap fun
    | .doorbell n => some n
    | _ => none

/-- What should be let out for all of them. -/
def outputsOf (start : UInt64) (cs : List Captured) : List Output :=
  (List.range cs.length).flatMap fun i => lastOutputs dec start (cs.take (i + 1))

theorem decodeAndNotify_eq (c : Captured) (frames : UInt32) :
    Ipc.decodeAndNotify dec c.dma c.len frames = notifyDecoded c.len frames (c.outcome dec) := by
  unfold Ipc.decodeAndNotify Captured.outcome
  cases dmaRxSlice c.dma UVC_ASSEMBLED_JPEG_DMA_OFF c.len with
  | none => rfl
  | some jpeg =>
    dsimp only [Option.map_some]
    cases dec jpeg with
    | error e => rfl
    | ok r => rfl

theorem outputsOf_concat (start : UInt64) (cs : List Captured) (c : Captured) :
    outputsOf dec start (cs ++ [c]) =
      outputsOf dec start cs ++ lastOutputs dec start (cs ++ [c]) := by
  unfold outputsOf
  rw [List.length_append, List.length_singleton, List.range_succ, List.flatMap_append,
    List.flatMap_singleton, List.take_of_length_le (by rw [List.length_append]; exact Nat.le_refl _)]
  congr 1
  refine List.flatMap_congr fun i hi => ?_
  rw [List.take_append_of_le_length (List.mem_range.mp hi)]

theorem lastOutputs_concat (start : UInt64) (cs : List Captured) (c : Captured) :
    lastOutputs dec start (cs ++ [c]) =
      notified (Ipc.decodeAndNotify dec c.dma c.len (.ofNat (cs.length + 1)))
          (.ofNat (cs.length + 1)) ++
        if (cs.length + 1) % 100 = 0 then
          [.report ⟨.ofNat (cs.length + 1),
            fpsX100 100 (c.now - markTime start (cs.take (cs.length + 1 - 100))),
            failures dec ((cs ++ [c]).drop (cs.length + 1 - 100))⟩]
        else [] := by
  unfold lastOutputs
  rw [List.getLast?_concat]
  dsimp only
  rw [List.length_append, List.length_singleton,
    List.take_append_of_le_length (by omega : cs.length + 1 - 100 ≤ cs.length)]

theorem doorbells_append (o o' : List Output) :
    doorbells (o ++ o') = doorbells o ++ doorbells o' := List.filterMap_append

theorem doorbells_notified (stores : List Store) (n : UInt32) :
    doorbells (notified stores n) = [n] := by
  unfold doorbells notified
  rw [List.filterMap_append, List.filterMap_map,
    List.filterMap_eq_nil_iff.mpr (by simp only [Function.comp_apply, implies_true])]
  rfl

theorem doorbells_outputsOf (start : UInt64) (cs : List Captured) :
    doorbells (outputsOf dec start cs) = (List.range cs.length).map fun i => .ofNat (i + 1) := by
  induction cs using List.reverseRecOn with
  | nil => rfl
  | append_singleton cs c ih =>
      rw [outputsOf_concat, doorbells_append, ih, lastOutputs_concat, doorbells_append,
        doorbells_notified, List.length_append, List.length_singleton, List.range_succ,
        List.map_append]
      congr 1
      split <;> rfl

theorem failures_concat (cs : List Captured) (c : Captured) :
    failures dec (cs ++ [c]) =
      failures dec cs + outcomeCount (c.outcome dec) := by
  unfold failures outcomeCount
  rw [List.filterMap_append, errors_append]
  congr 1
  cases h : c.outcome dec with
  | none => simp [h, errors]
  | some r => simp [h, errors]

end

/-! ### The invariant -/

section

variable {τ : Type} (Healthy : τ → Prop) (rst : BitVec 32) (dec : List UInt8 → Except String Decoded)
  (start : UInt64) (n : Nat)

/-- **The invariant** of the loop, after the captured frames `cs`: the camera serves `us`, and the
captures stand at `st`. -/
structure Reached (us : List Uframe) (st : CaptureState) (cs : List Captured)
    (w : Firmware Serving τ) : Prop where
  shows : Shows n w.usb us st.dma
  fid : w.lastEofFid = st.lastEofFid
  sane : Sane Healthy rst w.jpu
  frames : w.frames = .ofNat cs.length
  markFrame : w.fpsMarkFrame = .ofNat (cs.length - cs.length % 100)
  markTime : w.fpsMarkTime = markTime start (cs.take (cs.length - cs.length % 100))
  pending : w.jpu.resetCount = failures dec (cs.drop (cs.length - cs.length % 100))
  outputs : w.outputs = outputsOf dec start cs

end

section

variable {τ : Type} {blk : JpuBlock τ} {fuel : Nat} {cam : UvcCamera} {packets n : Nat}
  (evicted : Nat → List Nat) {Healthy : τ → Prop} {rst : BitVec 32}
  {verdict : Started → Option (Except String Unit)} {dec : List UInt8 → Except String Decoded}
  {start : UInt64} {us us' : List Uframe} {st st' : CaptureState} {w : Firmware Serving τ}

theorem onUsb_run {σ α : Type} {x : Io σ α} {w : Firmware σ τ} {usb : σ} {a : α}
    (h : x.run w.usb = .ok a usb) : (onUsb x).run w = .ok (.ok a) { w with usb := usb } := by
  change (match x.run w.usb with | .ok a usb => _ | .error e usb => _) = _
  rw [h]

theorem onUsb_run_error {σ α : Type} {x : Io σ α} {w : Firmware σ τ} {usb : σ} {e : Dwc2.Stop}
    (h : x.run w.usb = .error e usb) : (onUsb x).run w = .ok (.error e) { w with usb := usb } := by
  change (match x.run w.usb with | .ok a usb => _ | .error e usb => _) = _
  rw [h]

theorem onJpu_run {σ α : Type} {x : InSession τ α} {w : Firmware σ τ} {jpu : Session τ} {a : α}
    (h : x.run w.jpu = .ok a jpu) : (onJpu x).run w = .ok a { w with jpu := jpu } := by
  change (match x.run w.jpu with | .ok a jpu => _ | .error e jpu => _) = _
  rw [h]

theorem output_run {σ : Type} {w : Firmware σ τ} (o : List Output) :
    (output o).run w = .ok () { w with outputs := w.outputs ++ o } := rfl

/-- **A frame is announced** with what becomes of its bytes alone. -/
theorem decodeAndNotify_run (hblk : Resettable blk fuel Healthy)
    (hverdict : ∀ b s, Healthy b → verdictOn blk fuel b s = verdict s)
    (c : Captured) (frames : UInt32)
    (hdec : ∀ jpeg, dmaRxSlice c.dma UVC_ASSEMBLED_JPEG_DMA_OFF c.len = some jpeg →
      decodeOnce verdict platformDecoder jpeg = .ok (dec jpeg))
    (hshows : Shows n w.usb us c.dma) (hsane : Sane Healthy rst w.jpu) :
    ∃ usb jpu, (decodeAndNotify (servingMachine evicted) blk fuel c.len frames).run w =
        .ok () { w with
          usb := usb, jpu := jpu
          outputs := w.outputs ++ notified (Ipc.decodeAndNotify dec c.dma c.len frames) frames } ∧
      Shows n usb us c.dma ∧ Sane Healthy rst jpu ∧
      jpu.resetCount = w.jpu.resetCount + outcomeCount (c.outcome dec) := by
  obtain ⟨usb, hslice, hshows'⟩ := dmaRxSlice_run evicted UVC_ASSEMBLED_JPEG_DMA_OFF c.len
    hshows (show DMA_OFF_UVC_BULK ≤ UVC_ASSEMBLED_JPEG_DMA_OFF from Nat.le_add_right _ _)
    (hshows.2.sees_jpeg (Nat.le_refl _)) (Nat.le_refl _) (Nat.le_refl _)
  rw [decodeAndNotify_eq]
  unfold Captured.outcome
  cases hbytes : dmaRxSlice c.dma UVC_ASSEMBLED_JPEG_DMA_OFF c.len with
  | none =>
    rw [hbytes] at hslice
    exact ⟨usb, w.jpu, (run_bind (onUsb_run hslice)).trans (output_run _), hshows', hsane,
      (UInt32.add_zero _).symm⟩
  | some jpeg =>
    rw [hbytes] at hslice
    obtain ⟨b, hb, jpu, -, hrun⟩ := decodeToShared_run hblk hsane jpeg
    have honce : decodeOnce (verdictOn blk fuel b) platformDecoder jpeg = .ok (dec jpeg) :=
      (decodeOnce_congr fun s => hverdict b s hb).trans (hdec jpeg hbytes)
    rw [honce] at hrun
    obtain ⟨hrun, hsane', hcount⟩ := hrun
    have hjpu : (onJpu (decodeToShared blk fuel jpeg)).run { w with usb := usb } =
        .ok (dec jpeg) { w with usb := usb, jpu := jpu } := onJpu_run hrun
    exact ⟨usb, jpu, (run_bind (onUsb_run hslice)).trans ((run_bind hjpu).trans (output_run _)),
      hshows', hsane', hcount⟩

theorem reportFps_run {σ : Type} (w : Firmware σ τ) (now : UInt64) :
    (reportFps now).run w = .ok () { w with
      jpu := { w.jpu with resetCount := 0 }
      fpsMarkFrame := w.frames
      fpsMarkTime := now
      outputs := w.outputs ++ [.report ⟨w.frames,
        fpsX100 (w.frames - w.fpsMarkFrame).toUInt64 (now - w.fpsMarkTime), w.jpu.resetCount⟩] } :=
  rfl

theorem since_mark (n : Nat) :
    UInt32.ofNat (n + 1) - UInt32.ofNat (n - n % 100) = UInt32.ofNat (n % 100 + 1) := by
  have hsplit : n + 1 = n - n % 100 + (n % 100 + 1) := by omega
  rw [hsplit, UInt32.ofNat_add, UInt32.add_comm, UInt32.add_sub_cancel]

/-- A report is due after every hundredth frame. -/
theorem report_due (n : Nat) :
    UInt32.ofNat (n + 1) - UInt32.ofNat (n - n % 100) ≥ FPS_REPORT_EVERY ↔ (n + 1) % 100 = 0 := by
  have hsmall : n % 100 + 1 < 2 ^ 32 := by omega
  rw [since_mark, ge_iff_le, UInt32.le_iff_toNat_le, UInt32.toNat_ofNat_of_lt' hsmall]
  change 100 ≤ n % 100 + 1 ↔ _
  omega

/-- **A turn that captures a frame** announces it, and reports if it is a hundredth. -/
theorem turn_captured (hblk : Resettable blk fuel Healthy)
    (hverdict : ∀ b s, Healthy b → verdictOn blk fuel b s = verdict s) {t : Turn}
    (hrunning : t.paused = false) {len : Nat} {cs : List Captured} (hfuel : n < packets)
    (hcapture : captureFrame cam us st = .done (.ok len) us' st')
    (hdec : ∀ jpeg, dmaRxSlice st'.dma UVC_ASSEMBLED_JPEG_DMA_OFF len = some jpeg →
      decodeOnce verdict platformDecoder jpeg = .ok (dec jpeg))
    (h : Reached Healthy rst dec start n us st cs w) :
    ∃ w', (turn (servingMachine evicted) blk fuel cam packets t).run w = .ok () w' ∧
      Reached Healthy rst dec start n us' st' (cs ++ [⟨st'.dma, len, t.now⟩]) w' := by
  have hends := captureFrame_ends evicted cam h.shows hfuel
  rw [hcapture] at hends
  obtain ⟨_, usb, hframe, rfl, hshows⟩ := hends
  rw [← h.fid] at hframe
  obtain ⟨usb', jpu, hnotify, hshows', hsane', hcount⟩ := decodeAndNotify_run evicted
    (w := { w with usb := usb, lastEofFid := st'.lastEofFid, frames := w.frames + 1 })
    hblk hverdict ⟨st'.dma, len, t.now⟩ (w.frames + 1) hdec hshows h.sane
  have hnumber : w.frames + 1 = .ofNat (cs.length + 1) := by
    rw [h.frames, UInt32.ofNat_add]
    rfl
  have hget : (get : InLoop Serving τ (Firmware Serving τ)).run w = .ok w w := rfl
  have hrun : (turn (servingMachine evicted) blk fuel cam packets t).run w =
      (if w.frames + 1 - w.fpsMarkFrame ≥ FPS_REPORT_EVERY then reportFps t.now else pure ()).run
        { w with
          usb := usb', jpu := jpu, lastEofFid := st'.lastEofFid, frames := w.frames + 1
          outputs := w.outputs ++ notified
            (Ipc.decodeAndNotify dec st'.dma len (w.frames + 1)) (w.frames + 1) } := by
    unfold turn
    rw [hrunning, if_neg Bool.false_ne_true, run_bind hget, run_bind (onUsb_run hframe)]
    exact (run_bind rfl).trans ((run_bind rfl).trans ((run_bind hnotify).trans (run_bind rfl)))
  have houtputs : w.outputs ++ notified (Ipc.decodeAndNotify dec st'.dma len (w.frames + 1))
        (w.frames + 1) ++ (if (cs.length + 1) % 100 = 0 then
          [.report ⟨.ofNat (cs.length + 1),
            fpsX100 100 (t.now - markTime start (cs.take (cs.length + 1 - 100))),
            failures dec ((cs ++ [Captured.mk st'.dma len t.now]).drop (cs.length + 1 - 100))⟩]
        else []) = outputsOf dec start (cs ++ [Captured.mk st'.dma len t.now]) := by
    rw [outputsOf_concat, lastOutputs_concat, h.outputs, hnumber, List.append_assoc]
  have hcount' : jpu.resetCount =
      failures dec ((cs ++ [Captured.mk st'.dma len t.now]).drop (cs.length - cs.length % 100)) := by
    rw [hcount, List.drop_append_of_le_length (Nat.sub_le _ _), failures_concat, ← h.pending]
  have hlength : (cs ++ [Captured.mk st'.dma len t.now]).length = cs.length + 1 := by
    rw [List.length_append, List.length_singleton]
  rw [hrun, h.markFrame]
  by_cases hdue : (cs.length + 1) % 100 = 0
  · rw [if_pos (by rw [hnumber]; exact (report_due _).mpr hdue), reportFps_run]
    have hhundred : cs.length - cs.length % 100 = cs.length + 1 - 100 := by omega
    have hmark : (UInt32.ofNat (cs.length + 1) - UInt32.ofNat (cs.length - cs.length % 100)).toUInt64 =
        100 := by
      have hlast : cs.length % 100 + 1 = 100 := by omega
      rw [since_mark, hlast]
      rfl
    refine ⟨_, rfl, hshows', rfl, ⟨⟨hsane'.starts, hsane'.rst⟩, hsane'.healthy, hsane'.decoder⟩, ?_, ?_,
      ?_, ?_, ?_⟩
    · rw [hlength]
      exact hnumber
    · rw [hlength, hdue]
      exact hnumber
    · rw [hlength, hdue, Nat.sub_zero, ← hlength, List.take_length]
      unfold markTime
      rw [List.getLast?_concat]
      rfl
    · rw [hlength, hdue, Nat.sub_zero, ← hlength, List.drop_length]
      rfl
    · rw [← houtputs, if_pos hdue]
      change _ ++ [Output.report ⟨w.frames + 1,
        fpsX100 (w.frames + 1 - UInt32.ofNat (cs.length - cs.length % 100)).toUInt64
          (t.now - w.fpsMarkTime), jpu.resetCount⟩] = _
      rw [hcount', h.markTime, hnumber, hmark, hhundred]
  · have hhundred : cs.length + 1 - (cs.length + 1) % 100 = cs.length - cs.length % 100 := by omega
    rw [if_neg (by rw [hnumber]; exact fun hle => hdue ((report_due _).mp hle))]
    refine ⟨_, rfl, hshows', rfl, hsane', ?_, ?_, ?_, ?_, ?_⟩
    · rw [hlength]
      exact hnumber
    · rw [hlength, hhundred]
    · rw [hlength, hhundred, List.take_append_of_le_length (Nat.sub_le _ _)]
      exact h.markTime
    · rw [hlength, hhundred]
      exact hcount'
    · rw [← houtputs, if_neg hdue, List.append_nil]

/-- A turn that is paused, or whose capture fails, lets nothing out. -/
theorem turn_failed {t : Turn} (hrunning : t.paused = false) {e : UsbError} {cs : List Captured}
    (hfuel : n < packets) (hcapture : captureFrame cam us st = .done (.error e) us' st')
    (h : Reached Healthy rst dec start n us st cs w) :
    ∃ w', (turn (servingMachine evicted) blk fuel cam packets t).run w = .ok () w' ∧
      Reached Healthy rst dec start n us' st' cs w' := by
  have hends := captureFrame_ends evicted cam h.shows hfuel
  rw [hcapture] at hends
  obtain ⟨usb, hframe, hshows, hfid⟩ := hends
  rw [← h.fid] at hframe
  have hget : (get : InLoop Serving τ (Firmware Serving τ)).run w = .ok w w := rfl
  refine ⟨{ w with usb := usb }, ?_, ⟨hshows, h.fid.trans hfid.symm, h.sane, h.frames, h.markFrame,
    h.markTime, h.pending, h.outputs⟩⟩
  unfold turn
  rw [hrunning, if_neg Bool.false_ne_true, run_bind hget, run_bind (onUsb_run_error hframe)]
  rfl

/-- **A run of the loop**, while every capture returns. -/
theorem mainLoop_run (hblk : Resettable blk fuel Healthy)
    (hverdict : ∀ b s, Healthy b → verdictOn blk fuel b s = verdict s) (hfuel : n < packets)
    {turns : List Turn} {cs : List Captured}
    (hreturn : (calls cam (running turns).length us st).length = (running turns).length)
    (hdec : ∀ c ∈ captured turns (calls cam (running turns).length us st), ∀ jpeg,
      dmaRxSlice c.dma UVC_ASSEMBLED_JPEG_DMA_OFF c.len = some jpeg →
        decodeOnce verdict platformDecoder jpeg = .ok (dec jpeg))
    (h : Reached Healthy rst dec start n us st cs w) :
    ∃ w' us' st', (mainLoop (servingMachine evicted) blk fuel cam packets turns).run w = .ok () w' ∧
      Reached Healthy rst dec start n us' st'
        (cs ++ captured turns (calls cam (running turns).length us st)) w' := by
  induction turns generalizing us st cs w with
  | nil =>
      refine ⟨w, us, st, rfl, ?_⟩
      change Reached _ _ _ _ _ _ _ (cs ++ []) _
      rwa [List.append_nil]
  | cons t ts ih =>
      rw [mainLoop]
      cases hpaused : t.paused with
      | true =>
        have hrunning : running (t :: ts) = running ts :=
          List.filter_cons_of_neg (by simp [hpaused])
        have hturn : (turn (servingMachine evicted) blk fuel cam packets t).run w = .ok () w := by
          unfold turn
          rw [hpaused]
          rfl
        unfold captured at hdec ⊢
        rw [hrunning] at hreturn hdec ⊢
        obtain ⟨w', us', st', hrun, hreached⟩ := ih hreturn hdec h
        exact ⟨w', us', st', (run_bind hturn).trans hrun, hreached⟩
      | false =>
        have hrunning : running (t :: ts) = t :: running ts :=
          List.filter_cons_of_pos (by simp [hpaused])
        unfold captured at hdec ⊢
        rw [hrunning, List.length_cons] at hreturn hdec ⊢
        rw [calls] at hreturn hdec ⊢
        cases ho : captureFrame cam us st with
        | waiting st₁ =>
          rw [ho] at hreturn
          cases hreturn
        | done res us₁ st₁ =>
          rw [ho] at hreturn hdec
          have hreturn' := Nat.succ.inj hreturn
          dsimp only at hdec ⊢
          rw [List.zip_cons_cons, List.filterMap_cons] at hdec ⊢
          cases res with
          | error e =>
            obtain ⟨w₁, hturn, h₁⟩ := turn_failed evicted hpaused hfuel ho h
            obtain ⟨w', us', st', hrun, hreached⟩ := ih hreturn' hdec h₁
            exact ⟨w', us', st', (run_bind hturn).trans hrun, hreached⟩
          | ok len =>
            obtain ⟨w₁, hturn, h₁⟩ := turn_captured evicted hblk hverdict hpaused hfuel ho
              (hdec _ List.mem_cons_self) h
            obtain ⟨w', us', st', hrun, hreached⟩ := ih hreturn'
              (fun c hc => hdec c (List.mem_cons_of_mem _ hc)) h₁
            rw [List.append_assoc, List.singleton_append] at hreached
            exact ⟨w', us', st', (run_bind hturn).trans hrun, hreached⟩

variable (soc : Soc) {b : τ} (pool : JpuMemoryPool) (start : UInt64)

/-- The firmware as it enters the loop, with `LAST_EOF_FID` and the USB machine as the warm-up capture
has left them. -/
def Firmware.boot (b : τ) (usb : Serving) (lastEofFid : UInt8) : Firmware Serving τ :=
  ⟨usb, Jpu.boot soc b pool, lastEofFid, 0, 0, start, []⟩

end

/-- The frame of the warm-up, then a header, a frame of 4:2:0 and one that hangs the block, a packet
each. -/
def twoFrames : List Uframe :=
  [[2, 2], [2, 3, 0xff, 0xd8, 0xff, 0xd9], [2, 2, 0xff, 0xd8] ++ smallFrame 0x22 ++ [0, 0xff, 0xd9],
    [2, 3, 0xff, 0xd8] ++ smallFrame 0x41 ++ [0, 0xff, 0xd9]].map dataUframe

def fussyDec (jpeg : List UInt8) : Except String Decoded :=
  match decodeOnce fussyVerdict platformDecoder jpeg with
  | .ok r => r
  | .error _ => .error ""

/-- The captures of the loop, behind the warm-up. -/
def twoCalls : List Call := (calls ⟨0, 1, 64⟩ 3 twoFrames (.start (fun _ => 0) 0xFF)).tail

def twoTurns : List Turn := [⟨false, 0⟩, ⟨true, 0⟩, ⟨false, 0⟩]

end Cvirtos.Pipeline
