import Cvirtos.Usb.Uvc.ServingMachine
import Cvirtos.Usb.Uvc.FrameFid

/-!
# Capturing through the cache

The capture on the machine, with its channel, its cache and its invalidates, against the capture on
the list of microframes, which has one flat memory.

* `waitFlip_ends`, `finishPacket_run`, `assembleLoop_ends`, `captureFrame_ends` — a capture ends as
  it does on the list;
* `captureFrames_calls` — **every frame of a session is the same**, whatever lines the cache evicts.
-/

set_option autoImplicit false

namespace Cvirtos.Usb.Uvc

open Cvirtos.Lib Cvirtos.Usb.Dwc2

variable (evicted : Nat → List Nat) {n : Nat} {us : List Uframe} {w : DmaBuf} {s : Serving}

/-- Phase 1 returns before it runs out of packets: each one takes a microframe. -/
theorem waitFlip_ends (iso : IsochInEp) {packets : Nat} (prev : Option UInt8) (h : Shows n s us w)
    (hfuel : us.length < packets) :
    Ends (fun p p' s us w => p = some p' ∧ Shows n s us w) (Shows n)
      (waitFlip iso DMA_OFF_UVC_BULK prev us w)
      ((OnMachine.waitFlip (servingMachine evicted) iso DMA_OFF_UVC_BULK packets prev).run s) := by
  induction packets generalizing prev us w s with
  | zero => exact absurd hfuel (Nat.not_lt_zero _)
  | succ packets ih =>
      have hread := readPayload_ends evicted iso h
      rw [waitFlip, OnMachine.waitFlip]
      split
      · trivial
      · rename_i e us₁ w₁ ho
        rw [ho] at hread
        obtain ⟨t, hrun, hshows⟩ := hread
        exact ⟨t, run_bind_error hrun, hshows⟩
      · rename_i pkt us₁ w₁ ho
        have hlt := readPayload_lt ho
        rw [ho] at hread
        obtain ⟨_, t, hrun, rfl, hshows⟩ := hread
        rw [run_bind hrun]
        have hnext : ∀ prev, Ends (fun p p' s us w => p = some p' ∧ Shows n s us w) (Shows n)
            (waitFlip iso DMA_OFF_UVC_BULK prev us₁ w₁)
            ((OnMachine.waitFlip (servingMachine evicted) iso DMA_OFF_UVC_BULK packets prev).run t) :=
          fun prev => ih prev hshows (by omega)
        rename_i pkt
        cases UvcPacket.new pkt with
        | none => exact hnext prev
        | some p =>
          cases prev with
          | none => exact hnext (some p.fid)
          | some r =>
            by_cases hflip : r ≠ p.fid
            · simp only [if_pos hflip]
              exact ⟨some p, t, rfl, rfl, hshows⟩
            · simp only [if_neg hflip]
              exact hnext (some r)

/-! ### The assembly -/

theorem dmaWriteAt_run (off : Nat) (h : Shows n s us w) (hoff : UVC_ASSEMBLED_JPEG_DMA_OFF ≤ off)
    (src : List UInt8) :
    match dmaWriteAt w off src with
    | .error e => (OnMachine.dmaWriteAt (servingMachine evicted) off src).run s = .error (.err e) s
    | .ok w' => ∃ t, (OnMachine.dmaWriteAt (servingMachine evicted) off src).run s = .ok () t ∧
        Shows n t us w' := by
  unfold dmaWriteAt OnMachine.dmaWriteAt
  by_cases hover : off + src.length ≥ 2 ^ 64
  · simp only [if_pos hover]
    rfl
  by_cases hout : off + src.length > DMA_BUF_TOTAL
  · simp only [if_neg hover, if_pos hout]
    rfl
  · simp only [if_neg hover, if_neg hout]
    obtain ⟨hpassed, hwindow⟩ := writeBytes_window evicted src h.2 hoff
    exact ⟨_, rfl, h.1.passed hpassed, hwindow⟩

/-- **Appending a packet.** -/
theorem append_run (p : UvcPacket) (jpegLen : Nat) (sawData : Bool) (jpegCap : Nat)
    (h : Shows n s us w) :
    match p.append jpegLen sawData jpegCap w with
    | .error e => ∃ t, (OnMachine.append (servingMachine evicted) p jpegLen sawData jpegCap).run s =
        .error (.err e) t ∧ Shows n t us w
    | .ok (len, saw, w') => ∃ t,
        (OnMachine.append (servingMachine evicted) p jpegLen sawData jpegCap).run s =
          .ok (len, saw) t ∧ Shows n t us w' := by
  unfold UvcPacket.append OnMachine.append
  by_cases hempty : p.payload.isEmpty = true
  · simp only [if_pos hempty]
    exact ⟨s, rfl, h⟩
  by_cases hpad : (!sawData && !p.soi) = true
  · simp only [if_neg hempty, if_pos hpad]
    exact ⟨s, rfl, h⟩
  by_cases hcap : jpegLen + p.payload.length > jpegCap
  · simp only [if_neg hempty, if_neg hpad, if_pos hcap]
    exact ⟨s, rfl, h⟩
  simp only [if_neg hempty, if_neg hpad, if_neg hcap]
  have hwrite := dmaWriteAt_run evicted (UVC_ASSEMBLED_JPEG_DMA_OFF + jpegLen) h
    (Nat.le_add_right _ _) p.payload
  cases ho : dmaWriteAt w (UVC_ASSEMBLED_JPEG_DMA_OFF + jpegLen) p.payload with
  | error e =>
    rw [ho] at hwrite
    exact ⟨s, run_bind_error hwrite, h⟩
  | ok w' =>
    rw [ho] at hwrite
    obtain ⟨t, hrun, hshows⟩ := hwrite
    exact ⟨t, run_bind hrun, hshows⟩

/-- The end of what is assembled is read as it is. -/
theorem andTailIsEoi_run (c : Bool) (jpegLen : Nat) (h : Shows n s us w) :
    ∃ t, (OnMachine.andTailIsEoi (servingMachine evicted) c jpegLen).run s =
      .ok (c && tailIsEoi w jpegLen) t ∧ Shows n t us w := by
  unfold OnMachine.andTailIsEoi
  cases c with
  | false => exact ⟨s, rfl, h⟩
  | true =>
    obtain ⟨t, hrun, hshows⟩ := dmaRxSlice_run evicted
      (UVC_ASSEMBLED_JPEG_DMA_OFF + (jpegLen - 2)) 2 h
      (show DMA_OFF_UVC_BULK ≤ UVC_ASSEMBLED_JPEG_DMA_OFF from Nat.le_add_right _ _)
      (h.2.sees_jpeg (Nat.le_refl _)) (Nat.le_add_right _ _) (Nat.le_refl _)
    exact ⟨t, run_bind hrun, hshows⟩

/-- What a packet leaves of `LAST_EOF_FID`: the FID of the frame, once one is whole. -/
def fidAfter (frameFid : UInt8) (st : CaptureState) : Option Nat → UInt8
  | some _ => frameFid
  | none => st.lastEofFid

/-- **The end of one packet.** -/
theorem finishPacket_run (frameFid : UInt8) (jpegCap : Nat) (p : UvcPacket) (a : Assembly)
    (st : CaptureState) (h : Shows n s us st.dma) :
    match finishPacket frameFid jpegCap p a st with
    | (.error e, _, st') => ∃ t,
        (OnMachine.finishPacket (servingMachine evicted) jpegCap p a).run s = .error (.err e) t ∧
          Shows n t us st'.dma ∧ st'.lastEofFid = st.lastEofFid
    | (.ok len, a', st') => ∃ t,
        (OnMachine.finishPacket (servingMachine evicted) jpegCap p a).run s = .ok (len, a') t ∧
          Shows n t us st'.dma ∧ st'.lastEofFid = fidAfter frameFid st len := by
  unfold finishPacket OnMachine.finishPacket
  have happend := append_run evicted p a.jpegLen a.sawData jpegCap h
  cases ho : p.append a.jpegLen a.sawData jpegCap st.dma with
  | error e =>
    rw [ho] at happend
    obtain ⟨t, hrun, hshows⟩ := happend
    exact ⟨t, run_bind_error hrun, hshows, rfl⟩
  | ok r =>
    obtain ⟨len, saw, w'⟩ := r
    rw [ho] at happend
    obtain ⟨t, hrun, hshows⟩ := happend
    rw [run_bind hrun]
    obtain ⟨t', htail, hshows'⟩ :=
      andTailIsEoi_run evicted (p.eof && saw) len hshows
    dsimp only
    rw [run_bind htail]
    by_cases hwhole : (p.eof && saw && tailIsEoi w' len) = true
    · simp only [if_pos hwhole]
      exact ⟨t', rfl, hshows', rfl⟩
    by_cases heof : p.eof = true
    · simp only [if_neg hwhole, if_pos heof]
      exact ⟨t', rfl, hshows', trivial⟩
    · simp only [if_neg hwhole, if_neg heof]
      exact ⟨t', rfl, hshows', rfl⟩

/-! ### The capture -/

/-- A capture on the machine has returned the length of the frame and its FID. -/
def Captured (n : Nat) (r : Option (Nat × UInt8)) (len : Nat) (s : Serving) (us : List Uframe)
    (st : CaptureState) : Prop :=
  r = some (len, st.lastEofFid) ∧ Shows n s us st.dma

/-- A capture has failed, and `LAST_EOF_FID` is what it was. -/
def Failed (n : Nat) (fid : UInt8) (s : Serving) (us : List Uframe) (st : CaptureState) : Prop :=
  Shows n s us st.dma ∧ st.lastEofFid = fid

/-- What a loop of the assembly has returned. -/
def Assembled (n : Nat) (frameFid : UInt8) (r : Option Nat) (len : Nat) (s : Serving) (us : List Uframe)
    (st : CaptureState) : Prop :=
  r = some len ∧ st.lastEofFid = frameFid ∧ Shows n s us st.dma

theorem assembleLoop_ends (iso : IsochInEp) (frameFid : UInt8) (jpegCap : Nat) {packets : Nat}
    (a : Assembly) (st : CaptureState) (h : Shows n s us st.dma) (hfuel : us.length < packets) :
    Ends (Assembled n frameFid) (Failed n st.lastEofFid)
      (assembleLoop iso DMA_OFF_UVC_BULK frameFid jpegCap a us st)
      ((OnMachine.assembleLoop (servingMachine evicted) iso DMA_OFF_UVC_BULK jpegCap packets
        a).run s) := by
  induction packets generalizing a us st s with
  | zero => exact absurd hfuel (Nat.not_lt_zero _)
  | succ packets ih =>
      have hread := readPayload_ends evicted iso h
      rw [assembleLoop, OnMachine.assembleLoop]
      split
      · trivial
      · rename_i e us₁ w₁ ho
        rw [ho] at hread
        obtain ⟨t, hrun, hshows⟩ := hread
        exact ⟨t, run_bind_error hrun, hshows, rfl⟩
      · rename_i pkt us₁ w₁ ho
        have hlt := readPayload_lt ho
        rw [ho] at hread
        obtain ⟨_, t, hrun, rfl, hshows⟩ := hread
        rw [run_bind hrun]
        rename_i pkt
        cases UvcPacket.new pkt with
        | none => exact ih a { st with dma := w₁ } hshows (by omega)
        | some p =>
          obtain ⟨t₁, htail, hshows₁⟩ :=
            andTailIsEoi_run evicted (!p.isFid a.fid && a.sawData) a.jpegLen hshows
          rw [run_bind htail]
          by_cases hwhole : (!p.isFid a.fid && (a.sawData && tailIsEoi w₁ a.jpegLen)) = true
          · simp only [Bool.and_assoc, if_pos hwhole]
            exact ⟨_, t₁, rfl, rfl, rfl, hshows₁⟩
          · simp only [Bool.and_assoc, if_neg hwhole]
            have hfinish := finishPacket_run evicted frameFid jpegCap p
              (if !p.isFid a.fid then ⟨0, false, p.fid⟩ else a) { st with dma := w₁ } hshows₁
            cases hf : finishPacket frameFid jpegCap p
                (if !p.isFid a.fid then ⟨0, false, p.fid⟩ else a) { st with dma := w₁ } with
            | mk res rest =>
              obtain ⟨a', st'⟩ := rest
              rw [hf] at hfinish
              cases res with
              | error e =>
                obtain ⟨t₂, hrun₂, hshows₂, hfid⟩ := hfinish
                exact ⟨t₂, run_bind_error hrun₂, hshows₂, hfid⟩
              | ok len =>
                obtain ⟨t₂, hrun₂, hshows₂, hfid⟩ := hfinish
                rw [run_bind hrun₂]
                cases len with
                | some len => exact ⟨_, t₂, rfl, rfl, hfid, hshows₂⟩
                | none =>
                  have hnext := ih a' st' hshows₂ (by omega)
                  rw [show st'.lastEofFid = st.lastEofFid from hfid] at hnext
                  exact hnext

theorem tryFrame_ends (iso : IsochInEp) (initFid : Option UInt8) (jpegCap : Nat) {packets : Nat}
    {st : CaptureState} (h : Shows n s us st.dma) (hfuel : n < packets) :
    Ends (Captured n) (Failed n st.lastEofFid)
      (tryFrame iso DMA_OFF_UVC_BULK initFid jpegCap us st)
      ((OnMachine.tryFrame (servingMachine evicted) iso DMA_OFF_UVC_BULK initFid jpegCap
        packets).run s) := by
  have hflip := waitFlip_ends evicted iso initFid h (Nat.lt_of_le_of_lt h.1.2 hfuel)
  unfold tryFrame OnMachine.tryFrame
  cases hw : waitFlip iso DMA_OFF_UVC_BULK initFid us st.dma with
  | waiting w₁ => trivial
  | done res us₁ w₁ =>
    rw [hw] at hflip
    cases res with
    | error e =>
      obtain ⟨t, hrun, hshows⟩ := hflip
      exact ⟨t, run_bind_error hrun, hshows, rfl⟩
    | ok first =>
      obtain ⟨_, t, hrun, rfl, hshows⟩ := hflip
      rw [run_bind hrun]
      have hfinish := finishPacket_run evicted first.fid jpegCap first ⟨0, false, first.fid⟩
        { st with dma := w₁ } hshows
      dsimp only [assemble]
      cases hf : finishPacket first.fid jpegCap first ⟨0, false, first.fid⟩
          { st with dma := w₁ } with
      | mk res rest =>
        obtain ⟨a, st'⟩ := rest
        rw [hf] at hfinish
        cases res with
        | error e =>
          obtain ⟨t₁, hrun₁, hshows₁, hfid⟩ := hfinish
          exact ⟨t₁, run_bind_error hrun₁, hshows₁, hfid⟩
        | ok len =>
          obtain ⟨t₁, hrun₁, hshows₁, hfid⟩ := hfinish
          rw [run_bind hrun₁]
          cases len with
          | some len =>
            refine ⟨some (len, first.fid), t₁, rfl, ?_, hshows₁⟩
            rw [show st'.lastEofFid = first.fid from hfid]
          | none =>
            have hloop := assembleLoop_ends evicted iso first.fid jpegCap a st' hshows₁
              (Nat.lt_of_le_of_lt hshows₁.1.2 hfuel)
            rw [show st'.lastEofFid = st.lastEofFid from hfid] at hloop
            dsimp only
            cases hl : assembleLoop iso DMA_OFF_UVC_BULK first.fid jpegCap a us₁ st' with
            | waiting st₂ => trivial
            | done res us₂ st₂ =>
              rw [hl] at hloop
              cases res with
              | error e =>
                obtain ⟨t₂, hrun₂, hfailed⟩ := hloop
                exact ⟨t₂, run_bind_error hrun₂, hfailed⟩
              | ok len =>
                obtain ⟨_, t₂, hrun₂, rfl, hfid₂, hshows₂⟩ := hloop
                refine ⟨_, t₂, run_bind hrun₂, ?_, hshows₂⟩
                rw [hfid₂]
                rfl

/-- **A capture through the cache** ends as it does on the list. -/
theorem captureFrame_ends (cam : UvcCamera) {packets : Nat} {st : CaptureState}
    (h : Shows n s us st.dma) (hfuel : n < packets) :
    Ends (Captured n) (Failed n st.lastEofFid) (captureFrame cam us st)
      ((OnMachine.captureFrame (servingMachine evicted) cam st.lastEofFid packets).run s) := by
  have htry := tryFrame_ends evicted cam.iso (initFid st.lastEofFid) jpegCap h hfuel
  unfold captureFrame OnMachine.captureFrame
  rw [captureRounds, OnMachine.captureRounds]
  cases ho : tryFrame cam.iso DMA_OFF_UVC_BULK (initFid st.lastEofFid) jpegCap us st with
  | waiting st₁ => trivial
  | done res us₁ st₁ =>
    rw [ho] at htry
    cases res with
    | ok len =>
      obtain ⟨r, t, hrun, hcaptured⟩ := htry
      refine ⟨r, t, (run_bind (a := .ok r) (t := t) ?_).trans rfl, hcaptured⟩
      rw [attempt_run, hrun]
    | error e =>
      obtain ⟨t, hrun, hfailed⟩ := htry
      have hattempt : (attempt (OnMachine.tryFrame (servingMachine evicted) cam.iso
          DMA_OFF_UVC_BULK (initFid st.lastEofFid) jpegCap packets) : Io Serving _).run s =
          .ok (.error (.err e)) t := by
        rw [attempt_run, hrun]
      rw [run_bind hattempt]
      cases e <;> exact ⟨t, rfl, hfailed⟩

/-! ### A session -/

/-- Up to `k` captures, each with the bytes of its frame as the caller reads them. -/
def OnMachine.captureFrames {σ : Type} (m : Machine σ) (cam : UvcCamera) (packets : Nat) :
    Nat → UInt8 → Io σ (List (UsbResult (Option (List UInt8))))
  | 0, _ => return []
  | k + 1, lastEofFid => do
    match ← attempt (OnMachine.captureFrame m cam lastEofFid packets) with
    | .ok none => return []
    | .ok (some (len, fid)) =>
      let jpeg ← OnMachine.dmaRxSlice m UVC_ASSEMBLED_JPEG_DMA_OFF len
      let later ← OnMachine.captureFrames m cam packets k fid
      return .ok jpeg :: later
    | .error (.err e) =>
      let later ← OnMachine.captureFrames m cam packets k lastEofFid
      return .error e :: later
    | .error .panic => throw .panic

/-- **The cache never shows**: a session of `k` captures that all return on the list of microframes
returns the same frames, byte for byte, and the same errors on the machine, whatever lines the cache
evicts and however long a capture may run. -/
theorem captureFrames_calls (cam : UvcCamera) {packets k : Nat} {st : CaptureState}
    (h : Shows n s us st.dma) (hfuel : n < packets) (hreturn : (calls cam k us st).length = k) :
    ∃ t, (OnMachine.captureFrames (servingMachine evicted) cam packets k st.lastEofFid).run s =
      .ok ((calls cam k us st).map fun c => c.res.map (frameBytes c.after)) t := by
  induction k generalizing us st s with
  | zero => exact ⟨s, rfl⟩
  | succ k ih =>
      have hcapture := captureFrame_ends evicted cam h hfuel
      rw [calls] at hreturn ⊢
      cases ho : captureFrame cam us st with
      | waiting st₁ =>
        rw [ho] at hreturn
        cases hreturn
      | done res us₁ st₁ =>
        rw [ho] at hcapture hreturn
        have hreturn' : (calls cam k us₁ st₁).length = k := Nat.succ.inj hreturn
        cases res with
        | error e =>
          obtain ⟨t, hrun, hshows, hfid⟩ := hcapture
          have hattempt : (attempt (OnMachine.captureFrame (servingMachine evicted) cam
              st.lastEofFid packets) : Io Serving _).run s =
              .ok (.error (.err e)) t := by
            rw [attempt_run, hrun]
          obtain ⟨t', hlater⟩ := ih hshows hreturn'
          rw [hfid] at hlater
          exact ⟨t', (run_bind hattempt).trans (run_bind hlater)⟩
        | ok len =>
          obtain ⟨_, t, hrun, rfl, hshows⟩ := hcapture
          have hattempt : (attempt (OnMachine.captureFrame (servingMachine evicted) cam
              st.lastEofFid packets) : Io Serving _).run s =
              .ok (.ok (some (len, st₁.lastEofFid))) t := by
            rw [attempt_run, hrun]
          obtain ⟨t₁, hslice, hshows₁⟩ := dmaRxSlice_run evicted UVC_ASSEMBLED_JPEG_DMA_OFF len
            hshows (show DMA_OFF_UVC_BULK ≤ UVC_ASSEMBLED_JPEG_DMA_OFF from Nat.le_add_right _ _)
            (hshows.2.sees_jpeg (Nat.le_refl _)) (Nat.le_refl _) (Nat.le_refl _)
          obtain ⟨t', hlater⟩ := ih hshows₁ hreturn'
          exact ⟨t', (run_bind hattempt).trans ((run_bind hslice).trans (run_bind hlater))⟩

/-- A camera that sends `us`, behind a cache without dirty lines. -/
def Serving.start (mem : Memory UInt8) (us : List Uframe) : Serving :=
  ⟨⟨mem, mem, fun _ => false⟩, us, none, 0, 0⟩

theorem shows_start (mem : Memory UInt8) (us : List Uframe) (fid : UInt8) :
    Shows us.length (.start mem us) us (CaptureState.start mem fid).dma :=
  ⟨⟨rfl, Nat.le_refl _⟩, fun _ _ => rfl, fun _ _ => rfl, fun _ _ => ⟨rfl, fun _ => rfl⟩⟩

theorem captureFrames_residual :
    ∃ t, (OnMachine.captureFrames (servingMachine fun n => [n, 80]) demoCamera 3 1 0).run
      (.start (fun _ => 0) residualThenFrame) = .ok [.ok (some [0xff, 0xd8, 0xff, 0xd9])] t := by
  have hframes : ((calls demoCamera 1 residualThenFrame afterEvenFrame).map fun c =>
      c.res.map (frameBytes c.after)) = [.ok (some [0xff, 0xd8, 0xff, 0xd9])] := by decide +kernel
  have hreturn : (calls demoCamera 1 residualThenFrame afterEvenFrame).length = 1 := by
    decide +kernel
  obtain ⟨t, hrun⟩ := captureFrames_calls (fun n => [n, 80]) demoCamera
    (shows_start (fun _ => 0) residualThenFrame 0) (show _ < 3 from by decide) hreturn
  exact ⟨t, hrun.trans (congrArg (fun frames => EStateM.Result.ok frames t) hframes)⟩

end Cvirtos.Usb.Uvc
