import Cvirtos.Lib.LittleEndian
import Cvirtos.Usb.Dwc2.ControlRead
import Cvirtos.Usb.Uvc.AltReselection
import Cvirtos.Usb.Uvc.Capture

/-!
# Starting the stream

`drivers/usb/uvc/stream.rs`, on a machine: PROBE, the alternate setting for what the camera answers,
COMMIT and SET_INTERFACE.

* `reselect_alternate` — the alternate is the one selected before or one of the table;
* `settle_agrees` — what is settled on, for every answer;
* `startStream_agrees` — **COMMIT, SET_INTERFACE and the endpoint agree with the answer**.
-/

set_option autoImplicit false

namespace Cvirtos.Usb.Uvc

open Cvirtos.Lib Cvirtos.Usb.Dwc2

def VS_PROBE_CONTROL : UInt8 := 0x01
def VS_COMMIT_CONTROL : UInt8 := 0x02
def UVC_PROBE_COMMIT_LEN : Nat := 34

/-! ### Requests -/

namespace UvcRequest

/-- A request to a VideoStreaming interface. -/
def streaming (requestType request interface selector : UInt8) (wLength : UInt16) :
    Vector UInt8 8 :=
  let wValue := selector.toUInt16 <<< 8
  #v[requestType, request, wValue.toUInt8, (wValue >>> 8).toUInt8, interface, 0, wLength.toUInt8,
    (wLength >>> 8).toUInt8]

/-- `UvcRequest::set_cur_streaming`. -/
def setCurStreaming : (interface selector : UInt8) → (wLength : UInt16) → Vector UInt8 8 :=
  streaming 0x21 0x01

/-- `UvcRequest::get_cur_streaming`. -/
def getCurStreaming : (interface selector : UInt8) → (wLength : UInt16) → Vector UInt8 8 :=
  streaming 0xA1 0x81

/-- `UvcRequest::get_max_streaming`. -/
def getMaxStreaming : (interface selector : UInt8) → (wLength : UInt16) → Vector UInt8 8 :=
  streaming 0xA1 0x83

end UvcRequest

/-- The structure of PROBE and COMMIT. -/
abbrev ProbeCommit := Vector UInt8 UVC_PROBE_COMMIT_LEN

namespace ProbeCommit

/-- A buffer of zeros, with what a read has put into it. -/
def ofBytes (bytes : List UInt8) : ProbeCommit := overwrite (.replicate _ 0) 0 bytes

/-- `dwMaxPayloadTransferSize`. -/
def payloadSize (p : ProbeCommit) : Nat := field p 22 4

def setPayloadSize (p : ProbeCommit) (size : Nat) : ProbeCommit := overwrite p 22 (leBytes 4 size)

end ProbeCommit

/-- `u32::saturating_mul`. -/
def saturatingMulU32 (x y : Nat) : Nat := min (x * y) 4294967295

/-- `wmax_payload_per_uframe`. -/
def wmaxPayloadPerUframe (mpsRaw : UInt16) : Nat := wmaxMps mpsRaw

/-- `build_probe_commit_payload`. -/
def UvcStreamSelection.buildProbeCommitPayload (sel : UvcStreamSelection) : ProbeCommit :=
  let buf : ProbeCommit := .replicate _ 0
  let buf := overwrite buf 0 [0x01, 0x00, sel.formatIndex, sel.frameIndex]
  let buf := overwrite buf 4 (leBytes 4 (toUvcTicks sel.frameInterval).toNat)
  let w := max sel.frameW.toNat 640
  let h := max sel.frameH.toNat 480
  let est := if sel.isMjpeg then saturatingMulU32 w h else saturatingMulU32 (saturatingMulU32 w h) 2
  let buf := overwrite buf 18 (leBytes 4 est)
  ProbeCommit.setPayloadSize buf (wmaxPayloadPerUframe sel.mpsRaw)

/-- `start_stream` has read the answer to PROBE. -/
def UvcStreamSelection.negotiate (sel : UvcStreamSelection) (probe : ProbeCommit) :
    UvcStreamSelection :=
  { sel with negotiatedPayloadSize := .ofNat probe.payloadSize }

/-- The payload size is clamped to what the alternate setting carries. -/
def UvcStreamSelection.clampPayload (sel : UvcStreamSelection) (probe : ProbeCommit) :
    UvcStreamSelection × ProbeCommit :=
  let altMps := wmaxPayloadPerUframe sel.mpsRaw
  if altMps > 0 ∧ altMps < sel.negotiatedPayloadSize.toNat then
    ({ sel with negotiatedPayloadSize := .ofNat altMps }, probe.setPayloadSize altMps)
  else (sel, probe)

/-- The part of `start_stream` between the answer to PROBE and COMMIT. -/
def UvcStreamSelection.settle (sel : UvcStreamSelection) (probe : ProbeCommit) :
    Checked (UvcStreamSelection × ProbeCommit) := do
  let sel ← (sel.negotiate probe).reselectIsochAltForPayload
  return sel.clampPayload probe

section Stream

variable {σ α : Type}

/-- `let _ = x`: an error is dropped, a panic is not. -/
def dropError (x : Io σ α) : Io σ Unit := do
  match ← attempt x with
  | .error .panic => throw .panic
  | _ => return ()

variable (m : Machine σ) (ep : ControlEp)

/-- The part of `start_stream` that comes before the answer to PROBE is read. -/
def proposeStream (sel : UvcStreamSelection) : Io σ Unit := do
  dropError (Dwc2.ControlEp.setInterface m ep 0 sel.vsInterface)
  Dwc2.ControlEp.write m ep
    (UvcRequest.setCurStreaming sel.vsInterface VS_PROBE_CONTROL (.ofNat UVC_PROBE_COMMIT_LEN))
    sel.buildProbeCommitPayload.toList
  -- the answer is for the log only
  dropError (Dwc2.ControlEp.read m ep
    (UvcRequest.getMaxStreaming sel.vsInterface VS_PROBE_CONTROL (.ofNat UVC_PROBE_COMMIT_LEN))
    UVC_PROBE_COMMIT_LEN)

/-- GET_CUR of PROBE. -/
def readProbe (sel : UvcStreamSelection) : Io σ (List UInt8) :=
  Dwc2.ControlEp.read m ep
    (UvcRequest.getCurStreaming sel.vsInterface VS_PROBE_CONTROL (.ofNat UVC_PROBE_COMMIT_LEN))
    UVC_PROBE_COMMIT_LEN

/-- SET_CUR of COMMIT. -/
def writeCommit (sel : UvcStreamSelection) (payload : ProbeCommit) : Io σ Unit :=
  Dwc2.ControlEp.write m ep
    (UvcRequest.setCurStreaming sel.vsInterface VS_COMMIT_CONTROL (.ofNat UVC_PROBE_COMMIT_LEN))
    payload.toList

/-- `UvcCamera::start_stream`: the selection it leaves in the camera.  After an error there is no
camera. -/
def startStream (sel : UvcStreamSelection) : Io σ UvcStreamSelection := do
  proposeStream m ep sel
  let bytes ← readProbe m ep sel
  match sel.settle (.ofBytes bytes) with
  | .error _ => throw .panic
  | .ok (sel, probe) =>
    writeCommit m ep sel probe
    Dwc2.ControlEp.setInterface m ep sel.altSetting sel.vsInterface
    return sel

end Stream

/-! ### What is settled on -/

variable {sel sel' : UvcStreamSelection} {answer payload : ProbeCommit}

/-- **The alternate is the one selected before or one of the table.** -/
theorem reselect_alternate (h : sel.reselectIsochAltForPayload = .ok sel') :
    sel' = { sel with altSetting := sel'.altSetting, mpsRaw := sel'.mpsRaw } ∧
      ((sel'.altSetting, sel'.mpsRaw) = (sel.altSetting, sel.mpsRaw) ∨
        (sel'.altSetting, sel'.mpsRaw) ∈ sel.isochAlts.toList.take sel.isochAltsCount.toNat) := by
  unfold UvcStreamSelection.reselectIsochAltForPayload at h
  split at h
  · cases h
    exact ⟨rfl, .inl rfl⟩
  split at h
  · cases h
    exact ⟨rfl, .inl rfl⟩
  split at h
  · cases h
  have hchosen := (search_chosen sel.negotiatedPayloadSize.toNat
    (sel.isochAlts.toList.take sel.isochAltsCount.toNat)).chosen
  dsimp only at h
  split at h
  · cases h
    refine ⟨rfl, ?_⟩
    generalize hbest : (List.foldl (considerAlt sel.negotiatedPayloadSize.toNat) (none, none)
      (sel.isochAlts.toList.take sel.isochAltsCount.toNat)).1.or _ = best at hchosen ⊢
    cases best with
    | none => exact .inl rfl
    | some pick => exact .inr (firstMax_eq_some.mp hchosen.symm).mem
  · cases h
    exact ⟨rfl, .inl rfl⟩

/-- The camera after `start_stream`, as `capture_frame` sees it. -/
def UvcStreamSelection.camera (sel : UvcStreamSelection) (dev : Nat) : UvcCamera :=
  ⟨dev, sel.epNum, sel.mpsRaw⟩

/-- The selection left, the structure committed and the answer of the camera go together. -/
structure Agrees (sel sel' : UvcStreamSelection) (answer payload : ProbeCommit) : Prop where
  outside : ∀ (i : Nat) (_ : i < UVC_PROBE_COMMIT_LEN), i < 22 ∨ 26 ≤ i → payload[i] = answer[i]
  size : payload.payloadSize = sel'.negotiatedPayloadSize.toNat
  fits : wmaxMps sel'.mpsRaw ≠ 0 →
    payload.payloadSize = min answer.payloadSize (wmaxMps sel'.mpsRaw)
  alternate : (sel'.altSetting, sel'.mpsRaw) = (sel.altSetting, sel.mpsRaw) ∨
    (sel'.altSetting, sel'.mpsRaw) ∈ sel.isochAlts.toList.take sel.isochAltsCount.toNat
  frame : sel' = { sel with
    altSetting := sel'.altSetting
    mpsRaw := sel'.mpsRaw
    negotiatedPayloadSize := sel'.negotiatedPayloadSize }
  /-- A packet within the payload size is received whole, if it is received. -/
  whole : ∀ dev off u us w n us' w', u.data.length ≤ payload.payloadSize →
    readUframe (sel'.camera dev).iso off (u :: us) w = .done (.ok n) us' w' →
      n = 0 ∨ n = u.data.length

theorem payloadSize_lt (p : ProbeCommit) : p.payloadSize < 4294967296 := field_lt p 22 4

theorem payloadSize_set (p : ProbeCommit) {size : Nat} (h : size < 4294967296) :
    (p.setPayloadSize size).payloadSize = size := field_overwrite (by decide) h

theorem setPayloadSize_outside (p : ProbeCommit) (size : Nat) {i : Nat}
    (hi : i < UVC_PROBE_COMMIT_LEN) (h : i < 22 ∨ 26 ≤ i) : (p.setPayloadSize size)[i] = p[i] :=
  overwrite_outside hi (by simpa using h)

/-- The clamped size is the smaller one, in the selection and in the structure. -/
theorem clampPayload_size (hsize : sel.negotiatedPayloadSize.toNat = answer.payloadSize) :
    let r := sel.clampPayload answer
    r.2.payloadSize = r.1.negotiatedPayloadSize.toNat ∧
      (wmaxMps sel.mpsRaw ≠ 0 → r.2.payloadSize = min answer.payloadSize (wmaxMps sel.mpsRaw)) := by
  have hmps := wmaxMps_le sel.mpsRaw
  unfold UvcStreamSelection.clampPayload wmaxPayloadPerUframe
  dsimp only
  split
  · rename_i hclamp
    rw [payloadSize_set answer (by omega)]
    refine ⟨(Nat.mod_eq_of_lt (by omega)).symm, fun _ => ?_⟩
    rw [← hsize]
    omega
  · rename_i hkeep
    refine ⟨hsize.symm, fun hne => ?_⟩
    dsimp only
    omega

/-- Nothing else changes. -/
theorem clampPayload_frame (sel : UvcStreamSelection) (answer : ProbeCommit) :
    let r := sel.clampPayload answer
    r.1 = { sel with negotiatedPayloadSize := r.1.negotiatedPayloadSize } ∧
      ∀ (i : Nat) (_ : i < UVC_PROBE_COMMIT_LEN), i < 22 ∨ 26 ≤ i → r.2[i] = answer[i] := by
  unfold UvcStreamSelection.clampPayload
  dsimp only
  split
  · exact ⟨rfl, fun i hi => setPayloadSize_outside answer _ hi⟩
  · exact ⟨rfl, fun _ _ _ => rfl⟩

/-- **What is settled on, for every answer.** -/
theorem settle_agrees (h : sel.settle answer = .ok (sel', payload)) :
    Agrees sel sel' answer payload := by
  unfold UvcStreamSelection.settle at h
  cases hre : (sel.negotiate answer).reselectIsochAltForPayload with
  | error c =>
      rw [hre] at h
      cases h
  | ok after =>
      rw [hre] at h
      obtain ⟨hafter, halt⟩ := reselect_alternate hre
      have hsize : after.negotiatedPayloadSize.toNat = answer.payloadSize := by
        rw [hafter]
        exact Nat.mod_eq_of_lt (payloadSize_lt answer)
      obtain ⟨hframe, houtside⟩ := clampPayload_frame after answer
      obtain ⟨hagree, hfits⟩ := clampPayload_size hsize
      change Except.ok (after.clampPayload answer) = _ at h
      rw [Except.ok.inj h] at hframe houtside hagree hfits
      dsimp only at hframe houtside hagree hfits
      have halternate : sel'.altSetting = after.altSetting := by rw [hframe]
      have hmpsRaw : sel'.mpsRaw = after.mpsRaw := by rw [hframe]
      rw [← hmpsRaw] at hfits
      refine ⟨houtside, hagree, hfits, ?_, ?_, ?_⟩
      · rw [halternate, hmpsRaw]
        exact halt
      · rw [hframe, hafter]
        rfl
      · intro dev off u us w n us' w' hlen hread
        refine readUframe_whole (fun hne => ?_) hread
        change u.data.length ≤ wmaxMps sel'.mpsRaw
        rw [hfits hne] at hlen
        omega

/-! ### The exchange -/

variable {σ : Type} {m : Machine σ} {ep : ControlEp} {s s' : σ}

/-- A whole structure read is the structure. -/
theorem ofBytes_toList {bytes : List UInt8} (h : bytes.length = UVC_PROBE_COMMIT_LEN) :
    (ProbeCommit.ofBytes bytes).toList = bytes := by
  apply List.ext_getElem
  · rw [Vector.length_toList, h]
  · intro i hi hi'
    have hin : (overwrite (Vector.replicate UVC_PROBE_COMMIT_LEN 0) 0 bytes)[0 + i] = bytes[i] :=
      overwrite_inside hi' (by omega)
    simpa [ProbeCommit.ofBytes] using hin

/-- The SETUP packets of the exchange. -/
theorem startStream_packets (vs alt : UInt8) :
    UvcRequest.getCurStreaming vs VS_PROBE_CONTROL (.ofNat UVC_PROBE_COMMIT_LEN) =
        #v[0xA1, 0x81, 0, 1, vs, 0, 34, 0] ∧
      UvcRequest.setCurStreaming vs VS_COMMIT_CONTROL (.ofNat UVC_PROBE_COMMIT_LEN) =
        #v[0x21, 0x01, 0, 2, vs, 0, 34, 0] ∧
      StdRequest.setInterface alt vs = #v[0x01, 0x0B, alt, 0, vs, 0, 0, 0] := ⟨rfl, rfl, rfl⟩

/-- **COMMIT, SET_INTERFACE and the endpoint agree with the answer**: a stream that has started has
read an answer to PROBE, committed to a payload and selected an alternate setting, in this order,
and these go together. -/
theorem startStream_agrees (m : Machine σ) (ep : ControlEp) (sel sel' : UvcStreamSelection)
    (s s' : σ) (h : (startStream m ep sel).run s = .ok sel' s') :
    ∃ bytes payload s₀ s₁ s₂,
      (proposeStream m ep sel).run s = .ok () s₀ ∧
      (Dwc2.ControlEp.read m ep #v[0xA1, 0x81, 0, 1, sel.vsInterface, 0, 34, 0] 34).run s₀ =
        .ok bytes s₁ ∧
      (Dwc2.ControlEp.write m ep #v[0x21, 0x01, 0, 2, sel.vsInterface, 0, 34, 0]
        payload.toList).run s₁ = .ok () s₂ ∧
      (Dwc2.ControlEp.writeNoData m ep
        #v[0x01, 0x0B, sel'.altSetting, 0, sel.vsInterface, 0, 0, 0]).run s₂ = .ok () s' ∧
      Agrees sel sel' (.ofBytes bytes) payload ∧
      (m.Reads → (ProbeCommit.ofBytes bytes).toList = bytes) := by
  unfold startStream at h
  obtain ⟨⟨⟩, s₀, hpropose, h₀⟩ := run_bind_ok h
  obtain ⟨bytes, s₁, hread, h₁⟩ := run_bind_ok h₀
  cases hsettle : sel.settle (.ofBytes bytes) with
  | error c =>
      rw [hsettle] at h₁
      cases h₁
  | ok r =>
      obtain ⟨after, payload⟩ := r
      rw [hsettle] at h₁
      obtain ⟨⟨⟩, s₂, hcommit, h₂⟩ := run_bind_ok h₁
      obtain ⟨⟨⟩, s₃, hset, h₃⟩ := run_bind_ok h₂
      cases h₃
      have hagrees := settle_agrees hsettle
      have hif : sel'.vsInterface = sel.vsInterface := by rw [hagrees.frame]
      obtain ⟨hget, hcur, hselect⟩ := startStream_packets sel.vsInterface sel'.altSetting
      unfold readProbe at hread
      unfold writeCommit at hcommit
      unfold Dwc2.ControlEp.setInterface at hset
      rw [hget] at hread
      rw [hif, hcur] at hcommit
      rw [hif, hselect] at hset
      exact ⟨bytes, payload, s₀, s₁, s₂, hpropose, hread, hcommit, hset, hagrees,
        fun hm => ofBytes_toList (read_length hm hread)⟩

/-- A camera that answers every read with the same bytes. -/
structure Webcam where
  mem : Memory UInt8
  armed : Option Transfer

/-- The machine with the camera behind it: every attempt is acknowledged. -/
def webcam (response : List UInt8) : Machine Webcam where
  arm _ t s := (true, { s with armed := some t })
  waitHalted _ s :=
    match s.armed with
    | none => (none, s)
    | some t =>
      (some xferComplWord,
        ⟨if t.dirIn then store s.mem t.dmaOff (response.take t.xferSize) else s.mem, none⟩)
  xferSizeLeft _ _ := 0
  write off bytes s := { s with mem := store s.mem off bytes }
  read off len s := (load s.mem off len, s)
  clean _ _ s := s
  invalidate _ _ s := s

/-- A structure that asks for 3060 bytes a microframe. -/
def highBandwidthAnswer : List UInt8 :=
  [1, 0, 1, 1, 0x15, 0x16, 5, 0] ++ List.replicate 10 0 ++ [0, 0x60, 9, 0] ++ [0xF4, 0x0B, 0, 0] ++
    List.replicate 8 7

/-- A stream with alternates of 512 and of 1020 bytes. -/
def twoAlternates : UvcStreamSelection := mjpegFrom 1 512 2 (secondAlt 2 1020)

/-- The camera asks for more than any alternate carries. -/
theorem startStream_agrees_clamped :
    ∃ s', (startStream (webcam highBandwidthAnswer) ⟨5, 64⟩ twoAlternates).run ⟨fun _ => 0, none⟩ =
        .ok { twoAlternates with altSetting := 2, mpsRaw := 1020, negotiatedPayloadSize := 1020 } s' ∧
      ∃ bytes payload, Agrees twoAlternates
        { twoAlternates with altSetting := 2, mpsRaw := 1020, negotiatedPayloadSize := 1020 }
        (.ofBytes bytes) payload := by
  have hrun := eq_ok_of_value (r := (startStream (webcam highBandwidthAnswer) ⟨5, 64⟩
    twoAlternates).run ⟨fun _ => 0, none⟩)
    (a := { twoAlternates with altSetting := 2, mpsRaw := 1020, negotiatedPayloadSize := 1020 })
    (by decide +kernel)
  obtain ⟨bytes, payload, _, _, _, -, -, -, -, hagrees, -⟩ :=
    startStream_agrees (webcam highBandwidthAnswer) _ _ _ _ _ hrun
  exact ⟨_, hrun, bytes, payload, hagrees⟩

end Cvirtos.Usb.Uvc
