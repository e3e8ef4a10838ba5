import Cvirtos.Lib.Loop
import Cvirtos.Usb.Device
import Cvirtos.Usb.Dwc2.Isoch

/-!
# Configuration descriptors

`drivers/usb/uvc/descriptor.rs`: the stream selection and the control entities.  What the source
would panic at is a `Crash`: an index out of bounds, a `clamp` whose bounds are crossed, a division
by zero.  `i32` arithmetic crashes on overflow when `checks` is set, as in a build with overflow
checks, and wraps otherwise.
-/

set_option autoImplicit false

namespace Cvirtos.Usb.Uvc

open Cvirtos.Lib Cvirtos.Usb.Dwc2

/-- How a run that does not return ends. -/
inductive Crash where
  | index
  | clamp
  | divide
  | overflow
  deriving DecidableEq, Repr

abbrev Checked (α : Type) := Except Crash α

theorem Checked.ok_bind {α β : Type} (a : α) (f : α → Checked β) :
    (Except.ok a : Checked α).bind f = f a := rfl

def USB_DT_ENDPOINT : UInt8 := 5
def CS_INTERFACE : UInt8 := 0x24
def VS_FORMAT_MJPEG : UInt8 := 0x06
def VS_FRAME_MJPEG : UInt8 := 0x07
def VS_FORMAT_UNCOMPRESSED : UInt8 := 0x04
def VS_FRAME_UNCOMPRESSED : UInt8 := 0x05
def USB_SUBCLASS_VIDEO_STREAMING : UInt8 := 0x02
def USB_SUBCLASS_VIDEO_CONTROL : UInt8 := 0x01
def VC_INPUT_TERMINAL : UInt8 := 0x02
def VC_PROCESSING_UNIT : UInt8 := 0x05
def ITT_CAMERA : UInt16 := 0x0201
def ENDPOINT_ATTR_ISOCH : UInt8 := 1

/-- `from_uvc_ticks`, in nanoseconds. -/
def fromUvcTicks (t : UInt32) : Nat := t.toNat * 100

/-- `to_uvc_ticks`, of a duration in nanoseconds. -/
def toUvcTicks (d : Nat) : UInt32 := .ofNat (d / 100)

/-- `buf[i]`. -/
def byteAt (buf : List UInt8) (i : Nat) : Checked UInt8 :=
  match buf[i]? with
  | some b => .ok b
  | none => .error .index

/-- `u32::clamp`. -/
def clamp (x lo hi : UInt32) : Checked UInt32 :=
  if lo > hi then .error .clamp else .ok (if x < lo then lo else if x > hi then hi else x)

/-- A `u32` division. -/
def divide (x y : UInt32) : Checked UInt32 := if y = 0 then .error .divide else .ok (x / y)

/-- The result of an `i32` operation. -/
def i32 (checks : Bool) (x : Int) : Checked Int :=
  if -2147483648 ≤ x ∧ x ≤ 2147483647 then .ok x
  else if checks then .error .overflow
  else .ok (x.bmod 4294967296)

/-- `i32::saturating_mul`. -/
def saturatingMul (x y : Int) : Int :=
  if x * y > 2147483647 then 2147483647 else if x * y < -2147483648 then -2147483648 else x * y

/-- `e?` in a function that returns an `Option`. -/
def orReturn {α β : Type} (e : Checked (Option α)) (f : α → Checked (Option β)) :
    Checked (Option β) :=
  match e with
  | .error c => .error c
  | .ok none => .ok none
  | .ok (some a) => f a

/-! ### Views of descriptors -/

/-- `Desc`: a view of the descriptor of `len` bytes at `base`. -/
structure Desc where
  buf : List UInt8
  base : Nat
  len : Nat
  deriving DecidableEq, Repr

namespace Desc

/-- `Desc::new`. -/
def new (buf : List UInt8) (base stop : Nat) : Option Desc :=
  match buf[base]? with
  | none => none
  | some bl => if bl.toNat < 2 ∨ base + bl.toNat > stop then none else some ⟨buf, base, bl.toNat⟩

def ty (d : Desc) : Checked UInt8 := byteAt d.buf (d.base + 1)

def u8 (d : Desc) (off : Nat) : Checked (Option UInt8) :=
  if off < d.len then (byteAt d.buf (d.base + off)).map some else .ok none

def u16le (d : Desc) (off : Nat) : Checked (Option UInt16) :=
  if off + 2 ≤ d.len then do
    let b0 ← byteAt d.buf (d.base + off)
    let b1 ← byteAt d.buf (d.base + off + 1)
    return some (b0.toUInt16 ||| b1.toUInt16 <<< 8)
  else .ok none

def u32le (d : Desc) (off : Nat) : Checked (Option UInt32) :=
  if off + 4 ≤ d.len then do
    let b0 ← byteAt d.buf (d.base + off)
    let b1 ← byteAt d.buf (d.base + off + 1)
    let b2 ← byteAt d.buf (d.base + off + 2)
    let b3 ← byteAt d.buf (d.base + off + 3)
    return some (b0.toUInt32 ||| b1.toUInt32 <<< 8 ||| b2.toUInt32 <<< 16 ||| b3.toUInt32 <<< 24)
  else .ok none

/-- `d.u8(off).unwrap_or(dflt)`. -/
def u8Or (d : Desc) (off : Nat) (dflt : UInt8) : Checked UInt8 :=
  (d.u8 off).map (·.getD dflt)

theorem new_len {buf : List UInt8} {base stop : Nat} {d : Desc} (h : new buf base stop = some d) :
    d.buf = buf ∧ d.base = base ∧ 2 ≤ d.len ∧ base + d.len ≤ stop := by
  unfold new at h
  split at h
  · cases h
  · split at h
    · cases h
    · rename_i hfits
      obtain ⟨hlow, hend⟩ := not_or.mp hfits
      cases h
      exact ⟨rfl, rfl, Nat.le_of_not_lt hlow, Nat.le_of_not_lt hend⟩

end Desc

/-- The loop over the descriptors of a configuration, from `i` on. -/
def scanDescs {σ : Type} (step : Desc → σ → Checked σ) (cfg : List UInt8) (len i : Nat) (s : σ) :
    Checked σ :=
  if i + 2 ≤ len then
    match _hd : Desc.new cfg i len with
    | none => .ok s
    | some d =>
      match step d s with
      | .error c => .error c
      | .ok s => scanDescs step cfg len (i + d.len) s
  else .ok s
termination_by len - i
decreasing_by
  have := Desc.new_len _hd
  omega

/-! ### Frames -/

structure FramePick where
  fmtIx : UInt8
  frameIx : UInt8
  w : UInt16
  h : UInt16
  ival : UInt32
  isMjpeg : Bool
  deriving DecidableEq, Repr

structure UvcPrefs where
  frameW : UInt16
  frameH : UInt16
  /-- In nanoseconds. -/
  frameInterval : Nat
  deriving DecidableEq, Repr

/-- `for k in 0..ival_type`, over the table entries that lie in the descriptor. -/
def forIvals {σ : Type} (d : Desc) (f : UInt32 → σ → Checked σ) : (remaining k : Nat) → σ → Checked σ
  | 0, _, s => .ok s
  | remaining + 1, k, s => do
    match ← d.u32le (26 + 4 * k) with
    | none => return s
    | some ival =>
      let s ← f ival s
      forIvals d f remaining (k + 1) s

/-- `best_for`. -/
def bestFor (pref v : UInt32) (curBest : Option UInt32) : Option UInt32 :=
  if v = 0 then curBest
  else
    match curBest with
    | none => some v
    | some b =>
      let dNew := if v ≥ pref then v - pref else pref - v
      let dOld := if b ≥ pref then b - pref else pref - b
      if dNew < dOld then some v else some b

/-- The interval of a continuous range nearest to the preferred one. -/
def clampInterval (d : Desc) (pref : UInt32) : Checked (Option UInt32) := do
  if d.len ≥ 38 then
    let lo ← d.u32le 26
    let hi ← d.u32le 30
    match lo, hi with
    | some lo, some hi =>
      if lo > 0 ∧ hi > 0 then
        let x ← clamp pref lo hi
        return bestFor pref x none
      else return none
    | _, _ => return none
  else return none

/-- `choose_frame_interval`. -/
def chooseFrameInterval (d : Desc) (dfltIval : UInt32) (ivalType : UInt8) (pref : UInt32) :
    Checked UInt32 := do
  if pref = 0 then return 0
  if ivalType = 0 then
    let best ← clampInterval d pref
    return (bestFor pref dfltIval best).getD 0
  else
    let best ← forIvals d (fun ival best => return bestFor pref ival best) ivalType.toNat 0 none
    return (bestFor pref dfltIval best).getD 0

/-- The smallest interval a frame offers. -/
def minInterval (d : Desc) (dfltIval : UInt32) (ivalType : UInt8) : Checked UInt32 := do
  if ivalType = 0 ∧ d.len ≥ 38 then
    match ← d.u32le 26 with
    | some dwMin => return if dwMin > 0 then dwMin else dfltIval
    | none => return dfltIval
  else if ivalType > 0 then
    forIvals d (fun ival minIval => return if ival > 0 ∧ ival < minIval then ival else minIval)
      ivalType.toNat 0 dfltIval
  else return dfltIval

/-- A frame rate for the log, times 100. -/
def fpsX100 (ival : UInt32) : Checked UInt32 := if ival > 0 then divide 1000000000 ival else .ok 0

/-- The frame rates `parse_vs_frame` logs. -/
def logIntervals (d : Desc) (dfltIval minIval : UInt32) (ivalType : UInt8) : Checked Unit := do
  let _ ← fpsX100 dfltIval
  let _ ← fpsX100 minIval
  if ivalType > 0 then
    forIvals d (fun ival _ => (fpsX100 ival).map fun _ => ()) ivalType.toNat 0 ()
  else if d.len ≥ 38 then
    let dwMin ← d.u32le 26
    let dwMax ← d.u32le 30
    let _ ← d.u32le 34
    let _ ← fpsX100 (dwMax.getD 0)
    let _ ← fpsX100 (dwMin.getD 0)
  else return ()

/-- `parse_vs_frame`. -/
def parseVsFrame (d : Desc) (st fmtIx : UInt8) (prefTicks : UInt32) : Checked (Option FramePick) :=
  if ¬ (st = VS_FRAME_MJPEG ∨ st = VS_FRAME_UNCOMPRESSED) then .ok none
  else
    orReturn (d.u8 3) fun frameIx =>
    orReturn (d.u16le 5) fun w =>
    orReturn (d.u16le 7) fun h =>
    orReturn (d.u32le 21) fun dfltIval =>
    orReturn (d.u8 25) fun ivalType => do
      let minIval ← minInterval d dfltIval ivalType
      logIntervals d dfltIval minIval ivalType
      let chosenIval ← chooseFrameInterval d dfltIval ivalType prefTicks
      let ival := if chosenIval > 0 then chosenIval else if minIval > 0 then minIval else dfltIval
      return some
        { fmtIx, frameIx, w, h, ival, isMjpeg := st = VS_FRAME_MJPEG }

/-- `frame_rank`. -/
def frameRank (checks : Bool) (p : FramePick) (prefs : UvcPrefs) : Checked Int := do
  let w : Int := p.w.toNat
  let h : Int := p.h.toNat
  let area ← i32 checks (w * h)
  let prefW : Int := prefs.frameW.toNat
  let prefH : Int := prefs.frameH.toNat
  if w = prefW ∧ h = prefH then return 2000000
  let prefArea := saturatingMul prefW prefH
  if area ≤ prefArea then i32 checks (prefArea - area)
  else
    let excess ← i32 checks (area - prefArea)
    i32 checks (-excess)

/-! ### The stream selection -/

/-- A candidate of `IsochCandidates`: `(alt, ep, mps_raw, if)`. -/
structure Candidate where
  alt : UInt8
  epNum : UInt8
  mpsRaw : UInt16
  ifc : UInt8
  deriving DecidableEq, Repr

structure IsochCandidates where
  best : Option Candidate
  alts : Vector (UInt8 × UInt16) 8
  count : Nat
  deriving DecidableEq, Repr

def IsochCandidates.new : IsochCandidates := ⟨none, .replicate 8 (0, 0), 0⟩

/-- The part of `consider` that keeps a candidate. -/
def IsochCandidates.keep (c : IsochCandidates) (tak : Candidate) : IsochCandidates where
  best := some <|
    match c.best with
    | none => tak
    | some b => if wmaxMps tak.mpsRaw > wmaxMps b.mpsRaw then tak else b
  alts := if h : c.count < 8 then c.alts.set c.count (tak.alt, tak.mpsRaw) else c.alts
  count := if c.count < 8 then c.count + 1 else c.count

/-- `IsochCandidates::consider`; what it returns is not looked at. -/
def IsochCandidates.consider (c : IsochCandidates) (d : Desc) (curAlt curIfcNum : UInt8) :
    Checked IsochCandidates := do
  let fields : Option (UInt8 × UInt8 × UInt16) ←
    orReturn (d.u8 2) fun epAddr =>
    orReturn (d.u8 3) fun attr =>
    orReturn (d.u16le 4) fun mpsRaw => .ok (some (epAddr, attr, mpsRaw))
  match fields with
  | none => return c
  | some (epAddr, attr, mpsRaw) =>
    if epAddr &&& 0x80 = 0 then return c
    if attr &&& 0x03 = ENDPOINT_ATTR_ISOCH then
      return c.keep ⟨curAlt, epAddr &&& 0x0F, mpsRaw, curIfcNum⟩
    else return c

/-- The interface the scan is in, and the format last declared. -/
structure Ctx where
  curIfcClass : UInt8
  curIfcSub : UInt8
  curIfcNum : UInt8
  curAlt : UInt8
  curFmtIx : UInt8
  deriving DecidableEq, Repr

def Ctx.new : Ctx := ⟨0, 0, 0, 0, 0⟩

/-- The scan is in a VideoStreaming interface. -/
def Ctx.isVs (c : Ctx) : Prop :=
  c.curIfcClass = USB_CLASS_VIDEO ∧ c.curIfcSub = USB_SUBCLASS_VIDEO_STREAMING

instance (c : Ctx) : Decidable c.isVs := inferInstanceAs (Decidable (_ ∧ _))

/-- An interface descriptor. -/
def Ctx.enter (c : Ctx) (d : Desc) : Checked Ctx := do
  let curIfcNum ← d.u8Or 2 c.curIfcNum
  let curAlt ← d.u8Or 3 c.curAlt
  let curIfcClass ← d.u8Or 5 c.curIfcClass
  let curIfcSub ← d.u8Or 6 c.curIfcSub
  return { c with curIfcNum, curAlt, curIfcClass, curIfcSub }

/-- A class-specific descriptor of subtype `st`, if it declares a format. -/
def Ctx.format (c : Ctx) (d : Desc) (st : UInt8) : Checked Ctx := do
  if st = VS_FORMAT_MJPEG ∨ st = VS_FORMAT_UNCOMPRESSED then
    match ← d.u8 3 with
    | some ix => return { c with curFmtIx := ix }
    | none => return c
  else return c

/-- What the scan carries. -/
structure VsState where
  ctx : Ctx
  isoch : IsochCandidates
  mjpegPick : Option FramePick
  uncompPick : Option FramePick
  deriving DecidableEq, Repr

def VsState.new : VsState := ⟨.new, .new, none, none⟩

/-- A frame against the best of its kind so far. -/
def beats (checks : Bool) (prefs : UvcPrefs) (pick : FramePick) (prev : Option FramePick) :
    Checked Bool :=
  match prev with
  | none => .ok true
  | some prev => do
    let rank ← frameRank checks pick prefs
    let prevRank ← frameRank checks prev prefs
    return decide (rank > prevRank)

def VsState.offer (checks : Bool) (prefs : UvcPrefs) (s : VsState) (pick : FramePick) :
    Checked VsState := do
  let beats ← beats checks prefs pick (if pick.isMjpeg then s.mjpegPick else s.uncompPick)
  if beats then
    if pick.isMjpeg then return { s with mjpegPick := some pick }
    else return { s with uncompPick := some pick }
  else return s

/-- One descriptor of `parse_uvc_video_stream`. -/
def vsStep (checks : Bool) (prefs : UvcPrefs) (d : Desc) (s : VsState) : Checked VsState := do
  let ty ← d.ty
  if ty = USB_DT_INTERFACE ∧ d.len ≥ 9 then
    let ctx ← s.ctx.enter d
    return { s with ctx := ctx }
  else if ty = CS_INTERFACE ∧ s.ctx.isVs then
    let st ← d.u8Or 2 0
    let ctx ← s.ctx.format d st
    let s := { s with ctx := ctx }
    match ← parseVsFrame d st ctx.curFmtIx (toUvcTicks prefs.frameInterval) with
    | none => return s
    | some pick => s.offer checks prefs pick
  else if ty = USB_DT_ENDPOINT ∧ s.ctx.isVs then
    let isoch ← s.isoch.consider d s.ctx.curAlt s.ctx.curIfcNum
    return { s with isoch := isoch }
  else return s

structure UvcStreamSelection where
  vsInterface : UInt8
  altSetting : UInt8
  epNum : UInt8
  mpsRaw : UInt16
  formatIndex : UInt8
  frameIndex : UInt8
  /-- In nanoseconds. -/
  frameInterval : Nat
  isMjpeg : Bool
  frameW : UInt16
  frameH : UInt16
  negotiatedPayloadSize : UInt32
  isochAltsCount : UInt8
  isochAlts : Vector (UInt8 × UInt16) 8
  deriving DecidableEq, Repr

/-- What the scan has found, as a selection. -/
def VsState.select (s : VsState) : UsbResult UvcStreamSelection :=
  match s.isoch.best with
  | none => .error .notImplemented
  | some b =>
    match s.mjpegPick.or s.uncompPick with
    | none => .error (.protocol "no VS format/frame")
    | some pick => .ok
      { vsInterface := b.ifc
        altSetting := b.alt
        epNum := b.epNum
        mpsRaw := b.mpsRaw
        formatIndex := pick.fmtIx
        frameIndex := pick.frameIx
        frameInterval := fromUvcTicks pick.ival
        isMjpeg := pick.isMjpeg
        frameW := pick.w
        frameH := pick.h
        negotiatedPayloadSize := 0
        isochAltsCount := .ofNat s.isoch.count
        isochAlts := s.isoch.alts }

/-- `parse_uvc_video_stream`. -/
def parseUvcVideoStream (checks : Bool) (cfg : List UInt8) (cfgTotal : Nat) (prefs : UvcPrefs) :
    Checked (UsbResult UvcStreamSelection) := do
  let len := min cfgTotal cfg.length
  if len < 12 then return .error (.protocol "cfg too short")
  let first ← byteAt cfg 0
  if first.toNat ≥ len then return .error (.protocol "bad cfg bLength")
  let s ← scanDescs (vsStep checks prefs) cfg len first.toNat .new
  return s.select

/-- A pick of `reselect_isoch_alt_for_payload`: `(alt, mps_raw, total)`. -/
structure AltPick where
  alt : UInt8
  mpsRaw : UInt16
  total : Nat
  deriving DecidableEq, Repr

/-- One alternate against the best fit and the largest so far. -/
def considerAlt (need : Nat) (best : Option AltPick × Option AltPick) (x : UInt8 × UInt16) :
    Option AltPick × Option AltPick :=
  let total := wmaxMps x.2
  let pick : AltPick := ⟨x.1, x.2, total⟩
  let bestFit :=
    if total ≥ need then
      some <|
        match best.1 with
        | none => pick
        | some p => if p.total > total then pick else p
    else best.1
  let bestMax :=
    some <|
      match best.2 with
      | none => pick
      | some p => if p.total < total then pick else p
  (bestFit, bestMax)

/-- `reselect_isoch_alt_for_payload`. -/
def UvcStreamSelection.reselectIsochAltForPayload (sel : UvcStreamSelection) :
    Checked UvcStreamSelection :=
  if sel.isochAltsCount = 0 then .ok sel
  else if sel.negotiatedPayloadSize = 0 then .ok sel
  else if sel.isochAltsCount.toNat > 8 then .error .index
  else
    let alts := sel.isochAlts.toList.take sel.isochAltsCount.toNat
    let best := alts.foldl (considerAlt sel.negotiatedPayloadSize.toNat) (none, none)
    let new := (best.1.or best.2).getD ⟨sel.altSetting, sel.mpsRaw, 0⟩
    if new.alt ≠ sel.altSetting ∨ new.mpsRaw ≠ sel.mpsRaw then
      .ok { sel with altSetting := new.alt, mpsRaw := new.mpsRaw }
    else .ok sel

/-! ### The control entities -/

structure UvcControlEntities where
  vcInterface : UInt8
  cameraTerminalId : Option UInt8
  ctControls : UInt32
  processingUnitId : Option UInt8
  puControls : UInt32
  deriving DecidableEq, Repr

structure VcState where
  curIfcClass : UInt8
  curIfcSub : UInt8
  out : UvcControlEntities
  foundVc : Bool
  deriving DecidableEq, Repr

def VcState.new : VcState := ⟨0, 0, ⟨0, none, 0, none, 0⟩, false⟩

/-- `bmControls`, of `cmax` bytes from `off` on. -/
def bmControls (d : Desc) (off cmax : Nat) : Checked UInt32 :=
  forRange cmax (fun k bm => do
    match ← d.u8 (off + k) with
    | some b => return bm ||| b.toUInt32 <<< UInt32.ofNat (8 * k)
    | none => return bm) 0

/-- A CameraTerminal. -/
def VcState.inputTerminal (s : VcState) (d : Desc) : Checked VcState := do
  let id ← d.u8Or 3 0
  let tt ← (d.u16le 4).map (·.getD 0)
  if tt = ITT_CAMERA then
    let csize ← d.u8Or 14 0
    let bm ← bmControls d 15 (min (min csize.toNat (d.len - 15)) 4)
    return { s with out := { s.out with cameraTerminalId := some id, ctControls := bm } }
  else return s

/-- A ProcessingUnit. -/
def VcState.processingUnit (s : VcState) (d : Desc) : Checked VcState := do
  let id ← d.u8Or 3 0
  let csize ← d.u8Or 7 0
  let bm ← bmControls d 8 (min (min csize.toNat (d.len - 8)) 4)
  return { s with out := { s.out with processingUnitId := some id, puControls := bm } }

/-- One descriptor of `parse_uvc_control_entities`. -/
def vcStep (d : Desc) (s : VcState) : Checked VcState := do
  let ty ← d.ty
  if ty = USB_DT_INTERFACE ∧ d.len ≥ 9 then
    let curIfcNum ← d.u8Or 2 0
    let curIfcClass ← d.u8Or 5 s.curIfcClass
    let curIfcSub ← d.u8Or 6 s.curIfcSub
    let s := { s with curIfcClass, curIfcSub }
    if curIfcClass = USB_CLASS_VIDEO ∧ curIfcSub = USB_SUBCLASS_VIDEO_CONTROL then
      return { s with out := { s.out with vcInterface := curIfcNum }, foundVc := true }
    else return s
  else if ty = CS_INTERFACE ∧ s.curIfcClass = USB_CLASS_VIDEO ∧
      s.curIfcSub = USB_SUBCLASS_VIDEO_CONTROL ∧ d.len ≥ 3 then
    let st ← d.u8Or 2 0
    if st = VC_INPUT_TERMINAL ∧ d.len ≥ 15 then s.inputTerminal d
    else if st = VC_PROCESSING_UNIT ∧ d.len ≥ 9 then s.processingUnit d
    else return s
  else return s

/-- `parse_uvc_control_entities`. -/
def parseUvcControlEntities (cfg : List UInt8) (cfgTotal : Nat) :
    Checked (Option UvcControlEntities) := do
  let len := min cfgTotal cfg.length
  if len < 12 then return none
  let first ← byteAt cfg 0
  if first.toNat ≥ len then return none
  let s ← scanDescs vcStep cfg len first.toNat .new
  return if s.foundVc then some s.out else none

end Cvirtos.Usb.Uvc
