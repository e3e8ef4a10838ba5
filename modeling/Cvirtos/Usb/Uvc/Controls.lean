import Cvirtos.Usb.Dwc2.SetupLog
import Cvirtos.Usb.SetupPacket
import Cvirtos.Usb.Uvc.Descriptor

/-!
# Camera controls

`drivers/usb/uvc/control.rs`: what the processing unit and the camera terminal are set to before the
stream is started, each control as `bmControls` says.  The control endpoint is a parameter, a
`ControlPipe`; that of a machine is one.

* `initControls` — the settings, in the order of the source;
* `Offered` — the requests a camera's bitmaps offer;
* `triple_initControls`, `initControls_offered` — **no other request is made, and no error comes
  out**.
-/

set_option autoImplicit false

namespace Cvirtos.Usb.Uvc

open Cvirtos.Lib Cvirtos.Usb.Dwc2

/-- `ControlEp::write` and `ControlEp::read`, on a state `σ`. -/
structure ControlPipe (σ : Type) where
  write : Vector UInt8 8 → List UInt8 → Io σ Unit
  read : Vector UInt8 8 → Nat → Io σ (List UInt8)

/-- The control endpoint of a device, on a machine. -/
def ControlPipe.ofMachine {σ : Type} (m : Machine σ) (ep : ControlEp) : ControlPipe σ where
  write := Dwc2.ControlEp.write m ep
  read := Dwc2.ControlEp.read m ep

def PU_BACKLIGHT_COMPENSATION : UInt8 := 0x01
def PU_BRIGHTNESS_CONTROL : UInt8 := 0x02
def PU_CONTRAST_CONTROL : UInt8 := 0x03
def PU_GAIN_CONTROL : UInt8 := 0x04
def PU_POWER_LINE_FREQUENCY_CONTROL : UInt8 := 0x05
def PU_HUE_CONTROL : UInt8 := 0x06
def PU_SATURATION_CONTROL : UInt8 := 0x07
def PU_SHARPNESS_CONTROL : UInt8 := 0x08
def PU_GAMMA_CONTROL : UInt8 := 0x09
def PU_WHITE_BALANCE_TEMPERATURE_CONTROL : UInt8 := 0x0A
def PU_WHITE_BALANCE_TEMPERATURE_AUTO_CONTROL : UInt8 := 0x0B
def PU_HUE_AUTO_CONTROL : UInt8 := 0x10

def CT_AE_MODE_CONTROL : UInt8 := 0x02
def CT_AE_PRIORITY_CONTROL : UInt8 := 0x03
def CT_FOCUS_AUTO_CONTROL : UInt8 := 0x08

/-- A bit of `bmControls`. -/
def hasBit (bm bit : UInt32) : Bool := bm &&& (1 <<< bit) != 0

/-- A control of the processing unit; its name is for the log only. -/
structure PuCtrl where
  bit : UInt32
  selector : UInt8
  deriving DecidableEq, Repr

/-- The controls that are set to their defaults. -/
def PU_CTRLS : List PuCtrl :=
  [⟨0, PU_BRIGHTNESS_CONTROL⟩,
    ⟨1, PU_CONTRAST_CONTROL⟩,
    ⟨2, PU_HUE_CONTROL⟩,
    ⟨3, PU_SATURATION_CONTROL⟩,
    ⟨4, PU_SHARPNESS_CONTROL⟩,
    ⟨5, PU_GAMMA_CONTROL⟩,
    ⟨8, PU_BACKLIGHT_COMPENSATION⟩,
    ⟨9, PU_GAIN_CONTROL⟩]

section

variable {σ α : Type}

/-- `Result::ok`: an error is dropped, a panic is not. -/
def okValue (x : Io σ α) : Io σ (Option α) := do
  match ← attempt x with
  | .ok a => return some a
  | .error (.err _) => return none
  | .error .panic => throw .panic

variable (pipe : ControlPipe σ) (vcInterface : UInt8)

/-- `try_set_cur_u8`. -/
def trySetCurU8 (entity selector value : UInt8) : Io σ Bool := do
  let r ← okValue (pipe.write (UvcRequest.setCurControl vcInterface entity selector 1) [value])
  return r.isSome

/-- `read_control_u16`. -/
def readControlU16 (setup : Vector UInt8 8) : Io σ (Option UInt16) := do
  let r ← okValue (pipe.read setup 2)
  return r.map fun buf => half (buf.getD 0 0) (buf.getD 1 0)

/-- `try_get_cur_u16`. -/
def tryGetCurU16 (entity selector : UInt8) : Io σ (Option UInt16) :=
  readControlU16 pipe (UvcRequest.getCurControl vcInterface entity selector 2)

/-- `try_get_def_u16`. -/
def tryGetDefU16 (entity selector : UInt8) : Io σ (Option UInt16) :=
  readControlU16 pipe (UvcRequest.getDefControl vcInterface entity selector 2)

/-- `try_set_cur_u16`. -/
def trySetCurU16 (entity selector : UInt8) (value : UInt16) : Io σ Bool := do
  let r ← okValue (pipe.write (UvcRequest.setCurControl vcInterface entity selector 2)
    [lo value, hi value])
  return r.isSome

/-- `pu_apply_one`. -/
def puApplyOne (pu : UInt8) (bm : UInt32) (ctrl : PuCtrl) : Io σ Unit :=
  if hasBit bm ctrl.bit = false then return ()
  else do
    let cur ← tryGetCurU16 pipe vcInterface pu ctrl.selector
    let want ← tryGetDefU16 pipe vcInterface pu ctrl.selector
    match cur, want with
    | some c, some d =>
      if c ≠ d then do
        let _ ← trySetCurU16 pipe vcInterface pu ctrl.selector d
        return ()
      else return ()
    | _, _ => return ()

def puApply (pu : UInt8) (bm : UInt32) : List PuCtrl → Io σ Unit
  | [] => return ()
  | ctrl :: ctrls => do
    puApplyOne pipe vcInterface pu bm ctrl
    puApply pu bm ctrls

/-- The default temperature, if it can be read. -/
def setTemperature (pu : UInt8) (bm : UInt32) : Io σ Unit :=
  if hasBit bm 6 then do
    match ← tryGetDefU16 pipe vcInterface pu PU_WHITE_BALANCE_TEMPERATURE_CONTROL with
    | some d => do
      let _ ← trySetCurU16 pipe vcInterface pu PU_WHITE_BALANCE_TEMPERATURE_CONTROL d
      return ()
    | none => return ()
  else return ()

/-- White balance: automatic where there is such a thing. -/
def setWhiteBalance (pu : UInt8) (bm : UInt32) : Io σ Unit :=
  if hasBit bm 12 then do
    let _ ← trySetCurU8 pipe vcInterface pu PU_WHITE_BALANCE_TEMPERATURE_AUTO_CONTROL 0
    setTemperature pipe vcInterface pu bm
    let _ ← trySetCurU8 pipe vcInterface pu PU_WHITE_BALANCE_TEMPERATURE_AUTO_CONTROL 1
    -- for the log only, and asked for whatever bit 6 says
    let _ ← tryGetCurU16 pipe vcInterface pu PU_WHITE_BALANCE_TEMPERATURE_CONTROL
    return ()
  else if hasBit bm 6 then do
    let d ← tryGetDefU16 pipe vcInterface pu PU_WHITE_BALANCE_TEMPERATURE_CONTROL
    let _ ← trySetCurU16 pipe vcInterface pu PU_WHITE_BALANCE_TEMPERATURE_CONTROL (d.getD 4500)
    return ()
  else return ()

/-- A one-byte control that is set to 1 where there is such a control. -/
def setOne (entity : UInt8) (bm bit : UInt32) (selector : UInt8) : Io σ Unit :=
  if hasBit bm bit then do
    let _ ← trySetCurU8 pipe vcInterface entity selector 1
    return ()
  else return ()

/-- The processing unit. -/
def initUnit (pu : UInt8) (bm : UInt32) : Io σ Unit := do
  puApply pipe vcInterface pu bm PU_CTRLS
  setWhiteBalance pipe vcInterface pu bm
  setOne pipe vcInterface pu bm 11 PU_HUE_AUTO_CONTROL
  setOne pipe vcInterface pu bm 10 PU_POWER_LINE_FREQUENCY_CONTROL

/-- The first of the exposure modes that the camera takes. -/
def setAeMode (ct : UInt8) : List UInt8 → Io σ Unit
  | [] => return ()
  | mode :: modes => do
    if ← trySetCurU8 pipe vcInterface ct CT_AE_MODE_CONTROL mode then return ()
    else setAeMode ct modes

/-- The exposure: its mode, and 1 for the priority where there is one. -/
def setExposure (ct : UInt8) (bm : UInt32) : Io σ Unit :=
  if hasBit bm 1 then do
    setAeMode pipe vcInterface ct [0x02, 0x08, 0x04]
    setOne pipe vcInterface ct bm 2 CT_AE_PRIORITY_CONTROL
  else return ()

/-- The camera terminal. -/
def initTerminal (ct : UInt8) (bm : UInt32) : Io σ Unit := do
  setExposure pipe vcInterface ct bm
  setOne pipe vcInterface ct bm 17 CT_FOCUS_AUTO_CONTROL

/-- What is done with an entity, if the camera has it. -/
def forEntity (entity : Option UInt8) (init : UInt8 → Io σ Unit) : Io σ Unit :=
  match entity with
  | some id => init id
  | none => return ()

/-- `init_controls`. -/
def initControls (ent : UvcControlEntities) : Io σ Unit := do
  forEntity ent.processingUnitId fun pu => initUnit pipe ent.vcInterface pu ent.puControls
  forEntity ent.cameraTerminalId fun ct => initTerminal pipe ent.vcInterface ct ent.ctControls

end

/-! ### The requests -/

/-- The controls of a processing unit, each with its bit of `bmControls`. -/
def PU_BITS : List (UInt8 × UInt32) :=
  PU_CTRLS.map (fun c => (c.selector, c.bit)) ++
    [(PU_WHITE_BALANCE_TEMPERATURE_CONTROL, 6), (PU_POWER_LINE_FREQUENCY_CONTROL, 10),
      (PU_HUE_AUTO_CONTROL, 11), (PU_WHITE_BALANCE_TEMPERATURE_AUTO_CONTROL, 12)]

/-- Those of a camera terminal. -/
def CT_BITS : List (UInt8 × UInt32) :=
  [(CT_AE_MODE_CONTROL, 1), (CT_AE_PRIORITY_CONTROL, 2), (CT_FOCUS_AUTO_CONTROL, 17)]

/-- A request to read or to set a control. -/
inductive ForControl (interface entity selector : UInt8) : SetupRequest → Prop
  | setCur (wLength : UInt16) :
    ForControl interface entity selector (.setCurControl interface entity selector wLength)
  | getCur (wLength : UInt16) :
    ForControl interface entity selector (.getCurControl interface entity selector wLength)
  | getDef (wLength : UInt16) :
    ForControl interface entity selector (.getDefControl interface entity selector wLength)

/-- The requests that the camera's bitmaps offer, and one more: the colour temperature is read
whenever there is an automatic white balance. -/
inductive Offered (ent : UvcControlEntities) : SetupRequest → Prop
  | unit {pu : UInt8} {x : UInt8 × UInt32} {r : SetupRequest} (hpu : ent.processingUnitId = some pu)
    (hx : x ∈ PU_BITS) (hbit : hasBit ent.puControls x.2 = true)
    (hr : ForControl ent.vcInterface pu x.1 r) : Offered ent r
  | terminal {ct : UInt8} {x : UInt8 × UInt32} {r : SetupRequest}
    (hct : ent.cameraTerminalId = some ct) (hx : x ∈ CT_BITS)
    (hbit : hasBit ent.ctControls x.2 = true) (hr : ForControl ent.vcInterface ct x.1 r) :
    Offered ent r
  | temperature {pu : UInt8} (hpu : ent.processingUnitId = some pu)
    (hbit : hasBit ent.puControls 12 = true) :
    Offered ent (.getCurControl ent.vcInterface pu PU_WHITE_BALANCE_TEMPERATURE_CONTROL 2)

section Rules

variable {σ α : Type} {pipe : ControlPipe σ} {I : σ → Prop} {offered : SetupRequest → Prop}

/-- The one way to end early. -/
def Panicked (I : σ → Prop) (e : Dwc2.Stop) (s : σ) : Prop := e = .panic ∧ I s

/-- A pipe whose transfers keep `I`, for the requests at hand. -/
structure ControlPipe.Keeps (pipe : ControlPipe σ) (I : σ → Prop)
    (offered : SetupRequest → Prop) : Prop where
  write : ∀ r data, offered r → Triple I (pipe.write r.packet data) (fun _ => I) (fun _ => I)
  read : ∀ r len, offered r → Triple I (pipe.read r.packet len) (fun _ => I) (fun _ => I)

theorem triple_okValue {x : Io σ α} (hx : Triple I x (fun _ => I) (fun _ => I)) :
    Triple I (okValue x) (fun _ => I) (Panicked I) := by
  refine triple_bind (triple_attempt hx) fun r => ?_
  match r with
  | .ok a => exact triple_pure fun _ h => h
  | .error (.err e) => exact triple_pure fun _ h => h
  | .error .panic => exact triple_throw fun _ h => ⟨rfl, h⟩

variable (hpipe : pipe.Keeps I offered) {interface entity selector : UInt8}

section Tries

variable (hoffered : ∀ r, ForControl interface entity selector r → offered r)

include hpipe hoffered

theorem triple_trySetCurU8 (value : UInt8) :
    Triple I (trySetCurU8 pipe interface entity selector value) (fun _ => I) (Panicked I) :=
  triple_bind (triple_okValue (hpipe.write (.setCurControl interface entity selector 1) _
    (hoffered _ (.setCur 1)))) fun _ => triple_pure fun _ h => h

theorem triple_trySetCurU16 (value : UInt16) :
    Triple I (trySetCurU16 pipe interface entity selector value) (fun _ => I) (Panicked I) :=
  triple_bind (triple_okValue (hpipe.write (.setCurControl interface entity selector 2) _
    (hoffered _ (.setCur 2)))) fun _ => triple_pure fun _ h => h

theorem triple_tryGetDefU16 :
    Triple I (tryGetDefU16 pipe interface entity selector) (fun _ => I) (Panicked I) :=
  triple_bind (triple_okValue (hpipe.read (.getDefControl interface entity selector 2) 2
    (hoffered _ (.getDef 2)))) fun _ => triple_pure fun _ h => h

end Tries

include hpipe

theorem triple_tryGetCurU16 (hoffered : offered (.getCurControl interface entity selector 2)) :
    Triple I (tryGetCurU16 pipe interface entity selector) (fun _ => I) (Panicked I) :=
  triple_bind (triple_okValue (hpipe.read (.getCurControl interface entity selector 2) 2 hoffered))
    fun _ => triple_pure fun _ h => h

theorem triple_setOne {bm bit : UInt32} (hoffered : hasBit bm bit = true →
      ∀ r, ForControl interface entity selector r → offered r) :
    Triple I (setOne pipe interface entity bm bit selector) (fun _ => I) (Panicked I) :=
  triple_ite (fun hbit => triple_bind (triple_trySetCurU8 hpipe (hoffered hbit) 1) fun _ =>
    triple_pure fun _ h => h) fun _ => triple_pure fun _ h => h

theorem triple_puApplyOne {bm : UInt32} {ctrl : PuCtrl} (hoffered : hasBit bm ctrl.bit = true →
      ∀ r, ForControl interface entity ctrl.selector r → offered r) :
    Triple I (puApplyOne pipe interface entity bm ctrl) (fun _ => I) (Panicked I) := by
  refine triple_ite (fun _ => triple_pure fun _ h => h) fun hbit => ?_
  have hoffered := hoffered (Bool.eq_true_of_not_eq_false hbit)
  refine triple_bind (triple_tryGetCurU16 hpipe (hoffered _ (.getCur 2))) fun cur => ?_
  refine triple_bind (triple_tryGetDefU16 hpipe hoffered) fun want => ?_
  split
  · refine triple_ite (fun _ => ?_) fun _ => triple_pure fun _ h => h
    exact triple_bind (triple_trySetCurU16 hpipe hoffered _) fun _ => triple_pure fun _ h => h
  · exact triple_pure fun _ h => h

theorem triple_puApply {bm : UInt32} {ctrls : List PuCtrl} (hoffered : ∀ ctrl ∈ ctrls,
      hasBit bm ctrl.bit = true → ∀ r, ForControl interface entity ctrl.selector r → offered r) :
    Triple I (puApply pipe interface entity bm ctrls) (fun _ => I) (Panicked I) := by
  induction ctrls with
  | nil => exact triple_pure fun _ h => h
  | cons ctrl ctrls ih =>
      obtain ⟨hctrl, hctrls⟩ := List.forall_mem_cons.mp hoffered
      exact triple_bind (triple_puApplyOne hpipe hctrl) fun _ => ih hctrls

theorem triple_setAeMode (hoffered : ∀ r, ForControl interface entity CT_AE_MODE_CONTROL r →
      offered r) (modes : List UInt8) :
    Triple I (setAeMode pipe interface entity modes) (fun _ => I) (Panicked I) := by
  induction modes with
  | nil => exact triple_pure fun _ h => h
  | cons mode modes ih =>
      refine triple_bind (triple_trySetCurU8 hpipe hoffered mode) fun taken => ?_
      exact triple_ite (fun _ => triple_pure fun _ h => h) fun _ => ih

end Rules

section Offers

variable {σ : Type} {pipe : ControlPipe σ} {I : σ → Prop} {ent : UvcControlEntities}
  (hpipe : pipe.Keeps I (Offered ent))

include hpipe

theorem triple_setTemperature {pu : UInt8} (hpu : ent.processingUnitId = some pu) :
    Triple I (setTemperature pipe ent.vcInterface pu ent.puControls) (fun _ => I) (Panicked I) := by
  refine triple_ite (fun hbit => ?_) fun _ => triple_pure fun _ h => h
  have hoffered : ∀ r, ForControl ent.vcInterface pu PU_WHITE_BALANCE_TEMPERATURE_CONTROL r →
      Offered ent r := fun r => .unit (x := (_, 6)) hpu (by decide) hbit
  refine triple_bind (triple_tryGetDefU16 hpipe hoffered) fun d => ?_
  cases d with
  | some d =>
    exact triple_bind (triple_trySetCurU16 hpipe hoffered d) fun _ => triple_pure fun _ h => h
  | none => exact triple_pure fun _ h => h

theorem triple_setWhiteBalance {pu : UInt8} (hpu : ent.processingUnitId = some pu) :
    Triple I (setWhiteBalance pipe ent.vcInterface pu ent.puControls) (fun _ => I) (Panicked I) := by
  refine triple_ite (fun hauto => ?_) fun _ => triple_ite (fun hbit => ?_) fun _ =>
    triple_pure fun _ h => h
  · have hoffered : ∀ r, ForControl ent.vcInterface pu PU_WHITE_BALANCE_TEMPERATURE_AUTO_CONTROL r →
        Offered ent r := fun r => .unit (x := (_, 12)) hpu (by decide) hauto
    refine triple_bind (triple_trySetCurU8 hpipe hoffered 0) fun _ => ?_
    refine triple_bind (triple_setTemperature hpipe hpu) fun _ => ?_
    refine triple_bind (triple_trySetCurU8 hpipe hoffered 1) fun _ => ?_
    exact triple_bind (triple_tryGetCurU16 hpipe (.temperature hpu hauto)) fun _ =>
      triple_pure fun _ h => h
  · have hoffered : ∀ r, ForControl ent.vcInterface pu PU_WHITE_BALANCE_TEMPERATURE_CONTROL r →
        Offered ent r := fun r => .unit (x := (_, 6)) hpu (by decide) hbit
    refine triple_bind (triple_tryGetDefU16 hpipe hoffered) fun d => ?_
    exact triple_bind (triple_trySetCurU16 hpipe hoffered _) fun _ => triple_pure fun _ h => h

theorem triple_initUnit {pu : UInt8} (hpu : ent.processingUnitId = some pu) :
    Triple I (initUnit pipe ent.vcInterface pu ent.puControls) (fun _ => I) (Panicked I) := by
  refine triple_bind (triple_puApply hpipe fun ctrl hctrl hbit r => ?_) fun _ => ?_
  · refine .unit (x := (ctrl.selector, ctrl.bit)) hpu ?_ hbit
    exact List.mem_append_left _ (List.mem_map.mpr ⟨ctrl, hctrl, rfl⟩)
  refine triple_bind (triple_setWhiteBalance hpipe hpu) fun _ => ?_
  refine triple_bind (triple_setOne hpipe fun hbit r =>
    .unit (x := (_, 11)) hpu (by decide) hbit) fun _ => ?_
  exact triple_setOne hpipe fun hbit r => .unit (x := (_, 10)) hpu (by decide) hbit

theorem triple_setExposure {ct : UInt8} (hct : ent.cameraTerminalId = some ct) :
    Triple I (setExposure pipe ent.vcInterface ct ent.ctControls) (fun _ => I) (Panicked I) := by
  refine triple_ite (fun hae => ?_) fun _ => triple_pure fun _ h => h
  refine triple_bind (triple_setAeMode hpipe (fun r =>
    .terminal (x := (_, 1)) hct (by decide) hae) _) fun _ => ?_
  exact triple_setOne hpipe fun hbit r => .terminal (x := (_, 2)) hct (by decide) hbit

theorem triple_initTerminal {ct : UInt8} (hct : ent.cameraTerminalId = some ct) :
    Triple I (initTerminal pipe ent.vcInterface ct ent.ctControls) (fun _ => I) (Panicked I) :=
  triple_bind (triple_setExposure hpipe hct) fun _ =>
    triple_setOne hpipe fun hbit r => .terminal (x := (_, 17)) hct (by decide) hbit

omit hpipe in
theorem triple_forEntity {entity : Option UInt8} {init : UInt8 → Io σ Unit}
    (h : ∀ id, entity = some id → Triple I (init id) (fun _ => I) (Panicked I)) :
    Triple I (forEntity entity init) (fun _ => I) (Panicked I) := by
  cases entity with
  | some id => exact h id rfl
  | none => exact triple_pure fun _ h => h

/-- **The settings make the requests that are offered, and no others**: what these keep holds all
the way, and no error comes out. -/
theorem triple_initControls : Triple I (initControls pipe ent) (fun _ => I) (Panicked I) :=
  triple_bind (triple_forEntity fun _ => triple_initUnit hpipe) fun _ =>
    triple_forEntity fun _ => triple_initTerminal hpipe

end Offers

/-! ### On a machine -/

variable {σ : Type}

/-- Every packet armed so far is one that the camera offers. -/
def AllOffered (ent : UvcControlEntities) (s : Tapped σ) : Prop :=
  ∀ p ∈ s.setups, ∃ r, Offered ent r ∧ p = r.packet.toList

/-- What the requests keep, of the packets armed so far. -/
theorem keeps_logged {I : List (List UInt8) → Prop} {offered : SetupRequest → Prop}
    (hadd : ∀ log r n, offered r → n ≤ NAK_RETRIES + 1 → I log →
      I (log ++ List.replicate n r.packet.toList)) (m : Machine σ) (ep : ControlEp) :
    (ControlPipe.ofMachine m.tap ep).Keeps (fun s => I s.setups) offered := by
  have hadds : ∀ {α : Type} {x : Io (Tapped σ) α} {r : SetupRequest}, offered r →
      (∀ log, Triple (Logged log) x (fun _ => Armed 1 log r.packet) (fun _ => Armed 0 log r.packet)) →
      Triple (fun s => I s.setups) x (fun _ s => I s.setups) (fun _ s => I s.setups) := by
    intro α x r hr hx s h
    have hmore : ∀ t : Tapped σ, Armed 0 s.setups r.packet t → I t.setups := by
      rintro t ⟨n, -, hn, ht⟩
      rw [show t.setups = _ from ht]
      exact hadd _ r n hr hn h
    have hone : Triple (Logged s.setups) x (fun _ t => I t.setups) (fun _ t => I t.setups) :=
      triple_weaken (hx s.setups) (fun _ h => h) (fun _ t ht => hmore t ht.weaken)
        (fun _ t ht => hmore t ht)
    exact hone s rfl
  exact ⟨fun r data hr => hadds hr fun _ => triple_write_tap _ _,
    fun r len hr => hadds hr fun _ => triple_read_tap _ _⟩

theorem keeps_allOffered (m : Machine σ) (ep : ControlEp) (ent : UvcControlEntities) :
    (ControlPipe.ofMachine m.tap ep).Keeps (AllOffered ent) (Offered ent) := by
  refine keeps_logged (I := fun log => ∀ p ∈ log, ∃ r, Offered ent r ∧ p = r.packet.toList)
    (fun log r n hr _ h p hp => ?_) m ep
  rcases List.mem_append.mp hp with hp | hp
  · exact h p hp
  · exact ⟨r, hr, List.eq_of_mem_replicate hp⟩

/-- **No control is touched that the camera does not offer**: on every machine, every SETUP packet
that `init_controls` arms a channel with is a request for a control whose bit is set, or the reading
of the colour temperature beside an automatic white balance; and no error comes out of it. -/
theorem initControls_offered (m : Machine σ) (ep : ControlEp) (ent : UvcControlEntities) (s : σ) :
    AllOffered ent (endState ((initControls (.ofMachine m.tap ep) ent).run (.start s))) ∧
      ∀ e t, (initControls (.ofMachine m.tap ep) ent).run (.start s) = .error e t → e = .panic := by
  have hrun := triple_initControls (keeps_allOffered m ep ent)
  have h0 : AllOffered ent (.start s) := fun p hp => absurd hp List.not_mem_nil
  refine ⟨triple_endState (triple_error hrun fun _ _ h => h.2) h0, fun e t herror => ?_⟩
  have h := hrun _ h0
  rw [herror] at h
  exact h.1

end Cvirtos.Usb.Uvc
