import Mathlib.Data.List.Forall2
import Cvirtos.Lib.Register
import Cvirtos.Usb.Dwc2.Channel

/-!
# The registers of a host channel

`Channel::wait_disabled`, `wait_halted` and `arm` of `drivers/usb/dwc2/channel.rs` as the accesses
they make, with the field values of `control.rs` and `isoch.rs`.  The controller is a parameter: it
may change the registers before any access, and starts a channel when `CHENA` is written.

* `regMachine` — the registers as the hardware the rest of the driver runs on;
* `transfer_hcchar`, `transfer_hctsiz` — the registers give back the transfer they are packed from;
* `arm_run` — what a channel is started with;
* `launches_exact` — **in any sequence of calls the controller is started with exactly the transfers
  that were armed**, each on a channel that is idle and shows no interrupt.
-/

set_option autoImplicit false

namespace Cvirtos.Usb.Dwc2

open Cvirtos.Lib

namespace HCCHAR

def MPS : Field 32 := .bits 0 11
def EPNUM : Field 32 := .bits 11 4
def EPDIR : Field 32 := .bits 15 1
def EPTYPE : Field 32 := .bits 18 2
def MC : Field 32 := .bits 20 2
def DEVADDR : Field 32 := .bits 22 7
def ODDFRM : Field 32 := .bits 29 1
def CHENA : Field 32 := .bits 31 1

end HCCHAR

namespace HCTSIZ

def XFERSIZE : Field 32 := .bits 0 19
def PKTCNT : Field 32 := .bits 19 10
def PID : Field 32 := .bits 29 2

end HCTSIZ

def HCINT.CHHLTD : Nat := 1

def HCINT_ALL_W1C : BitVec 32 := 0x7FF#32

/-- `HCINT::CHHLTD::SET + HCINT::XFERCOMPL::SET`. -/
def HCINTMSK_ARMED : FieldValue 32 := Field.val (.bits 1 1) 1#32 + Field.val (.bits 0 1) 1#32

/-- `Dwc2HostChannel`. -/
structure ChannelRegs where
  hcchar : BitVec 32
  hcsplt : BitVec 32
  hcint : BitVec 32
  hcintmsk : BitVec 32
  hctsiz : BitVec 32
  hcdma : BitVec 32
  deriving DecidableEq, Repr

/-- `CHENA`. -/
def ChannelRegs.enabled (r : ChannelRegs) : Bool := HCCHAR.CHENA.isSet r.hcchar

def Pid.code : Pid → BitVec 32
  | .data0 => 0#32
  | .data1 => 2#32
  | .setup => 3#32

def Pid.ofCode (v : BitVec 32) : Option Pid :=
  if v = 0#32 then some .data0 else if v = 2#32 then some .data1
  else if v = 3#32 then some .setup else none

/-- `ControlEp::hcchar`. -/
def controlHcchar (t : Transfer) : FieldValue 32 :=
  let field := HCCHAR.MPS.val (.ofNat 32 t.mps) + HCCHAR.EPNUM.val 0#32 +
    HCCHAR.DEVADDR.val (.ofNat 32 t.dev) + HCCHAR.EPTYPE.val 0#32
  if t.dirIn then field + HCCHAR.EPDIR.val 1#32 else field

/-- `IsochInEp::hcchar`. -/
def isochHcchar (t : Transfer) : FieldValue 32 :=
  HCCHAR.MPS.val (.ofNat 32 t.mps) + HCCHAR.EPNUM.val (.ofNat 32 t.epNum) +
    HCCHAR.DEVADDR.val (.ofNat 32 t.dev) + HCCHAR.EPTYPE.val 1#32 + HCCHAR.MC.val 1#32 +
    HCCHAR.EPDIR.val 1#32

/-- `next_uframe_oddfrm`. -/
def nextUframeOddfrm (hfnum : BitVec 32) : FieldValue 32 :=
  let fr := Field.read (.bits 0 16) hfnum
  HCCHAR.ODDFRM.val (if fr &&& 1#32 = 0#32 then 1#32 else 0#32)

/-- What `HCCHAR` is started with. -/
def hccharEna (ch : Channel) (t : Transfer) (hfnum : BitVec 32) : FieldValue 32 :=
  match ch with
  | .control => controlHcchar t + HCCHAR.CHENA.val 1#32
  | .video => isochHcchar t + nextUframeOddfrm hfnum + HCCHAR.CHENA.val 1#32

def hctsiz (t : Transfer) : FieldValue 32 :=
  HCTSIZ.PID.val t.pid.code + HCTSIZ.PKTCNT.val 1#32 + HCTSIZ.XFERSIZE.val (.ofNat 32 t.xferSize)

/-! ### The controller -/

/-- The controller behind the registers, with states `κ`, and the memory it shares with the CPU. -/
structure Controller (κ : Type) where
  /-- What it does before the next access. -/
  progress : κ → (Channel → ChannelRegs) → κ × (Channel → ChannelRegs)
  hfnum : κ → BitVec 32
  write : Nat → List UInt8 → κ → κ
  read : Nat → Nat → κ → List UInt8 × κ
  clean : Nat → Nat → κ → κ
  invalidate : Nat → Nat → κ → κ

/-- A write of `CHENA`: the channel, its `HCCHAR` before, and its registers after it. -/
structure Launch where
  ch : Channel
  before : BitVec 32
  regs : ChannelRegs
  deriving DecidableEq, Repr

structure RegWorld (κ : Type) where
  state : κ
  regs : Channel → ChannelRegs
  launches : List Launch

abbrev OnRegs (κ α : Type) := StateM (RegWorld κ) α

section

variable {κ : Type} (c : Controller κ)

/-- The controller goes on. -/
def RegWorld.tick (w : RegWorld κ) : RegWorld κ :=
  let r := c.progress w.state w.regs
  { w with state := r.1, regs := r.2 }

def RegWorld.set (w : RegWorld κ) (ch : Channel) (r : ChannelRegs) : RegWorld κ :=
  { w with regs := fun ch' => if ch' = ch then r else w.regs ch' }

def readReg (ch : Channel) (reg : ChannelRegs → BitVec 32) : OnRegs κ (BitVec 32) := do
  modify (RegWorld.tick c)
  return reg ((← get).regs ch)

def readHfnum : OnRegs κ (BitVec 32) := do
  modify (RegWorld.tick c)
  return c.hfnum (← get).state

/-- A write to a register other than `HCCHAR`. -/
def writeReg (ch : Channel) (store : ChannelRegs → ChannelRegs) : OnRegs κ Unit :=
  modify fun w =>
    let w := w.tick c
    w.set ch (store (w.regs ch))

def writeHcchar (ch : Channel) (v : BitVec 32) : OnRegs κ Unit :=
  modify fun w =>
    let w := w.tick c
    let r := { w.regs ch with hcchar := v }
    { w.set ch r with
      launches := if r.enabled then w.launches ++ [⟨ch, (w.regs ch).hcchar, r⟩] else w.launches }

/-- `poll_until`. -/
def pollUntil (cond : OnRegs κ Bool) : Nat → OnRegs κ Bool
  | 0 => return false
  | iters + 1 => do
    if ← cond then return true
    pollUntil cond iters

/-- `Channel::wait_disabled`. -/
def waitDisabled (ch : Channel) : OnRegs κ Bool :=
  pollUntil (do return !HCCHAR.CHENA.isSet (← readReg c ch ChannelRegs.hcchar)) 2000000

def waitHaltedLoop (ch : Channel) : Nat → OnRegs κ (Option HcintSnapshot)
  | 0 => return none
  | iters + 1 => do
    let hi ← readReg c ch ChannelRegs.hcint
    if isSet hi HCINT.CHHLTD then
      writeReg c ch fun r => { r with hcint := r.hcint &&& ~~~hi }
      return some hi
    waitHaltedLoop ch iters

/-- `Channel::wait_halted`. -/
def waitHalted (ch : Channel) : OnRegs κ (Option HcintSnapshot) := waitHaltedLoop c ch 8000000

/-- `Channel::arm` once the channel is idle. -/
def armIdle (base : BitVec 32) (ch : Channel) (t : Transfer) (hfnum : BitVec 32) :
    OnRegs κ Unit := do
  writeReg c ch fun r => { r with hcsplt := 0#32 }
  writeReg c ch fun r => { r with hcint := r.hcint &&& ~~~HCINT_ALL_W1C }
  writeReg c ch fun r => { r with hcintmsk := HCINTMSK_ARMED.value }
  writeReg c ch fun r => { r with hctsiz := (hctsiz t).value }
  writeReg c ch fun r => { r with hcdma := base + .ofNat 32 t.dmaOff }
  writeHcchar c ch (hccharEna ch t hfnum).value

/-- `Channel::arm`, with the reading of `HFNUM` that the isochronous endpoint makes for it. -/
def arm (base : BitVec 32) (ch : Channel) (t : Transfer) : OnRegs κ Bool := do
  let hfnum ← match ch with
    | .control => pure 0#32
    | .video => readHfnum c
  if ← waitDisabled c ch then
    armIdle c base ch t hfnum
    return true
  else return false

/-- The registers as a machine for the rest of the driver. -/
def regMachine (base : BitVec 32) : Machine (RegWorld κ) where
  arm ch t := arm c base ch t
  waitHalted ch := waitHalted c ch
  xferSizeLeft ch w := (HCTSIZ.XFERSIZE.read (w.regs ch).hctsiz).toNat
  write off src w := { w with state := c.write off src w.state }
  read off len w :=
    let r := c.read off len w.state
    (r.1, { w with state := r.2 })
  clean off len w := { w with state := c.clean off len w.state }
  invalidate off len w := { w with state := c.invalidate off len w.state }

end

/-! ### What the registers hold -/

/-- The transfer that the registers ask for. -/
def ChannelRegs.transfer (base : BitVec 32) (r : ChannelRegs) : Option Transfer :=
  (Pid.ofCode (HCTSIZ.PID.read r.hctsiz)).map fun pid =>
    { dev := (HCCHAR.DEVADDR.read r.hcchar).toNat
      epNum := (HCCHAR.EPNUM.read r.hcchar).toNat
      mps := (HCCHAR.MPS.read r.hcchar).toNat
      dirIn := HCCHAR.EPDIR.read r.hcchar = 1#32
      pid := pid
      xferSize := (HCTSIZ.XFERSIZE.read r.hctsiz).toNat
      dmaOff := (r.hcdma - base).toNat }

/-- A transfer whose values fit into the fields of its channel. -/
structure Transfer.Fits (ch : Channel) (t : Transfer) : Prop where
  dev : t.dev < 2 ^ 7
  mps : t.mps < 2 ^ 11
  xferSize : t.xferSize < 2 ^ 19
  dmaOff : t.dmaOff < 2 ^ 32
  epNum : t.epNum < 2 ^ 4
  control : ch = .control → t.epNum = 0
  video : ch = .video → t.dirIn = true

theorem toNat_and_mask {n x : Nat} (hn : n ≤ 32) (hx : x < 2 ^ n) (offset : Nat) :
    (BitVec.ofNat 32 x &&& (Field.bits offset n : Field 32).mask).toNat = x := by
  have hpow : 2 ^ n ≤ 2 ^ 32 := Nat.pow_le_pow_right (by decide) hn
  change (BitVec.ofNat 32 x &&& BitVec.ofNat 32 (2 ^ n - 1)).toNat = x
  rw [BitVec.toNat_and, BitVec.toNat_ofNat, BitVec.toNat_ofNat, Nat.mod_eq_of_lt (by omega),
    Nat.mod_eq_of_lt (by omega), Nat.and_two_pow_sub_one_eq_mod, Nat.mod_eq_of_lt hx]

/-- **`HCCHAR` gives back the transfer** it is packed from, with `CHENA` set. -/
theorem read_hcchar {ch : Channel} {t : Transfer} (ht : t.Fits ch) (hfnum : BitVec 32) :
    let v := (hccharEna ch t hfnum).value
    (HCCHAR.DEVADDR.read v).toNat = t.dev ∧ (HCCHAR.EPNUM.read v).toNat = t.epNum ∧
      (HCCHAR.MPS.read v).toNat = t.mps ∧ decide (HCCHAR.EPDIR.read v = 1#32) = t.dirIn := by
  have hdev : (BitVec.ofNat 32 t.dev &&& HCCHAR.DEVADDR.mask).toNat = t.dev :=
    toNat_and_mask (by decide) ht.dev 22
  have hep : (BitVec.ofNat 32 t.epNum &&& HCCHAR.EPNUM.mask).toNat = t.epNum :=
    toNat_and_mask (by decide) ht.epNum 11
  have hmps : (BitVec.ofNat 32 t.mps &&& HCCHAR.MPS.mask).toNat = t.mps :=
    toNat_and_mask (by decide) ht.mps 0
  cases ch with
  | control =>
    have hzero := ht.control rfl
    unfold hccharEna controlHcchar
    cases t.dirIn <;>
      simp (disch := decide) only [Bool.false_eq_true, if_false, if_true, FieldValue.value_add,
        Field.read_or, Field.read_val_other, Field.read_val_self, BitVec.or_zero, BitVec.zero_or,
        hdev, hmps, hzero]
    all_goals decide
  | video =>
    have hdir := ht.video rfl
    simp (disch := decide) only [hccharEna, isochHcchar, nextUframeOddfrm, FieldValue.value_add,
      Field.read_or, Field.read_val_other, Field.read_val_self, BitVec.or_zero, BitVec.zero_or,
      hdev, hep, hmps, hdir]
    decide

theorem pid_ofCode (pid : Pid) : Pid.ofCode (pid.code &&& HCTSIZ.PID.mask) = some pid := by
  cases pid <;> decide

theorem read_hctsiz {ch : Channel} {t : Transfer} (ht : t.Fits ch) :
    Pid.ofCode (HCTSIZ.PID.read (hctsiz t).value) = some t.pid ∧
      (HCTSIZ.XFERSIZE.read (hctsiz t).value).toNat = t.xferSize := by
  have hsize : (BitVec.ofNat 32 t.xferSize &&& HCTSIZ.XFERSIZE.mask).toNat = t.xferSize :=
    toNat_and_mask (by decide) ht.xferSize 0
  simp (disch := decide) only [hctsiz, FieldValue.value_add, Field.read_or, Field.read_val_other,
    Field.read_val_self, BitVec.or_zero, BitVec.zero_or, hsize, pid_ofCode, and_self]

/-- The endpoint type, one packet, and one transaction a microframe for video. -/
theorem read_kind (ch : Channel) (t : Transfer) (hfnum : BitVec 32) :
    HCCHAR.EPTYPE.read (hccharEna ch t hfnum).value = (if ch = .control then 0#32 else 1#32) ∧
      HCTSIZ.PKTCNT.read (hctsiz t).value = 1#32 := by
  constructor
  · cases ch with
    | control =>
      unfold hccharEna controlHcchar
      cases t.dirIn <;>
        simp (disch := decide) only [Bool.false_eq_true, if_false, if_true, FieldValue.value_add,
          Field.read_or, Field.read_val_other, Field.read_val_self, BitVec.or_zero, BitVec.zero_or]
      all_goals decide
    | video =>
      simp (disch := decide) only [hccharEna, isochHcchar, nextUframeOddfrm, FieldValue.value_add,
        Field.read_or, Field.read_val_other, Field.read_val_self, BitVec.or_zero, BitVec.zero_or]
      decide
  · simp (disch := decide) only [hctsiz, FieldValue.value_add, Field.read_or, Field.read_val_other,
      Field.read_val_self, BitVec.or_zero, BitVec.zero_or]
    decide

theorem enabled_hccharEna (ch : Channel) (t : Transfer) (hfnum : BitVec 32) :
    HCCHAR.CHENA.isSet (hccharEna ch t hfnum).value = true := by
  have hbit : (HCCHAR.CHENA.val 1#32).value.getLsbD 31 = true := by decide
  rw [show HCCHAR.CHENA = .bits 31 1 from rfl, Field.isSet_bits_one (by decide)]
  cases ch <;> exact (BitVec.getLsbD_or).trans (by rw [hbit, Bool.or_true])

/-! ### The accesses of an arming -/

/-- The registers of an idle channel are the CPU's. -/
def Tame {κ : Type} (c : Controller κ) : Prop :=
  ∀ k regs ch, (regs ch).enabled = false → (c.progress k regs).2 ch = regs ch

section

variable {κ : Type} {c : Controller κ} {base : BitVec 32} {ch : Channel} {w w' : RegWorld κ}

/-- The channel is idle with the registers `r`, and the launches are `ls`. -/
structure Quiescent (ch : Channel) (r : ChannelRegs) (ls : List Launch) (w : RegWorld κ) : Prop where
  idle : r.enabled = false
  regs : w.regs ch = r
  launches : w.launches = ls

theorem Quiescent.tick {r : ChannelRegs} {ls : List Launch} (hc : Tame c) (h : Quiescent ch r ls w) :
    Quiescent ch r ls (w.tick c) where
  idle := h.idle
  regs := by
    have hkept := hc w.state w.regs ch (h.regs ▸ h.idle)
    exact hkept.trans h.regs
  launches := h.launches

/-- A write keeps a channel idle. -/
theorem Quiescent.writeReg {r : ChannelRegs} {ls : List Launch} (hc : Tame c) (h : Quiescent ch r ls w)
    (store : ChannelRegs → ChannelRegs) (hstore : (store r).hcchar = r.hcchar) :
    Quiescent ch (store r) ls (writeReg c ch store w).2 where
  idle := by
    have hidle := h.idle
    unfold ChannelRegs.enabled at hidle ⊢
    rw [hstore]
    exact hidle
  regs := by
    change (if ch = ch then store ((w.tick c).regs ch) else _) = store r
    rw [if_pos rfl, (h.tick hc).regs]
  launches := h.launches

theorem pollUntil_succ (cond : OnRegs κ Bool) (iters : Nat) (w : RegWorld κ) :
    pollUntil cond (iters + 1) w =
      if (cond w).1 then (true, (cond w).2) else pollUntil cond iters (cond w).2 := by
  rw [pollUntil]
  change (if (cond w).1 then (pure true : OnRegs κ Bool) else pollUntil cond iters) (cond w).2 = _
  split <;> rfl

/-- **The wait ends on an idle channel**, or not in time; it starts nothing. -/
theorem waitDisabled_run (ch : Channel) (w : RegWorld κ) :
    (waitDisabled c ch w).2.launches = w.launches ∧
      ((waitDisabled c ch w).1 = true → ((waitDisabled c ch w).2.regs ch).enabled = false) := by
  unfold waitDisabled
  generalize 2000000 = iters
  induction iters generalizing w with
  | zero => exact ⟨rfl, nofun⟩
  | succ iters ih =>
      rw [pollUntil_succ]
      have hcond : (do return !HCCHAR.CHENA.isSet (← readReg c ch ChannelRegs.hcchar) :
          OnRegs κ Bool) w = (!((w.tick c).regs ch).enabled, w.tick c) := rfl
      rw [hcond]
      cases hen : ((w.tick c).regs ch).enabled with
      | false => exact ⟨rfl, fun _ => hen⟩
      | true => exact ih (w.tick c)

theorem waitHalted_launches (ch : Channel) (w : RegWorld κ) :
    (waitHalted c ch w).2.launches = w.launches := by
  unfold waitHalted
  generalize 8000000 = iters
  induction iters generalizing w with
  | zero => rfl
  | succ iters ih =>
      rw [waitHaltedLoop]
      change ((if isSet ((w.tick c).regs ch).hcint HCINT.CHHLTD then _ else _ : OnRegs κ _)
        (w.tick c)).2.launches = _
      split
      · rfl
      · exact ih (w.tick c)

/-- **A channel is started** with the transfer in its registers: idle, with nothing split and no
interrupt left. -/
structure Exact (base : BitVec 32) (l : Launch) (ch : Channel) (t : Transfer) : Prop where
  channel : l.ch = ch
  idle : HCCHAR.CHENA.isSet l.before = false
  hcsplt : l.regs.hcsplt = 0#32
  hcint : l.regs.hcint &&& HCINT_ALL_W1C = 0#32
  hcintmsk : l.regs.hcintmsk = 3#32
  eptype : HCCHAR.EPTYPE.read l.regs.hcchar = if ch = .control then 0#32 else 1#32
  pktcnt : HCTSIZ.PKTCNT.read l.regs.hctsiz = 1#32
  transfer : l.regs.transfer base = some t

theorem exact_registers {t : Transfer} (ht : t.Fits ch) {r : ChannelRegs} (hr : r.enabled = false)
    (hfnum : BitVec 32) :
    Exact base ⟨ch, r.hcchar,
      { hcchar := (hccharEna ch t hfnum).value
        hcsplt := 0#32
        hcint := r.hcint &&& ~~~HCINT_ALL_W1C
        hcintmsk := HCINTMSK_ARMED.value
        hctsiz := (hctsiz t).value
        hcdma := base + .ofNat 32 t.dmaOff }⟩ ch t := by
  obtain ⟨hdev, hep, hmps, hdir⟩ := read_hcchar ht hfnum
  obtain ⟨hpid, hsize⟩ := read_hctsiz ht
  obtain ⟨hkind, hcnt⟩ := read_kind ch t hfnum
  have hmask : HCINTMSK_ARMED.value = 3#32 := by decide
  refine ⟨rfl, hr, rfl, ?_, hmask, hkind, hcnt, ?_⟩
  · change r.hcint &&& ~~~HCINT_ALL_W1C &&& HCINT_ALL_W1C = 0#32
    rw [BitVec.and_assoc]
    have hnone : ~~~HCINT_ALL_W1C &&& HCINT_ALL_W1C = 0#32 := by decide
    rw [hnone, BitVec.and_zero]
  · have hoff : (base + BitVec.ofNat 32 t.dmaOff - base).toNat = t.dmaOff := by
      rw [BitVec.add_comm, BitVec.add_sub_cancel, BitVec.toNat_ofNat, Nat.mod_eq_of_lt ht.dmaOff]
    unfold ChannelRegs.transfer
    dsimp only at hdev hep hmps hdir ⊢
    rw [hpid, hdev, hep, hmps, hdir, hsize, hoff]
    rfl

theorem writeHcchar_run {r : ChannelRegs} {ls : List Launch} (hc : Tame c) (h : Quiescent ch r ls w)
    {v : BitVec 32} (hv : HCCHAR.CHENA.isSet v = true) :
    (writeHcchar c ch v w).2.launches = ls ++ [⟨ch, r.hcchar, { r with hcchar := v }⟩] := by
  have htick := h.tick hc
  change (if HCCHAR.CHENA.isSet v then (w.tick c).launches ++
    [⟨ch, ((w.tick c).regs ch).hcchar, { (w.tick c).regs ch with hcchar := v }⟩] else _) = _
  rw [if_pos hv, htick.regs, htick.launches]

variable (base) in
theorem armIdle_run (hc : Tame c) {t : Transfer} (ht : t.Fits ch) (hfnum : BitVec 32)
    {r : ChannelRegs} {ls : List Launch} (h : Quiescent ch r ls w) :
    ∃ l, Exact base l ch t ∧ (armIdle c base ch t hfnum w).2.launches = ls ++ [l] := by
  have h₁ := h.writeReg hc (fun r => { r with hcsplt := 0#32 }) rfl
  have h₂ := h₁.writeReg hc (fun r => { r with hcint := r.hcint &&& ~~~HCINT_ALL_W1C }) rfl
  have h₃ := h₂.writeReg hc (fun r => { r with hcintmsk := HCINTMSK_ARMED.value }) rfl
  have h₄ := h₃.writeReg hc (fun r => { r with hctsiz := (hctsiz t).value }) rfl
  have h₅ := h₄.writeReg hc (fun r => { r with hcdma := base + .ofNat 32 t.dmaOff }) rfl
  exact ⟨_, exact_registers ht h.idle hfnum, writeHcchar_run hc h₅ (enabled_hccharEna ch t hfnum)⟩

variable (base) in
/-- **An arming** starts its channel once with its transfer, or not at all. -/
theorem arm_run (hc : Tame c) {t : Transfer} (ht : t.Fits ch) (w : RegWorld κ) :
    (arm c base ch t w).1 = false ∧ (arm c base ch t w).2.launches = w.launches ∨
      (arm c base ch t w).1 = true ∧ ∃ l, Exact base l ch t ∧
        (arm c base ch t w).2.launches = w.launches ++ [l] := by
  have hrun : ∃ hfnum w₀, w₀.launches = w.launches ∧ arm c base ch t w =
      if (waitDisabled c ch w₀).1 then
        (true, (armIdle c base ch t hfnum (waitDisabled c ch w₀).2).2)
      else (false, (waitDisabled c ch w₀).2) := by
    cases ch with
    | control =>
      refine ⟨0#32, w, rfl, ?_⟩
      change (if (waitDisabled c .control w).1 then _ else _ : OnRegs κ Bool) _ = _
      split <;> rfl
    | video =>
      refine ⟨c.hfnum (w.tick c).state, w.tick c, rfl, ?_⟩
      change (if (waitDisabled c .video (w.tick c)).1 then _ else _ : OnRegs κ Bool) _ = _
      split <;> rfl
  obtain ⟨hfnum, w₀, hw₀, hrun⟩ := hrun
  obtain ⟨hlaunches, hidle⟩ := waitDisabled_run (c := c) ch w₀
  rw [hrun]
  split
  · rename_i hdone
    obtain ⟨l, hl, hafter⟩ :=
      armIdle_run base hc ht hfnum ⟨hidle hdone, rfl, hlaunches.trans hw₀⟩
    exact .inr ⟨rfl, l, hl, hafter⟩
  · exact .inl ⟨rfl, hlaunches.trans hw₀⟩

end

/-! ### Sequences of calls -/

/-- What the rest of the driver asks of the machine. -/
inductive HostCall where
  | arm (ch : Channel) (t : Transfer)
  | waitHalted (ch : Channel)
  | write (off : Nat) (src : List UInt8)
  | read (off len : Nat)
  | clean (off len : Nat)
  | invalidate (off len : Nat)
  deriving DecidableEq, Repr

section

variable {κ : Type} (c : Controller κ) (base : BitVec 32)

/-- A call: the transfer it has armed, if it has, and the world after it. -/
def HostCall.run (w : RegWorld κ) : HostCall → Option (Channel × Transfer) × RegWorld κ
  | .arm ch t =>
    let r := (regMachine c base).arm ch t w
    (if r.1 then some (ch, t) else none, r.2)
  | .waitHalted ch => (none, ((regMachine c base).waitHalted ch w).2)
  | .write off src => (none, (regMachine c base).write off src w)
  | .read off len => (none, ((regMachine c base).read off len w).2)
  | .clean off len => (none, (regMachine c base).clean off len w)
  | .invalidate off len => (none, (regMachine c base).invalidate off len w)

/-- Calls one after the other: the transfers that were armed, in order. -/
def runCalls (w : RegWorld κ) : List HostCall → List (Channel × Transfer) × RegWorld κ
  | [] => ([], w)
  | call :: calls =>
    let (armed, w) := call.run c base w
    let (later, w) := runCalls w calls
    (armed.toList ++ later, w)

variable {c base}

variable (base) in
theorem call_run (hc : Tame c) (w : RegWorld κ) {call : HostCall}
    (hfits : ∀ ch t, call = .arm ch t → t.Fits ch) :
    ∃ new, (call.run c base w).2.launches = w.launches ++ new ∧
      List.Forall₂ (fun l (x : Channel × Transfer) => Exact base l x.1 x.2) new
        (call.run c base w).1.toList := by
  cases call with
  | arm ch t =>
    obtain ⟨hno, hsame⟩ | ⟨hyes, l, hl, hafter⟩ := arm_run base hc (hfits ch t rfl) w
    · refine ⟨[], hsame.trans (List.append_nil _).symm, ?_⟩
      change List.Forall₂ _ _ (if (arm c base ch t w).1 then some (ch, t) else none).toList
      rw [hno]
      exact .nil
    · refine ⟨[l], hafter, ?_⟩
      change List.Forall₂ _ _ (if (arm c base ch t w).1 then some (ch, t) else none).toList
      rw [hyes]
      exact .cons hl .nil
  | waitHalted ch => exact ⟨[], (waitHalted_launches ch w).trans (List.append_nil _).symm, .nil⟩
  | _ => exact ⟨[], (List.append_nil _).symm, .nil⟩

/-- **The controller is started with exactly the transfers that were armed**, in their order,
whatever calls the driver makes and whatever the controller does in between. -/
theorem launches_exact (hc : Tame c) (w : RegWorld κ) {calls : List HostCall}
    (hfits : ∀ ch t, HostCall.arm ch t ∈ calls → t.Fits ch) :
    ∃ new, (runCalls c base w calls).2.launches = w.launches ++ new ∧
      List.Forall₂ (fun l (x : Channel × Transfer) => Exact base l x.1 x.2) new
        (runCalls c base w calls).1 := by
  induction calls generalizing w with
  | nil => exact ⟨[], (List.append_nil _).symm, .nil⟩
  | cons call calls ih =>
      obtain ⟨new, hnew, hexact⟩ := call_run base hc w fun ch t h =>
        hfits ch t (h ▸ List.mem_cons_self)
      obtain ⟨later, hlater, hexact'⟩ := ih (call.run c base w).2 fun ch t h =>
        hfits ch t (List.mem_cons_of_mem _ h)
      refine ⟨new ++ later, ?_, List.rel_append hexact hexact'⟩
      rw [← List.append_assoc, ← hnew]
      exact hlater

end

/-- A controller that completes every transfer before the next access. -/
def promptController : Controller Unit where
  progress _ regs := ((), fun ch =>
    if (regs ch).enabled then
      { regs ch with hcchar := (regs ch).hcchar &&& 0x7FFFFFFF#32, hcint := 3#32, hctsiz := 0#32 }
    else regs ch)
  hfnum _ := 6#32
  write _ _ k := k
  read _ len k := (List.replicate len 0, k)
  clean _ _ k := k
  invalidate _ _ k := k

/-- A channel that is still running, with every interrupt shown. -/
def dirtyRegs : ChannelRegs := ⟨0x80000000#32, 1#32, 0x7FF#32, 0#32, 0#32, 0#32⟩

def setupOut : Transfer := ⟨5, 0, 64, false, .setup, 8, 0⟩

def videoIn : Transfer := ⟨5, 1, 944, true, .data0, 944, 65536⟩

theorem launches_prompt :
    ∃ new, (runCalls promptController 0x8FF00000#32 ⟨(), fun _ => dirtyRegs, []⟩
        [.arm .control setupOut, .waitHalted .control, .arm .video videoIn]).2.launches =
          [] ++ new ∧
      List.Forall₂ (fun l (x : Channel × Transfer) => Exact 0x8FF00000#32 l x.1 x.2) new
        [(.control, setupOut), (.video, videoIn)] := by
  have hc : Tame promptController := fun k regs ch h => if_neg (Bool.eq_false_iff.mp h)
  have harmed : (runCalls promptController 0x8FF00000#32 ⟨(), fun _ => dirtyRegs, []⟩
      [.arm .control setupOut, .waitHalted .control, .arm .video videoIn]).1 =
      [(.control, setupOut), (.video, videoIn)] := by
    decide +kernel
  rw [← harmed]
  refine launches_exact hc ⟨(), fun _ => dirtyRegs, []⟩ fun ch t h => ?_
  simp only [List.mem_cons, HostCall.arm.injEq, reduceCtorEq, List.not_mem_nil, or_false,
    false_or] at h
  obtain ⟨rfl, rfl⟩ | ⟨rfl, rfl⟩ := h
  · exact ⟨by decide, by decide, by decide, by decide, by decide, fun _ => rfl, nofun⟩
  · exact ⟨by decide, by decide, by decide, by decide, by decide, nofun, fun _ => rfl⟩

end Cvirtos.Usb.Dwc2
