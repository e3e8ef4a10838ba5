import Cvirtos.Lib.Register
import Cvirtos.Lib.Transition
import Cvirtos.Usb.Hub

/-!
# The root port's register

`hprt0_port` and `port_reset_pulse` of `dwc2/controller.rs` and the operations of `RootHub` in
`drivers/usb/root.rs`, as programs over `HPRT0`.  Four bits of it are cleared by writing 1; `ENA` is
one of them.  The hardware may change the register before every access.

* `rootHub_portPower` and its siblings — the operations of `Hub.root` are these programs;
* `portFields_clear`, `connDetSet_clear_iff` — what the two kinds of write carry;
* `rootPort_clean_iff` — **a run of operations writes no foreign write-1-to-clear bit exactly when
  every `clear_connection_change` that writes finds `ENA`, `ENACHG` and `OVRCURCHG` at 0**.
-/

set_option autoImplicit false

namespace Cvirtos.Usb

open Cvirtos.Lib

namespace HPRT0

def CONNSTS : Field 32 := .bits 0 1
def CONNDET : Field 32 := .bits 1 1
def ENA : Field 32 := .bits 2 1
def ENACHG : Field 32 := .bits 3 1
def OVRCURCHG : Field 32 := .bits 5 1
def RST : Field 32 := .bits 8 1
def PWR : Field 32 := .bits 12 1
def SPD : Field 32 := .bits 17 2

/-- The bits a written 1 clears: `CONNDET`, `ENA`, `ENACHG` and `OVRCURCHG`. -/
def W1C : BitVec 32 := 0x2E#32

/-- The bits a write replaces: `RST` and `PWR`. -/
def RW : BitVec 32 := 0x1100#32

/-- What a write makes of the register. -/
def effect (old v : BitVec 32) : BitVec 32 :=
  ((old &&& ~~~RW) ||| (v &&& RW)) &&& ~~~(v &&& W1C)

end HPRT0

/-- `pwr as u32`. -/
def bit32 (b : Bool) : BitVec 32 := if b then 1#32 else 0#32

namespace Dwc2

/-- The field values of `hprt0_port`. -/
def portFields (pwr rst : Bool) : FieldValue 32 :=
  HPRT0.PWR.val (bit32 pwr) + HPRT0.RST.val (bit32 rst) + HPRT0.CONNDET.val 0#32 +
    HPRT0.ENA.val 0#32 + HPRT0.ENACHG.val 0#32 + HPRT0.OVRCURCHG.val 0#32

/-- `hprt0_port`. -/
def hprt0Port (pwr rst : Bool) : Prog 32 Unit := .modify (portFields pwr rst)

/-- `port_reset_pulse`; the delays are the hardware's. -/
def portResetPulse : Prog 32 Unit := do
  hprt0Port true true
  hprt0Port true false

end Dwc2

namespace RootHub

/-- `port_power`. -/
def portPower : Prog 32 Unit := Dwc2.hprt0Port true false

/-- `(p.read(HPRT0::SPD) as u16) & 3`. -/
def spd (reg : BitVec 32) : Fin 4 := Fin.ofNat 4 (HPRT0.SPD.read reg).toNat

/-- `port_status_w0`. -/
def portStatusW0 : Prog 32 UInt16 := do
  let conn ← Prog.isSet HPRT0.CONNSTS
  let ena ← Prog.isSet HPRT0.ENA
  let rst ← Prog.isSet HPRT0.RST
  let reg ← Prog.get
  return (if conn then W0_CONNECTION else 0) ||| (if ena then W0_ENABLE else 0) |||
    (if rst then W0_RESET else 0) ||| Hub.rootSpeed (spd reg) <<< 9

/-- `reset_port`. -/
def resetPort : Prog 32 Unit := Dwc2.portResetPulse

/-- `HPRT0::CONNDET::SET`. -/
def connDetSet : FieldValue 32 := HPRT0.CONNDET.val 1#32

/-- `clear_connection_change`. -/
def clearConnectionChange : Prog 32 Unit := do
  if ← Prog.isSet HPRT0.CONNDET then Prog.modify connDetSet else return ()

/-- `clear_reset_change`. -/
def clearResetChange : Prog 32 Unit := return ()

/-- The run of `clear_connection_change`: the register is read once to see whether there is a
change, and once more to clear it. -/
theorem run_clearConnectionChange {σ : Type} (hw : Hardware HPRT0.effect σ) (s : σ) :
    clearConnectionChange.run hw s =
      if HPRT0.CONNDET.isSet (hw.value (hw.tick s)) then
        (Prog.modify connDetSet).run hw (hw.tick s)
      else ⟨(), hw.tick s, []⟩ := by
  unfold clearConnectionChange
  rw [Prog.run_bind, Prog.run_isSet]
  cases HPRT0.CONNDET.isSet (hw.value (hw.tick s)) <;> rfl

end RootHub

/-! ## The root hub of the bus -/

section

variable {σ : Type} (hw : Hardware HPRT0.effect σ) (bus : Bus σ) (port : Nat)

/-- The fields the root hub reads, out of the register. -/
def Hprt0.ofRegister (reg : BitVec 32) : Hprt0 where
  connSts := HPRT0.CONNSTS.isSet reg
  connDet := HPRT0.CONNDET.isSet reg
  ena := HPRT0.ENA.isSet reg
  rst := HPRT0.RST.isSet reg
  spd := RootHub.spd reg

/-- A program over `HPRT0` as a part of a run over the bus. -/
def onPort {α : Type} (p : Prog 32 α) : Op σ α :=
  access fun b => ((p.run hw b).answer, (p.run hw b).state)

/-- A bus whose root port is the register. -/
def Bus.withPort : Bus σ :=
  { bus with
    hprt0 := fun b => (Hprt0.ofRegister (hw.value (hw.tick b)), hw.tick b)
    hprt0Power := fun b => ((Dwc2.hprt0Port true false).run hw b).state
    portResetPulse := fun b => (Dwc2.portResetPulse.run hw b).state
    clearConnDet := fun b => ((Prog.modify RootHub.connDetSet).run hw b).state }

theorem rootHub_portPower :
    Hub.root.portPower (bus.withPort hw) port = onPort hw RootHub.portPower := rfl

theorem rootHub_portStatusW0 :
    Hub.root.portStatusW0 (bus.withPort hw) port = onPort hw RootHub.portStatusW0 := rfl

theorem rootHub_resetPort :
    Hub.root.resetPort (bus.withPort hw) port = onPort hw RootHub.resetPort := rfl

theorem rootHub_clearConnectionChange :
    Hub.root.clearConnectionChange (bus.withPort hw) port =
      onPort hw RootHub.clearConnectionChange := by
  funext s
  have hroot : Hub.root.clearConnectionChange (bus.withPort hw) port s =
      (if HPRT0.CONNDET.isSet (hw.value (hw.tick s.bus)) then
        access fun b => ((), ((Prog.modify RootHub.connDetSet).run hw b).state)
      else pure () : Op σ Unit) { s with bus := hw.tick s.bus } := rfl
  have hprog : onPort hw RootHub.clearConnectionChange s =
      .ok () { s with bus := (RootHub.clearConnectionChange.run hw s.bus).state } := rfl
  rw [hroot, hprog, RootHub.run_clearConnectionChange]
  split <;> rfl

theorem rootHub_clearResetChange :
    Hub.root.clearResetChange (bus.withPort hw) port = onPort hw RootHub.clearResetChange := rfl

end

/-! ## What a run writes -/

theorem isSet_connDet (reg : BitVec 32) : HPRT0.CONNDET.isSet reg = reg.getLsbD 1 :=
  Field.isSet_bits_one (by decide) reg

theorem isSet_ena (reg : BitVec 32) : HPRT0.ENA.isSet reg = reg.getLsbD 2 :=
  Field.isSet_bits_one (by decide) reg

theorem isSet_enaChg (reg : BitVec 32) : HPRT0.ENACHG.isSet reg = reg.getLsbD 3 :=
  Field.isSet_bits_one (by decide) reg

theorem isSet_ovrCurChg (reg : BitVec 32) : HPRT0.OVRCURCHG.isSet reg = reg.getLsbD 5 :=
  Field.isSet_bits_one (by decide) reg

/-- A bit that a write has no 1 for keeps its value. -/
theorem HPRT0.effect_keeps {old v : BitVec 32} {i : Nat} (hrw : HPRT0.RW.getLsbD i = false)
    (hv : v.getLsbD i = false) : (HPRT0.effect old v).getLsbD i = old.getLsbD i := by
  by_cases hi : i < 32
  · simp only [HPRT0.effect, BitVec.getLsbD_and, BitVec.getLsbD_or, BitVec.getLsbD_not, hrw, hv, hi]
    simp
  · rw [BitVec.getLsbD_of_ge _ i (Nat.le_of_not_lt hi), BitVec.getLsbD_of_ge _ i (Nat.le_of_not_lt hi)]

/-- `ENA`, `ENACHG` and `OVRCURCHG` are 0. -/
structure ForeignClear (reg : BitVec 32) : Prop where
  ena : HPRT0.ENA.isSet reg = false
  enaChg : HPRT0.ENACHG.isSet reg = false
  ovrCurChg : HPRT0.OVRCURCHG.isSet reg = false

/-- `hprt0_port` writes every write-1-to-clear bit as 0, whatever it reads. -/
theorem portFields_clear (pwr rst : Bool) (old : BitVec 32) :
    ForeignClear ((Dwc2.portFields pwr rst).modify old) ∧
      HPRT0.CONNDET.isSet ((Dwc2.portFields pwr rst).modify old) = false := by
  have hmask : (Dwc2.portFields pwr rst).mask = 0x112E#32 := by cases pwr <;> cases rst <;> decide
  have hzero : ∀ i, (i = 1 ∨ i = 2 ∨ i = 3 ∨ i = 5) →
      ((Dwc2.portFields pwr rst).modify old).getLsbD i = false := by
    intro i hi
    rw [FieldValue.modify_given _ (by rcases hi with rfl | rfl | rfl | rfl <;> rw [hmask] <;> rfl)]
    rcases hi with rfl | rfl | rfl | rfl <;> cases pwr <;> cases rst <;> rfl
  refine ⟨⟨?_, ?_, ?_⟩, ?_⟩
  · rw [isSet_ena]
    exact hzero 2 (by simp)
  · rw [isSet_enaChg]
    exact hzero 3 (by simp)
  · rw [isSet_ovrCurChg]
    exact hzero 5 (by simp)
  · rw [isSet_connDet]
    exact hzero 1 (by simp)

/-- `CONNDET` written back leaves the foreign bits as they were read. -/
theorem connDetSet_clear_iff (old : BitVec 32) :
    ForeignClear (RootHub.connDetSet.modify old) ↔ ForeignClear old := by
  have hmask : RootHub.connDetSet.mask = 2#32 := rfl
  have hkeep : ∀ i, (i = 2 ∨ i = 3 ∨ i = 5) →
      (RootHub.connDetSet.modify old).getLsbD i = old.getLsbD i := by
    intro i hi
    exact FieldValue.modify_kept _ (by rcases hi with rfl | rfl | rfl <;> rw [hmask] <;> rfl) old
  have hena : HPRT0.ENA.isSet (RootHub.connDetSet.modify old) = HPRT0.ENA.isSet old := by
    rw [isSet_ena, isSet_ena, hkeep 2 (by simp)]
  have henaChg : HPRT0.ENACHG.isSet (RootHub.connDetSet.modify old) = HPRT0.ENACHG.isSet old := by
    rw [isSet_enaChg, isSet_enaChg, hkeep 3 (by simp)]
  have hovr : HPRT0.OVRCURCHG.isSet (RootHub.connDetSet.modify old) =
      HPRT0.OVRCURCHG.isSet old := by
    rw [isSet_ovrCurChg, isSet_ovrCurChg, hkeep 5 (by simp)]
  constructor
  · intro h
    exact ⟨hena ▸ h.ena, henaChg ▸ h.enaChg, hovr ▸ h.ovrCurChg⟩
  · intro h
    exact ⟨hena.trans h.ena, henaChg.trans h.enaChg, hovr.trans h.ovrCurChg⟩

/-! ## Runs of the root hub's operations -/

/-- The operations of `RootHub`. -/
inductive RootOp where
  | portPower
  | resetPort
  | clearConnectionChange
  | clearResetChange
  | portStatusW0
  deriving DecidableEq, Repr

namespace RootOp

def prog : RootOp → Prog 32 Unit
  | .portPower => RootHub.portPower
  | .resetPort => RootHub.resetPort
  | .clearConnectionChange => RootHub.clearConnectionChange
  | .clearResetChange => RootHub.clearResetChange
  | .portStatusW0 => do
    let _ ← RootHub.portStatusW0
    return ()

/-- A write of the operation that clears nothing but what it is for. -/
structure Clean (op : RootOp) (wr : Write 32) : Prop where
  foreign : ForeignClear wr.written
  connDet : HPRT0.CONNDET.isSet wr.written = true → op = .clearConnectionChange
  /-- No operation but the reset pulse disables an enabled port. -/
  enabled : op ≠ .resetPort → HPRT0.ENA.isSet wr.before = true → HPRT0.ENA.isSet wr.after = true
  /-- No pending enable change is lost. -/
  enaChg : HPRT0.ENACHG.isSet wr.before = true → HPRT0.ENACHG.isSet wr.after = true
  /-- No pending over-current change is lost. -/
  ovrCurChg : HPRT0.OVRCURCHG.isSet wr.before = true → HPRT0.OVRCURCHG.isSet wr.after = true

/-- A write without foreign bits is clean. -/
theorem clean_of_foreign {op : RootOp} {wr : Write 32}
    (hafter : wr.after = HPRT0.effect wr.before wr.written) (hforeign : ForeignClear wr.written)
    (hdet : HPRT0.CONNDET.isSet wr.written = true → op = .clearConnectionChange) :
    Clean op wr := by
  have hena := hforeign.ena
  have henaChg := hforeign.enaChg
  have hovr := hforeign.ovrCurChg
  rw [isSet_ena] at hena
  rw [isSet_enaChg] at henaChg
  rw [isSet_ovrCurChg] at hovr
  refine ⟨hforeign, hdet, fun _ => ?_, ?_, ?_⟩
  · rw [hafter, isSet_ena, isSet_ena, HPRT0.effect_keeps rfl hena]
    exact id
  · rw [hafter, isSet_enaChg, isSet_enaChg, HPRT0.effect_keeps rfl henaChg]
    exact id
  · rw [hafter, isSet_ovrCurChg, isSet_ovrCurChg, HPRT0.effect_keeps rfl hovr]
    exact id

variable {σ : Type} (hw : Hardware HPRT0.effect σ)

/-- One operation of a run. -/
def step (s : σ) (op : RootOp) : Option σ := some (op.prog.run hw s).state

/-- Every write of the operation is clean. -/
def CleanStep (s : σ) (op : RootOp) : Prop := ∀ wr ∈ (op.prog.run hw s).writes, Clean op wr

/-- A `clear_connection_change` that finds a change to clear finds the foreign bits at 0 when it
reads the register again. -/
def Quiet (s : σ) (op : RootOp) : Prop :=
  op = .clearConnectionChange → HPRT0.CONNDET.isSet (hw.value (hw.tick s)) = true →
    ForeignClear (hw.value (hw.tick (hw.tick s)))

/-- A run of writes of `hprt0_port` is clean. -/
theorem clean_hprt0Port (op : RootOp) (pwr rst : Bool) (s : σ) :
    ∀ wr ∈ ((Dwc2.hprt0Port pwr rst).run hw s).writes, Clean op wr := by
  intro wr hwr
  have hafter := Prog.after_eq hw s _ wr hwr
  obtain ⟨hforeign, hdet⟩ := portFields_clear pwr rst (hw.value (hw.tick s))
  cases List.mem_singleton.mp hwr
  refine clean_of_foreign hafter hforeign fun h => ?_
  rw [hdet] at h
  cases h

/-- **One operation.** -/
theorem cleanStep_iff (s : σ) (op : RootOp) : CleanStep hw s op ↔ Quiet hw s op := by
  cases op with
  | portPower =>
      refine iff_of_true ?_ (fun h => nomatch h)
      exact clean_hprt0Port hw _ true false s
  | resetPort =>
      refine iff_of_true ?_ (fun h => nomatch h)
      intro wr hwr
      have hruns : ((resetPort).prog.run hw s).writes =
          ((Dwc2.hprt0Port true true).run hw s).writes ++
            ((Dwc2.hprt0Port true false).run hw ((Dwc2.hprt0Port true true).run hw s).state).writes :=
        rfl
      rw [hruns, List.mem_append] at hwr
      rcases hwr with hwr | hwr
      · exact clean_hprt0Port hw _ true true s wr hwr
      · exact clean_hprt0Port hw _ true false _ wr hwr
  | clearResetChange =>
      exact iff_of_true (fun wr hwr => nomatch hwr) (fun h => nomatch h)
  | portStatusW0 =>
      exact iff_of_true (fun wr hwr => nomatch hwr) (fun h => nomatch h)
  | clearConnectionChange =>
      have hruns : (prog .clearConnectionChange).run hw s =
          if HPRT0.CONNDET.isSet (hw.value (hw.tick s)) then
            (Prog.modify RootHub.connDetSet).run hw (hw.tick s)
          else ⟨(), hw.tick s, []⟩ := RootHub.run_clearConnectionChange hw s
      unfold CleanStep Quiet
      rw [hruns]
      cases hdet : HPRT0.CONNDET.isSet (hw.value (hw.tick s))
      · exact iff_of_true (fun wr hwr => nomatch hwr) (fun _ h => nomatch h)
      · rw [if_pos rfl]
        constructor
        · intro h _ _
          exact (connDetSet_clear_iff _).mp (h _ (List.mem_singleton.mpr rfl)).foreign
        · intro h wr hwr
          have hafter := Prog.after_eq hw (hw.tick s) _ wr hwr
          cases List.mem_singleton.mp hwr
          exact clean_of_foreign hafter ((connDetSet_clear_iff _).mpr (h rfl rfl)) fun _ => rfl

end RootOp

/-- **A run clears no foreign bit exactly when it is quiet.** -/
theorem rootPort_clean_iff {σ : Type} (hw : Hardware HPRT0.effect σ) (s : σ) (ops : List RootOp) :
    AllSteps (RootOp.step hw) (RootOp.CleanStep hw) s ops ↔
      AllSteps (RootOp.step hw) (RootOp.Quiet hw) s ops :=
  allSteps_congr (fun s op _ => RootOp.cleanStep_iff hw s op) (fun _ _ => trivial)

/-- A register the hardware does not change on its own. -/
def stillPort : Hardware HPRT0.effect (BitVec 32) where
  value := id
  tick := id
  store := HPRT0.effect
  value_store := fun _ _ => rfl

/-- Connected, powered and enabled, with a connection change pending: clearing the change disables
the port. -/
theorem clear_writes_foreign :
    ¬ ∀ (σ : Type) (hw : Hardware HPRT0.effect σ) (s : σ) (ops : List RootOp),
      AllSteps (RootOp.step hw) (RootOp.CleanStep hw) s ops := by
  intro h
  have hstep := (h _ stillPort 0x1007#32 [.clearConnectionChange]).1
  have hena := (hstep ⟨0x1007#32, 0x1007#32, 0x1001#32⟩ (by decide)).foreign.ena
  revert hena
  decide

end Cvirtos.Usb
