import Cvirtos.Lib.Register
import Cvirtos.Lib.Transition

/-!
# Output pins

`drivers/gpio.rs` and `enable_usb_vbus_gpio` of `platform.rs`.  The data and the direction register
of a bank have one layout, a single field over all 32 pins.

* `modify_val` — **a modify of that field replaces the register**: nothing of the old value is kept;
* `enableUsbVbusGpio_kept_iff` — what that means for the bring-up of the bus supply;
* `pins_local_iff` — a run of pin operations touches no foreign pin exactly when each of them finds
  the foreign bits of the register it writes at 0.
-/

set_option autoImplicit false

namespace Cvirtos.Gpio

open Cvirtos.Lib

/-- `PIN::VAL OFFSET(0) NUMBITS(32)`. -/
def PIN.VAL : Field 32 := .bits 0 32

structure GpioRegs where
  dr : BitVec 32
  ddr : BitVec 32
  deriving DecidableEq, Repr

structure Pin where
  num : UInt8
  deriving DecidableEq, Repr

namespace Pin

/-- `1u32 << self.num`; a release build takes the count modulo 32. -/
def bit (pin : Pin) : BitVec 32 := 1#32 <<< (pin.num.toNat % 32)

/-- `set_output_direction`. -/
def setOutputDirection (pin : Pin) (regs : GpioRegs) : GpioRegs :=
  { regs with ddr := (PIN.VAL.val pin.bit).modify regs.ddr }

/-- `set`. -/
def set (pin : Pin) (high : Bool) (regs : GpioRegs) : GpioRegs :=
  { regs with dr := (PIN.VAL.val (if high then pin.bit else 0#32)).modify regs.dr }

end Pin

def VBUS_GPIO_PIN : UInt8 := 6
def VBUS_GPIO_ACTIVE_HIGH : Bool := true

/-- `enable_usb_vbus_gpio`. -/
def enableUsbVbusGpio (regs : GpioRegs) : GpioRegs :=
  let pin : Pin := ⟨VBUS_GPIO_PIN⟩
  pin.set VBUS_GPIO_ACTIVE_HIGH (pin.setOutputDirection regs)

/-- **The field is the whole register: its new value is all a modify leaves.** -/
@[simp]
theorem modify_val (v old : BitVec 32) : (PIN.VAL.val v).modify old = v := by
  have hmask : PIN.VAL.mask <<< PIN.VAL.shift = BitVec.allOnes 32 := by decide
  apply BitVec.eq_of_getLsbD_eq
  intro i hi
  have hgiven : (PIN.VAL.val v).mask.getLsbD i = true := by
    rw [FieldValue.mask_val, hmask, BitVec.getLsbD_allOnes, decide_eq_true hi]
  have hval : (PIN.VAL.val v).value = v := by
    have hall : PIN.VAL.mask = BitVec.allOnes 32 := by decide
    have hshift : PIN.VAL.shift = 0 := rfl
    rw [FieldValue.value_val, hall, hshift, BitVec.and_allOnes, BitVec.shiftLeft_zero]
  rw [FieldValue.modify_given _ hgiven, hval]

theorem Pin.getLsbD_bit {pin : Pin} (hpin : pin.num < 32) {i : Nat} (hi : i < 32) :
    pin.bit.getLsbD i = decide (i = pin.num.toNat) := by
  have hn : pin.num.toNat < 32 := UInt8.lt_iff_toNat_lt.mp hpin
  unfold Pin.bit
  rw [Nat.mod_eq_of_lt hn, BitVec.getLsbD_shiftLeft, BitVec.getLsbD_one]
  rw [Bool.eq_iff_iff]
  simp only [hi, decide_true, Bool.true_and, Bool.and_eq_true, Bool.not_eq_true', decide_eq_true_eq,
    decide_eq_false_iff_not]
  omega

/-- What a bring-up of the bus supply leaves in the two registers, whatever they held. -/
theorem enableUsbVbusGpio_eq (regs : GpioRegs) :
    enableUsbVbusGpio regs = ⟨Pin.bit ⟨VBUS_GPIO_PIN⟩, Pin.bit ⟨VBUS_GPIO_PIN⟩⟩ := by
  simp [enableUsbVbusGpio, Pin.set, Pin.setOutputDirection, VBUS_GPIO_ACTIVE_HIGH]

/-- **The bring-up keeps the other pins exactly when all of them were at 0.** -/
theorem enableUsbVbusGpio_kept_iff (regs : GpioRegs) :
    (∀ i < 32, i ≠ VBUS_GPIO_PIN.toNat →
        (enableUsbVbusGpio regs).dr.getLsbD i = regs.dr.getLsbD i ∧
          (enableUsbVbusGpio regs).ddr.getLsbD i = regs.ddr.getLsbD i) ↔
      ∀ i < 32, i ≠ VBUS_GPIO_PIN.toNat →
        regs.dr.getLsbD i = false ∧ regs.ddr.getLsbD i = false := by
  have hbit : ∀ i < 32, i ≠ VBUS_GPIO_PIN.toNat → (Pin.bit ⟨VBUS_GPIO_PIN⟩).getLsbD i = false := by
    intro i hi hne
    rw [Pin.getLsbD_bit (by decide) hi]
    exact decide_eq_false hne
  refine forall₃_congr fun i hi hne => ?_
  rw [enableUsbVbusGpio_eq]
  dsimp only
  rw [hbit i hi hne]
  exact and_congr eq_comm eq_comm

/-! ## Runs over a bank -/

/-- An operation on a pin of the bank. -/
inductive PinOp where
  | setOutputDirection (pin : Pin)
  | set (pin : Pin) (high : Bool)
  deriving DecidableEq, Repr

namespace PinOp

def pin : PinOp → Pin
  | .setOutputDirection pin => pin
  | .set pin _ => pin

def apply : PinOp → GpioRegs → GpioRegs
  | .setOutputDirection pin, regs => pin.setOutputDirection regs
  | .set pin high, regs => pin.set high regs

/-- The register an operation writes. -/
def target : PinOp → GpioRegs → BitVec 32
  | .setOutputDirection _, regs => regs.ddr
  | .set _ _, regs => regs.dr

/-- The level an operation asks its bit to have. -/
def level : PinOp → Bool
  | .setOutputDirection _ => true
  | .set _ high => high

/-- The operation changes its own pin only, and gives it the level asked for. -/
structure Local (regs : GpioRegs) (op : PinOp) : Prop where
  dr : ∀ i < 32, i ≠ op.pin.num.toNat → (op.apply regs).dr.getLsbD i = regs.dr.getLsbD i
  ddr : ∀ i < 32, i ≠ op.pin.num.toNat → (op.apply regs).ddr.getLsbD i = regs.ddr.getLsbD i
  own : (op.target (op.apply regs)).getLsbD op.pin.num.toNat = op.level

/-- No foreign bit of the register the operation writes is set. -/
def Alone (regs : GpioRegs) (op : PinOp) : Prop :=
  ∀ i < 32, i ≠ op.pin.num.toNat → (op.target regs).getLsbD i = false

instance (regs : GpioRegs) (op : PinOp) : Decidable (Alone regs op) :=
  inferInstanceAs (Decidable (∀ i < 32, _))

/-- What an operation leaves in the register it writes: its own bit, at its level. -/
theorem getLsbD_target (op : PinOp) (hpin : op.pin.num < 32) (regs : GpioRegs) {i : Nat}
    (hi : i < 32) :
    (op.target (op.apply regs)).getLsbD i = (op.level && decide (i = op.pin.num.toNat)) := by
  cases op with
  | setOutputDirection pin =>
      have hbit := Pin.getLsbD_bit hpin hi
      simp only [target, apply, Pin.setOutputDirection, modify_val, level, Bool.true_and]
      exact hbit
  | set pin high =>
      have hbit := Pin.getLsbD_bit hpin hi
      simp only [target, apply, Pin.set, modify_val, level]
      cases high
      · simp
      · exact hbit

/-- One operation. -/
theorem local_iff (op : PinOp) (hpin : op.pin.num < 32) (regs : GpioRegs) :
    Local regs op ↔ Alone regs op := by
  have hn : op.pin.num.toNat < 32 := UInt8.lt_iff_toNat_lt.mp hpin
  have hforeign : ∀ i < 32, i ≠ op.pin.num.toNat →
      (op.target (op.apply regs)).getLsbD i = false := by
    intro i hi hne
    rw [getLsbD_target op hpin regs hi]
    simp [hne]
  have hown : (op.target (op.apply regs)).getLsbD op.pin.num.toNat = op.level := by
    rw [getLsbD_target op hpin regs hn]
    simp
  constructor
  · intro h i hi hne
    rw [← hforeign i hi hne]
    cases op with
    | setOutputDirection pin => exact (h.ddr i hi hne).symm
    | set pin high => exact (h.dr i hi hne).symm
  · intro h
    have hkept : ∀ i < 32, i ≠ op.pin.num.toNat →
        (op.target (op.apply regs)).getLsbD i = (op.target regs).getLsbD i := by
      intro i hi hne
      rw [hforeign i hi hne, h i hi hne]
    cases op with
    | setOutputDirection pin => exact ⟨fun _ _ _ => rfl, hkept, hown⟩
    | set pin high => exact ⟨hkept, fun _ _ _ => rfl, hown⟩

/-- The run of the operations over the bank. -/
def step (regs : GpioRegs) (op : PinOp) : Option GpioRegs := some (op.apply regs)

end PinOp

/-- **A run touches no foreign pin exactly when every operation finds the foreign bits of the
register it writes at 0.** -/
theorem pins_local_iff (regs : GpioRegs) (ops : List PinOp) (hpins : ∀ op ∈ ops, op.pin.num < 32) :
    AllSteps PinOp.step PinOp.Local regs ops ↔ AllSteps PinOp.step PinOp.Alone regs ops :=
  allSteps_congr (fun regs op hop => op.local_iff hop regs) hpins

/-- The bus supply's pin on a bank at rest. -/
theorem pins_local_iff_vbus :
    (∀ op ∈ [PinOp.setOutputDirection ⟨6⟩, .set ⟨6⟩ true], op.pin.num < 32) ∧
      AllSteps PinOp.step PinOp.Local ⟨0, 0⟩ [.setOutputDirection ⟨6⟩, .set ⟨6⟩ true] := by
  have hpins : ∀ op ∈ [PinOp.setOutputDirection ⟨6⟩, .set ⟨6⟩ true], op.pin.num < 32 := by decide
  exact ⟨hpins, (pins_local_iff _ _ hpins).mpr (by decide)⟩

/-- Pin 1 drives 1; raising pin 6 drops it. -/
theorem set_clears_foreign :
    ¬ ∀ (regs : GpioRegs) (ops : List PinOp), (∀ op ∈ ops, op.pin.num < 32) →
      AllSteps PinOp.step PinOp.Local regs ops := by
  intro h
  have hset := (h ⟨2#32, 2#32⟩ [.set ⟨6⟩ true] (by decide)).1.dr 1 (by decide) (by decide)
  revert hset
  decide

end Cvirtos.Gpio
