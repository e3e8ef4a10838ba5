import Cvirtos.Lib.LittleEndian
import Cvirtos.Usb.Uvc.DescriptorSafety

/-!
# The control entities

What `parse_uvc_control_entities` returns, in terms of the VideoControl interfaces a configuration
declares and of the camera terminals and processing units in them.  The interface number and the two
entities are overwritten apart, so they go together exactly when the descriptors make them.

* `bmControls_eq` — a bitmap is the little-endian number of its bytes;
* `parseUvcControlEntities_eq` — **the last interface, the last terminal and the last unit**;
* `entitiesBelong_iff` — when the entities returned are those of the interface returned;
* `entitiesBelong_single` — a camera with one VideoControl interface.
-/

set_option autoImplicit false

namespace Cvirtos.Usb.Uvc

open Cvirtos.Lib Cvirtos.Usb.Dwc2

/-! ### Bitmaps -/

/-- `count` bytes of the descriptor from `off` on, as a number. -/
def Desc.number (d : Desc) (off count : Nat) : Nat :=
  littleEndian ((List.range count).map fun k => d.byte (off + k))

/-- The bitmap behind a `bControlSize` at `sizeOff`: its first four bytes at most, as far as they
lie in the descriptor. -/
def Desc.controls (d : Desc) (sizeOff : Nat) : UInt32 :=
  .ofNat (d.number (sizeOff + 1) (min (min (d.byte sizeOff).toNat 4) (d.len - (sizeOff + 1))))

variable {d : Desc}

theorem Desc.number_succ (d : Desc) (off count : Nat) :
    d.number off (count + 1) = d.number off count + 256 ^ count * (d.byte (off + count)).toNat := by
  unfold Desc.number
  rw [List.range_succ, List.map_append, List.map_singleton, littleEndian_concat, List.length_map,
    List.length_range]

theorem Desc.number_lt (d : Desc) (off count : Nat) : d.number off count < 256 ^ count := by
  have h := littleEndian_lt ((List.range count).map fun k => d.byte (off + k))
  rw [List.length_map, List.length_range] at h
  exact h

/-- One more byte is put in above the others. -/
theorem or_byte {n k : Nat} (b : UInt8) (hk : k < 4) (hn : n < 256 ^ k) :
    UInt32.ofNat n ||| b.toUInt32 <<< UInt32.ofNat (8 * k) = UInt32.ofNat (n + 256 ^ k * b.toNat) := by
  have hpow : 256 ^ k = 2 ^ (8 * k) := by rw [Nat.pow_mul]
  rw [hpow] at hn ⊢
  have hlast : 2 ^ (8 * k) ≤ 2 ^ 24 := Nat.pow_le_pow_right (by decide) (by omega)
  have hroom : 2 ^ (8 * k) * b.toNat + 2 ^ (8 * k) ≤ 2 ^ 32 := by
    rw [← Nat.mul_succ]
    calc 2 ^ (8 * k) * (b.toNat + 1) ≤ 2 ^ 24 * 2 ^ 8 := Nat.mul_le_mul hlast b.toNat_lt
      _ = 2 ^ 32 := rfl
  have hshift : b.toNat <<< (8 * k) = 2 ^ (8 * k) * b.toNat := by
    rw [Nat.shiftLeft_eq, Nat.mul_comm]
  apply UInt32.toNat_inj.mp
  rw [UInt32.toNat_or, UInt32.toNat_shiftLeft, UInt32.toNat_ofNat', UInt32.toNat_ofNat',
    UInt32.toNat_ofNat', UInt8.toNat_toUInt32, Nat.mod_eq_of_lt (show n < 2 ^ 32 by omega),
    Nat.mod_eq_of_lt (show 8 * k < 2 ^ 32 by omega), Nat.mod_eq_of_lt (show 8 * k < 32 by omega),
    hshift, Nat.mod_eq_of_lt (show 2 ^ (8 * k) * b.toNat < 2 ^ 32 by omega),
    Nat.mod_eq_of_lt (show n + 2 ^ (8 * k) * b.toNat < 2 ^ 32 by omega), Nat.or_comm,
    ← Nat.two_pow_add_eq_or_of_lt hn, Nat.add_comm]

/-- **A bitmap is the little-endian number of its bytes.** -/
theorem bmControls_eq (hd : d.Within) (off cmax : Nat) (hmax : cmax ≤ 4) (hfit : off + cmax ≤ d.len) :
    bmControls d off cmax = .ok (.ofNat (d.number off cmax)) := by
  unfold bmControls
  refine forRange_eq (fun k => UInt32.ofNat (d.number off k)) fun k hk => ?_
  rw [hd.u8, if_pos (show off + k < d.len by omega), d.number_succ]
  exact congrArg Except.ok (or_byte _ (by omega) (d.number_lt off k))

/-! ### Declarations -/

/-- The scan is in a VideoControl interface. -/
def Ctx.isVc (c : Ctx) : Prop :=
  c.curIfcClass = USB_CLASS_VIDEO ∧ c.curIfcSub = USB_SUBCLASS_VIDEO_CONTROL

instance (c : Ctx) : Decidable c.isVc := inferInstanceAs (Decidable (_ ∧ _))

/-- An interface descriptor of a VideoControl interface. -/
def IsVcInterface (d : Desc) : Prop :=
  (d.byte 1 = USB_DT_INTERFACE ∧ 9 ≤ d.len) ∧
    d.byte 5 = USB_CLASS_VIDEO ∧ d.byte 6 = USB_SUBCLASS_VIDEO_CONTROL

instance (d : Desc) : Decidable (IsVcInterface d) := inferInstanceAs (Decidable (_ ∧ _))

/-- A camera terminal of a VideoControl interface. -/
def IsCameraTerminal (p : Place) (d : Desc) : Prop :=
  d.byte 1 = CS_INTERFACE ∧ p.ctx.isVc ∧ 15 ≤ d.len ∧ d.byte 2 = VC_INPUT_TERMINAL ∧
    d.half 4 = ITT_CAMERA

instance (p : Place) (d : Desc) : Decidable (IsCameraTerminal p d) :=
  inferInstanceAs (Decidable (_ ∧ _))

/-- A processing unit of a VideoControl interface. -/
def IsProcessingUnit (p : Place) (d : Desc) : Prop :=
  d.byte 1 = CS_INTERFACE ∧ p.ctx.isVc ∧ 9 ≤ d.len ∧ d.byte 2 = VC_PROCESSING_UNIT

instance (p : Place) (d : Desc) : Decidable (IsProcessingUnit p d) :=
  inferInstanceAs (Decidable (_ ∧ _))

/-- An entity as declared: its interface, its id and its bitmap. -/
structure EntityDecl where
  ifc : UInt8
  id : UInt8
  controls : UInt32
  deriving DecidableEq, Repr

def vcInterfaces (xs : List (Place × Desc)) : List UInt8 :=
  xs.filterMap fun x => if IsVcInterface x.2 then some (x.2.byte 2) else none

def cameraTerminals (xs : List (Place × Desc)) : List EntityDecl :=
  xs.filterMap fun x =>
    if IsCameraTerminal x.1 x.2 then some ⟨x.1.ctx.curIfcNum, x.2.byte 3, x.2.controls 14⟩ else none

def processingUnits (xs : List (Place × Desc)) : List EntityDecl :=
  xs.filterMap fun x =>
    if IsProcessingUnit x.1 x.2 then some ⟨x.1.ctx.curIfcNum, x.2.byte 3, x.2.controls 7⟩ else none

theorem vcInterfaces_cons (x : Place × Desc) (xs : List (Place × Desc)) :
    vcInterfaces (x :: xs) = vcInterfaces [x] ++ vcInterfaces xs := List.filterMap_append (l := [x])

theorem cameraTerminals_cons (x : Place × Desc) (xs : List (Place × Desc)) :
    cameraTerminals (x :: xs) = cameraTerminals [x] ++ cameraTerminals xs :=
  List.filterMap_append (l := [x])

theorem processingUnits_cons (x : Place × Desc) (xs : List (Place × Desc)) :
    processingUnits (x :: xs) = processingUnits [x] ++ processingUnits xs :=
  List.filterMap_append (l := [x])

/-! ### The scan -/

/-- What the scan holds of a kind of entity: the last one declared. -/
structure Latest (es : List EntityDecl) (id : Option UInt8) (controls : UInt32) : Prop where
  id : id = es.getLast?.map EntityDecl.id
  controls : controls = (es.getLast?.map EntityDecl.controls).getD 0

/-- What the scan holds at `p`, past the interfaces `is`, the terminals `ts` and the units `us`. -/
structure VcInv (p : Place) (is : List UInt8) (ts us : List EntityDecl) (s : VcState) : Prop where
  curIfcClass : s.curIfcClass = p.ctx.curIfcClass
  curIfcSub : s.curIfcSub = p.ctx.curIfcSub
  found : s.foundVc = !is.isEmpty
  vcInterface : s.out.vcInterface = is.getLast?.getD 0
  terminal : Latest ts s.out.cameraTerminalId s.out.ctControls
  unit : Latest us s.out.processingUnitId s.out.puControls

theorem VcInv.new : VcInv .new [] [] [] .new where
  curIfcClass := rfl
  curIfcSub := rfl
  found := rfl
  vcInterface := rfl
  terminal := ⟨rfl, rfl⟩
  unit := ⟨rfl, rfl⟩

theorem Latest.concat (es : List EntityDecl) (e : EntityDecl) :
    Latest (es ++ [e]) (some e.id) e.controls := by
  constructor <;> simp

variable {p : Place} {s : VcState} {is : List UInt8} {ts us : List EntityDecl}

/-- Only an interface descriptor moves the scan to another interface. -/
theorem next_isVc (hif : ¬ (d.byte 1 = USB_DT_INTERFACE ∧ 9 ≤ d.len)) :
    (p.next d).ctx.curIfcClass = p.ctx.curIfcClass ∧ (p.next d).ctx.curIfcSub = p.ctx.curIfcSub := by
  unfold Place.next
  rw [if_neg hif]
  split <;> exact ⟨rfl, rfl⟩

/-- A turn on an interface descriptor. -/
theorem vcStep_interface (hd : d.Within) (hif : d.byte 1 = USB_DT_INTERFACE ∧ 9 ≤ d.len) :
    vcStep d s = .ok (if IsVcInterface d then
        { s with curIfcClass := d.byte 5, curIfcSub := d.byte 6,
                 out := { s.out with vcInterface := d.byte 2 }, foundVc := true }
      else { s with curIfcClass := d.byte 5, curIfcSub := d.byte 6 }) := by
  have hlen := hif.2
  unfold vcStep
  rw [hd.ty]
  change (if d.byte 1 = USB_DT_INTERFACE ∧ d.len ≥ 9 then _ else _) = _
  rw [if_pos hif, hd.u8Or, hd.u8Or, hd.u8Or, if_pos (show 2 < d.len by omega),
    if_pos (show 5 < d.len by omega), if_pos (show 6 < d.len by omega)]
  change (if d.byte 5 = USB_CLASS_VIDEO ∧ d.byte 6 = USB_SUBCLASS_VIDEO_CONTROL then _ else _) = _
  by_cases hvc : d.byte 5 = USB_CLASS_VIDEO ∧ d.byte 6 = USB_SUBCLASS_VIDEO_CONTROL
  · rw [if_pos hvc, if_pos (show IsVcInterface d from ⟨hif, hvc⟩)]
    rfl
  · rw [if_neg hvc, if_neg (show ¬ IsVcInterface d from fun h => hvc h.2)]
    rfl

theorem inputTerminal_eq (hd : d.Within) (hlen : 15 ≤ d.len) :
    s.inputTerminal d = .ok (if d.half 4 = ITT_CAMERA then
        { s with out := { s.out with
            cameraTerminalId := some (d.byte 3), ctControls := d.controls 14 } }
      else s) := by
  unfold VcState.inputTerminal
  rw [hd.u8Or, hd.u16le, hd.u8Or, if_pos (show 3 < d.len by omega),
    if_pos (show 4 + 2 ≤ d.len by omega), if_pos (show 14 < d.len by omega)]
  change (if d.half 4 = ITT_CAMERA then _ else _) = _
  by_cases htt : d.half 4 = ITT_CAMERA
  · have hbm := bmControls_eq hd 15 (min (min (d.byte 14).toNat (d.len - 15)) 4)
      (by omega) (by omega)
    rw [if_pos htt, if_pos htt]
    change (bmControls d 15 (min (min (d.byte 14).toNat (d.len - 15)) 4)).bind _ = _
    rw [hbm, Nat.min_right_comm]
    rfl
  · rw [if_neg htt, if_neg htt]
    rfl

theorem processingUnit_eq (hd : d.Within) (hlen : 9 ≤ d.len) :
    s.processingUnit d = .ok { s with out := { s.out with
      processingUnitId := some (d.byte 3), puControls := d.controls 7 } } := by
  have hbm := bmControls_eq hd 8 (min (min (d.byte 7).toNat (d.len - 8)) 4) (by omega) (by omega)
  unfold VcState.processingUnit
  rw [hd.u8Or, hd.u8Or, if_pos (show 3 < d.len by omega), if_pos (show 7 < d.len by omega)]
  change (bmControls d 8 (min (min (d.byte 7).toNat (d.len - 8)) 4)).bind _ = _
  rw [hbm, Nat.min_right_comm]
  rfl

/-- A turn on any other descriptor, in terms of the scan's interface. -/
theorem vcStep_cs (hd : d.Within) (hif : ¬ (d.byte 1 = USB_DT_INTERFACE ∧ 9 ≤ d.len))
    (hclass : s.curIfcClass = p.ctx.curIfcClass) (hsub : s.curIfcSub = p.ctx.curIfcSub) :
    vcStep d s =
      if IsCameraTerminal p d then
        .ok { s with out := { s.out with
          cameraTerminalId := some (d.byte 3), ctControls := d.controls 14 } }
      else if IsProcessingUnit p d then
        .ok { s with out := { s.out with
          processingUnitId := some (d.byte 3), puControls := d.controls 7 } }
      else .ok s := by
  unfold vcStep
  rw [hd.ty]
  change (if d.byte 1 = USB_DT_INTERFACE ∧ d.len ≥ 9 then _ else _) = _
  have hin : (s.curIfcClass = USB_CLASS_VIDEO ∧ s.curIfcSub = USB_SUBCLASS_VIDEO_CONTROL) ↔
      p.ctx.isVc := by
    rw [hclass, hsub]
    rfl
  rw [if_neg hif]
  by_cases hcs : d.byte 1 = CS_INTERFACE ∧ p.ctx.isVc ∧ 3 ≤ d.len
  · obtain ⟨hty, hvc, hlen⟩ := hcs
    rw [if_pos ⟨hty, (hin.mpr hvc).1, (hin.mpr hvc).2, hlen⟩, hd.u8Or, if_pos (show 2 < d.len by omega)]
    change (if d.byte 2 = VC_INPUT_TERMINAL ∧ d.len ≥ 15 then _ else _) = _
    by_cases hterm : d.byte 2 = VC_INPUT_TERMINAL ∧ 15 ≤ d.len
    · have hunit : ¬ IsProcessingUnit p d := by
        intro h
        exact absurd (hterm.1.symm.trans h.2.2.2) (by decide)
      rw [if_pos hterm, inputTerminal_eq hd hterm.2, if_neg hunit]
      by_cases htt : d.half 4 = ITT_CAMERA
      · rw [if_pos htt, if_pos (show IsCameraTerminal p d from ⟨hty, hvc, hterm.2, hterm.1, htt⟩)]
      · rw [if_neg htt, if_neg (show ¬ IsCameraTerminal p d from fun h => htt h.2.2.2.2)]
    · have hcamera : ¬ IsCameraTerminal p d := fun h => hterm ⟨h.2.2.2.1, h.2.2.1⟩
      rw [if_neg hterm, if_neg hcamera]
      by_cases hpu : d.byte 2 = VC_PROCESSING_UNIT ∧ 9 ≤ d.len
      · rw [if_pos hpu, processingUnit_eq hd hpu.2,
          if_pos (show IsProcessingUnit p d from ⟨hty, hvc, hpu.2, hpu.1⟩)]
      · rw [if_neg hpu, if_neg (show ¬ IsProcessingUnit p d from fun h => hpu ⟨h.2.2.2, h.2.2.1⟩)]
        rfl
  · have hcamera : ¬ IsCameraTerminal p d := fun h => hcs ⟨h.1, h.2.1, by have := h.2.2.1; omega⟩
    have hunit : ¬ IsProcessingUnit p d := fun h => hcs ⟨h.1, h.2.1, by have := h.2.2.1; omega⟩
    rw [if_neg fun h => hcs ⟨h.1, hin.mp ⟨h.2.1, h.2.2.1⟩, h.2.2.2⟩, if_neg hcamera, if_neg hunit]
    rfl

theorem vcInterfaces_yes (h : IsVcInterface d) : vcInterfaces [(p, d)] = [d.byte 2] := by
  simp [vcInterfaces, h]

theorem vcInterfaces_no (h : ¬ IsVcInterface d) : vcInterfaces [(p, d)] = [] := by
  simp [vcInterfaces, h]

theorem cameraTerminals_yes (h : IsCameraTerminal p d) :
    cameraTerminals [(p, d)] = [⟨p.ctx.curIfcNum, d.byte 3, d.controls 14⟩] := by
  simp [cameraTerminals, h]

theorem cameraTerminals_no (h : ¬ IsCameraTerminal p d) : cameraTerminals [(p, d)] = [] := by
  simp [cameraTerminals, h]

theorem processingUnits_yes (h : IsProcessingUnit p d) :
    processingUnits [(p, d)] = [⟨p.ctx.curIfcNum, d.byte 3, d.controls 7⟩] := by
  simp [processingUnits, h]

theorem processingUnits_no (h : ¬ IsProcessingUnit p d) : processingUnits [(p, d)] = [] := by
  simp [processingUnits, h]

/-- **A turn keeps the invariant.** -/
theorem vcStep_inv (hd : d.Within) (hinv : VcInv p is ts us s) :
    ∃ s', vcStep d s = .ok s' ∧
      VcInv (p.next d) (is ++ vcInterfaces [(p, d)]) (ts ++ cameraTerminals [(p, d)])
        (us ++ processingUnits [(p, d)]) s' := by
  by_cases hif : d.byte 1 = USB_DT_INTERFACE ∧ 9 ≤ d.len
  · have hcamera : ¬ IsCameraTerminal p d := fun h => cs_ne_interface (h.1.symm.trans hif.1)
    have hunit : ¬ IsProcessingUnit p d := fun h => cs_ne_interface (h.1.symm.trans hif.1)
    have hnext : (p.next d).ctx.curIfcClass = d.byte 5 ∧ (p.next d).ctx.curIfcSub = d.byte 6 := by
      unfold Place.next
      rw [if_pos hif]
      exact ⟨rfl, rfl⟩
    rw [cameraTerminals_no hcamera, processingUnits_no hunit, List.append_nil, List.append_nil,
      vcStep_interface hd hif]
    refine ⟨_, rfl, ?_⟩
    by_cases hvc : IsVcInterface d
    · rw [if_pos hvc, vcInterfaces_yes hvc]
      exact ⟨hnext.1.symm, hnext.2.symm, by simp, by simp, hinv.terminal, hinv.unit⟩
    · rw [if_neg hvc, vcInterfaces_no hvc, List.append_nil]
      exact ⟨hnext.1.symm, hnext.2.symm, hinv.found, hinv.vcInterface, hinv.terminal, hinv.unit⟩
  · have hvc : ¬ IsVcInterface d := fun h => hif h.1
    obtain ⟨hclass, hsub⟩ := next_isVc (p := p) hif
    have hclass := hinv.curIfcClass.trans hclass.symm
    have hsub := hinv.curIfcSub.trans hsub.symm
    rw [vcInterfaces_no hvc, List.append_nil, vcStep_cs hd hif hinv.curIfcClass hinv.curIfcSub]
    by_cases hcamera : IsCameraTerminal p d
    · have hunit : ¬ IsProcessingUnit p d := by
        intro h
        exact absurd (hcamera.2.2.2.1.symm.trans h.2.2.2) (by decide)
      rw [if_pos hcamera, cameraTerminals_yes hcamera, processingUnits_no hunit, List.append_nil]
      exact ⟨_, rfl, hclass, hsub, hinv.found, hinv.vcInterface, Latest.concat ts _, hinv.unit⟩
    · rw [if_neg hcamera, cameraTerminals_no hcamera, List.append_nil]
      by_cases hunit : IsProcessingUnit p d
      · rw [if_pos hunit, processingUnits_yes hunit]
        exact ⟨_, rfl, hclass, hsub, hinv.found, hinv.vcInterface, hinv.terminal, Latest.concat us _⟩
      · rw [if_neg hunit, processingUnits_no hunit, List.append_nil]
        exact ⟨_, rfl, hclass, hsub, hinv.found, hinv.vcInterface, hinv.terminal, hinv.unit⟩

/-- **A run keeps the invariant.** -/
theorem vcRun_inv {ds : List Desc} (hds : ∀ d ∈ ds, d.Within) (hinv : VcInv p is ts us s) :
    ∃ s' q, ds.foldlM (fun s d => vcStep d s) s = .ok s' ∧
      VcInv q (is ++ vcInterfaces (places p ds)) (ts ++ cameraTerminals (places p ds))
        (us ++ processingUnits (places p ds)) s' := by
  induction ds generalizing p is ts us s with
  | nil =>
      refine ⟨s, p, rfl, ?_⟩
      simpa [places, vcInterfaces, cameraTerminals, processingUnits] using hinv
  | cons d ds ih =>
      obtain ⟨hd, hds⟩ := List.forall_mem_cons.mp hds
      obtain ⟨s', hstep, hinv'⟩ := vcStep_inv hd hinv
      obtain ⟨s'', q, hrun, hinv''⟩ := ih hds hinv'
      refine ⟨s'', q, ?_, ?_⟩
      · rw [List.foldlM_cons, hstep]
        exact hrun
      · rw [places, vcInterfaces_cons, cameraTerminals_cons, processingUnits_cons,
          ← List.append_assoc, ← List.append_assoc, ← List.append_assoc]
        exact hinv''

/-! ### The entities returned -/

/-- The entities of a configuration: the last interface, with the last of each kind. -/
def lastEntities (xs : List (Place × Desc)) (ifc : UInt8) : UvcControlEntities where
  vcInterface := ifc
  cameraTerminalId := (cameraTerminals xs).getLast?.map EntityDecl.id
  ctControls := ((cameraTerminals xs).getLast?.map EntityDecl.controls).getD 0
  processingUnitId := (processingUnits xs).getLast?.map EntityDecl.id
  puControls := ((processingUnits xs).getLast?.map EntityDecl.controls).getD 0

/-- **The last interface, the last terminal and the last unit** are returned, if there is an
interface. -/
theorem parseUvcControlEntities_eq (cfg : List UInt8) (cfgTotal : Nat) :
    parseUvcControlEntities cfg cfgTotal =
      .ok ((vcInterfaces (places .new (scanned cfg cfgTotal))).getLast?.map
        (lastEntities (places .new (scanned cfg cfgTotal)))) := by
  obtain ⟨s, q, hrun, hinv⟩ := vcRun_inv (scanned_within cfg cfgTotal) VcInv.new
  rw [parseUvcControlEntities_run, hrun]
  change Except.ok (if s.foundVc = true then some s.out else none) = _
  rw [List.nil_append] at hinv
  obtain ⟨hid, hcontrols⟩ := hinv.terminal
  obtain ⟨hid', hcontrols'⟩ := hinv.unit
  rw [List.nil_append] at hid hcontrols hid' hcontrols'
  have hifc := hinv.vcInterface
  rw [hinv.found]
  cases hlast : (vcInterfaces (places .new (scanned cfg cfgTotal))).getLast? with
  | none =>
      rw [List.getLast?_eq_none_iff.mp hlast]
      rfl
  | some ifc =>
      have hne : vcInterfaces (places .new (scanned cfg cfgTotal)) ≠ [] := by
        intro h
        rw [h] at hlast
        cases hlast
      rw [hlast] at hifc
      have hout : s.out = lastEntities (places .new (scanned cfg cfgTotal)) ifc := by
        cases hout : s.out
        rw [hout] at hid hcontrols hid' hcontrols' hifc
        unfold lastEntities
        rw [← hid, ← hcontrols, ← hid', ← hcontrols']
        exact congrArg (UvcControlEntities.mk · _ _ _ _) hifc
      rw [List.isEmpty_eq_false_iff.mpr hne, hout]
      rfl

/-- The entity is one of those the interface declares, or there is none. -/
def Belongs (es : List EntityDecl) (ifc : UInt8) (id : Option UInt8) (controls : UInt32) : Prop :=
  match id with
  | none => controls = 0
  | some id => ⟨ifc, id, controls⟩ ∈ es

/-- Both entities belong to the interface returned. -/
def EntitiesBelong (xs : List (Place × Desc)) (e : UvcControlEntities) : Prop :=
  Belongs (cameraTerminals xs) e.vcInterface e.cameraTerminalId e.ctControls ∧
    Belongs (processingUnits xs) e.vcInterface e.processingUnitId e.puControls

/-- The interface declares an entity with the id and the bitmap of the last one. -/
def LastIn (es : List EntityDecl) (ifc : UInt8) : Prop :=
  ∀ e ∈ es.getLast?, { e with ifc := ifc } ∈ es

theorem belongs_iff (es : List EntityDecl) (ifc : UInt8) :
    Belongs es ifc (es.getLast?.map EntityDecl.id) ((es.getLast?.map EntityDecl.controls).getD 0) ↔
      LastIn es ifc := by
  unfold LastIn
  cases es.getLast? with
  | none => simp [Belongs]
  | some e => simp [Belongs]

/-- **The entities returned are those of the interface returned** exactly when the VideoControl
interface entered last declares the last terminal and the last unit. -/
theorem entitiesBelong_iff (cfg : List UInt8) (cfgTotal : Nat) :
    (∀ e, parseUvcControlEntities cfg cfgTotal = .ok (some e) →
      EntitiesBelong (places .new (scanned cfg cfgTotal)) e) ↔
    ∀ ifc ∈ (vcInterfaces (places .new (scanned cfg cfgTotal))).getLast?,
      LastIn (cameraTerminals (places .new (scanned cfg cfgTotal))) ifc ∧
        LastIn (processingUnits (places .new (scanned cfg cfgTotal))) ifc := by
  rw [parseUvcControlEntities_eq]
  cases (vcInterfaces (places .new (scanned cfg cfgTotal))).getLast? with
  | none => simp
  | some ifc =>
    simp only [Option.map_some, Except.ok.injEq, Option.some.injEq, forall_eq', Option.mem_def]
    exact and_congr (belongs_iff _ ifc) (belongs_iff _ ifc)

/-- The VideoControl interface a descriptor stands in is one that has been entered. -/
theorem places_entered {ds : List Desc} (hp : p.ctx.isVc → p.ctx.curIfcNum ∈ is) :
    ∀ x ∈ places p ds, x.1.ctx.isVc → x.1.ctx.curIfcNum ∈ is ++ vcInterfaces (places p ds) := by
  induction ds generalizing p is with
  | nil => exact fun x hx => absurd hx List.not_mem_nil
  | cons d ds ih =>
      intro x hx hvc
      rcases List.mem_cons.mp hx with rfl | hx
      · exact List.mem_append_left _ (hp hvc)
      · have hnext : (p.next d).ctx.isVc →
            (p.next d).ctx.curIfcNum ∈ is ++ vcInterfaces [(p, d)] := by
          unfold Place.next
          by_cases hif : d.byte 1 = USB_DT_INTERFACE ∧ 9 ≤ d.len
          · rw [if_pos hif]
            intro h
            rw [vcInterfaces_yes (show IsVcInterface d from ⟨hif, h⟩)]
            exact List.mem_append_right _ (List.mem_singleton.mpr rfl)
          · rw [if_neg hif]
            intro h
            apply List.mem_append_left
            split at h
            · rename_i hfmt
              rw [if_pos hfmt]
              exact hp h
            · rename_i hfmt
              rw [if_neg hfmt]
              exact hp h
        have hmem := ih hnext x hx hvc
        rw [List.append_assoc, ← vcInterfaces_cons] at hmem
        exact hmem

/-- The entities of a camera with one VideoControl interface are always those of that interface. -/
theorem entitiesBelong_single {cfg : List UInt8} {cfgTotal : Nat} {n : UInt8}
    (hone : ∀ ifc ∈ vcInterfaces (places .new (scanned cfg cfgTotal)), ifc = n)
    {e : UvcControlEntities} (he : parseUvcControlEntities cfg cfgTotal = .ok (some e)) :
    EntitiesBelong (places .new (scanned cfg cfgTotal)) e := by
  rw [parseUvcControlEntities_eq] at he
  obtain ⟨ifc, hlast, rfl⟩ := Option.map_eq_some_iff.mp (Except.ok.inj he)
  have hentered : ∀ x ∈ places .new (scanned cfg cfgTotal), x.1.ctx.isVc →
      x.1.ctx.curIfcNum ∈ [] ++ vcInterfaces (places .new (scanned cfg cfgTotal)) :=
    places_entered fun h => absurd h.1 (by decide)
  have hsame (es : List EntityDecl)
      (hes : ∀ t ∈ es, t.ifc ∈ vcInterfaces (places .new (scanned cfg cfgTotal))) : LastIn es ifc := by
    intro t ht
    have hmem := List.mem_of_getLast? ht
    rw [hone ifc (List.mem_of_getLast? hlast), ← hone t.ifc (hes t hmem)]
    exact hmem
  refine ⟨(belongs_iff _ ifc).mpr (hsame _ ?_), (belongs_iff _ ifc).mpr (hsame _ ?_)⟩
  · intro t ht
    obtain ⟨x, hx, hdecl⟩ := List.mem_filterMap.mp ht
    split at hdecl
    · rename_i hcamera
      cases hdecl
      exact hentered x hx hcamera.2.1
    · cases hdecl
  · intro t ht
    obtain ⟨x, hx, hdecl⟩ := List.mem_filterMap.mp ht
    split at hdecl
    · rename_i hunit
      cases hdecl
      exact hentered x hx hunit.2.1
    · cases hdecl

/-- A camera whose terminal is in VideoControl interface 0, with a second, empty one behind it. -/
def twoControls : List UInt8 :=
  [9, 2, 45, 0, 2, 1, 0, 0x80, 50] ++ [9, 4, 0, 0, 0, 0x0E, 1, 0, 0] ++
  [18, 0x24, 2, 1, 1, 2, 0, 0, 0, 0, 0, 0, 0, 0, 3, 0x0E, 0, 0] ++ [9, 4, 2, 0, 0, 0x0E, 1, 0, 0]

/-- Terminal 1 of interface 0 is returned as one of interface 2. -/
theorem twoControls_mixed :
    parseUvcControlEntities twoControls 45 = .ok (some ⟨2, some 1, 0x0E, none, 0⟩) ∧
    ¬ ∀ cfg cfgTotal e, parseUvcControlEntities cfg cfgTotal = .ok (some e) →
      EntitiesBelong (places .new (scanned cfg cfgTotal)) e := by
  have hrun : parseUvcControlEntities twoControls 45 = .ok (some ⟨2, some 1, 0x0E, none, 0⟩) := by
    decide +kernel
  refine ⟨hrun, fun h => ?_⟩
  have hmem := (h _ _ _ hrun).1
  change (⟨2, 1, 0x0E⟩ : EntityDecl) ∈ cameraTerminals (places .new (scanned twoControls 45)) at hmem
  have hdecls : cameraTerminals (places .new (scanned twoControls 45)) = [⟨0, 1, 0x0E⟩] := by
    decide +kernel
  rw [hdecls] at hmem
  exact absurd hmem (by decide)

end Cvirtos.Usb.Uvc
