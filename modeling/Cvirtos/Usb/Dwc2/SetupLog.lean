import Cvirtos.Usb.Dwc2.Kept
import Mathlib.Logic.Function.Basic

/-!
# The SETUP packets of a run

A machine that also keeps which SETUP packets its channels have been armed with.  A channel that is
not idle in time is not armed, and a transfer that is retried is armed again.

* `Machine.tap` — the machine, and the log beside it;
* `Armed` — a packet has been armed a number of times;
* `triple_setupStage_tap` — a SETUP stage arms its packet;
* `triple_write_tap`, `triple_read_tap` — **a control transfer arms its packet and no other**.
-/

set_option autoImplicit false

namespace Cvirtos.Usb.Dwc2

open Cvirtos.Lib

variable {σ : Type}

/-- A machine, the bytes last written at each place of its window, and the SETUP packets armed. -/
structure Tapped (σ : Type) where
  machine : σ
  written : Nat → List UInt8
  setups : List (List UInt8)

/-- Nothing has been written or armed yet. -/
def Tapped.start (s : σ) : Tapped σ := ⟨s, fun _ => [], []⟩

/-- The machine, with the SETUP packets that its channels are armed with. -/
def Machine.tap (m : Machine σ) : Machine (Tapped σ) where
  arm ch t s :=
    ((m.arm ch t s.machine).1,
      { s with
        machine := (m.arm ch t s.machine).2
        setups :=
          if (m.arm ch t s.machine).1 = true ∧ t.pid = .setup then
            s.setups ++ [(s.written t.dmaOff).take t.xferSize]
          else s.setups })
  waitHalted ch s :=
    ((m.waitHalted ch s.machine).1, { s with machine := (m.waitHalted ch s.machine).2 })
  xferSizeLeft ch s := m.xferSizeLeft ch s.machine
  write off bytes s :=
    { s with
      machine := m.write off bytes s.machine
      written := Function.update s.written off bytes }
  read off len s :=
    ((m.read off len s.machine).1, { s with machine := (m.read off len s.machine).2 })
  clean off len s := { s with machine := m.clean off len s.machine }
  invalidate off len s := { s with machine := m.invalidate off len s.machine }

/-- The packets so far. -/
def Logged (log : List (List UInt8)) (s : Tapped σ) : Prop := s.setups = log

/-- The packet has been armed `least` times or more, and no more often than `xfer` tries. -/
def Armed (least : Nat) (log : List (List UInt8)) (packet : Vector UInt8 8) (s : Tapped σ) : Prop :=
  ∃ n, least ≤ n ∧ n ≤ NAK_RETRIES + 1 ∧ Logged (log ++ List.replicate n packet.toList) s

variable {m : Machine σ} {ep : ControlEp} {log : List (List UInt8)} {packet : Vector UInt8 8}

theorem Armed.weaken {s : Tapped σ} (h : Armed 1 log packet s) : Armed 0 log packet s := by
  obtain ⟨n, -, hn, hs⟩ := h
  exact ⟨n, Nat.zero_le n, hn, hs⟩

theorem Logged.armed {s : Tapped σ} (h : Logged log s) : Armed 0 log packet s :=
  ⟨0, Nat.le_refl 0, Nat.zero_le _, h.trans (List.append_nil log).symm⟩

/-! ### Other transfers -/

/-- **Every other transfer leaves the log alone.** -/
theorem tap_keeps (m : Machine σ) (log : List (List UInt8)) :
    m.tap.Keeps (fun _ t => t.pid ≠ .setup) (Logged log) where
  arm _ _ _ hpid h := (if_neg fun hc => hpid hc.2).trans h
  waitHalted _ _ h := h
  write _ _ _ h := h
  read _ _ _ h := h
  clean _ _ _ h := h
  invalidate _ _ _ h := h

theorem dataPid_ne_setup (data1 : Bool) : dataPid data1 ≠ .setup := by
  cases data1 <;> exact fun h => nomatch h

theorem triple_statusStage_tap (dirIn : Bool) :
    Kept (Logged log) (ControlEp.statusStage m.tap ep dirIn) :=
  kept_statusStage (tap_keeps m log) fun h => nomatch h

theorem triple_readChunks_tap (data1 : Bool) (lens : List Nat) :
    Kept (Logged log) (ControlEp.readChunks m.tap ep data1 lens) :=
  kept_readChunks (tap_keeps m log) data1 fun _ _ => dataPid_ne_setup

theorem triple_writeChunks_tap (data1 : Bool) (chunks : List (List UInt8)) :
    Kept (Logged log) (ControlEp.writeChunks m.tap ep data1 chunks) :=
  kept_writeChunks (tap_keeps m log) data1 fun _ _ => dataPid_ne_setup

/-! ### SETUP stages -/

/-- The packet lies at `OFF_EP0`. -/
def PacketPlaced (packet : Vector UInt8 8) (log : List (List UInt8)) (s : Tapped σ) : Prop :=
  s.written OFF_EP0 = packet.toList ∧ Logged log s

theorem triple_arm_packet :
    Triple (PacketPlaced packet log)
      (Channel.control.arm m.tap (ControlEp.transfer ep false .setup 8 OFF_EP0))
      (fun _ => PacketPlaced packet (log ++ [packet.toList])) (fun _ => Logged log) := by
  refine triple_arm (fun s h hidle => ⟨h.1, ?_⟩) fun s h hbusy => ?_
  · have hidle : (m.arm .control (ControlEp.transfer ep false .setup 8 OFF_EP0) s.machine).1 = true :=
      hidle
    refine (if_pos ⟨hidle, rfl⟩).trans ?_
    change s.setups ++ [(s.written OFF_EP0).take 8] = _
    rw [h.1, h.2, List.take_of_length_le (by rw [packet.length_toList])]
  · have hbusy : (m.arm .control (ControlEp.transfer ep false .setup 8 OFF_EP0) s.machine).1 = false :=
      hbusy
    refine (if_neg fun hc => ?_).trans h.2
    rw [hbusy] at hc
    exact nomatch hc.1

/-- The attempts left arm the packet so often at most. -/
theorem triple_xferLoop_packet (left xactLeft : Nat) :
    Triple (PacketPlaced packet log)
      (Channel.control.xferLoop m.tap (ControlEp.transfer ep false .setup 8 OFF_EP0) left xactLeft)
      (fun _ s => ∃ n, 1 ≤ n ∧ n ≤ left ∧ Logged (log ++ List.replicate n packet.toList) s)
      (fun _ s => ∃ n ≤ left, Logged (log ++ List.replicate n packet.toList) s) := by
  induction left generalizing log xactLeft with
  | zero => exact triple_throw fun s h => ⟨0, Nat.le_refl 0, h.2.trans (List.append_nil log).symm⟩
  | succ left ih =>
      have hone : ∀ s : Tapped σ, Logged (log ++ [packet.toList]) s →
          ∃ n ≤ left + 1, Logged (log ++ List.replicate n packet.toList) s :=
        fun s h => ⟨1, Nat.le_add_left 1 left, h⟩
      have hmore : ∀ n, log ++ [packet.toList] ++ List.replicate n packet.toList =
          log ++ List.replicate (n + 1) packet.toList := by
        intro n
        rw [List.append_assoc]
        rfl
      -- a retry finds the packet where it was
      have hretry : ∀ xact, Triple (PacketPlaced packet (log ++ [packet.toList]))
          (Channel.control.xferLoop m.tap (ControlEp.transfer ep false .setup 8 OFF_EP0) left xact)
          (fun _ s => ∃ n, 1 ≤ n ∧ n ≤ left + 1 ∧
            Logged (log ++ List.replicate n packet.toList) s)
          (fun _ s => ∃ n ≤ left + 1, Logged (log ++ List.replicate n packet.toList) s) := by
        intro xact
        refine triple_weaken (ih xact) (fun _ h => h) ?_ ?_
        · rintro st s ⟨n, hpos, hn, hs⟩
          exact ⟨n + 1, by omega, by omega, hmore n ▸ hs⟩
        · rintro e s ⟨n, hn, hs⟩
          exact ⟨n + 1, by omega, hmore n ▸ hs⟩
      refine triple_bind (triple_error triple_arm_packet fun e s h =>
        ⟨0, Nat.zero_le _, h.trans (List.append_nil log).symm⟩) fun _ => ?_
      refine triple_bind (Q := fun _ => PacketPlaced packet (log ++ [packet.toList]))
        (triple_waitHalted (fun _ _ h _ => h) fun s h _ => hone _ h.2) fun st => ?_
      have hthrow : ∀ e, Triple (PacketPlaced packet (log ++ [packet.toList]))
          (throw e : Io (Tapped σ) HcintSnapshot) _
          (fun _ s => ∃ n ≤ left + 1, Logged (log ++ List.replicate n packet.toList) s) :=
        fun e => triple_throw (Q := fun _ s => ∃ n, 1 ≤ n ∧ n ≤ left + 1 ∧
          Logged (log ++ List.replicate n packet.toList) s) fun s h => hone s h.2
      refine triple_ite (fun _ => hthrow _) fun _ => ?_
      refine triple_ite (fun _ => triple_ite (fun _ => hthrow _) fun _ => hretry _) fun _ => ?_
      refine triple_ite (fun _ => triple_ite (fun _ => hthrow _) fun _ => hretry _) fun _ => ?_
      refine triple_ite (fun _ => hthrow _) fun _ => triple_pure fun s h => ?_
      exact ⟨1, Nat.le_refl 1, Nat.le_add_left 1 left, h.2⟩

/-- **A SETUP stage arms its packet.** -/
theorem triple_setupStage_tap (packet : Vector UInt8 8) :
    Triple (Logged log) (ControlEp.setupStage m.tap ep packet) (fun _ => Armed 1 log packet)
      (fun _ => Armed 0 log packet) := by
  refine triple_bind (Q := fun _ => PacketPlaced packet log) (triple_effect fun s h => ⟨?_, h⟩)
    fun _ => triple_bind (Q := fun _ => PacketPlaced packet log) (triple_effect fun _ h => h) fun _ => ?_
  · exact Function.update_self OFF_EP0 packet.toList s.written
  · refine triple_bind (triple_error (triple_xferLoop_packet _ _) ?_) fun _ => triple_pure fun _ h => h
    rintro e s ⟨n, hn, hs⟩
    exact ⟨n, Nat.zero_le n, hn, hs⟩

/-- What leaves the log alone keeps what has been armed. -/
theorem triple_armed {α : Type} {x : Io (Tapped σ) α} {least : Nat}
    (hx : ∀ log, Triple (Logged log) x (fun _ => Logged log) (fun _ => Logged log)) :
    Triple (Armed least log packet) x (fun _ => Armed least log packet)
      (fun _ => Armed least log packet) := by
  rintro s ⟨n, hleast, hn, hs⟩
  exact triple_weaken (hx _) (fun _ h => h) (fun _ _ h => ⟨n, hleast, hn, h⟩)
    (fun _ _ h => ⟨n, hleast, hn, h⟩) s hs

/-- **A control read arms its packet, and no other.** -/
theorem triple_read_tap (packet : Vector UInt8 8) (len : Nat) :
    Triple (Logged log) (ControlEp.read m.tap ep packet len) (fun _ => Armed 1 log packet)
      (fun _ => Armed 0 log packet) := by
  refine triple_ite (fun _ => triple_throw fun _ h => h.armed) fun _ => ?_
  refine triple_bind (triple_setupStage_tap packet) fun _ => ?_
  refine triple_ite (fun _ => triple_throw fun _ h => h.weaken) fun _ => ?_
  refine triple_bind (triple_error (triple_armed fun _ => triple_readChunks_tap _ _)
    fun _ _ h => h.weaken) fun _ => ?_
  exact triple_bind (triple_error (triple_armed fun _ => triple_statusStage_tap _)
    fun _ _ h => h.weaken) fun _ => triple_pure fun _ h => h

/-- **A control write arms its packet, and no other.** -/
theorem triple_write_tap (packet : Vector UInt8 8) (data : List UInt8) :
    Triple (Logged log) (ControlEp.write m.tap ep packet data) (fun _ => Armed 1 log packet)
      (fun _ => Armed 0 log packet) := by
  refine triple_ite (fun _ => triple_throw fun _ h => h.armed) fun _ => ?_
  refine triple_bind (triple_setupStage_tap packet) fun _ => ?_
  refine triple_ite (fun _ => triple_throw fun _ h => h.weaken) fun _ => ?_
  refine triple_bind (triple_error (triple_armed fun _ => triple_writeChunks_tap _ _)
    fun _ _ h => h.weaken) fun _ => ?_
  exact triple_error (triple_armed fun _ => triple_statusStage_tap _) fun _ _ h => h.weaken

/-- **A control transfer without data arms its packet, and no other.** -/
theorem triple_writeNoData_tap (packet : Vector UInt8 8) :
    Triple (Logged log) (ControlEp.writeNoData m.tap ep packet) (fun _ => Armed 1 log packet)
      (fun _ => Armed 0 log packet) :=
  triple_bind (triple_setupStage_tap packet) fun _ =>
    triple_error (triple_armed fun _ => triple_statusStage_tap _) fun _ _ h => h.weaken

end Cvirtos.Usb.Dwc2
