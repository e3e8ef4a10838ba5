import Cvirtos.Lib.Triple
import Cvirtos.Usb.Dwc2.Isoch

/-!
# Host channels

`drivers/usb/dwc2/channel.rs`.  The controller, the bus behind it and the memory it shares with the
CPU are a parameter: a `Machine` does what it pleases with a channel from the time it is armed until
it halts.

* `xfer` — a transfer with its retries;
* `triple_xfer` — the invariant rule of the retries.
-/

set_option autoImplicit false

namespace Cvirtos.Usb.Dwc2

open Cvirtos.Lib

/-- `Channel::CONTROL` and `Channel::VIDEO`. -/
inductive Channel where
  | control
  | video
  deriving DecidableEq, Repr

/-- `HCTSIZ::PID`. -/
inductive Pid where
  | setup
  | data0
  | data1
  deriving DecidableEq, Repr

/-- What a channel is armed with: the fields of `HCCHAR` and `HCTSIZ`, and the DMA offset. -/
structure Transfer where
  dev : Nat
  epNum : Nat
  mps : Nat
  dirIn : Bool
  pid : Pid
  xferSize : Nat
  dmaOff : Nat
  deriving DecidableEq, Repr

/-- The hardware, with states `σ`. -/
structure Machine (σ : Type) where
  /-- Arms a channel, if it is idle in time. -/
  arm : Channel → Transfer → σ → Bool × σ
  /-- The interrupt word the channel halts with, if it halts in time. -/
  waitHalted : Channel → σ → Option HcintSnapshot × σ
  /-- `HCTSIZ.XFERSIZE`: what is left of the transfer. -/
  xferSizeLeft : Channel → σ → Nat
  /-- The CPU writes into the DMA window. -/
  write : Nat → List UInt8 → σ → σ
  /-- The CPU reads from the DMA window. -/
  read : Nat → Nat → σ → List UInt8 × σ
  /-- `dcache_clean_range`. -/
  clean : Nat → Nat → σ → σ
  /-- `dcache_invalidate_range`. -/
  invalidate : Nat → Nat → σ → σ

/-- How a part of the driver ends early. -/
inductive Stop where
  | err (e : UsbError)
  | panic
  deriving DecidableEq, Repr

/-- A part of the driver, on a machine. -/
abbrev Io (σ α : Type) := EStateM Stop σ α

variable {σ α : Type}

/-- An access to the machine. -/
def query (f : σ → α × σ) : Io σ α := fun s => .ok (f s).1 (f s).2

def effect (f : σ → σ) : Io σ Unit := fun s => .ok () (f s)

/-- `Channel::arm`. -/
def Channel.arm (ch : Channel) (m : Machine σ) (t : Transfer) : Io σ Unit := do
  if ← query (m.arm ch t) then return () else throw (.err .timeout)

/-- `Channel::wait_halted`. -/
def Channel.waitHalted (ch : Channel) (m : Machine σ) : Io σ HcintSnapshot := do
  match ← query (m.waitHalted ch) with
  | some st => return st
  | none => throw (.err .timeout)

def NAK_RETRIES : Nat := 64
def XACT_RETRIES : Nat := 8

/-- The loop of `xfer`: the attempts that are left, and the `XACTERR` retries. -/
def Channel.xferLoop (ch : Channel) (m : Machine σ) (t : Transfer) :
    (left xactLeft : Nat) → Io σ HcintSnapshot
  | 0, _ => throw .panic
  | left + 1, xactLeft => do
    ch.arm m t
    let st ← ch.waitHalted m
    if isSet st HCINT.STALL then throw (.err .stall)
    else if isSet st HCINT.XACTERR then
      if xactLeft = 0 then throw (.err (.protocol "ch xfer error (XACT)"))
      else ch.xferLoop m t left (xactLeft - 1)
    else if isSet st HCINT.NAK then
      if left = 0 then throw (.err (.protocol "ch xfer NAK exhausted"))
      else ch.xferLoop m t left xactLeft
    else if ¬ isSet st HCINT.XFERCOMPL then throw (.err (.protocol "CHHLTD without XFERCOMPL"))
    else return st

/-- `Channel::xfer`. -/
def Channel.xfer (ch : Channel) (m : Machine σ) (t : Transfer) : Io σ HcintSnapshot :=
  ch.xferLoop m t (NAK_RETRIES + 1) XACT_RETRIES

/-- The word of a transfer that completes. -/
def Completes (st : HcintSnapshot) : Prop :=
  isSet st HCINT.STALL = false ∧ isSet st HCINT.XACTERR = false ∧ isSet st HCINT.NAK = false ∧
    isSet st HCINT.XFERCOMPL = true

instance (st : HcintSnapshot) : Decidable (Completes st) := inferInstanceAs (Decidable (_ ∧ _))

/-! ### Rules -/

section

variable {m : Machine σ} {ch : Channel} {t : Transfer} {P : σ → Prop} {E : Stop → σ → Prop}

theorem triple_query {f : σ → α × σ} {Q : α → σ → Prop} (h : ∀ s, P s → Q (f s).1 (f s).2) :
    Triple P (query f) Q E := h

theorem triple_effect {f : σ → σ} {Q : Unit → σ → Prop} (h : ∀ s, P s → Q () (f s)) :
    Triple P (effect f) Q E := h

theorem triple_arm {Q : σ → Prop} (hidle : ∀ s, P s → (m.arm ch t s).1 = true → Q (m.arm ch t s).2)
    (hbusy : ∀ s, P s → (m.arm ch t s).1 = false → E (.err .timeout) (m.arm ch t s).2) :
    Triple P (ch.arm m t) (fun _ => Q) E := by
  refine triple_bind (Q := fun b s => if b then Q s else E (.err .timeout) s)
    (triple_query fun s hs => ?_) fun b => ?_
  · split
    · rename_i hb
      exact hidle s hs hb
    · rename_i hb
      exact hbusy s hs (Bool.eq_false_iff.mpr hb)
  · cases b with
    | true => exact triple_pure fun _ h => h
    | false => exact triple_throw fun _ h => h

theorem triple_waitHalted {Q : HcintSnapshot → σ → Prop}
    (hhalt : ∀ s st, P s → (m.waitHalted ch s).1 = some st → Q st (m.waitHalted ch s).2)
    (hrun : ∀ s, P s → (m.waitHalted ch s).1 = none → E (.err .timeout) (m.waitHalted ch s).2) :
    Triple P (ch.waitHalted m) Q E := by
  refine triple_bind
    (Q := fun r s => match r with | some st => Q st s | none => E (.err .timeout) s)
    (triple_query fun s hs => ?_) fun r => ?_
  · cases hr : (m.waitHalted ch s).1 with
    | some st => exact hhalt s st hs hr
    | none => exact hrun s hs hr
  · cases r with
    | some st => exact triple_pure fun _ h => h
    | none => exact triple_throw fun _ h => h

/-- **The retries**: `P` holds before every attempt, and `Q` after it whatever the word; a word that
asks for a retry gives `P` back, and one that completes gives `R`. -/
theorem triple_xfer {A : σ → Prop} {Q : HcintSnapshot → σ → Prop} {R : HcintSnapshot → σ → Prop}
    (harm : Triple P (ch.arm m t) (fun _ => A) E)
    (hhalt : Triple A (ch.waitHalted m) Q E)
    (hretry : ∀ st s, ¬ Completes st → Q st s → P s)
    (hdone : ∀ st s, Completes st → Q st s → R st s)
    (hstop : ∀ st s e, Q st s → E e s)
    (hpanic : ∀ s, P s → E .panic s) : Triple P (ch.xfer m t) R E := by
  have hloop : ∀ left xactLeft, Triple P (ch.xferLoop m t left xactLeft) R E := by
    intro left
    induction left with
    | zero => exact fun _ => triple_throw hpanic
    | succ left ih =>
        intro xactLeft
        refine triple_bind harm fun _ => triple_bind hhalt fun st => ?_
        refine triple_ite (fun _ => triple_throw fun s => hstop st s _) fun hstall => ?_
        refine triple_ite (fun hxact => ?_) fun hxact => ?_
        · refine triple_ite (fun _ => triple_throw fun s => hstop st s _) fun _ => ?_
          exact triple_pre (ih _) fun s => hretry st s fun h => by simp [h.2.1] at hxact
        refine triple_ite (fun hnak => ?_) fun hnak => ?_
        · refine triple_ite (fun _ => triple_throw fun s => hstop st s _) fun _ => ?_
          exact triple_pre (ih _) fun s => hretry st s fun h => by simp [h.2.2.1] at hnak
        refine triple_ite (fun _ => triple_throw fun s => hstop st s _) fun hcompl => ?_
        refine triple_pure fun s => hdone st s ⟨?_, ?_, ?_, not_not.mp hcompl⟩
        · exact Bool.eq_false_iff.mpr hstall
        · exact Bool.eq_false_iff.mpr hxact
        · exact Bool.eq_false_iff.mpr hnak
  exact hloop _ _

end

end Cvirtos.Usb.Dwc2
