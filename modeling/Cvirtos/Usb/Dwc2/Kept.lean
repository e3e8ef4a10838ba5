import Cvirtos.Usb.Dwc2.Control
import Cvirtos.Usb.Dwc2.IsochChannel

/-!
# Invariants of the driver

What the accesses of a machine keep, as long as only transfers of a certain kind are armed, and what
the endpoints then keep, however they end.

* `Kept` — `x` keeps the invariant, also where it fails;
* `Machine.Keeps` — every access of the machine does;
* `kept_xfer` — **the retries of a transfer**;
* `kept_readChunks`, `kept_writeChunks`, `kept_readPayload` — the stages of the endpoints.
-/

set_option autoImplicit false

namespace Cvirtos.Usb.Dwc2

open Cvirtos.Lib

variable {σ α β : Type}

/-- However `x` ends, the invariant holds again. -/
abbrev Kept (I : σ → Prop) (x : Io σ α) : Prop := Triple I x (fun _ => I) fun _ => I

section

variable {I : σ → Prop}

theorem kept_pure (a : α) : Kept I (pure a : Io σ α) := triple_pure fun _ h => h

theorem kept_throw (e : Stop) : Kept I (throw e : Io σ α) := triple_throw fun _ h => h

theorem kept_bind {x : Io σ α} {f : α → Io σ β} (hx : Kept I x) (hf : ∀ a, Kept I (f a)) :
    Kept I (x >>= f) := triple_bind hx hf

theorem kept_ite {c : Prop} [Decidable c] {x y : Io σ α} (hx : Kept I x) (hy : Kept I y) :
    Kept I (if c then x else y) := triple_ite (fun _ => hx) fun _ => hy

theorem kept_attempt {x : Io σ α} (hx : Kept I x) : Kept I (attempt x : Io σ (Except Stop α)) :=
  triple_attempt_both hx

theorem kept_query {f : σ → α × σ} (h : ∀ s, I s → I (f s).2) : Kept I (query f) := triple_query h

theorem kept_effect {f : σ → σ} (h : ∀ s, I s → I (f s)) : Kept I (effect f) := triple_effect h

end

/-- Every access keeps the invariant, if only allowed transfers are armed. -/
structure Machine.Keeps (m : Machine σ) (Allowed : Channel → Transfer → Prop) (I : σ → Prop) :
    Prop where
  arm : ∀ ch t s, Allowed ch t → I s → I (m.arm ch t s).2
  waitHalted : ∀ ch s, I s → I (m.waitHalted ch s).2
  write : ∀ off src s, I s → I (m.write off src s)
  read : ∀ off len s, I s → I (m.read off len s).2
  clean : ∀ off len s, I s → I (m.clean off len s)
  invalidate : ∀ off len s, I s → I (m.invalidate off len s)

section

variable {m : Machine σ} {Allowed : Channel → Transfer → Prop} {I : σ → Prop} {ep : ControlEp}
  (hm : m.Keeps Allowed I)
include hm

/-! ### Channels -/

theorem kept_arm {ch : Channel} {t : Transfer} (ht : Allowed ch t) : Kept I (ch.arm m t) :=
  triple_arm (fun s hs _ => hm.arm ch t s ht hs) fun s hs _ => hm.arm ch t s ht hs

theorem kept_waitHalted (ch : Channel) : Kept I (ch.waitHalted m) :=
  triple_waitHalted (fun s _ hs _ => hm.waitHalted ch s hs) fun s hs _ => hm.waitHalted ch s hs

/-- **A transfer**, with its retries. -/
theorem kept_xfer {ch : Channel} {t : Transfer} (ht : Allowed ch t) : Kept I (ch.xfer m t) :=
  triple_xfer (kept_arm hm ht) (kept_waitHalted hm ch) (fun _ _ _ h => h) (fun _ _ _ h => h)
    (fun _ _ _ h => h) fun _ h => h

/-! ### Control transfers -/

theorem kept_setupStage (ht : Allowed .control (ControlEp.transfer ep false .setup 8 OFF_EP0))
    (packet : Vector UInt8 8) : Kept I (ControlEp.setupStage m ep packet) := by
  refine kept_bind (kept_effect fun s => hm.write _ _ s) fun _ => ?_
  refine kept_bind (kept_effect fun s => hm.clean _ _ s) fun _ => ?_
  exact kept_bind (kept_xfer hm ht) fun _ => kept_pure _

theorem kept_statusStage {dirIn : Bool}
    (ht : Allowed .control (ControlEp.transfer ep dirIn .data1 0 OFF_EP0)) :
    Kept I (ControlEp.statusStage m ep dirIn) :=
  kept_bind (kept_xfer hm ht) fun _ => kept_pure _

theorem kept_readChunks {lens : List Nat} (data1 : Bool)
    (ht : ∀ len ∈ lens, ∀ data1, Allowed .control
      (ControlEp.transfer ep true (dataPid data1) len DMA_OFF_SMALL_IO)) :
    Kept I (ControlEp.readChunks m ep data1 lens) := by
  induction lens generalizing data1 with
  | nil => exact kept_pure _
  | cons len lens ih =>
      obtain ⟨hlen, hrest⟩ := List.forall_mem_cons.mp ht
      refine kept_bind (kept_xfer hm (hlen data1)) fun _ => ?_
      refine kept_bind (kept_effect fun s => hm.invalidate _ _ s) fun _ => ?_
      refine kept_bind (kept_query fun s => hm.read _ _ s) fun _ => ?_
      exact kept_bind (ih _ hrest) fun _ => kept_pure _

theorem kept_writeChunks {chunks : List (List UInt8)} (data1 : Bool)
    (ht : ∀ chunk ∈ chunks, ∀ data1, Allowed .control
      (ControlEp.transfer ep false (dataPid data1) chunk.length DMA_OFF_SMALL_IO)) :
    Kept I (ControlEp.writeChunks m ep data1 chunks) := by
  induction chunks generalizing data1 with
  | nil => exact kept_pure _
  | cons chunk chunks ih =>
      obtain ⟨hlen, hrest⟩ := List.forall_mem_cons.mp ht
      refine kept_bind (kept_effect fun s => hm.write _ _ s) fun _ => ?_
      refine kept_bind (kept_effect fun s => hm.clean _ _ s) fun _ => ?_
      exact kept_bind (kept_xfer hm (hlen data1)) fun _ => ih _ hrest

theorem kept_descriptorByte (off : Nat) : Kept I (descriptorByte m off) :=
  kept_bind (kept_query fun s => hm.read _ _ s) fun _ => kept_pure _

/-! ### Microframes -/

theorem kept_dmaRxSlice (off len : Nat) : Kept I (OnMachine.dmaRxSlice m off len) :=
  kept_ite (kept_pure _) (kept_bind (kept_query fun s => hm.read _ _ s) fun _ => kept_pure _)

theorem kept_dmaWriteAt (off : Nat) (src : List UInt8) : Kept I (OnMachine.dmaWriteAt m off src) :=
  kept_ite (kept_throw _) (kept_ite (kept_throw _) (kept_effect fun s => hm.write _ _ s))

variable {iso : IsochInEp} {dmaOff : Nat}
  (ht : Allowed .video (OnMachine.isochTransfer iso (wmaxMps iso.mpsRaw) dmaOff))
include ht

theorem kept_readUframe : Kept I (OnMachine.readUframe m iso dmaOff) := by
  refine kept_ite (kept_throw _) (kept_ite (kept_throw _) ?_)
  refine kept_bind (kept_arm hm ht) fun _ => kept_bind (kept_waitHalted hm .video) fun hcint => ?_
  refine kept_ite (kept_throw _) (kept_ite (kept_throw _) ?_)
  refine kept_ite (kept_pure _) (kept_ite (kept_pure _) ?_)
  refine kept_bind (kept_query fun _ h => h) fun left => kept_ite ?_ (kept_pure _)
  exact kept_bind (kept_effect fun s => hm.invalidate _ _ s) fun _ => kept_pure _

/-- **A packet**, over the microframes that bring none. -/
theorem kept_readPayload : Kept I (OnMachine.readPayload m iso dmaOff) := by
  have hloop : ∀ left, Kept I (OnMachine.readPayloadLoop m iso dmaOff left) := by
    intro left
    induction left with
    | zero => exact kept_throw _
    | succ left ih =>
        refine kept_bind (kept_readUframe hm ht) fun n => kept_ite ?_ ih
        refine kept_bind (kept_dmaRxSlice hm _ _) fun slice => ?_
        cases slice with
        | none => exact kept_throw _
        | some bytes => exact kept_pure bytes
  exact hloop MAX_UFRAMES

end

end Cvirtos.Usb.Dwc2
