import Cvirtos.Lib.Fuel
import Cvirtos.Usb.WalkRules
import Mathlib.Data.List.Nodup

/-!
# Addresses and termination of the tree walk

For every bus, that is every topology and every behaviour of the devices:

* `AddrInv` — the `SET_ADDRESS` requests so far carry 1, 2, … up to the address counter;
* `enumerate_triple` — an enumeration that succeeds moves the counter on;
* `fuelled_rules` — the recursion never needs more fuel than there are addresses left;
* `enumerateBus_addresses` — **every run has distinct addresses below 127**;
* `enumerateBus_fuelled` — **the recursion ends**;
* `enumerateBus_fuel` — more fuel changes nothing.
-/

set_option autoImplicit false

namespace Cvirtos.Usb

open Cvirtos.Lib

section Log

variable {σ : Type}

/-- The address a `SET_ADDRESS` request carries. -/
def WalkEvent.setAddress? : WalkEvent σ → Option Nat
  | .request _ (.setAddress addr) _ _ _ => some addr
  | _ => none

def WalkEvent.enumerated? : WalkEvent σ → Option UsbDevice
  | .enumerated dev => some dev
  | _ => none

/-- The addresses of the `SET_ADDRESS` requests, in order. -/
def setAddresses (log : List (WalkEvent σ)) : List Nat := log.filterMap WalkEvent.setAddress?

/-- The devices enumerated, in order. -/
def enumeratedDevices (log : List (WalkEvent σ)) : List UsbDevice := log.filterMap WalkEvent.enumerated?

@[simp] theorem setAddresses_concat (log : List (WalkEvent σ)) (e : WalkEvent σ) :
    setAddresses (log ++ [e]) = setAddresses log ++ e.setAddress?.toList := by
  rw [setAddresses, List.filterMap_append]
  cases h : e.setAddress? <;> simp [setAddresses, h]

@[simp] theorem enumeratedDevices_concat (log : List (WalkEvent σ)) (e : WalkEvent σ) :
    enumeratedDevices (log ++ [e]) = enumeratedDevices log ++ e.enumerated?.toList := by
  rw [enumeratedDevices, List.filterMap_append]
  cases h : e.enumerated? <;> simp [enumeratedDevices, h]

/-- **The invariant of the address counter.** -/
structure AddrInv (s : St σ) : Prop where
  pos : 1 ≤ s.nextAddr
  le : s.nextAddr ≤ 127
  addrs : setAddresses s.log = List.range' 1 (s.nextAddr - 1)
  count : (enumeratedDevices s.log).length ≤ s.nextAddr - 1

/-- With fuel `k` there is enough for the addresses left. -/
structure Fuelled (k : Nat) (s : St σ) : Prop extends AddrInv s where
  enough : 127 < k + s.nextAddr

theorem Fuelled.mono {k : Nat} {s : St σ} (h : Fuelled k s) : Fuelled (k + 1) s :=
  ⟨h.toAddrInv, by have := h.enough; omega⟩

/-- The two states have the same counter and the same addresses and devices in their logs. -/
structure SameCounts (s s' : St σ) : Prop where
  nextAddr : s'.nextAddr = s.nextAddr
  addrs : setAddresses s'.log = setAddresses s.log
  devices : enumeratedDevices s'.log = enumeratedDevices s.log

/-- What is of interest of the state is its counts. -/
def Counted (P : St σ → Prop) : Prop := ∀ s s', SameCounts s s' → P s → P s'

theorem fuelled_counted (k : Nat) : Counted (Fuelled (σ := σ) k) := by
  rintro s s' ⟨hnext, haddrs, hdevs⟩ h
  constructor
  · constructor
    · rw [hnext]
      exact h.pos
    · rw [hnext]
      exact h.le
    · rw [hnext, haddrs]
      exact h.addrs
    · rw [hnext, hdevs]
      exact h.count
  · rw [hnext]
    exact h.enough

theorem sameCounts_after (s : St σ) (ep : ControlEp) {req : Request} (b : σ) (failed : Bool)
    (hreq : ∀ addr, req ≠ .setAddress addr) : SameCounts s (s.after ep req b failed) := by
  have hnone : WalkEvent.setAddress? (.request ep req s.bus b failed) = none := by
    cases req with
    | setAddress addr => exact absurd rfl (hreq addr)
    | _ => rfl
  refine ⟨rfl, ?_, ?_⟩
  · simp [St.after, hnone]
  · simp [St.after, WalkEvent.enumerated?]

/-- **What does not send `SET_ADDRESS` leaves the counts alone**, however it ends. -/
theorem counted_calm (bus : Bus σ) {P : St σ → Prop} (hP : Counted P) :
    Calm bus P fun _ => P := by
  have htransfer : ∀ {α : Type} (ep : ControlEp) {req : Request} (answer : σ → Answer α × σ),
      (∀ addr, req ≠ .setAddress addr) →
        Triple P (transfer ep req answer) (fun _ => P) (fun _ => P) := by
    intro α ep req answer hreq
    have hafter : ∀ s b failed, P s → P (s.after ep req b failed) :=
      fun s b failed hs => hP s _ (sameCounts_after s ep b failed hreq) hs
    exact triple_transfer (fun s _ b hs _ => hafter s b false hs)
      (fun s _ b hs _ => hafter s b true hs) fun s b hs _ => hafter s b true hs
  constructor
  · exact fun _ _ => Iff.rfl
  · exact fun s b hs => hP s _ ⟨rfl, rfl, rfl⟩ hs
  · intro ep req n hreq
    refine htransfer ep _ fun addr haddr => ?_
    subst haddr
    cases hreq
  · exact fun ep req _ haddr => htransfer ep _ haddr
  · refine fun s dev hs => hP s _ ⟨rfl, ?_, ?_⟩ hs
    · exact (setAddresses_concat _ _).trans (List.append_nil _)
    · exact (enumeratedDevices_concat _ _).trans (List.append_nil _)
  · intro driver dev
    have hprobed : ∀ (s : St σ) (b : σ), P s → P (s.probed driver dev b) := by
      refine fun s b hs => hP s _ ⟨rfl, ?_, ?_⟩ hs
      · exact (setAddresses_concat _ _).trans (List.append_nil _)
      · exact (enumeratedDevices_concat _ _).trans (List.append_nil _)
    exact triple_probe (fun s b hs _ => hprobed s b hs) (fun s _ b hs _ => hprobed s b hs)
      fun s b hs _ => hprobed s b hs

end Log

/-! ## Enumeration moves the counter on -/

section Enumeration

variable {σ : Type} (bus : Bus σ)

/-- The address `addr` is taken, and its `SET_ADDRESS` not yet sent. -/
structure Taken (k addr : Nat) (s : St σ) : Prop where
  pos : 1 ≤ addr
  le : addr < 127
  nextAddr : s.nextAddr = addr + 1
  addrs : setAddresses s.log = List.range' 1 (addr - 1)
  count : (enumeratedDevices s.log).length ≤ addr - 1
  enough : 127 < k + s.nextAddr

/-- The `SET_ADDRESS` is sent, and the device not yet counted. -/
structure Sent (k : Nat) (s : St σ) : Prop extends Fuelled k s where
  fewer : (enumeratedDevices s.log).length < s.nextAddr - 1

theorem takeAddr_triple (k : Nat) :
    Triple (Fuelled (σ := σ) (k + 1)) takeAddr (fun addr => Taken k addr)
      (fun _ => Fuelled (k + 1)) := by
  intro s h
  have hpos := h.pos
  have hle := h.le
  have henough := h.enough
  rw [takeAddr_run]
  by_cases hfull : s.nextAddr ≥ MAX_USB_ADDR
  · rw [if_pos hfull]
    exact h
  · rw [if_neg hfull]
    have hlt : s.nextAddr < 127 := Nat.lt_of_not_le hfull
    exact ⟨hpos, hlt, by simp only; omega, h.addrs, h.count, by simp only; omega⟩

theorem setAddress_triple (k addr mps : Nat) :
    Triple (Taken (σ := σ) k addr) ((ControlEp.new mps).setAddress bus addr) (fun _ => Sent k)
      (fun _ => Fuelled k) := by
  have hsent : ∀ (s : St σ) (b : σ) (failed : Bool), Taken k addr s →
      Sent k (s.after (ControlEp.new mps) (.setAddress addr) b failed) := by
    intro s b failed h
    have hpos := h.pos
    have hnext := h.nextAddr
    have hle := h.le
    have hc := h.count
    have hcount : enumeratedDevices (s.after (ControlEp.new mps) (.setAddress addr) b failed).log =
        enumeratedDevices s.log := by
      simp [St.after, WalkEvent.enumerated?]
    have haddrs : setAddresses (s.after (ControlEp.new mps) (.setAddress addr) b failed).log =
        List.range' 1 addr := by
      obtain ⟨n, rfl⟩ : ∃ n, addr = n + 1 := ⟨addr - 1, by omega⟩
      rw [St.after, setAddresses_concat, h.addrs, List.range'_concat, Nat.add_sub_cancel]
      simp [WalkEvent.setAddress?, Nat.add_comm]
    constructor
    · constructor
      · constructor
        · show 1 ≤ s.nextAddr
          omega
        · show s.nextAddr ≤ 127
          omega
        · rw [haddrs]
          show _ = List.range' 1 (s.nextAddr - 1)
          rw [hnext, Nat.add_sub_cancel]
        · rw [hcount]
          show _ ≤ s.nextAddr - 1
          omega
      · exact h.enough
    · rw [hcount]
      show _ < s.nextAddr - 1
      omega
  unfold ControlEp.setAddress
  rw [if_neg (by simp [ControlEp.new])]
  refine triple_bind (Q := fun _ => Sent k) ?_ fun _ => triple_pure fun _ h => h
  exact triple_transfer (fun s _ b h _ => hsent s b false h)
    (fun s _ b h _ => (hsent s b true h).toFuelled) fun s b h _ => (hsent s b true h).toFuelled

theorem sent_counted (k : Nat) : Counted (Sent (σ := σ) k) := by
  intro s s' hsame h
  refine ⟨fuelled_counted k s s' hsame h.toFuelled, ?_⟩
  rw [hsame.devices, hsame.nextAddr]
  exact h.fewer

theorem enumerated_triple (k : Nat) (dev : UsbDevice) :
    Triple (Sent (σ := σ) k) (logEvent (.enumerated dev)) (fun _ => Fuelled k)
      (fun _ => Fuelled k) := by
  intro s h
  have hfewer := h.fewer
  refine ⟨⟨h.pos, h.le, ?_, ?_⟩, h.enough⟩
  · show setAddresses (s.log ++ [.enumerated dev]) = _
    rw [setAddresses_concat, h.addrs]
    exact List.append_nil _
  · show (enumeratedDevices (s.log ++ [.enumerated dev])).length ≤ _
    rw [enumeratedDevices_concat, List.length_append]
    show (enumeratedDevices s.log).length + 1 ≤ s.nextAddr - 1
    omega

/-- **An enumeration takes an address of its own.** -/
theorem enumerate_triple (k : Nat) (speed : PortSpeed) :
    Triple (Fuelled (k + 1)) (UsbDevice.enumerate bus speed) (fun _ => Fuelled k)
      (fun _ => Fuelled (k + 1)) := by
  unfold UsbDevice.enumerate
  refine triple_bind (quiet_probeDefaultAddr bus _ _ (counted_calm bus (fuelled_counted _)))
    fun id => ?_
  refine triple_bind (takeAddr_triple k) fun addr => ?_
  refine triple_bind (triple_error (setAddress_triple bus k addr id.mps)
    fun _ _ h => h.mono) fun ep => ?_
  have hkeep : ∀ {α : Type} {x : Op σ α}, Quiet bus x →
      Triple (Sent k) x (fun _ => Sent k) (fun _ => Fuelled (k + 1)) := fun hx =>
    triple_error (hx _ _ (counted_calm bus (sent_counted k))) fun _ _ h => h.toFuelled.mono
  refine triple_bind (hkeep (quiet_writeNoData bus _ rfl (by simp))) fun _ => ?_
  refine triple_bind (hkeep (quiet_tryOp (quiet_firstInterfaceClass bus ep))) fun class? => ?_
  refine triple_bind (triple_error (enumerated_triple k _) fun _ _ h => h.mono) fun _ => ?_
  exact triple_pure fun _ h => h

/-! ## The recursion -/

/-- A run that ends early has not run out of fuel. -/
def Stopped (e : Stop) (s : St σ) : Prop := e ≠ .fuel ∧ AddrInv s

/-- **The fuel never runs out** when there is one unit for each address left. -/
theorem fuelled_rules : WalkRules bus Fuelled (fun k _ => Fuelled k) Stopped where
  calm _ := counted_calm bus (fuelled_counted _)
  mono _ _ h := h.mono
  halt _ _ _ h := ⟨(fun he => nomatch he), h.toAddrInv⟩
  fuel s h := by
    have hle := h.le
    have henough := h.enough
    omega
  enumerate k speed := enumerate_triple bus k speed

theorem enumerateBusFrom_triple (k : Nat) :
    Triple (Fuelled (k + 1)) (enumerateBusFrom bus k) (fun _ => AddrInv) Stopped :=
  triple_post ((fuelled_rules bus).enumerateBusFrom k) fun _ _ h => h.toAddrInv

theorem fuelled_start {fuel : Nat} (hfuel : 126 ≤ fuel) (b : σ) :
    Fuelled (fuel + 1) (⟨1, b, []⟩ : St σ) :=
  ⟨⟨Nat.le_refl 1, Nat.le_of_ble_eq_true rfl, rfl, Nat.zero_le _⟩, by simp only; omega⟩

/-- The addresses and devices of a run, however it ends. -/
structure Distinct (r : EStateM.Result Stop (St σ) Unit) : Prop where
  distinct : (setAddresses (endState r).log).Nodup
  range : ∀ a ∈ setAddresses (endState r).log, 1 ≤ a ∧ a ≤ 126
  devices : (enumeratedDevices (endState r).log).length ≤ 126

/-- **Every run has distinct addresses below 127**. -/
theorem enumerateBus_addresses {fuel : Nat} (hfuel : 126 ≤ fuel) (b : σ) :
    Distinct (enumerateBus bus fuel b) := by
  have hinv : AddrInv (endState (enumerateBus bus fuel b)) :=
    triple_endState (triple_error (enumerateBusFrom_triple bus fuel) fun _ _ h => h.2)
      (fuelled_start hfuel b)
  have hle := hinv.le
  have hcount := hinv.count
  constructor
  · rw [hinv.addrs]
    exact List.nodup_range'
  · intro a ha
    rw [hinv.addrs, List.mem_range'_1] at ha
    omega
  · omega

/-- **The recursion ends**, on every bus. -/
theorem enumerateBus_fuelled {fuel : Nat} (hfuel : 126 ≤ fuel) (b : σ) (s : St σ) :
    enumerateBus bus fuel b ≠ .error .fuel s := by
  intro hs
  have hstop := enumerateBusFrom_triple bus fuel _ (fuelled_start hfuel b)
  have hs : (enumerateBusFrom bus fuel).run ⟨1, b, []⟩ = .error .fuel s := hs
  rw [hs] at hstop
  exact hstop.1 rfl

/-! ## More fuel changes nothing -/

theorem dispatch_agrees (k : Nat) (dev : UsbDevice) :
    Agrees Stop.fuel (UsbDevice.dispatch bus k dev) (UsbDevice.dispatch bus (k + 1) dev) := by
  induction k generalizing dev with
  | zero => exact fun s => Or.inl ⟨s, rfl⟩
  | succ k ih =>
      have hvisit : ∀ hub : Hub, Agrees Stop.fuel (hub.walkSubtree bus (UsbDevice.dispatch bus k))
          (hub.walkSubtree bus (UsbDevice.dispatch bus (k + 1))) := by
        intro hub
        refine agrees_bind (agrees_refl _ _) fun _ => agrees_forCount (fun port => ?_) _ _
        refine agrees_bind (agrees_refl _ _) fun child => ?_
        cases child with
        | ok child => exact ih child
        | error e =>
          cases e with
          | stuck => exact agrees_refl _ _
          | error e => cases e <;> exact agrees_refl _ _
      unfold UsbDevice.dispatch
      refine agrees_bind (agrees_refl _ _) fun _ => ?_
      by_cases hhub : dev.isHub
      · rw [if_pos hhub, if_pos hhub]
        exact agrees_bind (agrees_refl _ _) fun hub => hvisit _
      · rw [if_neg hhub, if_neg hhub]
        exact agrees_refl _ _

/-- **The fuel is of no account**: from 126 on, every run is the same. -/
theorem enumerateBus_fuel {fuel : Nat} (hfuel : 126 ≤ fuel) (b : σ) :
    enumerateBus bus fuel b = enumerateBus bus 126 b := by
  obtain ⟨k, rfl⟩ := Nat.exists_eq_add_of_le hfuel
  clear hfuel
  induction k with
  | zero => rfl
  | succ k ih =>
      have hagrees : Agrees Stop.fuel (enumerateBusFrom bus (126 + k))
          (enumerateBusFrom bus (126 + k + 1)) := by
        refine agrees_bind (agrees_refl _ _) fun _ => agrees_bind (agrees_refl _ _) fun connected => ?_
        cases connected with
        | false => exact agrees_refl _ _
        | true => exact agrees_bind (agrees_refl _ _) fun child => dispatch_agrees bus _ child
      rcases hagrees ⟨1, b, []⟩ with ⟨s, hs⟩ | hs
      · exact absurd hs (enumerateBus_fuelled bus (Nat.le_add_right 126 k) b s)
      · exact hs.trans ih

end Enumeration

end Cvirtos.Usb
