import Cvirtos.Lib.AlternatingBit
import Cvirtos.Usb.Dwc2.Control

/-!
# Control writes

A control write over a bus that loses packets and acknowledgements, to a device that keeps to the
data toggle.

* `xfer_attempts` — every attempt of a transfer has the same parameters and the same bytes, and one
  that succeeds has reached the device;
* `write_exactly_once` — **the device has taken exactly the data, before the status stage**.
-/

set_option autoImplicit false

namespace Cvirtos.Usb.Dwc2

open Cvirtos.Lib

/-! ### The bus -/

/-- What becomes of one attempt on the bus. -/
structure Answer where
  /-- The channel can be armed. -/
  idle : Bool
  /-- The interrupt word at halt. -/
  halt : Option HcintSnapshot
  /-- The packet has reached the device. -/
  reached : Bool
  /-- The controller reports success once the device has acknowledged; after any other word the
  packet may have arrived or not. -/
  acknowledged : ∀ st, halt = some st → Completes st → reached = true

/-- An attempt: the transfer, the bytes in its buffer, and whether they reached the device. -/
structure Attempt where
  transfer : Transfer
  bytes : List UInt8
  reached : Bool
  deriving DecidableEq, Repr

/-- The DMA window, and the attempts so far. -/
structure Bench where
  mem : Memory UInt8
  armed : Option Transfer
  log : List Attempt

/-- An attempt runs: the controller fetches the buffer. -/
def Bench.attempt (s : Bench) (reached : Bool) : Bench :=
  match s.armed with
  | none => s
  | some t =>
    { s with
      armed := none
      log := s.log ++ [⟨t, load s.mem t.dmaOff t.xferSize, reached⟩] }

/-- The machine over a bus that answers the attempts in turn. -/
def bench (answers : Nat → Answer) : Machine Bench where
  arm _ t s := if (answers s.log.length).idle then (true, { s with armed := some t }) else (false, s)
  waitHalted _ s := ((answers s.log.length).halt, s.attempt (answers s.log.length).reached)
  xferSizeLeft _ _ := 0
  write off bytes s := { s with mem := store s.mem off bytes }
  read off len s := (load s.mem off len, s)
  clean _ _ s := s
  invalidate _ _ s := s

/-! ### The device -/

/-- What reaches the device. -/
inductive Packet where
  | setup (bytes : List UInt8)
  | data (frame : Bool × List UInt8)
  | statusIn
  deriving DecidableEq, Repr

/-- A device that keeps to the data toggle. -/
structure Device where
  setup : List UInt8
  dataStage : Receiver (List UInt8)
  /-- What it had taken when the status stage began. -/
  statusAt : Option (List (List UInt8))
  deriving DecidableEq, Repr

/-- A SETUP packet starts over, a data packet is taken or discarded, and the first IN token starts
the status stage. -/
def Device.receive (d : Device) : Packet → Device
  | .setup bytes => ⟨bytes, ⟨true, []⟩, none⟩
  | .data frame => { d with dataStage := d.dataStage.receive frame }
  | .statusIn => { d with statusAt := some (d.statusAt.getD d.dataStage.taken) }

def Device.run (d : Device) (ps : List Packet) : Device := ps.foldl Device.receive d

/-- The packet of an attempt. -/
def Attempt.packet (a : Attempt) : Packet :=
  if a.transfer.dirIn then .statusIn
  else
    match a.transfer.pid with
    | .setup => .setup a.bytes
    | .data0 => .data (false, a.bytes)
    | .data1 => .data (true, a.bytes)

/-- What reaches the device of a list of attempts. -/
def wire (as : List Attempt) : List Packet := (as.filter (·.reached)).map Attempt.packet

/-! ### One transfer -/

/-- The attempts of one transfer. -/
def block (t : Transfer) (bytes : List UInt8) (reached : List Bool) : List Attempt :=
  reached.map fun r => ⟨t, bytes, r⟩

theorem block_append (t : Transfer) (bytes : List UInt8) (rs rs' : List Bool) :
    block t bytes (rs ++ rs') = block t bytes rs ++ block t bytes rs' := List.map_append

theorem wire_append (as bs : List Attempt) : wire (as ++ bs) = wire as ++ wire bs := by
  simp [wire]

/-- A block of which something arrives. -/
theorem wire_block (t : Transfer) (bytes : List UInt8) {rs : List Bool} (h : true ∈ rs) :
    ∃ again, wire (block t bytes rs) =
      List.replicate (again + 1) (Attempt.packet ⟨t, bytes, true⟩) := by
  have hall : ∀ p ∈ wire (block t bytes rs), p = Attempt.packet ⟨t, bytes, true⟩ := by
    intro p hp
    obtain ⟨a, ha, rfl⟩ := List.mem_map.mp hp
    obtain ⟨hmem, hreached⟩ := List.mem_filter.mp ha
    obtain ⟨r, -, rfl⟩ := List.mem_map.mp hmem
    rw [show r = true from hreached]
  have hsome : Attempt.packet ⟨t, bytes, true⟩ ∈ wire (block t bytes rs) :=
    List.mem_map_of_mem (List.mem_filter.mpr ⟨List.mem_map_of_mem h, rfl⟩)
  obtain ⟨again, hlen⟩ := Nat.exists_eq_succ_of_ne_zero
    (Nat.ne_of_gt (List.length_pos_of_mem hsome))
  refine ⟨again, ?_⟩
  rw [List.eq_replicate_of_mem hall, hlen]

variable {answers : Nat → Answer}

/-- **The attempts of a transfer** all have the same parameters and the same bytes; of a transfer
that succeeds, one has reached the device. -/
theorem xfer_attempts (t : Transfer) (s : Bench) :
    Triple (fun s' => s' = s) (Channel.control.xfer (bench answers) t)
      (fun _ s' => s'.mem = s.mem ∧ ∃ rs, true ∈ rs ∧
        s'.log = s.log ++ block t (load s.mem t.dmaOff t.xferSize) rs)
      (fun _ s' => s'.mem = s.mem ∧ ∃ rs,
        s'.log = s.log ++ block t (load s.mem t.dmaOff t.xferSize) rs) := by
  refine triple_weaken (P := fun s' => s'.mem = s.mem ∧ ∃ rs,
      s'.log = s.log ++ block t (load s.mem t.dmaOff t.xferSize) rs)
    (triple_xfer
      (A := fun s' => s'.armed = some t ∧ s'.mem = s.mem ∧ ∃ rs,
        s'.log = s.log ++ block t (load s.mem t.dmaOff t.xferSize) rs)
      (Q := fun st s' => s'.mem = s.mem ∧ ∃ rs r, (Completes st → r = true) ∧
        s'.log = s.log ++ block t (load s.mem t.dmaOff t.xferSize) (rs ++ [r]))
      ?_ ?_ ?_ ?_ ?_ ?_) ?_ (fun _ _ h => h) fun _ _ h => h
  · refine triple_arm (fun s' hs hidle => ?_) fun s' hs hbusy => ?_
    · unfold bench at hidle ⊢
      dsimp only at hidle ⊢
      split at hidle
      · rename_i hyes
        rw [if_pos hyes]
        exact ⟨rfl, hs⟩
      · cases hidle
    · unfold bench at hbusy ⊢
      dsimp only at hbusy ⊢
      split at hbusy
      · cases hbusy
      · rename_i hno
        rw [if_neg hno]
        exact hs
  · have hattempt : ∀ s' : Bench, (s'.armed = some t ∧ s'.mem = s.mem ∧ ∃ rs,
        s'.log = s.log ++ block t (load s.mem t.dmaOff t.xferSize) rs) → ∀ r,
        (s'.attempt r).mem = s.mem ∧ ∃ rs, (s'.attempt r).log =
          s.log ++ block t (load s.mem t.dmaOff t.xferSize) (rs ++ [r]) := by
      rintro s' ⟨harmed, hmem, rs, hlog⟩ r
      unfold Bench.attempt
      rw [harmed]
      refine ⟨hmem, rs, ?_⟩
      rw [hlog, hmem, block_append]
      exact List.append_assoc ..
    refine triple_waitHalted (fun s' st hs hst => ?_) fun s' hs hnone => ?_
    · obtain ⟨hmem, rs, hlog⟩ := hattempt s' hs (answers s'.log.length).reached
      exact ⟨hmem, rs, _, (answers s'.log.length).acknowledged st hst, hlog⟩
    · obtain ⟨hmem, rs, hlog⟩ := hattempt s' hs (answers s'.log.length).reached
      exact ⟨hmem, _, hlog⟩
  · rintro st s' - ⟨hmem, rs, r, -, hlog⟩
    exact ⟨hmem, _, hlog⟩
  · rintro st s' hst ⟨hmem, rs, r, hr, hlog⟩
    exact ⟨hmem, rs ++ [r], by rw [hr hst]; simp, hlog⟩
  · rintro st s' e ⟨hmem, rs, r, -, hlog⟩
    exact ⟨hmem, _, hlog⟩
  · exact fun s' hs => hs
  · rintro s' rfl
    exact ⟨rfl, [], (List.append_nil _).symm⟩

/-! ### The stages -/

variable {ep : ControlEp} {s s' : Bench}

theorem setupStage_ok {setupPacket : Vector UInt8 8}
    (h : (ControlEp.setupStage (bench answers) ep setupPacket).run s = .ok () s') :
    ∃ as again, s'.log = s.log ++ as ∧
      wire as = List.replicate (again + 1) (.setup setupPacket.toList) := by
  unfold ControlEp.setupStage at h
  obtain ⟨⟨⟩, s₁, hwrite, h₁⟩ := run_bind_ok h
  obtain ⟨⟨⟩, s₂, hclean, h₂⟩ := run_bind_ok h₁
  obtain ⟨st, s₃, hxfer, h₃⟩ := run_bind_ok h₂
  cases hwrite
  cases hclean
  cases h₃
  obtain ⟨-, rs, hrs, hlog⟩ := (xfer_attempts _ _).ok rfl hxfer
  obtain ⟨again, hwire⟩ := wire_block (ControlEp.transfer ep false .setup 8 OFF_EP0)
    (load (store s.mem OFF_EP0 setupPacket.toList) OFF_EP0 8) hrs
  refine ⟨_, again, hlog, hwire.trans ?_⟩
  have hload : load (store s.mem OFF_EP0 setupPacket.toList) OFF_EP0 8 = setupPacket.toList := by
    have hself := load_store_self s.mem OFF_EP0 setupPacket.toList
    rw [Vector.length_toList] at hself
    exact hself
  rw [hload]
  rfl

theorem statusStage_ok (h : (ControlEp.statusStage (bench answers) ep true).run s = .ok () s') :
    ∃ as again, s'.log = s.log ++ as ∧ wire as = List.replicate (again + 1) .statusIn := by
  unfold ControlEp.statusStage at h
  obtain ⟨st, s₁, hxfer, h⟩ := run_bind_ok h
  cases h
  obtain ⟨-, rs, hrs, hlog⟩ := (xfer_attempts _ _).ok rfl hxfer
  obtain ⟨again, hwire⟩ := wire_block (ControlEp.transfer ep true .data1 0 OFF_EP0) _ hrs
  exact ⟨_, again, hlog, hwire⟩

/-- The chunks arrive in order with alternating PIDs, each at least once. -/
theorem writeChunks_ok {data1 : Bool} {cs : List (List UInt8)}
    (h : (ControlEp.writeChunks (bench answers) ep data1 cs).run s = .ok () s') :
    ∃ as xs, s'.log = s.log ++ as ∧ xs.map Prod.fst = cs ∧
      wire as = (arrivals data1 xs).map .data := by
  induction cs generalizing data1 s with
  | nil =>
      cases h
      exact ⟨[], [], (List.append_nil _).symm, rfl, rfl⟩
  | cons chunk cs ih =>
      unfold ControlEp.writeChunks at h
      obtain ⟨⟨⟩, s₁, hwrite, h₁⟩ := run_bind_ok h
      obtain ⟨⟨⟩, s₂, hclean, h₂⟩ := run_bind_ok h₁
      obtain ⟨st, s₃, hxfer, h₃⟩ := run_bind_ok h₂
      cases hwrite
      cases hclean
      obtain ⟨-, rs, hrs, hlog⟩ := (xfer_attempts _ _).ok rfl hxfer
      obtain ⟨as, xs, hlog', hxs, hwire⟩ := ih h₃
      obtain ⟨again, hblock⟩ := wire_block
        (ControlEp.transfer ep false (dataPid data1) chunk.length DMA_OFF_SMALL_IO)
        (load (store s.mem DMA_OFF_SMALL_IO chunk) DMA_OFF_SMALL_IO chunk.length) hrs
      have hpacket : Attempt.packet
          ⟨ControlEp.transfer ep false (dataPid data1) chunk.length DMA_OFF_SMALL_IO,
            load (store s.mem DMA_OFF_SMALL_IO chunk) DMA_OFF_SMALL_IO chunk.length, true⟩ =
          .data (data1, chunk) := by
        rw [load_store_self]
        cases data1 <;> rfl
      refine ⟨block (ControlEp.transfer ep false (dataPid data1) chunk.length DMA_OFF_SMALL_IO)
        (load (store s.mem DMA_OFF_SMALL_IO chunk) DMA_OFF_SMALL_IO chunk.length) rs ++ as,
        (chunk, again) :: xs, ?_, by rw [List.map_cons, hxs], ?_⟩
      · rw [hlog', hlog]
        exact List.append_assoc ..
      · rw [wire_append, hwire, hblock, hpacket, arrivals_cons, List.map_append, List.map_replicate]

/-! ### What the device makes of it -/

theorem Device.run_append (d : Device) (ps qs : List Packet) :
    d.run (ps ++ qs) = (d.run ps).run qs := List.foldl_append

/-- However often SETUP arrives, the data stage starts with DATA1 and with nothing taken. -/
theorem Device.run_setup (d : Device) (bytes : List UInt8) (again : Nat) :
    d.run (List.replicate (again + 1) (.setup bytes)) = ⟨bytes, ⟨true, []⟩, none⟩ := by
  induction again generalizing d with
  | zero => rfl
  | succ again ih =>
      rw [List.replicate_succ]
      exact ih _

theorem Device.run_data (d : Device) (fs : List (Bool × List UInt8)) :
    d.run (fs.map .data) = { d with dataStage := d.dataStage.run fs } := by
  induction fs generalizing d with
  | nil => rfl
  | cons f fs ih => exact ih _

/-- The status stage begins with what had been taken by then. -/
theorem Device.run_status (d : Device) (hd : d.statusAt = none) (again : Nat) :
    d.run (List.replicate (again + 1) .statusIn) =
      { d with statusAt := some d.dataStage.taken } := by
  have hmore : ∀ n, Device.run { d with statusAt := some d.dataStage.taken }
      (List.replicate n .statusIn) = { d with statusAt := some d.dataStage.taken } := by
    intro n
    induction n with
    | zero => rfl
    | succ n ih =>
        rw [List.replicate_succ]
        exact ih
  have hfirst : d.receive .statusIn = { d with statusAt := some d.dataStage.taken } := by
    unfold Device.receive
    rw [hd]
    rfl
  rw [List.replicate_succ, Device.run, List.foldl_cons, hfirst]
  exact hmore again

/-- However a transfer ends, all of its attempts have the same parameters and the same bytes. -/
theorem xfer_rearms (answers : Nat → Answer) (t : Transfer) (s : Bench) :
    ∃ rs, (endState ((Channel.control.xfer (bench answers) t).run s)).log =
      s.log ++ block t (load s.mem t.dmaOff t.xferSize) rs := by
  refine triple_endState (I := fun s' => s' = s) (J := fun s' => ∃ rs,
    s'.log = s.log ++ block t (load s.mem t.dmaOff t.xferSize) rs)
    (triple_weaken (xfer_attempts t s) (fun _ h => h) ?_ ?_) rfl
  · rintro st s' ⟨-, rs, -, hlog⟩
    exact ⟨rs, hlog⟩
  · rintro e s' ⟨-, rs, hlog⟩
    exact ⟨rs, hlog⟩

/-- **A control write that returns has been delivered exactly once**: of what reached the device
during the call, it has taken the SETUP packet and the data, in order and once each, before the
status stage; and a retry repeats the transfer and the bytes of the attempt before. -/
theorem write_exactly_once (answers : Nat → Answer) (ep : ControlEp) (setupPacket : Vector UInt8 8)
    (data : List UInt8) (s s' : Bench) (d : Device)
    (h : (ControlEp.write (bench answers) ep setupPacket data).run s = .ok () s') :
    (∃ as, s'.log = s.log ++ as ∧
      (d.run (wire as)).setup = setupPacket.toList ∧
      (d.run (wire as)).dataStage.taken.flatten = data ∧
      (d.run (wire as)).statusAt = some (d.run (wire as)).dataStage.taken) ∧
    ∀ t s, ∃ rs, (endState ((Channel.control.xfer (bench answers) t).run s)).log =
      s.log ++ block t (load s.mem t.dmaOff t.xferSize) rs := by
  refine ⟨?_, xfer_rearms answers⟩
  unfold ControlEp.write at h
  split at h
  · cases h
  obtain ⟨⟨⟩, s₁, hsetup, h₁⟩ := run_bind_ok h
  split at h₁
  · cases h₁
  · rename_i hmps
    obtain ⟨⟨⟩, s₂, hdata, h₂⟩ := run_bind_ok h₁
    obtain ⟨as₁, again, hlog₁, hwire₁⟩ := setupStage_ok hsetup
    obtain ⟨as₂, xs, hlog₂, hxs, hwire₂⟩ := writeChunks_ok hdata
    obtain ⟨as₃, more, hlog₃, hwire₃⟩ := statusStage_ok h₂
    -- the state of the device after each stage
    have hrun : d.run (wire (as₁ ++ as₂ ++ as₃)) =
        ⟨setupPacket.toList, Receiver.run ⟨true, []⟩ (arrivals true xs),
          some (Receiver.run ⟨true, []⟩ (arrivals true xs)).taken⟩ := by
      rw [wire_append, wire_append, hwire₁, hwire₂, hwire₃, Device.run_append, Device.run_append,
        Device.run_setup, Device.run_data, Device.run_status _ rfl]
    refine ⟨as₁ ++ as₂ ++ as₃, ?_, ?_⟩
    · rw [hlog₃, hlog₂, hlog₁, List.append_assoc, List.append_assoc, List.append_assoc]
    · rw [hrun]
      refine ⟨rfl, ?_, rfl⟩
      rw [run_arrivals, hxs, List.nil_append]
      exact flatten_chunks hmps data

namespace Answer

def ack : Answer := ⟨true, some (1 <<< HCINT.XFERCOMPL), true, fun _ _ _ => rfl⟩

def lostAck : Answer := ⟨true, some (1 <<< HCINT.XACTERR), true, fun _ _ _ => rfl⟩

def lostPacket : Answer where
  idle := true
  halt := some (1 <<< HCINT.XACTERR)
  reached := false
  acknowledged := by
    rintro st ⟨⟩ hst
    exact absurd hst (by decide)

def nak : Answer where
  idle := true
  halt := some (1 <<< HCINT.NAK)
  reached := false
  acknowledged := by
    rintro st ⟨⟩ hst
    exact absurd hst (by decide)

end Answer

/-- A bus on which every stage meets an error. -/
def lossyBus (n : Nat) : Answer :=
  [.lostAck, .ack, .lostAck, .nak, .ack, .lostPacket, .lostAck, .ack, .nak, .ack][n]?.getD .ack

/-- The call has returned. -/
def returned {σ : Type} : EStateM.Result Stop σ Unit → Bool
  | .ok _ _ => true
  | .error _ _ => false

theorem returned_eq {σ : Type} {r : EStateM.Result Stop σ Unit} (h : returned r = true) :
    r = .ok () (endState r) := by
  cases r with
  | ok _ s => rfl
  | error e s => cases h

theorem write_exactly_once_lossy : ∃ s',
    (ControlEp.write (bench lossyBus) ⟨5, 8⟩ #v[0x21, 1, 0, 1, 1, 0, 10, 0]
      [1, 2, 3, 4, 5, 6, 7, 8, 9, 10]).run ⟨fun _ => 0, none, []⟩ = .ok () s' ∧
    ∃ as, s'.log = [] ++ as ∧
      (Device.run ⟨[], ⟨false, []⟩, none⟩ (wire as)).dataStage.taken.flatten =
        [1, 2, 3, 4, 5, 6, 7, 8, 9, 10] := by
  have hrun := returned_eq (r := (ControlEp.write (bench lossyBus) ⟨5, 8⟩
    #v[0x21, 1, 0, 1, 1, 0, 10, 0] [1, 2, 3, 4, 5, 6, 7, 8, 9, 10]).run ⟨fun _ => 0, none, []⟩)
    (by decide +kernel)
  obtain ⟨⟨as, hlog, -, hdata, -⟩, -⟩ :=
    write_exactly_once lossyBus _ _ _ _ _ ⟨[], ⟨false, []⟩, none⟩ hrun
  exact ⟨_, hrun, as, hlog, hdata⟩

end Cvirtos.Usb.Dwc2
