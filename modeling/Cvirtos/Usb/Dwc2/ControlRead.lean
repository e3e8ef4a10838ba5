import Cvirtos.Usb.Dwc2.Control

/-!
# Control reads

A control read from a device that answers with fewer bytes than asked for.  The chunk loop runs
over the length asked for, and copies whole chunks, whatever has arrived.

* `read_follows_iff` — **the read follows the data stage of the device exactly when** the device
  sends everything asked for, or at least one full packet and as many packets as the loop has chunks;
* `hubDescriptor_stale` — a 9-byte descriptor, of which 64 bytes are asked for.
-/

set_option autoImplicit false

namespace Cvirtos.Usb.Dwc2

open Cvirtos.Lib

/-! ### The device -/

/-- A device that answers a control read. -/
structure InDevice where
  /-- What it answers with, of `wLength` bytes asked for. -/
  response : List UInt8
  wLength : Nat
  mps : Nat
  /-- How often it answers NAK before each transaction of the transfer. -/
  naks : Nat → Nat
  /-- What it does with an IN token once the data stage is over. -/
  late : Nat → Option HcintSnapshot × List UInt8

inductive Transaction where
  | setup
  | dataIn
  | statusOut
  deriving DecidableEq, Repr

/-- The DMA window, the device and the transactions so far. -/
structure ReadBench where
  mem : Memory UInt8
  armed : Option Transfer
  /-- NAKs before the current transaction. -/
  naked : Nat
  transactions : List Transaction
  /-- What the device has still to send. -/
  rest : List UInt8
  ended : Bool

/-- Before a transfer: any window. -/
def ReadBench.start (mem : Memory UInt8) : ReadBench := ⟨mem, none, 0, [], [], true⟩

def nakWord : HcintSnapshot := 1 <<< HCINT.NAK
def xferComplWord : HcintSnapshot := 1 <<< HCINT.XFERCOMPL

/-- One transaction.  The data stage ends with a packet shorter than `mps`, or with the last byte
that was asked for. -/
def InDevice.transact (dev : InDevice) (t : Transfer) (s : ReadBench) :
    Option HcintSnapshot × ReadBench :=
  if t.dirIn then
    if s.ended then
      ((dev.late s.transactions.length).1,
        ⟨store s.mem t.dmaOff ((dev.late s.transactions.length).2.take t.xferSize), none, 0,
          s.transactions ++ [.dataIn], s.rest, true⟩)
    else
      (some xferComplWord,
        ⟨store s.mem t.dmaOff (s.rest.take dev.mps), none, 0, s.transactions ++ [.dataIn],
          s.rest.drop dev.mps,
          s.rest.length < dev.mps ∨
            (s.rest.drop dev.mps = [] ∧ dev.response.length = dev.wLength)⟩)
  else if t.pid = .setup then
    (some xferComplWord, ⟨s.mem, none, 0, s.transactions ++ [.setup], dev.response, false⟩)
  else (some xferComplWord, ⟨s.mem, none, 0, s.transactions ++ [.statusOut], s.rest, s.ended⟩)

/-- The machine with the device behind it. -/
def readBench (dev : InDevice) : Machine ReadBench where
  arm _ t s := (true, { s with armed := some t })
  waitHalted _ s :=
    if s.naked < dev.naks s.transactions.length then
      (some nakWord, { s with armed := none, naked := s.naked + 1 })
    else
      match s.armed with
      | none => (none, s)
      | some t => dev.transact t s
  xferSizeLeft _ _ := 0
  write off bytes s := { s with mem := store s.mem off bytes }
  read off len s := (load s.mem off len, s)
  clean _ _ s := s
  invalidate _ _ s := s

/-- The IN transactions of the data stage, for `n` of `len` bytes: full packets and a shorter one,
or everything that was asked for. -/
def packets (mps len n : Nat) : Nat := if n < len then n / mps + 1 else (len + mps - 1) / mps

/-- **The read follows the data stage**: whatever the window held before, it issues the transactions
of the data stage and then the status stage, and returns the same bytes, the response in front. -/
def Follows (dev : InDevice) (ep : ControlEp) (setupPacket : Vector UInt8 8) (len : Nat) : Prop :=
  ∃ out : List UInt8, out.take dev.response.length = dev.response ∧ ∀ mem, ∃ s',
    (ControlEp.read (readBench dev) ep setupPacket len).run (.start mem) = .ok out s' ∧
    s'.transactions = .setup ::
      List.replicate (packets dev.mps len dev.response.length) .dataIn ++ [.statusOut]

/-! ### One transfer -/

variable {dev : InDevice} {t : Transfer} {s : ReadBench}

theorem nakWord_bits : isSet nakWord HCINT.STALL = false ∧ isSet nakWord HCINT.XACTERR = false ∧
    isSet nakWord HCINT.NAK = true := by decide

theorem xferComplWord_completes : Completes xferComplWord := by decide

/-- A channel that halts gives its word. -/
theorem waitHalted_run {σ : Type} {m : Machine σ} {ch : Channel} {s s' : σ} {st : HcintSnapshot}
    (h : m.waitHalted ch s = (some st, s')) : (ch.waitHalted m).run s = .ok st s' := by
  have hquery : (query (m.waitHalted ch)).run s = .ok (some st) s' := by
    change EStateM.Result.ok (m.waitHalted ch s).1 (m.waitHalted ch s).2 = _
    rw [h]
  unfold Channel.waitHalted
  rw [run_bind hquery]
  rfl

/-- A transaction answered by NAK is tried again, up to the last attempt. -/
theorem xferLoop_nak {left xactLeft : Nat} (hnak : s.naked < dev.naks s.transactions.length) :
    (Channel.control.xferLoop (readBench dev) t (left + 1) xactLeft).run s =
      if left = 0 then .error (.err (.protocol "ch xfer NAK exhausted"))
        { s with armed := none, naked := s.naked + 1 }
      else (Channel.control.xferLoop (readBench dev) t left xactLeft).run
        { s with armed := none, naked := s.naked + 1 } := by
  have harm : (Channel.control.arm (readBench dev) t).run s = .ok () { s with armed := some t } := rfl
  have hhalt : (Channel.control.waitHalted (readBench dev)).run { s with armed := some t } =
      .ok nakWord { s with armed := none, naked := s.naked + 1 } := waitHalted_run (if_pos hnak)
  obtain ⟨hstall, hxact, hbit⟩ := nakWord_bits
  rw [Channel.xferLoop, run_bind harm, run_bind hhalt, hstall, hxact, hbit]
  change (if left = 0 then _ else _ : Io ReadBench HcintSnapshot).run _ = _
  split <;> rfl

/-- A transaction that completes ends the transfer. -/
theorem xferLoop_done {left xactLeft : Nat}
    (hready : ¬ s.naked < dev.naks s.transactions.length) {s' : ReadBench}
    (hanswer : dev.transact t { s with armed := some t } = (some xferComplWord, s')) :
    (Channel.control.xferLoop (readBench dev) t (left + 1) xactLeft).run s =
      .ok xferComplWord s' := by
  have harm : (Channel.control.arm (readBench dev) t).run s = .ok () { s with armed := some t } := rfl
  have hhalt : (Channel.control.waitHalted (readBench dev)).run { s with armed := some t } =
      .ok xferComplWord s' := waitHalted_run ((if_neg hready).trans hanswer)
  obtain ⟨hstall, hxact, hnak, hbit⟩ := xferComplWord_completes
  rw [Channel.xferLoop, run_bind harm, run_bind hhalt, hstall, hxact, hnak, hbit]
  rfl

/-- **A transfer that completes when the device is ready** does so exactly when the device answers
with NAK at most 64 times before. -/
theorem xfer_ready {s' : ReadBench} (hstart : s.naked = 0)
    (hanswer : ∀ n, dev.transact t { s with armed := some t, naked := n } =
      (some xferComplWord, s')) :
    ReturnsIff (dev.naks s.transactions.length ≤ 64) (Channel.control.xfer (readBench dev) t) s
      xferComplWord s' := by
  have hloop : ∀ left xactLeft (s₁ : ReadBench), s₁.transactions = s.transactions →
      (∀ n, dev.transact t { s₁ with armed := some t, naked := n } = (some xferComplWord, s')) →
      ReturnsIff (dev.naks s.transactions.length ≤ s₁.naked + left)
        (Channel.control.xferLoop (readBench dev) t (left + 1) xactLeft) s₁ xferComplWord s' := by
    intro left
    induction left with
    | zero =>
        intro xactLeft s₁ htrans h
        refine ⟨fun hle => xferLoop_done (by rw [htrans]; omega) (h s₁.naked), fun hlt => ?_⟩
        exact ⟨_, _, (xferLoop_nak (by rw [htrans]; omega)).trans (if_pos rfl)⟩
    | succ left ih =>
        intro xactLeft s₁ htrans h
        by_cases hnak : s₁.naked < dev.naks s₁.transactions.length
        · have hnext := ih xactLeft { s₁ with armed := none, naked := s₁.naked + 1 } htrans h
          unfold ReturnsIff
          rw [(xferLoop_nak hnak).trans (if_neg (Nat.succ_ne_zero left))]
          refine hnext.congr ?_
          change _ ≤ s₁.naked + 1 + left ↔ _
          omega
        · refine ⟨fun _ => xferLoop_done hnak (h s₁.naked), fun hlt => ?_⟩
          rw [htrans] at hnak
          omega
  have h := hloop NAK_RETRIES XACT_RETRIES s rfl hanswer
  rw [hstart, Nat.zero_add] at h
  exact h

/-! ### What the chunks hold -/

/-- What the chunks of `out` hold after the IN transactions that bring `rest`. -/
def readOut (mps : Nat) (mem : Memory UInt8) (rest : List UInt8) : List Nat → List UInt8
  | [] => []
  | len :: lens =>
    load (store mem DMA_OFF_SMALL_IO (rest.take mps)) DMA_OFF_SMALL_IO len ++
      readOut mps (store mem DMA_OFF_SMALL_IO (rest.take mps)) (rest.drop mps) lens

/-- The chunks look at one packet's room of the window only. -/
theorem readOut_congr {mps : Nat} {mem mem' : Memory UInt8} {lens : List Nat} (rest : List UInt8)
    (hlens : ∀ len ∈ lens, len ≤ mps)
    (h : ∀ a, DMA_OFF_SMALL_IO ≤ a → a < DMA_OFF_SMALL_IO + mps → mem' a = mem a) :
    readOut mps mem' rest lens = readOut mps mem rest lens := by
  induction lens generalizing mem mem' rest with
  | nil => rfl
  | cons len lens ih =>
      obtain ⟨hlen, hlens⟩ := List.forall_mem_cons.mp hlens
      have hstore : ∀ a, DMA_OFF_SMALL_IO ≤ a → a < DMA_OFF_SMALL_IO + mps →
          store mem' DMA_OFF_SMALL_IO (rest.take mps) a =
            store mem DMA_OFF_SMALL_IO (rest.take mps) a := by
        intro a h1 h2
        unfold store
        split
        · rfl
        · exact h a h1 h2
      unfold readOut
      rw [ih _ hlens hstore, load_congr fun a h1 h2 => hstore a h1 (by omega)]

/-- A first packet that fills its room leaves nothing of what was there before. -/
theorem readOut_full {mps len : Nat} (hmps : 0 < mps) {rest : List UInt8} (hfull : mps ≤ rest.length)
    (mem mem' : Memory UInt8) :
    readOut mps mem rest (chunkLens mps len) = readOut mps mem' rest (chunkLens mps len) := by
  rcases Nat.eq_zero_or_pos len with rfl | hlen
  · rw [chunkLens_zero]
    rfl
  · have htake : (rest.take mps).length = mps := List.length_take_of_le hfull
    have hstore : ∀ a, DMA_OFF_SMALL_IO ≤ a → a < DMA_OFF_SMALL_IO + mps →
        store mem DMA_OFF_SMALL_IO (rest.take mps) a =
          store mem' DMA_OFF_SMALL_IO (rest.take mps) a := by
      intro a h1 h2
      unfold store
      rw [dif_pos (by omega), dif_pos (by omega)]
    rw [chunkLens_cons hmps hlen]
    unfold readOut
    rw [readOut_congr _ chunkLens_le hstore, load_congr fun a h1 h2 => hstore a h1 (by omega)]

/-- **The response lies in front**, whatever is behind it. -/
theorem readOut_take {mps : Nat} (hmps : 0 < mps) {len : Nat} {rest : List UInt8}
    (hle : rest.length ≤ len) (mem : Memory UInt8) :
    (readOut mps mem rest (chunkLens mps len)).take rest.length = rest := by
  fun_induction chunkLens mps len generalizing rest mem with
  | case1 len h =>
    rw [List.eq_nil_of_length_eq_zero (by omega : rest.length = 0)]
    rfl
  | case2 len h ih =>
    unfold readOut
    by_cases hfull : mps ≤ rest.length
    · have htake : (rest.take mps).length = min mps len := by
        rw [List.length_take_of_le hfull]
        omega
      have hdrop : (rest.drop mps).length ≤ len - mps := by
        rw [List.length_drop]
        omega
      have hrest : rest.length = (rest.take mps).length + (rest.drop mps).length := by
        rw [← List.length_append, List.take_append_drop]
      rw [← htake, load_store_self, hrest, List.take_length_add_append, ih hdrop,
        List.take_append_drop]
    · have hshort : rest.length ≤ min mps len := by omega
      rw [List.take_of_length_le (by omega : rest.length ≤ mps),
        List.take_append_of_le_length (by rw [load_length]; exact hshort)]
      obtain ⟨k, hk⟩ := Nat.exists_eq_add_of_le hshort
      rw [hk, load_append, load_store_self, List.take_left]

theorem length_readOut {mps : Nat} (hmps : 0 < mps) (len : Nat) (mem : Memory UInt8)
    (rest : List UInt8) : (readOut mps mem rest (chunkLens mps len)).length = len := by
  fun_induction chunkLens mps len generalizing rest mem with
  | case1 len h =>
    change 0 = len
    omega
  | case2 len h ih =>
    unfold readOut
    rw [List.length_append, load_length, ih]
    omega

/-- One chunk that the response does not fill ends with what the window held before. -/
theorem readOut_stale {mps len : Nat} {rest : List UInt8} (hlen : rest.length < len)
    (hchunk : len ≤ mps) (mem : Memory UInt8) :
    (readOut mps mem rest (chunkLens mps len))[rest.length]? =
      (load mem DMA_OFF_SMALL_IO len)[rest.length]? := by
  rw [chunkLens_cons (by omega) (by omega), Nat.sub_eq_zero_of_le hchunk, chunkLens_zero,
    Nat.min_eq_right hchunk]
  unfold readOut
  rw [List.take_of_length_le (by omega : rest.length ≤ mps),
    List.getElem?_append_left (by rw [load_length]; exact hlen), load_getElem? _ _ _ _ hlen,
    load_getElem? _ _ _ _ hlen, store_outside _ (Or.inr (Nat.le_refl _))]

/-! ### The stages -/

variable {ep : ControlEp}

theorem setupStage_run (dev : InDevice) (ep : ControlEp) (setupPacket : Vector UInt8 8)
    (hready : s.naked = 0) :
    ReturnsIff (dev.naks s.transactions.length ≤ 64)
      (ControlEp.setupStage (readBench dev) ep setupPacket) s ()
      ⟨store s.mem OFF_EP0 setupPacket.toList, none, 0, s.transactions ++ [.setup], dev.response,
        false⟩ := by
  have hready' : ({ s with mem := store s.mem OFF_EP0 setupPacket.toList } : ReadBench).naked = 0 :=
    hready
  have hxfer : ReturnsIff (dev.naks s.transactions.length ≤ 64)
      (Channel.control.xfer (readBench dev) (ControlEp.transfer ep false .setup 8 OFF_EP0))
      { s with mem := store s.mem OFF_EP0 setupPacket.toList } xferComplWord
      ⟨store s.mem OFF_EP0 setupPacket.toList, none, 0, s.transactions ++ [.setup], dev.response,
        false⟩ := xfer_ready hready' fun _ => rfl
  exact returnsIff_after rfl (returnsIff_after rfl (returnsIff_map hxfer))

theorem statusStage_run (dev : InDevice) (ep : ControlEp) (hready : s.naked = 0) :
    ReturnsIff (dev.naks s.transactions.length ≤ 64)
      (ControlEp.statusStage (readBench dev) ep false) s ()
      ⟨s.mem, none, 0, s.transactions ++ [.statusOut], s.rest, s.ended⟩ := by
  have hxfer : ReturnsIff (dev.naks s.transactions.length ≤ 64)
      (Channel.control.xfer (readBench dev) (ControlEp.transfer ep false .data1 0 OFF_EP0)) s
      xferComplWord ⟨s.mem, none, 0, s.transactions ++ [.statusOut], s.rest, s.ended⟩ :=
    xfer_ready hready fun _ => rfl
  exact returnsIff_map hxfer

/-- Before a chunk, with `len` bytes still to come: the device has as many packets to send as the
loop has chunks. -/
structure InStep (dev : InDevice) (len : Nat) (s : ReadBench) : Prop where
  room : s.rest.length ≤ len
  ready : s.naked = 0
  running : 0 < len → s.ended = false
  whole : 0 < len → (s.rest.length = len ↔ dev.response.length = dev.wLength)
  short : s.rest.length < len → s.rest.length / dev.mps + 1 = (len + dev.mps - 1) / dev.mps

/-- After the packet of a chunk. -/
def InDevice.afterPacket (dev : InDevice) (s : ReadBench) : ReadBench :=
  ⟨store s.mem DMA_OFF_SMALL_IO (s.rest.take dev.mps), none, 0, s.transactions ++ [.dataIn],
    s.rest.drop dev.mps,
    s.rest.length < dev.mps ∨
      (s.rest.drop dev.mps = [] ∧ dev.response.length = dev.wLength)⟩

theorem InStep.next {len : Nat} (hmps : 0 < dev.mps) (hlen : 0 < len) (h : InStep dev len s) :
    InStep dev (len - dev.mps) (dev.afterPacket s) := by
  have hrest : (dev.afterPacket s).rest.length = s.rest.length - dev.mps := List.length_drop
  have hroom := h.room
  have hwhole := h.whole hlen
  -- with a chunk to come, the packet just sent was a full one
  have hmore : dev.mps < len → s.rest.length < len →
      dev.mps ≤ s.rest.length ∧
        (s.rest.length - dev.mps) / dev.mps + 1 = (len - dev.mps + dev.mps - 1) / dev.mps := by
    intro hlen' hlt
    have hcount := h.short hlt
    obtain ⟨more, rfl⟩ := Nat.exists_eq_add_of_lt hlen'
    rw [show dev.mps + more + 1 + dev.mps - 1 = more + dev.mps + dev.mps by omega,
      Nat.add_div_right _ hmps, Nat.add_div_right _ hmps] at hcount
    have hfull : dev.mps ≤ s.rest.length := by
      by_contra hnot
      rw [Nat.div_eq_of_lt (Nat.lt_of_not_le hnot)] at hcount
      exact Nat.succ_ne_zero _ (Nat.succ.inj hcount).symm
    obtain ⟨rest, hrest⟩ := Nat.exists_eq_add_of_le' hfull
    rw [hrest, Nat.add_div_right _ hmps] at hcount
    rw [hrest, Nat.add_sub_cancel, show dev.mps + more + 1 - dev.mps + dev.mps - 1 = more + dev.mps
      by omega, Nat.add_div_right _ hmps]
    exact ⟨Nat.le_add_left _ _, Nat.succ.inj hcount⟩
  refine ⟨by omega, rfl, fun hlen' => ?_, fun hlen' => ?_, fun hlt => ?_⟩
  · refine decide_eq_false fun hended => ?_
    rcases hended with hlast | ⟨hnil, heq⟩
    · rcases Nat.lt_or_eq_of_le hroom with hlt | heq
      · exact absurd (hmore (by omega) hlt).1 (by omega)
      · omega
    · have hlast : s.rest.length - dev.mps = 0 := by rw [← List.length_drop, hnil]; rfl
      have := hwhole.mpr heq
      omega
  · rw [hrest, ← hwhole]
    rcases Nat.lt_or_eq_of_le hroom with hlt | heq
    · have := (hmore (by omega) hlt).1
      omega
    · omega
  · rw [hrest] at hlt ⊢
    exact (hmore (by omega) (by omega)).2

/-- **The chunk loop**, against a device that has a packet for every chunk. -/
theorem readChunks_run (ep : ControlEp) (hmps : 0 < dev.mps) {len : Nat} (data1 : Bool)
    (h : InStep dev len s) :
    ∃ s', s'.naked = 0 ∧
      s'.transactions = s.transactions ++
        List.replicate (chunkLens dev.mps len).length .dataIn ∧
      ReturnsIff
        (∀ k < (chunkLens dev.mps len).length, dev.naks (s.transactions.length + k) ≤ 64)
        (ControlEp.readChunks (readBench dev) ep data1 (chunkLens dev.mps len)) s
        (readOut dev.mps s.mem s.rest (chunkLens dev.mps len)) s' := by
  fun_induction chunkLens dev.mps len generalizing s data1 with
  | case1 len hend =>
    refine ⟨s, h.ready, (List.append_nil _).symm, ?_⟩
    exact returnsIff_pure (fun k hk => absurd hk (Nat.not_lt_zero k)) [] s
  | case2 len hmore ih =>
    have hanswer : ∀ n, dev.transact
        (ControlEp.transfer ep true (dataPid data1) (min dev.mps len) DMA_OFF_SMALL_IO)
        { s with
          armed := some (ControlEp.transfer ep true (dataPid data1) (min dev.mps len)
            DMA_OFF_SMALL_IO)
          naked := n } = (some xferComplWord, dev.afterPacket s) := by
      intro n
      have hrunning := h.running (by omega)
      change (if s.ended then _ else _) = _
      rw [if_neg (by rw [hrunning]; exact Bool.false_ne_true)]
      rfl
    have hxfer := xfer_ready h.ready hanswer
    obtain ⟨s', hready, htrans, hrest⟩ := ih (!data1) (h.next hmps (by omega))
    refine ⟨s', hready, ?_, ?_⟩
    · rw [htrans, List.length_cons, List.replicate_succ, List.append_cons]
      rfl
    · have hcopy := returnsIff_map (f := (load (dev.afterPacket s).mem DMA_OFF_SMALL_IO
        (min dev.mps len) ++ ·)) hrest
      refine (returnsIff_bind hxfer (returnsIff_after rfl (returnsIff_after rfl hcopy))).congr ?_
      have hlength : (dev.afterPacket s).transactions.length = s.transactions.length + 1 :=
        List.length_append
      rw [hlength, List.length_cons]
      constructor
      · rintro ⟨h0, hk⟩ (_ | k) hlt
        · exact h0
        · rw [Nat.add_comm k 1, ← Nat.add_assoc]
          exact hk k (Nat.lt_of_succ_lt_succ hlt)
      · refine fun hall => ⟨hall 0 (Nat.succ_pos _), fun k hlt => ?_⟩
        rw [Nat.add_assoc, Nat.add_comm 1 k]
        exact hall (k + 1) (Nat.succ_lt_succ hlt)

/-- **The whole read**, against a device that has a packet for every chunk. -/
theorem read_run (hmps : 0 < dev.mps) (hdev : dev.mps = ep.mps) {len : Nat} (hpos : 1 ≤ len)
    (hmax : len ≤ 4096) (hasked : dev.wLength = len) (hle : dev.response.length ≤ len)
    (hshort : dev.response.length < len →
      dev.response.length / dev.mps + 1 = (len + dev.mps - 1) / dev.mps)
    (setupPacket : Vector UInt8 8) (mem : Memory UInt8) :
    ∃ s', s'.transactions = .setup ::
        List.replicate ((len + dev.mps - 1) / dev.mps) .dataIn ++ [.statusOut] ∧
      ReturnsIff (∀ k < (len + dev.mps - 1) / dev.mps + 2, dev.naks k ≤ 64)
        (ControlEp.read (readBench dev) ep setupPacket len) (.start mem)
        (readOut dev.mps (store mem OFF_EP0 setupPacket.toList) dev.response
          (chunkLens dev.mps len)) s' := by
  have hsetup := setupStage_run dev ep (s := .start mem) setupPacket rfl
  have hin : InStep dev len ⟨store mem OFF_EP0 setupPacket.toList, none, 0, [.setup], dev.response,
      false⟩ := ⟨hle, rfl, fun _ => rfl, fun _ => by rw [hasked], hshort⟩
  obtain ⟨s₁, hready, htrans, hchunks⟩ := readChunks_run ep hmps true hin
  have hstatus := statusStage_run dev ep hready
  rw [length_chunkLens hmps] at htrans hchunks
  have hlength : s₁.transactions.length = (len + dev.mps - 1) / dev.mps + 1 := by
    rw [htrans, List.length_append, List.length_replicate, Nat.add_comm]
    rfl
  refine ⟨⟨s₁.mem, none, 0, s₁.transactions ++ [.statusOut], s₁.rest, s₁.ended⟩, ?_, ?_⟩
  · exact congrArg (· ++ [Transaction.statusOut]) htrans
  unfold ControlEp.read
  rw [if_neg (by omega), if_neg (by omega), ← hdev]
  have hreturn := returnsIff_map (f := fun _ =>
    readOut dev.mps (store mem OFF_EP0 setupPacket.toList) dev.response (chunkLens dev.mps len))
    hstatus
  refine (returnsIff_bind hsetup (returnsIff_bind hchunks hreturn)).congr ?_
  rw [hlength]
  constructor
  · rintro ⟨h0, hdata, hlast⟩ (_ | k) hk
    · exact h0
    · rcases Nat.lt_or_eq_of_le (Nat.le_of_lt_succ (Nat.lt_of_succ_lt_succ hk)) with hlt | rfl
      · rw [Nat.add_comm k 1]
        exact hdata k hlt
      · exact hlast
  · refine fun hall => ⟨hall 0 (Nat.succ_pos _), fun k hk => ?_, hall _ (Nat.lt_succ_self _)⟩
    rw [List.length_singleton, Nat.add_comm 1 k]
    exact hall (k + 1) (by omega)

/-! ### How many IN transactions a read takes -/

/-- At least `n` IN transactions so far. -/
def DataIns (n : Nat) (s : ReadBench) : Prop := n ≤ s.transactions.count .dataIn

theorem DataIns.snoc {n : Nat} (h : DataIns n s) (x : Transaction) :
    n ≤ (s.transactions ++ [x]).count .dataIn := by
  rw [List.count_append]
  exact Nat.le_add_right_of_le h

theorem DataIns.transact {n : Nat} (h : DataIns n s) : DataIns n (dev.transact t s).2 := by
  unfold InDevice.transact
  split
  · split
    · exact h.snoc .dataIn
    · exact h.snoc .dataIn
  · split
    · exact h.snoc .setup
    · exact h.snoc .statusOut

theorem DataIns.transact_in {n : Nat} (ht : t.dirIn = true) (h : DataIns n s) :
    DataIns (n + 1) (dev.transact t s).2 := by
  have hsnoc : n + 1 ≤ (s.transactions ++ [Transaction.dataIn]).count .dataIn := by
    rw [List.count_append]
    exact Nat.add_le_add_right h 1
  unfold InDevice.transact
  rw [if_pos ht]
  split
  · exact hsnoc
  · exact hsnoc

/-- A transfer takes none back, and one that completes an IN transfer adds one. -/
theorem xfer_dataIns (n : Nat) :
    Triple (DataIns n) (Channel.control.xfer (readBench dev) t)
      (fun _ => DataIns (if t.dirIn then n + 1 else n)) (fun _ _ => True) := by
  refine triple_xfer (A := fun s => DataIns n s ∧ s.armed = some t)
    (Q := fun st s => DataIns n s ∧ (Completes st → DataIns (if t.dirIn then n + 1 else n) s))
    ?_ ?_ ?_ ?_ ?_ ?_
  · exact triple_arm (fun s hs _ => ⟨hs, rfl⟩) fun _ _ _ => trivial
  · refine triple_waitHalted (fun s st hs hst => ?_) fun _ _ _ => trivial
    obtain ⟨hcount, harmed⟩ := hs
    simp only [readBench] at hst ⊢
    split at hst
    · rename_i hnak
      obtain rfl : nakWord = st := Option.some.inj hst
      rw [if_pos hnak]
      exact ⟨hcount, fun hcompl => absurd hcompl (by decide)⟩
    · rename_i hnak
      rw [if_neg hnak, harmed]
      refine ⟨hcount.transact, fun _ => ?_⟩
      split
      · rename_i ht
        exact hcount.transact_in ht
      · exact hcount.transact
  · exact fun _ _ _ h => h.1
  · exact fun _ _ hcompl h => h.2 hcompl
  · exact fun _ _ _ _ => trivial
  · exact fun _ _ => trivial

theorem readChunks_dataIns (data1 : Bool) (lens : List Nat) (n : Nat) :
    Triple (DataIns n) (ControlEp.readChunks (readBench dev) ep data1 lens)
      (fun _ => DataIns (n + lens.length)) (fun _ _ => True) := by
  induction lens generalizing data1 n with
  | nil => exact triple_pure fun _ h => h
  | cons len lens ih =>
      unfold ControlEp.readChunks
      refine triple_bind (xfer_dataIns n) fun _ => ?_
      refine triple_bind (triple_effect (Q := fun _ => DataIns (n + 1)) fun _ h => h) fun _ => ?_
      refine triple_bind (triple_query (Q := fun _ => DataIns (n + 1)) fun _ h => h) fun _ => ?_
      refine triple_bind (ih (!data1) (n + 1)) fun _ => triple_pure fun s h => ?_
      rw [List.length_cons, Nat.add_comm lens.length 1, ← Nat.add_assoc]
      exact h

/-- A read that returns has made an IN transaction for every chunk. -/
theorem read_dataIns (setupPacket : Vector UInt8 8) (len : Nat) :
    Triple (fun _ => True) (ControlEp.read (readBench dev) ep setupPacket len)
      (fun _ => DataIns (chunkLens ep.mps len).length) (fun _ _ => True) := by
  refine triple_ite (fun _ => triple_throw fun _ _ => trivial) fun _ => ?_
  have hsetup : Triple (fun _ => True) (ControlEp.setupStage (readBench dev) ep setupPacket)
      (fun _ => DataIns 0) (fun _ _ => True) := by
    refine triple_bind (triple_effect (Q := fun _ => DataIns 0) fun _ _ => Nat.zero_le _) fun _ => ?_
    refine triple_bind (triple_effect (Q := fun _ => DataIns 0) fun _ h => h) fun _ => ?_
    exact triple_bind (xfer_dataIns 0) fun _ => triple_pure fun _ h => h
  refine triple_bind hsetup fun _ => ?_
  refine triple_ite (fun _ => triple_throw fun _ _ => trivial) fun _ => ?_
  refine triple_bind (readChunks_dataIns true _ 0) fun _ => ?_
  have hstatus : Triple (DataIns (0 + (chunkLens ep.mps len).length))
      (ControlEp.statusStage (readBench dev) ep false)
      (fun _ => DataIns (0 + (chunkLens ep.mps len).length)) (fun _ _ => True) :=
    triple_bind (xfer_dataIns _) fun _ => triple_pure fun _ h => h
  refine triple_bind hstatus fun _ => triple_pure fun _ h => ?_
  rw [Nat.zero_add] at h
  exact h

/-! ### When a read follows the device -/

/-- Everything that was asked for, and nothing else. -/
theorem readOut_whole {mps : Nat} (hmps : 0 < mps) {len : Nat} {rest : List UInt8}
    (hwhole : rest.length = len) (mem : Memory UInt8) :
    readOut mps mem rest (chunkLens mps len) = rest := by
  have htake := readOut_take hmps (Nat.le_of_eq hwhole) mem
  rwa [hwhole, List.take_of_length_le (Nat.le_of_eq (length_readOut hmps len mem rest))] at htake

theorem ceil_le {mps n len : Nat} (hmps : 0 < mps) (hlt : n < len) :
    n / mps + 1 ≤ (len + mps - 1) / mps := by
  rw [← Nat.add_div_right n hmps]
  exact Nat.div_le_div_right (by omega)

/-- Of a response that ends early, one chunk does not tell how long it was. -/
theorem not_follows_of_stale {dev : InDevice} {len : Nat} {setupPacket : Vector UInt8 8}
    (hlt : dev.response.length < len) (hchunk : len ≤ dev.mps)
    (h : ∀ mem mem' : Memory UInt8,
      readOut dev.mps (store mem OFF_EP0 setupPacket.toList) dev.response (chunkLens dev.mps len) =
        readOut dev.mps (store mem' OFF_EP0 setupPacket.toList) dev.response
          (chunkLens dev.mps len)) : False := by
  have hkeep : ∀ b : UInt8,
      (load (store (fun _ => b) OFF_EP0 setupPacket.toList) DMA_OFF_SMALL_IO
        len)[dev.response.length]? = some b := by
    intro b
    rw [load_getElem? _ _ _ _ hlt, store_outside _ (Or.inr ?_)]
    rw [Vector.length_toList]
    exact Nat.le_trans (by decide) (Nat.le_add_right DMA_OFF_SMALL_IO _)
  have hsame := congrArg (·[dev.response.length]?) (h (fun _ => 0) fun _ => 1)
  simp only [readOut_stale hlt hchunk, hkeep] at hsame
  exact absurd hsame (by decide)

section

variable {ep : ControlEp} {len : Nat} {setupPacket : Vector UInt8 8}

/-- A read that follows a device makes one IN transaction for every chunk. -/
theorem Follows.short (hmps : 0 < dev.mps) (hdev : dev.mps = ep.mps)
    (h : Follows dev ep setupPacket len) (hlt : dev.response.length < len) :
    dev.response.length / dev.mps + 1 = (len + dev.mps - 1) / dev.mps := by
  obtain ⟨out, -, hrun⟩ := h
  obtain ⟨s', hok, htrans⟩ := hrun fun _ => 0
  have hcount := (read_dataIns setupPacket len).ok trivial hok
  unfold DataIns at hcount
  rw [htrans, ← hdev, length_chunkLens hmps] at hcount
  unfold packets at hcount
  rw [if_pos hlt] at hcount
  simp only [List.cons_append, List.count_cons, List.count_append, List.count_replicate,
    List.count_nil] at hcount
  exact Nat.le_antisymm (ceil_le hmps hlt) (by simpa using hcount)

/-- It finds the device ready, and returns the same bytes whatever the window held. -/
theorem Follows.returns (hmps : 0 < dev.mps) (hdev : dev.mps = ep.mps) (hpos : 1 ≤ len)
    (hmax : len ≤ 4096) (hasked : dev.wLength = len) (hle : dev.response.length ≤ len)
    (h : Follows dev ep setupPacket len) :
    (∀ k < (len + dev.mps - 1) / dev.mps + 2, dev.naks k ≤ 64) ∧
      ∀ mem mem' : Memory UInt8,
        readOut dev.mps (store mem OFF_EP0 setupPacket.toList) dev.response (chunkLens dev.mps len) =
          readOut dev.mps (store mem' OFF_EP0 setupPacket.toList) dev.response
            (chunkLens dev.mps len) := by
  have hread := read_run hmps hdev hpos hmax hasked hle (h.short hmps hdev) setupPacket
  obtain ⟨out, -, hrun⟩ := h
  obtain ⟨s₀, hok, -⟩ := hrun fun _ => 0
  obtain ⟨t₀, -, hreturn₀⟩ := hread fun _ => 0
  have hnaks := hreturn₀.of_ok hok
  have hout : ∀ mem, readOut dev.mps (store mem OFF_EP0 setupPacket.toList) dev.response
      (chunkLens dev.mps len) = out := by
    intro mem
    obtain ⟨s', hok, -⟩ := hrun mem
    obtain ⟨t', -, hreturn⟩ := hread mem
    have heq := (hreturn.1 hnaks).symm.trans hok
    injection heq
  exact ⟨hnaks, fun mem mem' => (hout mem).trans (hout mem').symm⟩

/-- Its first packet is a full one. -/
theorem Follows.full (hmps : 0 < dev.mps) (hdev : dev.mps = ep.mps) (hpos : 1 ≤ len)
    (hmax : len ≤ 4096) (hasked : dev.wLength = len) (h : Follows dev ep setupPacket len)
    (hlt : dev.response.length < len) : dev.mps ≤ dev.response.length := by
  by_contra hfull
  have hchunks := h.short hmps hdev hlt
  rw [Nat.div_eq_of_lt (Nat.lt_of_not_le hfull), eq_comm, Nat.div_eq_iff hmps] at hchunks
  exact not_follows_of_stale hlt (by omega)
    (h.returns hmps hdev hpos hmax hasked (Nat.le_of_lt hlt)).2

/-- **The read follows the device exactly when** the device sends everything that was asked for, or
a first packet that is full and then as many packets as the loop has chunks, and is never busy for
more than 64 attempts. -/
theorem read_follows_iff (hmps : 0 < ep.mps) (hdev : dev.mps = ep.mps) (hpos : 1 ≤ len)
    (hmax : len ≤ 4096) (hasked : dev.wLength = len) (hle : dev.response.length ≤ len)
    (setupPacket : Vector UInt8 8) :
    Follows dev ep setupPacket len ↔
      (dev.response.length = len ∨
        (ep.mps ≤ dev.response.length ∧
          dev.response.length / ep.mps + 1 = (len + ep.mps - 1) / ep.mps)) ∧
      ∀ k < (len + ep.mps - 1) / ep.mps + 2, dev.naks k ≤ 64 := by
  have hmps' : 0 < dev.mps := by rw [hdev]; exact hmps
  rw [← hdev]
  constructor
  · intro h
    refine ⟨?_, (h.returns hmps' hdev hpos hmax hasked hle).1⟩
    rcases Nat.lt_or_eq_of_le hle with hlt | heq
    · exact Or.inr ⟨h.full hmps' hdev hpos hmax hasked hlt, h.short hmps' hdev hlt⟩
    · exact Or.inl heq
  · rintro ⟨hsends, hnaks⟩
    have hshort : dev.response.length < len →
        dev.response.length / dev.mps + 1 = (len + dev.mps - 1) / dev.mps := by
      intro hlt
      rcases hsends with heq | ⟨-, hcount⟩
      · omega
      · exact hcount
    have hpackets : packets dev.mps len dev.response.length = (len + dev.mps - 1) / dev.mps := by
      unfold packets
      split
      · rename_i hlt
        exact hshort hlt
      · rfl
    have hsame : ∀ mem mem' : Memory UInt8,
        readOut dev.mps mem dev.response (chunkLens dev.mps len) =
          readOut dev.mps mem' dev.response (chunkLens dev.mps len) := by
      intro mem mem'
      rcases hsends with heq | ⟨hfull, -⟩
      · rw [readOut_whole hmps' heq, readOut_whole hmps' heq]
      · exact readOut_full hmps' hfull mem mem'
    refine ⟨readOut dev.mps (fun _ => 0) dev.response (chunkLens dev.mps len),
      readOut_take hmps' hle _, fun mem => ?_⟩
    obtain ⟨s', htrans, hreturn⟩ :=
      read_run hmps' hdev hpos hmax hasked hle hshort setupPacket mem
    refine ⟨s', (hreturn.1 hnaks).trans (by rw [hsame]), ?_⟩
    rw [hpackets]
    exact htrans

end

/-- `HubRequest::get_hub_descriptor(64)`. -/
def getHubDescriptor64 : Vector UInt8 8 := #v[0xa0, 6, 0x00, 0x29, 0x00, 0x00, 64, 0]

/-- A hub that is never busy, with a hub descriptor of 9 bytes. -/
def hub (mps : Nat) : InDevice where
  response := [9, 0x29, 4, 0, 0, 50, 100, 0, 0xff]
  wLength := 64
  mps := mps
  naks _ := 0
  late _ := (some nakWord, [])

/-- The status of a port, all four bytes of it. -/
theorem read_follows_iff_portStatus :
    Follows { hub 64 with response := [1, 1, 0, 0], wLength := 4 } ⟨1, 64⟩
      #v[0xa3, 0, 0x00, 0x00, 1, 0x00, 4, 0] 4 :=
  (read_follows_iff (by decide) rfl (by decide) (by decide) rfl (by decide) _).mpr
    ⟨Or.inl rfl, fun _ _ => Nat.zero_le _⟩

/-- **64 bytes asked of a hub with 9**: at high speed the rest of the buffer is what an earlier
transfer left in the window, and at full speed the loop asks for six packets more than there are. -/
theorem hubDescriptor_stale : ¬ Follows (hub 64) ⟨1, 64⟩ getHubDescriptor64 64 ∧
    ¬ Follows (hub 8) ⟨1, 8⟩ getHubDescriptor64 64 := by
  constructor
  · intro h
    have hfull := h.full (by decide) rfl (by decide) (by decide) rfl (by decide)
    exact absurd hfull (by decide)
  · intro h
    have hshort := h.short (by decide) rfl (by decide)
    exact absurd hshort (by decide)

end Cvirtos.Usb.Dwc2
