import Cvirtos.Usb.Dwc2.Dma

/-!
# Isochronous IN

`drivers/usb/dwc2/isoch.rs`.  The device and the controller are a list of microframes, each
with the interrupt word the channel halts with and the bytes it transferred.  Code that reads
microframes ends in an `Outcome`: either it returned, leaving the microframes it did not
consume, or the list ran out while it was still running.

* `reception` — what one microframe amounts to: an error, nothing, or a packet.
* `readUframe_cons` — `read_uframe` computes `reception` and touches the work area only.
* `readPayloadLoop_cons` — one turn of `read_payload`, in terms of `reception`.
* `readPayload_effect` — the whole effect of one call on the window.
* `readPayload_delivers` — on microframes that carry a given packet after a short gap, the call
  returns exactly that packet.
* `readPayloadLoop_waiting`, `readPayloadLoop_packet` — what a call has met on the bus.
-/

set_option autoImplicit false

namespace Cvirtos.Usb.Dwc2

open Cvirtos.Lib

/-- A snapshot of `HCINT`. -/
abbrev HcintSnapshot := BitVec 32

namespace HCINT

def XFERCOMPL : Nat := 0
def AHBERR : Nat := 2
def STALL : Nat := 3
def NAK : Nat := 4
def NYET : Nat := 6
def XACTERR : Nat := 7
def BBLERR : Nat := 8
def FRMOVRN : Nat := 9
def DATATGLERR : Nat := 10

end HCINT

/-- `is_set` of a one-bit field. -/
def isSet (st : HcintSnapshot) (bit : Nat) : Bool := st.getLsbD bit

/-- One microframe as the video channel meets it. -/
structure Uframe where
  /-- `CHENA` does not clear: the channel cannot be armed. -/
  busy : Bool
  /-- The interrupt word at halt; `none` when the channel does not halt in time. -/
  hcint : Option HcintSnapshot
  /-- The bytes the device sends; the controller stores at most `XFERSIZE` of them. -/
  data : List UInt8
  deriving DecidableEq, Repr

/-- How a call ends when run against a finite list of microframes. -/
inductive Outcome (σ α : Type) where
  /-- The call returned. -/
  | done (res : UsbResult α) (rest : List Uframe) (st : σ)
  /-- Every microframe is consumed and the call has not returned. -/
  | waiting (st : σ)

def Outcome.state {σ α : Type} : Outcome σ α → σ
  | .done _ _ st => st
  | .waiting st => st

/-- The call has returned. -/
def Outcome.Returns {σ α : Type} : Outcome σ α → Prop
  | .done _ _ _ => True
  | .waiting _ => False

def MAX_UFRAMES : Nat := 80000

/-- `wmax_mps`: the low 11 bits of `wMaxPacketSize`. -/
def wmaxMps (mpsRaw : UInt16) : Nat := (mpsRaw &&& 0x7FF).toNat

structure IsochInEp where
  dev : Nat
  epNum : UInt8
  mpsRaw : UInt16
  deriving DecidableEq, Repr

/-- The largest packet of the endpoint. -/
def IsochInEp.mps (ep : IsochInEp) : Nat := wmaxMps ep.mpsRaw

/-- `IsochInEp::read_uframe`. -/
def readUframe (ep : IsochInEp) (dmaOff : Nat) (us : List Uframe) (w : DmaBuf) :
    Outcome DmaBuf Nat :=
  let maxPacketSize := wmaxMps ep.mpsRaw
  if maxPacketSize = 0 then .done (.error (.protocol "bad isoch mps_raw")) us w else
  let transferSize := maxPacketSize
  if transferSize > UVC_BULK_DMA_CAP then
    .done (.error (.protocol "isoch xfer > dma cap")) us w else
  match us with
  | [] => .waiting w
  | u :: us =>
    if u.busy then .done (.error .timeout) us w else
    -- the transfer itself: XFERSIZE counts down by what is stored
    let stored := u.data.take transferSize
    let w := w.receive dmaOff stored
    let remainingBytes := transferSize - stored.length
    match u.hcint with
    | none => .done (.error .timeout) us w
    | some hcint =>
      if isSet hcint HCINT.STALL then .done (.error .stall) us w
      else if isSet hcint HCINT.AHBERR then
        .done (.error (.hardware "AHBERR on isoch")) us w
      else if isSet hcint HCINT.FRMOVRN || isSet hcint HCINT.XACTERR || isSet hcint HCINT.BBLERR
          || isSet hcint HCINT.DATATGLERR || isSet hcint HCINT.NYET || isSet hcint HCINT.NAK then
        .done (.ok 0) us w
      else if !isSet hcint HCINT.XFERCOMPL then .done (.ok 0) us w
      else .done (.ok (transferSize - remainingBytes)) us w

/-- The loop of `read_payload`; the first argument counts the microframes still allowed. -/
def readPayloadLoop (ep : IsochInEp) (dmaOff : Nat) :
    Nat → List Uframe → DmaBuf → Outcome DmaBuf (List UInt8)
  | 0, us, w => .done (.error .timeout) us w
  | left + 1, us, w =>
    match readUframe ep dmaOff us w with
    | .waiting w => .waiting w
    | .done (.error e) us w => .done (.error e) us w
    | .done (.ok actual) us w =>
      if actual > 0 then
        match dmaRxSlice w dmaOff actual with
        | some s => .done (.ok s) us { w with trace := w.trace ++ [.payload s] }
        | none => .done (.error (.hardware "dma view")) us w
      else readPayloadLoop ep dmaOff left us w

/-- `IsochInEp::read_payload`. -/
def readPayload (ep : IsochInEp) (dmaOff : Nat) : List Uframe → DmaBuf →
    Outcome DmaBuf (List UInt8) :=
  readPayloadLoop ep dmaOff MAX_UFRAMES

/-! ## What one microframe amounts to -/

/-- The result of one microframe for an endpoint with packets of at most `mps` bytes: an error,
no data (`[]`), or the bytes received. -/
def reception (mps : Nat) (u : Uframe) : UsbResult (List UInt8) :=
  if u.busy then .error .timeout else
  match u.hcint with
  | none => .error .timeout
  | some hcint =>
    if isSet hcint HCINT.STALL then .error .stall
    else if isSet hcint HCINT.AHBERR then .error (.hardware "AHBERR on isoch")
    else if isSet hcint HCINT.FRMOVRN || isSet hcint HCINT.XACTERR || isSet hcint HCINT.BBLERR
        || isSet hcint HCINT.DATATGLERR || isSet hcint HCINT.NYET || isSet hcint HCINT.NAK then
      .ok []
    else if !isSet hcint HCINT.XFERCOMPL then .ok []
    else .ok (u.data.take mps)

theorem reception_length {mps : Nat} {u : Uframe} {pkt : List UInt8}
    (h : reception mps u = .ok pkt) : pkt.length ≤ mps := by
  unfold reception at h
  repeat' split at h
  all_goals cases h
  all_goals simp [List.length_take]

/-- Nothing, or what the device sent as far as it fits. -/
theorem reception_data {mps : Nat} {u : Uframe} {pkt : List UInt8}
    (h : reception mps u = .ok pkt) : pkt = [] ∨ pkt = u.data.take mps := by
  unfold reception at h
  repeat' split at h
  all_goals cases h
  all_goals simp

theorem wmaxMps_le (mpsRaw : UInt16) : wmaxMps mpsRaw ≤ 2047 := by
  unfold wmaxMps
  rw [UInt16.toNat_and]
  exact Nat.and_le_right

/-- An endpoint with a packet size passes both checks of `read_uframe`. -/
theorem wmaxMps_checked {ep : IsochInEp} (hmps : 0 < ep.mps) :
    ¬ wmaxMps ep.mpsRaw = 0 ∧ ¬ wmaxMps ep.mpsRaw > UVC_BULK_DMA_CAP := by
  have hle := wmaxMps_le ep.mpsRaw
  have hcap : (2047 : Nat) ≤ UVC_BULK_DMA_CAP := by decide
  unfold IsochInEp.mps at hmps
  exact ⟨by omega, by omega⟩

/-- `w'` is `w` after microframes received into the work area at `off`: only the work area has
changed, and nothing was handed out. -/
structure Touches (mps off : Nat) (w w' : DmaBuf) : Prop where
  mem : AgreeOutside off (off + mps) w.mem w'.mem
  received : received w'.trace = received w.trace
  writes : ∀ e ∈ w'.trace, e ∈ w.trace ∨ ∃ len, len ≤ mps ∧ e = .dmaWrite off len

theorem Touches.refl (mps off : Nat) (w : DmaBuf) : Touches mps off w w :=
  ⟨.refl _ _ _, rfl, fun _ he => Or.inl he⟩

theorem Touches.trans {mps off : Nat} {w w' w'' : DmaBuf} (h : Touches mps off w w')
    (h' : Touches mps off w' w'') : Touches mps off w w'' := by
  refine ⟨h.mem.trans h'.mem, h'.received.trans h.received, fun e he => ?_⟩
  rcases h'.writes e he with he | he
  · exact h.writes e he
  · exact Or.inr he

theorem touches_receive {mps : Nat} (off : Nat) (w : DmaBuf) {bytes : List UInt8}
    (h : bytes.length ≤ mps) : Touches mps off w (w.receive off bytes) := by
  refine ⟨agreeOutside_store _ (Nat.le_refl _) (by omega), by simp [DmaBuf.receive], ?_⟩
  intro e he
  rcases List.mem_append.mp he with he | he
  · exact Or.inl he
  · exact Or.inr ⟨_, h, by simpa using he⟩

/-- **`read_uframe` computes `reception`**: it consumes one microframe, touches the work area
only and, when data arrived, leaves it at the start of the work area. -/
theorem readUframe_cons {ep : IsochInEp} (hmps : 0 < ep.mps) (off : Nat) (u : Uframe)
    (us : List Uframe) (w : DmaBuf) :
    ∃ w', readUframe ep off (u :: us) w =
        .done ((reception ep.mps u).map List.length) us w' ∧
      Touches ep.mps off w w' ∧
      ∀ pkt, reception ep.mps u = .ok pkt → pkt ≠ [] → load w'.mem off pkt.length = pkt := by
  obtain ⟨h0, hcap⟩ := wmaxMps_checked hmps
  have hlen : (u.data.take ep.mps).length ≤ ep.mps := by simp [List.length_take]
  have hrem : ep.mps - (ep.mps - (u.data.take ep.mps).length) = (u.data.take ep.mps).length := by
    omega
  have htouch := touches_receive off w hlen
  by_cases hb : u.busy
  · -- the channel cannot be armed: nothing is transferred
    refine ⟨w, ?_, .refl _ _ _, ?_⟩
    · simp [readUframe, reception, h0, hcap, hb, Except.map]
    · intro pkt h
      simp [reception, hb] at h
  · refine ⟨w.receive off (u.data.take ep.mps), ?_, htouch, ?_⟩
    · unfold readUframe reception
      rw [if_neg h0, if_neg hcap]
      simp only [if_neg hb]
      cases u.hcint with
      | none => rfl
      | some hcint =>
        simp only
        repeat' split
        all_goals first
          | rfl
          | exact congrArg (fun n => Outcome.done (.ok n) us _) hrem
    · intro pkt h hne
      unfold reception at h
      repeat' split at h
      all_goals cases h
      all_goals first
        | exact absurd rfl hne
        | exact load_store_self _ _ _

/-- An endpoint without a packet size is refused before a microframe is used. -/
theorem readUframe_bad {ep : IsochInEp} (h : ep.mps = 0) (off : Nat) (us : List Uframe)
    (w : DmaBuf) :
    readUframe ep off us w = .done (.error (.protocol "bad isoch mps_raw")) us w := by
  unfold readUframe
  have h0 : wmaxMps ep.mpsRaw = 0 := h
  simp [h0]

/-- What fits into a packet is received whole, if it is received. -/
theorem readUframe_whole {ep : IsochInEp} {off n : Nat} {u : Uframe} {us us' : List Uframe}
    {w w' : DmaBuf} (hfit : ep.mps ≠ 0 → u.data.length ≤ ep.mps)
    (h : readUframe ep off (u :: us) w = .done (.ok n) us' w') : n = 0 ∨ n = u.data.length := by
  by_cases hmps : ep.mps = 0
  · rw [readUframe_bad hmps] at h
    cases h
  obtain ⟨w₁, hrun, -, -⟩ := readUframe_cons (Nat.pos_of_ne_zero hmps) off u us w
  rw [hrun] at h
  cases hrec : reception ep.mps u with
  | error e =>
    rw [hrec] at h
    cases h
  | ok pkt =>
    rw [hrec] at h
    cases h
    rcases reception_data hrec with rfl | rfl
    · exact .inl rfl
    · right
      rw [List.take_of_length_le (hfit hmps)]

theorem readUframe_nil {ep : IsochInEp} (hmps : 0 < ep.mps) (off : Nat) (w : DmaBuf) :
    readUframe ep off [] w = .waiting w := by
  obtain ⟨h0, hcap⟩ := wmaxMps_checked hmps
  simp [readUframe, h0, hcap]

/-! ## `read_payload` -/

/-- What one turn of `read_payload` does with the reception of its microframe. -/
def payloadTurn (ep : IsochInEp) (off left : Nat) (us : List Uframe) (w : DmaBuf) :
    UsbResult (List UInt8) → Outcome DmaBuf (List UInt8)
  | .error e => .done (.error e) us w
  | .ok [] => readPayloadLoop ep off left us w
  | .ok (b :: bs) => .done (.ok (b :: bs)) us { w with trace := w.trace ++ [.payload (b :: bs)] }

/-- **One turn of `read_payload`.** -/
theorem readPayloadLoop_cons {ep : IsochInEp} (hmps : 0 < ep.mps) {off : Nat}
    (hoff : off + ep.mps ≤ DMA_BUF_TOTAL) (left : Nat) (u : Uframe) (us : List Uframe)
    (w : DmaBuf) :
    ∃ w', readPayloadLoop ep off (left + 1) (u :: us) w =
        payloadTurn ep off left us w' (reception ep.mps u) ∧ Touches ep.mps off w w' := by
  obtain ⟨w', hrd, ht, hld⟩ := readUframe_cons hmps off u us w
  refine ⟨w', ?_, ht⟩
  rw [readPayloadLoop, hrd]
  cases hr : reception ep.mps u with
  | error e => rfl
  | ok pkt =>
    cases pkt with
    | nil => rfl
    | cons b bs =>
      have hle := reception_length hr
      have hview : dmaRxSlice w' off (b :: bs).length = some (b :: bs) := by
        rw [dmaRxSlice_eq (by simp) (by omega), hld _ hr (by simp)]
      simp only [Except.map, payloadTurn]
      rw [if_pos (by simp), hview]

theorem readPayloadLoop_nil {ep : IsochInEp} (hmps : 0 < ep.mps) (off left : Nat) (w : DmaBuf) :
    readPayloadLoop ep off (left + 1) [] w = .waiting w := by
  rw [readPayloadLoop, readUframe_nil hmps]

theorem readPayload_bad {ep : IsochInEp} (h : ep.mps = 0) (off : Nat) (us : List Uframe)
    (w : DmaBuf) :
    readPayload ep off us w = .done (.error (.protocol "bad isoch mps_raw")) us w := by
  unfold readPayload MAX_UFRAMES
  rw [readPayloadLoop, readUframe_bad h]

/-- The window a call leaves, whatever the call's result: the work area has changed, and a
packet is recorded exactly when it is handed out. -/
inductive ReadEffect (mps off : Nat) (w : DmaBuf) : Outcome DmaBuf (List UInt8) → Prop where
  | ok {pkt : List UInt8} {us : List Uframe} {w' : DmaBuf} (h : Touches mps off w w') :
      ReadEffect mps off w (.done (.ok pkt) us { w' with trace := w'.trace ++ [.payload pkt] })
  | error {e : UsbError} {us : List Uframe} {w' : DmaBuf} (h : Touches mps off w w') :
      ReadEffect mps off w (.done (.error e) us w')
  | waiting {w' : DmaBuf} (h : Touches mps off w w') : ReadEffect mps off w (.waiting w')

theorem ReadEffect.after {mps off : Nat} {w w' : DmaBuf} {o : Outcome DmaBuf (List UInt8)}
    (h : Touches mps off w w') (ho : ReadEffect mps off w' o) : ReadEffect mps off w o := by
  cases ho with
  | ok h' => exact .ok (h.trans h')
  | error h' => exact .error (h.trans h')
  | waiting h' => exact .waiting (h.trans h')

theorem readPayloadLoop_effect {ep : IsochInEp} (hmps : 0 < ep.mps) {off : Nat}
    (hoff : off + ep.mps ≤ DMA_BUF_TOTAL) (left : Nat) (us : List Uframe) (w : DmaBuf) :
    ReadEffect ep.mps off w (readPayloadLoop ep off left us w) := by
  induction left generalizing us w with
  | zero => exact .error (.refl _ _ _)
  | succ left ih =>
    cases us with
    | nil => rw [readPayloadLoop_nil hmps]; exact .waiting (.refl _ _ _)
    | cons u us =>
      obtain ⟨w', h, ht⟩ := readPayloadLoop_cons hmps hoff left u us w
      rw [h]
      refine .after ht ?_
      cases reception ep.mps u with
      | error e => exact .error (.refl _ _ _)
      | ok pkt =>
        cases pkt with
        | nil => exact ih us w'
        | cons b bs => exact .ok (.refl _ _ _)

/-- **One call of `read_payload`, whatever its result.** -/
theorem readPayload_effect (ep : IsochInEp) {off : Nat} (hoff : off + ep.mps ≤ DMA_BUF_TOTAL)
    (us : List Uframe) (w : DmaBuf) : ReadEffect ep.mps off w (readPayload ep off us w) := by
  by_cases hmps : 0 < ep.mps
  · exact readPayloadLoop_effect hmps hoff _ us w
  · rw [readPayload_bad (by omega)]
    exact .error (.refl _ _ _)

/-- A call that returns a packet has consumed a microframe. -/
theorem readPayloadLoop_lt {ep : IsochInEp} {off left : Nat} {us : List Uframe} {w : DmaBuf}
    {pkt : List UInt8} {us' : List Uframe} {w' : DmaBuf}
    (h : readPayloadLoop ep off left us w = .done (.ok pkt) us' w') :
    us'.length < us.length := by
  induction left generalizing us w with
  | zero => cases h
  | succ left ih =>
    rw [readPayloadLoop] at h
    have hrd : ∀ n us₁ w₁, readUframe ep off us w = .done (.ok n) us₁ w₁ →
        us₁.length < us.length := by
      intro n us₁ w₁ hu
      unfold readUframe at hu
      dsimp only at hu
      repeat' split at hu
      all_goals cases hu
      all_goals simp
    split at h
    · cases h
    · cases h
    · rename_i n us₁ w₁ hu
      have := hrd n us₁ w₁ hu
      split at h
      · split at h
        · cases h; exact this
        · cases h
      · have := ih h
        omega

theorem readPayload_lt {ep : IsochInEp} {off : Nat} {us : List Uframe} {w : DmaBuf}
    {pkt : List UInt8} {us' : List Uframe} {w' : DmaBuf}
    (h : readPayload ep off us w = .done (.ok pkt) us' w') : us'.length < us.length :=
  readPayloadLoop_lt h

/-! ## Microframes that carry given packets -/

/-- The microframes `us` carry the packets `pkts`, in order: before each packet there are fewer
than `MAX_UFRAMES` microframes without data, and nothing follows the last packet. -/
inductive Delivers (mps : Nat) : List Uframe → List (List UInt8) → Prop where
  | nil : Delivers mps [] []
  | packet {gap : List Uframe} {u : Uframe} {us : List Uframe} {pkt : List UInt8}
      {pkts : List (List UInt8)} (hgap : ∀ v ∈ gap, reception mps v = .ok [])
      (hlen : gap.length < MAX_UFRAMES) (hu : reception mps u = .ok pkt) (hne : pkt ≠ [])
      (h : Delivers mps us pkts) : Delivers mps (gap ++ u :: us) (pkt :: pkts)

/-- `read_payload` skips a gap that is shorter than what it may still read. -/
theorem readPayloadLoop_gap {ep : IsochInEp} (hmps : 0 < ep.mps) {off : Nat}
    (hoff : off + ep.mps ≤ DMA_BUF_TOTAL) {gap : List Uframe}
    (hgap : ∀ v ∈ gap, reception ep.mps v = .ok []) (left : Nat) (us : List Uframe)
    (w : DmaBuf) :
    ∃ w', readPayloadLoop ep off (gap.length + left) (gap ++ us) w =
        readPayloadLoop ep off left us w' ∧ Touches ep.mps off w w' := by
  induction gap generalizing w with
  | nil => exact ⟨w, by simp, .refl _ _ _⟩
  | cons v gap ih =>
    obtain ⟨w₁, h₁, t₁⟩ := readPayloadLoop_cons hmps hoff (gap.length + left) v (gap ++ us) w
    obtain ⟨w₂, h₂, t₂⟩ := ih (fun x hx => hgap x (List.mem_cons_of_mem _ hx)) w₁
    refine ⟨w₂, ?_, t₁.trans t₂⟩
    rw [List.length_cons, Nat.add_right_comm, List.cons_append, h₁, hgap v List.mem_cons_self]
    exact h₂

/-- **Delivery of one packet**: whatever follows on the bus, the call returns the next packet
and leaves the microframes that carry the later ones. -/
theorem readPayload_delivers {ep : IsochInEp} (hmps : 0 < ep.mps) {off : Nat}
    (hoff : off + ep.mps ≤ DMA_BUF_TOTAL) {us : List Uframe} {pkt : List UInt8}
    {pkts : List (List UInt8)} (h : Delivers ep.mps us (pkt :: pkts)) (rest : List Uframe)
    (w : DmaBuf) :
    ∃ us' w', readPayload ep off (us ++ rest) w =
        .done (.ok pkt) (us' ++ rest) { w' with trace := w'.trace ++ [.payload pkt] } ∧
      Delivers ep.mps us' pkts ∧ Touches ep.mps off w w' := by
  cases h with
  | @packet gap u us' _ _ hgap hlen hu hne h =>
    obtain ⟨w₁, h₁, t₁⟩ := readPayloadLoop_gap hmps hoff hgap (MAX_UFRAMES - gap.length)
      (u :: us' ++ rest) w
    rw [Nat.add_sub_cancel' (Nat.le_of_lt hlen)] at h₁
    obtain ⟨left, hleft⟩ : ∃ left, MAX_UFRAMES - gap.length = left + 1 :=
      ⟨MAX_UFRAMES - gap.length - 1, by omega⟩
    obtain ⟨w₂, h₂, t₂⟩ := readPayloadLoop_cons hmps hoff left u (us' ++ rest) w₁
    refine ⟨us', w₂, ?_, h, t₁.trans t₂⟩
    unfold readPayload
    rw [List.append_assoc, h₁, hleft, List.cons_append, h₂, hu]
    cases pkt with
    | nil => exact absurd rfl hne
    | cons b bs => rfl

/-! ## What a call has met on the bus -/

/-- A call that is still running has met microframes without data only. -/
theorem readPayloadLoop_waiting {ep : IsochInEp} (hmps : 0 < ep.mps) {off : Nat}
    (hoff : off + ep.mps ≤ DMA_BUF_TOTAL) {left : Nat} {us : List Uframe} {w w' : DmaBuf}
    (h : readPayloadLoop ep off left us w = .waiting w') :
    (∀ u ∈ us, reception ep.mps u = .ok []) ∧ us.length < left := by
  induction left generalizing us w with
  | zero => cases h
  | succ left ih =>
      cases us with
      | nil => exact ⟨by simp, by simp⟩
      | cons u us =>
          obtain ⟨w₁, h₁, -⟩ := readPayloadLoop_cons hmps hoff left u us w
          rw [h₁] at h
          cases hr : reception ep.mps u with
          | error e => rw [hr] at h; cases h
          | ok pkt =>
              rw [hr] at h
              cases pkt with
              | cons b bs => cases h
              | nil =>
                  obtain ⟨hidle, hlen⟩ := ih h
                  refine ⟨fun v hv => ?_, by simpa using hlen⟩
                  rcases List.mem_cons.mp hv with rfl | hv
                  · exact hr
                  · exact hidle v hv

/-- A call that returns a packet has met it behind a gap it could bridge. -/
theorem readPayloadLoop_packet {ep : IsochInEp} (hmps : 0 < ep.mps) {off : Nat}
    (hoff : off + ep.mps ≤ DMA_BUF_TOTAL) {left : Nat} {us us' : List Uframe} {w w' : DmaBuf}
    {pkt : List UInt8} (h : readPayloadLoop ep off left us w = .done (.ok pkt) us' w') :
    ∃ gap u, us = gap ++ u :: us' ∧ (∀ v ∈ gap, reception ep.mps v = .ok []) ∧
      gap.length < left ∧ reception ep.mps u = .ok pkt ∧ pkt ≠ [] := by
  induction left generalizing us w with
  | zero => cases h
  | succ left ih =>
      cases us with
      | nil => rw [readPayloadLoop_nil hmps] at h; cases h
      | cons u us =>
          obtain ⟨w₁, h₁, -⟩ := readPayloadLoop_cons hmps hoff left u us w
          rw [h₁] at h
          cases hr : reception ep.mps u with
          | error e => rw [hr] at h; cases h
          | ok pkt' =>
              rw [hr] at h
              cases pkt' with
              | cons b bs =>
                  cases h
                  exact ⟨[], u, rfl, by simp, by simp, hr, by simp⟩
              | nil =>
                  obtain ⟨gap, v, rfl, hgap, hlen, hv, hne⟩ := ih h
                  refine ⟨u :: gap, v, rfl, fun x hx => ?_, by simpa using hlen, hv, hne⟩
                  rcases List.mem_cons.mp hx with rfl | hx
                  · exact hr
                  · exact hgap x hx

/-- On a short idle stretch the call keeps running. -/
theorem readPayload_idle {ep : IsochInEp} (hmps : 0 < ep.mps) {off : Nat}
    (hoff : off + ep.mps ≤ DMA_BUF_TOTAL) {gap : List Uframe}
    (hgap : ∀ v ∈ gap, reception ep.mps v = .ok []) (hlen : gap.length < MAX_UFRAMES)
    (w : DmaBuf) : ∃ w', readPayload ep off gap w = .waiting w' := by
  obtain ⟨w', h, -⟩ := readPayloadLoop_gap hmps hoff hgap (MAX_UFRAMES - gap.length) [] w
  rw [Nat.add_sub_cancel' (Nat.le_of_lt hlen), List.append_nil] at h
  obtain ⟨left, hleft⟩ : ∃ left, MAX_UFRAMES - gap.length = left + 1 :=
    ⟨MAX_UFRAMES - gap.length - 1, by omega⟩
  rw [hleft, readPayloadLoop_nil hmps] at h
  exact ⟨w', h⟩

end Cvirtos.Usb.Dwc2
