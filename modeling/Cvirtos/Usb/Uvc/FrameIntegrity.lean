import Cvirtos.Usb.Uvc.Capture

/-!
# What a captured frame is made of

The assembly invariant of `try_frame` and what it gives for every run of `capture_frame`:

* `AsmInv` — the assembled bytes are the payloads of the last packets received, from a
  start-of-image packet on, all of one FID; it survives an illegal packet (`AsmInv.skip`), an
  appended packet (`append_inv`), a restart (`AsmInv.restart`) and any further microframe
  (`AsmInv.frame`).
* `finishPacket_integrity`, `assembleLoop_integrity`, `tryFrame_integrity` — the phases keep it.
* `captureFrame_integrity` — **a frame handed out is one contiguous block of packets**, and the
  assembly and the microframe DMA never write into each other's area.
-/

set_option autoImplicit false

namespace Cvirtos.Usb.Uvc

open Cvirtos.Lib Cvirtos.Usb.Dwc2

/-- The write stays in its own area of the window: received microframes below the assembly
area, assembled bytes inside it. -/
def InOwnArea : Event → Prop
  | .dmaWrite off len => DMA_OFF_UVC_BULK ≤ off ∧ off + len ≤ UVC_ASSEMBLED_JPEG_DMA_OFF
  | .cpuWrite off len => UVC_ASSEMBLED_JPEG_DMA_OFF ≤ off ∧ off + len ≤ DMA_BUF_TOTAL
  | .payload _ => True

/-- Every write recorded so far stays in its own area. -/
def WritesApart (w : DmaBuf) : Prop := ∀ e ∈ w.trace, InOwnArea e

/-- The packets of `raw` with a legal header. -/
def legal (raw : List (List UInt8)) : List UvcPacket := raw.filterMap UvcPacket.new

/-- The payload bytes of `raw`, packets with an illegal header being skipped. -/
def payloads (raw : List (List UInt8)) : List UInt8 := (legal raw).flatMap UvcPacket.payload

@[simp] theorem legal_append (r r' : List (List UInt8)) : legal (r ++ r') = legal r ++ legal r' := by
  simp [legal]

theorem legal_cons (pkt : List UInt8) (r : List (List UInt8)) :
    legal (pkt :: r) = legal [pkt] ++ legal r := by
  rw [← List.singleton_append, legal_append]

@[simp] theorem payloads_append (r r' : List (List UInt8)) :
    payloads (r ++ r') = payloads r ++ payloads r' := by
  simp [payloads]

theorem UvcPacket.new_pkt {pkt : List UInt8} {p : UvcPacket} (h : UvcPacket.new pkt = some p) :
    p.pkt = pkt := by
  unfold UvcPacket.new at h
  split at h
  · cases h
  · split at h
    · cases h
    · cases h; rfl

theorem legal_singleton {pkt : List UInt8} {p : UvcPacket} (h : UvcPacket.new pkt = some p) :
    legal [pkt] = [p] := by
  simp [legal, h]

theorem payloads_singleton {pkt : List UInt8} {p : UvcPacket} (h : UvcPacket.new pkt = some p) :
    payloads [pkt] = p.payload := by
  simp [payloads, legal_singleton h]

theorem legal_illegal {pkt : List UInt8} (h : UvcPacket.new pkt = none) : legal [pkt] = [] := by
  simp [legal, h]

/-- `raw` is a block of packets that all carry `fid` and open with a start-of-image packet. -/
structure Block (raw : List (List UInt8)) (fid : UInt8) : Prop where
  soi : ∃ pkt rest p, raw = pkt :: rest ∧ UvcPacket.new pkt = some p ∧ [0xff, 0xd8] <+: p.payload
  fids : ∀ p ∈ legal raw, p.fid = fid

theorem Block.single {pkt : List UInt8} {p : UvcPacket} (h : UvcPacket.new pkt = some p)
    (hs : [0xff, 0xd8] <+: p.payload) : Block [pkt] p.fid := by
  refine ⟨⟨pkt, [], p, rfl, h, hs⟩, fun q hq => ?_⟩
  rw [legal_singleton h, List.mem_singleton] at hq
  rw [hq]

theorem Block.snoc {raw : List (List UInt8)} {fid : UInt8} (hb : Block raw fid)
    {pkt : List UInt8} (h : ∀ p ∈ legal [pkt], p.fid = fid) : Block (raw ++ [pkt]) fid := by
  obtain ⟨q, rest, p, rfl, hn, hs⟩ := hb.soi
  refine ⟨⟨q, rest ++ [pkt], p, rfl, hn, hs⟩, fun p' hp => ?_⟩
  rw [legal_append] at hp
  rcases List.mem_append.mp hp with hp | hp
  · exact hb.fids p' hp
  · exact h p' hp

theorem Block.soi_prefix {raw : List (List UInt8)} {fid : UInt8} (hb : Block raw fid) :
    [0xff, 0xd8] <+: payloads raw := by
  obtain ⟨pkt, rest, p, rfl, hn, hs⟩ := hb.soi
  have : payloads (pkt :: rest) = p.payload ++ payloads rest := by
    rw [← List.singleton_append, payloads_append, payloads_singleton hn]
  rw [this]
  exact hs.trans (List.prefix_append _ _)

/-- **The assembly invariant**: before any data the length is zero; after it, the assembled
bytes are the payloads of a block that ends with the last packet received. -/
structure AsmInv (recv : List (List UInt8)) (mem : Memory UInt8) (a : Assembly) : Prop where
  fresh : a.sawData = false → a.jpegLen = 0
  le_cap : a.jpegLen ≤ jpegCap
  block : a.sawData = true → ∃ pre blk, recv = pre ++ blk ∧ Block blk a.fid ∧
    load mem UVC_ASSEMBLED_JPEG_DMA_OFF a.jpegLen = payloads blk

theorem AsmInv.restart (recv : List (List UInt8)) (mem : Memory UInt8) (fid : UInt8) :
    AsmInv recv mem ⟨0, false, fid⟩ :=
  ⟨fun _ => rfl, Nat.zero_le _, fun h => by cases h⟩

/-- A packet with an illegal header leaves the assembly as it is. -/
theorem AsmInv.skip {recv : List (List UInt8)} {mem : Memory UInt8} {a : Assembly}
    (h : AsmInv recv mem a) {pkt : List UInt8} (hn : UvcPacket.new pkt = none) :
    AsmInv (recv ++ [pkt]) mem a := by
  refine ⟨h.fresh, h.le_cap, fun hs => ?_⟩
  obtain ⟨pre, blk, rfl, hb, hl⟩ := h.block hs
  refine ⟨pre, blk ++ [pkt], by simp, hb.snoc ?_, ?_⟩
  · simp [legal_illegal hn]
  · simp [hl, payloads, legal_illegal hn]

/-- Microframes received into the work area do not reach the assembled bytes. -/
theorem AsmInv.frame {recv : List (List UInt8)} {mem mem' : Memory UInt8} {a : Assembly}
    (h : AsmInv recv mem a) {mps : Nat} (hmps : mps ≤ 2047)
    (hm : AgreeOutside DMA_OFF_UVC_BULK (DMA_OFF_UVC_BULK + mps) mem mem') :
    AsmInv recv mem' a := by
  refine ⟨h.fresh, h.le_cap, fun hs => ?_⟩
  obtain ⟨pre, blk, he, hb, hl⟩ := h.block hs
  refine ⟨pre, blk, he, hb, ?_⟩
  rw [hm.load, hl]
  refine Or.inr ?_
  unfold UVC_ASSEMBLED_JPEG_DMA_OFF UVC_WORK_AREA_BYTES
  omega

theorem soi_iff (p : UvcPacket) : p.soi = true ↔ [0xff, 0xd8] <+: p.payload :=
  List.isPrefixOf_iff_prefix

/-- The window layout: the assembly area ends with the window. -/
theorem assembled_end : UVC_ASSEMBLED_JPEG_DMA_OFF + jpegCap = DMA_BUF_TOTAL := by decide

/-- What `append` does when it succeeds: nothing, or one write at the end of what is
assembled. -/
theorem append_cases {p : UvcPacket} {len len' : Nat} {saw saw' : Bool} {w w' : DmaBuf}
    (h : p.append len saw jpegCap w = .ok (len', saw', w')) :
    (w' = w ∧ len' = len ∧ saw' = saw ∧ (p.payload = [] ∨ saw = false ∧ p.soi = false)) ∨
    (len' = len + p.payload.length ∧ len' ≤ jpegCap ∧ saw' = true ∧
      (saw = false → p.soi = true) ∧
      w' = ⟨store w.mem (UVC_ASSEMBLED_JPEG_DMA_OFF + len) p.payload,
        w.trace ++ [.cpuWrite (UVC_ASSEMBLED_JPEG_DMA_OFF + len) p.payload.length]⟩) := by
  unfold UvcPacket.append at h
  split at h
  · rename_i he
    cases h
    exact Or.inl ⟨rfl, rfl, rfl, Or.inl (List.isEmpty_iff.mp he)⟩
  split at h
  · rename_i hs
    cases h
    simp only [Bool.and_eq_true, Bool.not_eq_true'] at hs
    exact Or.inl ⟨rfl, rfl, rfl, Or.inr hs⟩
  rename_i hs
  split at h
  · cases h
  rename_i hcap
  have hfit : UVC_ASSEMBLED_JPEG_DMA_OFF + len + p.payload.length ≤ DMA_BUF_TOTAL := by
    rw [← assembled_end]; omega
  rw [dmaWriteAt_eq hfit] at h
  cases h
  refine Or.inr ⟨rfl, by omega, rfl, fun h0 => ?_, rfl⟩
  simpa [h0] using hs

/-- **An appended packet keeps the invariant.** -/
theorem append_inv {recv : List (List UInt8)} {p : UvcPacket} {a : Assembly} {len' : Nat}
    {saw' : Bool} {w w' : DmaBuf} (hi : AsmInv recv w.mem a) (hn : UvcPacket.new p.pkt = some p)
    (hf : p.fid = a.fid) (h : p.append a.jpegLen a.sawData jpegCap w = .ok (len', saw', w')) :
    AsmInv (recv ++ [p.pkt]) w'.mem { a with jpegLen := len', sawData := saw' } := by
  have hfid : ∀ q ∈ legal [p.pkt], q.fid = a.fid := by
    intro q hq
    rw [legal_singleton hn, List.mem_singleton] at hq
    rw [hq, hf]
  rcases append_cases h with ⟨rfl, rfl, rfl, hwhy⟩ | ⟨rfl, hle, rfl, hsoi, rfl⟩
  · refine ⟨hi.fresh, hi.le_cap, fun hs => ?_⟩
    have hemp : p.payload = [] := by
      rcases hwhy with he | ⟨h0, _⟩
      · exact he
      · exact absurd hs (by simp [h0])
    obtain ⟨pre, blk, rfl, hb, hl⟩ := hi.block hs
    refine ⟨pre, blk ++ [p.pkt], by simp, hb.snoc hfid, ?_⟩
    rw [payloads_append, payloads_singleton hn, hemp, List.append_nil, ← hl]
  · refine ⟨fun hc => absurd hc (by simp), hle, fun _ => ?_⟩
    cases hs : a.sawData with
    | false =>
      -- the first data of the block
      have h0 := hi.fresh hs
      refine ⟨recv, [p.pkt], rfl, ?_, ?_⟩
      · rw [← hf]
        exact .single hn ((soi_iff p).mp (hsoi hs))
      · rw [payloads_singleton hn]
        simp only [h0, Nat.add_zero, Nat.zero_add]
        exact load_store_self _ _ _
    | true =>
      obtain ⟨pre, blk, rfl, hb, hl⟩ := hi.block hs
      refine ⟨pre, blk ++ [p.pkt], by simp, hb.snoc hfid, ?_⟩
      rw [load_store_append, hl, payloads_append, payloads_singleton hn]

theorem append_apart {p : UvcPacket} {len len' : Nat} {saw saw' : Bool} {w w' : DmaBuf}
    (hw : WritesApart w) (h : p.append len saw jpegCap w = .ok (len', saw', w')) :
    WritesApart w' ∧ received w'.trace = received w.trace := by
  rcases append_cases h with ⟨rfl, -, -, -⟩ | ⟨rfl, hle, -, -, rfl⟩
  · exact ⟨hw, rfl⟩
  · refine ⟨fun e he => ?_, by simp⟩
    rcases List.mem_append.mp he with he | he
    · exact hw e he
    · rw [List.mem_singleton] at he
      subst he
      have := assembled_end
      exact ⟨by omega, by omega⟩

/-! ## The end of a frame -/

/-- The `n` bytes at the assembly area are a whole frame: the payloads of a contiguous block of
received packets of one FID, from a start-of-image marker to an end-of-image marker. -/
def FrameAt (w : DmaBuf) (n : Nat) : Prop :=
  ∃ pre blk post fid, received w.trace = pre ++ blk ++ post ∧ Block blk fid ∧
    load w.mem UVC_ASSEMBLED_JPEG_DMA_OFF n = payloads blk ∧
    [0xff, 0xd9] <:+ load w.mem UVC_ASSEMBLED_JPEG_DMA_OFF n ∧ 4 ≤ n ∧ n ≤ jpegCap

/-- Bytes that open with a start-of-image and close with an end-of-image marker hold both. -/
theorem four_le_of_markers {xs : List UInt8} (h1 : [0xff, 0xd8] <+: xs) (h2 : [0xff, 0xd9] <:+ xs) :
    4 ≤ xs.length := by
  obtain ⟨t, rfl⟩ := h1
  obtain ⟨s, hs⟩ := h2
  match t, s with
  | [], [] => simp at hs
  | [], _ :: s' =>
    have := congrArg List.length hs
    simp at this
  | [x], [] =>
    have := congrArg List.length hs
    simp at this
  | [x], [y] => simp at hs
  | [x], y :: z :: s' =>
    have := congrArg List.length hs
    simp at this
  | x :: y :: t', _ => simp

/-- `tail_is_eoi` on at least two assembled bytes looks at the last two of them. -/
theorem tailIsEoi_iff {w : DmaBuf} {n : Nat} (h2 : 2 ≤ n) (hn : n ≤ jpegCap) :
    tailIsEoi w n = true ↔ [0xff, 0xd9] <:+ load w.mem UVC_ASSEMBLED_JPEG_DMA_OFF n := by
  have hend := assembled_end
  unfold tailIsEoi
  rw [dmaRxSlice_eq (by omega) (by omega)]
  have hsplit : load w.mem UVC_ASSEMBLED_JPEG_DMA_OFF n =
      load w.mem UVC_ASSEMBLED_JPEG_DMA_OFF (n - 2) ++
        load w.mem (UVC_ASSEMBLED_JPEG_DMA_OFF + (n - 2)) 2 := by
    rw [← load_append, Nat.sub_add_cancel h2]
  rw [hsplit]
  simp only [Option.any_some, beq_iff_eq]
  constructor
  · intro h
    rw [h]
    exact List.suffix_append _ _
  · rintro ⟨s, hs⟩
    exact (List.append_inj_right' hs (by simp)).symm

theorem AsmInv.frameAt {w : DmaBuf} {recv : List (List UInt8)} {a : Assembly}
    (hi : AsmInv recv w.mem a) (post : List (List UInt8)) (hr : received w.trace = recv ++ post)
    (hs : a.sawData = true)
    (ht : tailIsEoi w a.jpegLen = true) : FrameAt w a.jpegLen := by
  obtain ⟨pre, blk, rfl, hb, hl⟩ := hi.block hs
  have hsoi : [0xff, 0xd8] <+: load w.mem UVC_ASSEMBLED_JPEG_DMA_OFF a.jpegLen := by
    rw [hl]; exact hb.soi_prefix
  have h2 : 2 ≤ a.jpegLen := by simpa using hsoi.length_le
  have heoi := (tailIsEoi_iff h2 hi.le_cap).mp ht
  have h4 := four_le_of_markers hsoi heoi
  exact ⟨pre, blk, post, a.fid, hr, hb, hl, heoi, by simpa using h4, hi.le_cap⟩

/-- What every run guarantees, returned or not. -/
structure Integrity (o : Outcome CaptureState Nat) : Prop where
  apart : WritesApart o.state.dma
  frame : ∀ n rest st, o = .done (.ok n) rest st → FrameAt st.dma n

theorem Integrity.error {e : UsbError} {us : List Uframe} {st : CaptureState}
    (h : WritesApart st.dma) : Integrity (.done (.error e) us st) :=
  ⟨h, fun _ _ _ he => by cases he⟩

theorem Integrity.waiting {st : CaptureState} (h : WritesApart st.dma) :
    Integrity (.waiting st) :=
  ⟨h, fun _ _ _ he => by cases he⟩

theorem Integrity.ok {n : Nat} {us : List Uframe} {st : CaptureState} (h : WritesApart st.dma)
    (hf : FrameAt st.dma n) : Integrity (.done (.ok n) us st) :=
  ⟨h, fun _ _ _ he => by cases he; exact hf⟩

/-! ## The phases -/

theorem touches_apart {mps : Nat} (hmps : mps ≤ 2047) {w w' : DmaBuf} (hw : WritesApart w)
    (h : Touches mps DMA_OFF_UVC_BULK w w') : WritesApart w' := by
  intro e he
  rcases h.writes e he with he | ⟨len, hlen, rfl⟩
  · exact hw e he
  · refine ⟨Nat.le_refl _, ?_⟩
    unfold UVC_ASSEMBLED_JPEG_DMA_OFF UVC_WORK_AREA_BYTES
    omega

theorem apart_payload {w : DmaBuf} (hw : WritesApart w) (pkt : List UInt8) :
    WritesApart { w with trace := w.trace ++ [.payload pkt] } := by
  intro e he
  rcases List.mem_append.mp he with he | he
  · exact hw e he
  · rw [List.mem_singleton] at he
    subst he
    trivial

theorem IsochInEp.mps_le (ep : IsochInEp) : ep.mps ≤ 2047 := wmaxMps_le _

theorem workOff_le (ep : IsochInEp) : DMA_OFF_UVC_BULK + ep.mps ≤ DMA_BUF_TOTAL := by
  have := IsochInEp.mps_le ep
  have : DMA_OFF_UVC_BULK + 2047 ≤ DMA_BUF_TOTAL := by decide
  omega

/-- The flip wait touches the work area only, and a packet it returns is the last one read. -/
theorem waitFlip_apart (iso : IsochInEp) (prev : Option UInt8) (us : List Uframe) (w : DmaBuf)
    (hw : WritesApart w) :
    WritesApart (waitFlip iso DMA_OFF_UVC_BULK prev us w).state ∧
    ∀ p rest w', waitFlip iso DMA_OFF_UVC_BULK prev us w = .done (.ok p) rest w' →
      UvcPacket.new p.pkt = some p ∧ ∃ recv, received w'.trace = recv ++ [p.pkt] := by
  have heff := readPayload_effect iso (workOff_le iso) us w
  rw [waitFlip]
  split
  · rename_i w' h
    rw [h] at heff
    cases heff with
    | waiting ht =>
      exact ⟨touches_apart (IsochInEp.mps_le iso) hw ht, fun _ _ _ he => by cases he⟩
  · rename_i e us' w' h
    rw [h] at heff
    cases heff with
    | error ht =>
      exact ⟨touches_apart (IsochInEp.mps_le iso) hw ht, fun _ _ _ he => by cases he⟩
  · rename_i pkt us' w' h
    rw [h] at heff
    cases heff with
    | @ok _ _ w₁ ht =>
      have hw' := apart_payload (touches_apart (IsochInEp.mps_le iso) hw ht) pkt
      split
      · exact waitFlip_apart iso prev us' _ hw'
      · rename_i p hn
        have hp := UvcPacket.new_pkt hn
        split
        · exact waitFlip_apart iso _ us' _ hw'
        · split
          · refine ⟨hw', fun q rest w'' he => ?_⟩
            cases he
            exact ⟨by rw [hp]; exact hn, received w₁.trace, by simp [hp]⟩
          · exact waitFlip_apart iso _ us' _ hw'
termination_by us.length
decreasing_by all_goals exact readPayload_lt h

/-- What `finish_packet`'s result guarantees when the packet belongs to the block. -/
theorem finishPacket_integrity (frameFid : UInt8) (st : CaptureState) {recv : List (List UInt8)}
    {p : UvcPacket} {a : Assembly} (hw : WritesApart st.dma)
    (hr : received st.dma.trace = recv ++ [p.pkt]) (hi : AsmInv recv st.dma.mem a)
    (hn : UvcPacket.new p.pkt = some p) (hf : p.fid = a.fid) :
    (∃ e, ∃ a' : Assembly, ∃ st' : CaptureState,
      finishPacket frameFid jpegCap p a st = (.error e, a', st') ∧ WritesApart st'.dma) ∨
    (∃ len, ∃ a' : Assembly, ∃ st' : CaptureState,
      finishPacket frameFid jpegCap p a st = (.ok (some len), a', st') ∧
      WritesApart st'.dma ∧ FrameAt st'.dma len) ∨
    (∃ a' : Assembly, ∃ st' : CaptureState,
      finishPacket frameFid jpegCap p a st = (.ok none, a', st') ∧
      WritesApart st'.dma ∧ AsmInv (received st'.dma.trace) st'.dma.mem a') := by
  unfold finishPacket
  split
  · exact Or.inl ⟨_, _, _, rfl, hw⟩
  · rename_i len saw w ha
    have hi' := append_inv hi hn hf ha
    obtain ⟨hw', hr'⟩ := append_apart hw ha
    simp only
    split
    · rename_i hend
      simp only [Bool.and_eq_true] at hend
      refine Or.inr (Or.inl ⟨_, _, _, rfl, hw', ?_⟩)
      exact hi'.frameAt [] (by rw [hr', hr]; simp) hend.1.2 hend.2
    · split
      · exact Or.inl ⟨_, _, _, rfl, hw'⟩
      · refine Or.inr (Or.inr ⟨_, _, rfl, hw', ?_⟩)
        show AsmInv (received w.trace) w.mem _
        rw [hr', hr]
        exact hi'

theorem assembleLoop_integrity (iso : IsochInEp) (frameFid : UInt8) (a : Assembly)
    (us : List Uframe) (st : CaptureState) (hw : WritesApart st.dma)
    (hi : AsmInv (received st.dma.trace) st.dma.mem a) :
    Integrity (assembleLoop iso DMA_OFF_UVC_BULK frameFid jpegCap a us st) := by
  have hmps := IsochInEp.mps_le iso
  have heff := readPayload_effect iso (workOff_le iso) us st.dma
  rw [assembleLoop]
  split
  · rename_i w h
    rw [h] at heff
    cases heff with
    | waiting ht => exact .waiting (touches_apart hmps hw ht)
  · rename_i e us' w h
    rw [h] at heff
    cases heff with
    | error ht => exact .error (touches_apart hmps hw ht)
  · rename_i pkt us' w h
    rw [h] at heff
    cases heff with
    | @ok _ _ w₁ ht =>
      have hw' := apart_payload (touches_apart hmps hw ht) pkt
      have hi₁ : AsmInv (received w₁.trace) w₁.mem a := by
        rw [ht.received]; exact hi.frame hmps ht.mem
      simp only
      split
      · rename_i hn
        refine assembleLoop_integrity iso frameFid a us' _ hw' ?_
        simpa using hi₁.skip hn
      · rename_i p hn
        have hp := UvcPacket.new_pkt hn
        subst hp
        split
        · -- the flip closes a frame that ends in an end-of-image marker
          rename_i hflip
          simp only [Bool.and_eq_true] at hflip
          have hi₂ : AsmInv (received w₁.trace)
              { w₁ with trace := w₁.trace ++ [Event.payload p.pkt] }.mem a := hi₁
          exact .ok hw' (hi₂.frameAt [p.pkt] (by simp) hflip.2.1 hflip.2.2)
        · rename_i hflip
          obtain ⟨b, hb, hfb, heq⟩ : ∃ b : Assembly, AsmInv (received w₁.trace) w₁.mem b ∧
              p.fid = b.fid ∧ (if !p.isFid a.fid then ⟨0, false, p.fid⟩ else a) = b := by
            by_cases hsame : p.isFid a.fid = true
            · exact ⟨a, hi₁, by simpa [UvcPacket.isFid] using hsame, by simp [hsame]⟩
            · -- another FID: what was assembled is dropped
              exact ⟨⟨0, false, p.fid⟩, .restart _ _ _, rfl, by simp [hsame]⟩
          rw [heq]
          rcases finishPacket_integrity frameFid
            { st with dma := { w₁ with trace := w₁.trace ++ [.payload p.pkt] } }
            hw' (by simp) hb hn hfb with
            ⟨e, a', st', he, hs⟩ | ⟨len, a', st', he, hs, hfr⟩ | ⟨a', st', he, hs, ha⟩
          · rw [he]; exact .error hs
          · rw [he]; exact .ok hs hfr
          · rw [he]; exact assembleLoop_integrity iso frameFid a' us' st' hs ha
termination_by us.length
decreasing_by all_goals exact readPayload_lt h

theorem assemble_integrity (iso : IsochInEp) (first : UvcPacket) (us : List Uframe)
    (st : CaptureState) (hw : WritesApart st.dma) (hn : UvcPacket.new first.pkt = some first)
    (hr : ∃ recv, received st.dma.trace = recv ++ [first.pkt]) :
    Integrity (assemble iso DMA_OFF_UVC_BULK first jpegCap us st) := by
  obtain ⟨recv, hr⟩ := hr
  unfold assemble
  rcases finishPacket_integrity first.fid st hw hr (.restart _ _ first.fid) hn rfl with
    ⟨e, a', st', he, hs⟩ | ⟨len, a', st', he, hs, hfr⟩ | ⟨a', st', he, hs, ha⟩
  · rw [he]; exact .error hs
  · rw [he]; exact .ok hs hfr
  · rw [he]; exact assembleLoop_integrity iso first.fid a' us st' hs ha

theorem tryFrame_integrity (iso : IsochInEp) (init : Option UInt8) (us : List Uframe)
    (st : CaptureState) (hw : WritesApart st.dma) :
    Integrity (tryFrame iso DMA_OFF_UVC_BULK init jpegCap us st) := by
  obtain ⟨hs, hp⟩ := waitFlip_apart iso init us st.dma hw
  unfold tryFrame
  split
  · rename_i w h; rw [h] at hs; exact .waiting hs
  · rename_i e us' w h; rw [h] at hs; exact .error hs
  · rename_i p us' w h
    rw [h] at hs
    obtain ⟨hn, hr⟩ := hp p us' w h
    exact assemble_integrity iso p us' _ hs hn hr

theorem captureRounds_integrity (iso : IsochInEp) (init : Option UInt8) (rounds : Nat)
    (us : List Uframe) (st : CaptureState) (hw : WritesApart st.dma) :
    Integrity (captureRounds iso DMA_OFF_UVC_BULK init jpegCap rounds us st) := by
  cases rounds with
  | zero => exact .error hw
  | succ rounds =>
    have ht := tryFrame_integrity iso init us st hw
    rw [captureRounds]
    split
    all_goals rename_i h; rw [h] at ht; exact ht

/-- **Frame integrity over arbitrary packet streams**: whatever the microframes, the earlier
contents of the window and `LAST_EOF_FID`, the writes of a capture stay in their areas, and a
frame it returns is the payloads of one contiguous block of received packets. -/
theorem captureFrame_integrity (cam : UvcCamera) (us : List Uframe) (mem : Memory UInt8)
    (lastEofFid : UInt8) :
    WritesApart (captureFrame cam us (.start mem lastEofFid)).state.dma ∧
    ∀ n rest st, captureFrame cam us (.start mem lastEofFid) = .done (.ok n) rest st →
      ∃ pre blk post fid, received st.dma.trace = pre ++ blk ++ post ∧ Block blk fid ∧
        load st.dma.mem UVC_ASSEMBLED_JPEG_DMA_OFF n = payloads blk ∧
        [0xff, 0xd9] <:+ load st.dma.mem UVC_ASSEMBLED_JPEG_DMA_OFF n ∧ 4 ≤ n ∧
        n ≤ UVC_BULK_DMA_CAP - UVC_WORK_AREA_BYTES := by
  have h := captureRounds_integrity cam.iso (initFid lastEofFid) 4 us (.start mem lastEofFid)
    (fun e he => by cases he)
  exact ⟨h.apart, h.frame⟩

end Cvirtos.Usb.Uvc
