import Cvirtos.Usb.Uvc.CaptureBudget

/-!
# Where a captured frame comes from

The trace of the window says which received packets the bytes in the assembly area were copied
from.

* `frameParts` — the positions of these packets among all packets received; `Made` — they were
  received late enough, carry one FID, and their payloads are the assembled bytes.
* `finishPacket_assembles` — one packet keeps this.
* `Consumes` — a call takes the packets it receives off the front of the bus, each once.
* `calls` — successive captures.
-/

set_option autoImplicit false

namespace Cvirtos.Usb.Uvc

open Cvirtos.Lib Cvirtos.Usb.Dwc2

/-- The number of packets received, and the positions of those whose payloads were written since
the assembly area was last begun. -/
structure Sources where
  received : Nat
  parts : List Nat
  deriving DecidableEq, Repr

/-- What an event adds.  A write copies the payload of the packet received last; a write at the
start of the assembly area begins a new frame. -/
def Sources.note (s : Sources) : Event → Sources
  | .dmaWrite _ _ => s
  | .payload _ => { s with received := s.received + 1 }
  | .cpuWrite off _ =>
    let begun := if off = UVC_ASSEMBLED_JPEG_DMA_OFF then [] else s.parts
    { s with parts := begun ++ [s.received - 1] }

def sources (t : List Event) : Sources := t.foldl Sources.note ⟨0, []⟩

/-- The positions of the packets that make up the frame in the assembly area. -/
def frameParts (w : DmaBuf) : List Nat := (sources w.trace).parts

/-- The packet received at position `i`, if its header is legal. -/
def packetAt (w : DmaBuf) (i : Nat) : Option UvcPacket :=
  (received w.trace)[i]?.bind UvcPacket.new

/-- The payload of the packet received at position `i`. -/
def payloadAt (w : DmaBuf) (i : Nat) : List UInt8 := ((packetAt w i).map UvcPacket.payload).getD []

@[simp] theorem sources_snoc (t : List Event) (e : Event) :
    sources (t ++ [e]) = (sources t).note e := by
  simp [sources]

theorem foldl_note_received (t : List Event) (s : Sources) :
    (t.foldl Sources.note s).received = s.received + (received t).length := by
  induction t generalizing s with
  | nil => rfl
  | cons e t ih =>
      rw [List.foldl_cons, ih]
      cases e with
      | dmaWrite off len => rfl
      | cpuWrite off len => rfl
      | payload pkt =>
          simp only [Sources.note, received, List.filterMap_cons, List.length_cons]
          omega

theorem sources_received (t : List Event) : (sources t).received = (received t).length := by
  unfold sources
  rw [foldl_note_received, Nat.zero_add]

/-- A write of the CPU adds the packet received last, to what was there or to a new frame. -/
theorem frameParts_write (w : DmaBuf) (mem : Memory UInt8) (off len : Nat) :
    frameParts ⟨mem, w.trace ++ [.cpuWrite off len]⟩ =
      (if off = UVC_ASSEMBLED_JPEG_DMA_OFF then [] else frameParts w) ++
        [(received w.trace).length - 1] := by
  unfold frameParts
  rw [sources_snoc, ← sources_received]
  rfl

/-! ## One packet off the bus -/

theorem readUframe_sources (ep : IsochInEp) (off : Nat) (us : List Uframe) (w : DmaBuf) :
    sources (readUframe ep off us w).state.trace = sources w.trace := by
  have hreceive : ∀ bytes, sources (w.receive off bytes).trace = sources w.trace := by
    intro bytes
    simp [DmaBuf.receive, Sources.note]
  unfold readUframe
  dsimp only
  repeat' split
  all_goals first
    | rfl
    | exact hreceive _

theorem readPayloadLoop_sources {ep : IsochInEp} {off left : Nat} {us us' : List Uframe}
    {w w' : DmaBuf} {pkt : List UInt8}
    (h : readPayloadLoop ep off left us w = .done (.ok pkt) us' w') :
    sources w'.trace = (sources w.trace).note (.payload pkt) := by
  induction left generalizing us w with
  | zero => cases h
  | succ left ih =>
      have hu := readUframe_sources ep off us w
      rw [readPayloadLoop] at h
      split at h
      · cases h
      · cases h
      · rename_i n us₁ w₁ hr
        rw [hr] at hu
        simp only [Outcome.state] at hu
        split at h
        · split at h
          · cases h
            rw [sources_snoc, hu]
          · cases h
        · rw [ih h, hu]

/-- What a call of `read_payload` that returns a packet has done. -/
structure Reads (mps : Nat) (us : List Uframe) (w : DmaBuf) (pkt : List UInt8)
    (us' : List Uframe) (w' : DmaBuf) : Prop where
  packets : packetsOf mps us = pkt :: packetsOf mps us'
  received : received w'.trace = received w.trace ++ [pkt]
  parts : frameParts w' = frameParts w
  mem : AgreeOutside DMA_OFF_UVC_BULK (DMA_OFF_UVC_BULK + mps) w.mem w'.mem

theorem readPayload_reads {iso : IsochInEp} {us us' : List Uframe} {w w' : DmaBuf}
    {pkt : List UInt8} (h : readPayload iso DMA_OFF_UVC_BULK us w = .done (.ok pkt) us' w') :
    Reads iso.mps us w pkt us' w' := by
  have hmps : 0 < iso.mps := by
    refine Nat.pos_of_ne_zero fun h0 => ?_
    rw [readPayload_bad h0] at h
    cases h
  obtain ⟨gap, u, rfl, hgap, -, hu, hne⟩ := readPayloadLoop_packet hmps (workOff_le iso) h
  have hsources := readPayloadLoop_sources h
  have heff := readPayload_effect iso (workOff_le iso) (gap ++ u :: us') w
  rw [h] at heff
  cases heff with
  | ok ht =>
      refine ⟨?_, ?_, ?_, ht.mem⟩
      · rw [packetsOf_append, packetsOf_idle hgap, packetsOf_cons hu hne, List.nil_append]
      · rw [received_append, ht.received, received_payload]
      · unfold frameParts
        rw [hsources]
        rfl

/-- From `us` to `us'` the call has received the packets that the microframes in between carry. -/
def Consumes (mps : Nat) (us us' : List Uframe) (w w' : DmaBuf) : Prop :=
  ∃ recv, packetsOf mps us = recv ++ packetsOf mps us' ∧
    received w'.trace = received w.trace ++ recv

theorem Consumes.trans {mps : Nat} {us us' us'' : List Uframe} {w w' w'' : DmaBuf}
    (h : Consumes mps us us' w w') (h' : Consumes mps us' us'' w' w'') :
    Consumes mps us us'' w w'' := by
  obtain ⟨recv, hp, hr⟩ := h
  obtain ⟨recv', hp', hr'⟩ := h'
  exact ⟨recv ++ recv', by rw [hp, hp', List.append_assoc],
    by rw [hr', hr, List.append_assoc]⟩

theorem Reads.consumes {mps : Nat} {us us' : List Uframe} {w w' : DmaBuf} {pkt : List UInt8}
    (h : Reads mps us w pkt us' w') : Consumes mps us us' w w' :=
  ⟨[pkt], h.packets, h.received⟩

/-! ## The parts of a frame -/

/-- The `len` bytes in the assembly area are the payloads of its parts: packets of the FID `fid`,
received from position `lo` on. -/
structure Made (lo : Nat) (w : DmaBuf) (len : Nat) (fid : UInt8) : Prop where
  ne_nil : frameParts w ≠ []
  parts : ∀ i ∈ frameParts w, lo ≤ i ∧ ∃ p, packetAt w i = some p ∧ p.fid = fid
  bytes : load w.mem UVC_ASSEMBLED_JPEG_DMA_OFF len = (frameParts w).flatMap (payloadAt w)

/-- Packets received later leave the earlier ones in their places. -/
theorem packetAt_mono {w w' : DmaBuf} {more : List (List UInt8)}
    (hr : received w'.trace = received w.trace ++ more) {i : Nat} {p : UvcPacket}
    (h : packetAt w i = some p) : packetAt w' i = some p := by
  unfold packetAt at h ⊢
  obtain ⟨pkt, hpkt, hn⟩ := Option.bind_eq_some_iff.mp h
  have hi : i < (received w.trace).length := (List.getElem?_eq_some_iff.mp hpkt).1
  rw [hr, List.getElem?_append_left hi]
  exact h

theorem Made.mono {lo len : Nat} {w w' : DmaBuf} {fid : UInt8} (h : Made lo w len fid)
    {more : List (List UInt8)} (hr : received w'.trace = received w.trace ++ more)
    (hp : frameParts w' = frameParts w)
    (hb : load w'.mem UVC_ASSEMBLED_JPEG_DMA_OFF len = load w.mem UVC_ASSEMBLED_JPEG_DMA_OFF len) :
    Made lo w' len fid := by
  refine ⟨by rw [hp]; exact h.ne_nil, fun i hi => ?_, ?_⟩
  · rw [hp] at hi
    obtain ⟨hlo, p, hat, hf⟩ := h.parts i hi
    exact ⟨hlo, p, packetAt_mono hr hat, hf⟩
  · rw [hb, hp, h.bytes]
    refine List.flatMap_congr fun i hi => ?_
    obtain ⟨-, p, hat, -⟩ := h.parts i hi
    unfold payloadAt
    rw [hat, packetAt_mono hr hat]

/-- A packet received into the work area leaves the frame as it is. -/
theorem Made.read {lo len : Nat} {w w' : DmaBuf} {fid : UInt8} (h : Made lo w len fid)
    {iso : IsochInEp} {us us' : List Uframe} {pkt : List UInt8}
    (hr : Reads iso.mps us w pkt us' w') : Made lo w' len fid := by
  refine h.mono hr.received hr.parts ?_
  rw [hr.mem.load]
  refine Or.inr ?_
  have := IsochInEp.mps_le iso
  unfold UVC_ASSEMBLED_JPEG_DMA_OFF UVC_WORK_AREA_BYTES
  omega

/-- The packet received last. -/
theorem packetAt_last {w : DmaBuf} {recv : List (List UInt8)} {p : UvcPacket}
    (hr : received w.trace = recv ++ [p.pkt]) (hn : UvcPacket.new p.pkt = some p) :
    packetAt w recv.length = some p := by
  unfold packetAt
  rw [hr]
  simp [hn]

/-- **A packet that is appended becomes the last part** of the frame. -/
theorem append_made {lo : Nat} {w w' : DmaBuf} {a : Assembly} {p : UvcPacket}
    {recv : List (List UInt8)} {len : Nat} {saw : Bool} (hfresh : a.sawData = false → a.jpegLen = 0)
    (hm : a.sawData = true → Made lo w a.jpegLen a.fid) (hn : UvcPacket.new p.pkt = some p)
    (hr : received w.trace = recv ++ [p.pkt]) (hlo : lo ≤ recv.length) (hf : p.fid = a.fid)
    (h : p.append a.jpegLen a.sawData jpegCap w = .ok (len, saw, w')) :
    received w'.trace = received w.trace ∧ (saw = true → Made lo w' len a.fid) := by
  rcases append_cases h with ⟨rfl, rfl, rfl, -⟩ | ⟨rfl, -, -, -, rfl⟩
  · exact ⟨rfl, hm⟩
  refine ⟨by simp, fun _ => ?_⟩
  have hwrite := frameParts_write w (store w.mem (UVC_ASSEMBLED_JPEG_DMA_OFF + a.jpegLen) p.payload)
    (UVC_ASSEMBLED_JPEG_DMA_OFF + a.jpegLen) p.payload.length
  rw [hr, List.length_append, List.length_singleton, Nat.add_sub_cancel] at hwrite
  generalize hw' : (⟨store w.mem (UVC_ASSEMBLED_JPEG_DMA_OFF + a.jpegLen) p.payload,
    w.trace ++ [.cpuWrite (UVC_ASSEMBLED_JPEG_DMA_OFF + a.jpegLen) p.payload.length]⟩ : DmaBuf) =
    w' at hwrite ⊢
  have hrecv : received w'.trace = received w.trace := by rw [← hw']; simp
  -- what was assembled before this write, and where it came from
  obtain ⟨begun, hparts, hold, hbytes⟩ : ∃ begun, frameParts w' = begun ++ [recv.length] ∧
      (∀ i ∈ begun, lo ≤ i ∧ ∃ q, packetAt w i = some q ∧ q.fid = a.fid) ∧
      load w.mem UVC_ASSEMBLED_JPEG_DMA_OFF a.jpegLen = begun.flatMap (payloadAt w) := by
    by_cases h0 : a.jpegLen = 0
    · refine ⟨[], ?_, by simp, by rw [h0]; rfl⟩
      simpa [h0] using hwrite
    · have hsaw : a.sawData = true := by
        by_contra hs
        exact h0 (hfresh (Bool.eq_false_iff.mpr hs))
      refine ⟨frameParts w, ?_, (hm hsaw).parts, (hm hsaw).bytes⟩
      simpa [h0] using hwrite
  have hsame : ∀ i, payloadAt w' i = payloadAt w i := by
    intro i
    unfold payloadAt packetAt
    rw [hrecv]
  refine ⟨by rw [hparts]; simp, fun i hi => ?_, ?_⟩
  · rw [hparts] at hi
    have hkeep : ∀ q, packetAt w i = some q → packetAt w' i = some q := fun q hq => by
      rw [← hq]
      unfold packetAt
      rw [hrecv]
    rcases List.mem_append.mp hi with hi | hi
    · obtain ⟨hle, q, hat, hq⟩ := hold i hi
      exact ⟨hle, q, hkeep q hat, hq⟩
    · rw [List.mem_singleton] at hi
      subst hi
      exact ⟨hlo, p, hkeep p (packetAt_last hr hn), hf⟩
  · have hpay : payloadAt w recv.length = p.payload := by
      unfold payloadAt
      rw [packetAt_last hr hn]
      rfl
    rw [hparts, List.flatMap_append, List.flatMap_singleton, hsame, hpay,
      List.flatMap_congr (fun i _ => hsame i), ← hbytes, ← hw']
    exact load_store_append _ _ _ _

/-! ## One packet of an assembly -/

/-- The assembly stands at the run `run`, all of it received from position `lo` on. -/
structure Assembles (lo : Nat) (run : List UvcPacket) (w : DmaBuf) (a : Assembly) : Prop where
  holds : Holds run w.mem a
  last : ∃ q, run.getLast? = some q ∧ q.fid = a.fid
  made : a.sawData = true → Made lo w a.jpegLen a.fid

theorem Assembles.read {lo : Nat} {run : List UvcPacket} {w w' : DmaBuf} {a : Assembly}
    (h : Assembles lo run w a) {iso : IsochInEp} {us us' : List Uframe} {pkt : List UInt8}
    (hr : Reads iso.mps us w pkt us' w') : Assembles lo run w' a :=
  ⟨h.holds.frame (IsochInEp.mps_le iso) hr.mem, h.last, fun hs => (h.made hs).read hr⟩

/-- **One packet that does not fail** joins the run; it hands the frame out when it carries EOF,
and asks for the next packet otherwise. -/
theorem finishPacket_assembles {lo : Nat} {run : List UvcPacket} {frameFid : UInt8}
    {st st' : CaptureState} {a a' : Assembly} {p : UvcPacket} {recv : List (List UInt8)}
    {res : Option Nat} (hh : Holds run st.dma.mem a)
    (hm : a.sawData = true → Made lo st.dma a.jpegLen a.fid) (hn : UvcPacket.new p.pkt = some p)
    (hr : received st.dma.trace = recv ++ [p.pkt]) (hlo : lo ≤ recv.length) (hf : p.fid = a.fid)
    (h : finishPacket frameFid jpegCap p a st = (.ok res, a', st')) :
    Assembles lo (run ++ [p]) st'.dma a' ∧ a'.fid = a.fid ∧
      received st'.dma.trace = received st.dma.trace ∧
      (res = none ∧ p.eof = false ∧ st'.lastEofFid = st.lastEofFid ∨
        res = some a'.jpegLen ∧ p.eof = true ∧ a'.sawData = true ∧
          st'.lastEofFid = frameFid) := by
  unfold finishPacket at h
  split at h
  · cases h
  rename_i len saw w' ha
  obtain ⟨hrecv, hmade⟩ := append_made hh.fresh hm hn hr hlo hf ha
  have hholds : Holds (run ++ [p]) w'.mem { a with jpegLen := len, sawData := saw } := by
    rcases append_holds hh p with ⟨-, he⟩ | ⟨-, len', saw', w'', he, hh'⟩
    · rw [ha] at he
      cases he
    · rw [ha] at he
      cases he
      exact hh'
  have hasm : Assembles lo (run ++ [p]) w' { a with jpegLen := len, sawData := saw } :=
    ⟨hholds, ⟨p, List.getLast?_concat, hf⟩, hmade⟩
  simp only at h
  split at h
  · rename_i hend
    simp only [Bool.and_eq_true] at hend
    cases h
    exact ⟨hasm, rfl, hrecv, Or.inr ⟨rfl, hend.1.1, hend.1.2, rfl⟩⟩
  · split at h
    · cases h
    · rename_i heof
      cases h
      exact ⟨hasm, rfl, hrecv, Or.inl ⟨rfl, Bool.eq_false_iff.mpr heof, rfl⟩⟩

/-- What the assembly does with a packet it has finished. -/
def afterPacket (iso : IsochInEp) (frameFid : UInt8) (us : List Uframe) :
    UsbResult (Option Nat) × Assembly × CaptureState → Outcome CaptureState Nat
  | (.error e, _, st) => .done (.error e) us st
  | (.ok (some len), _, st) => .done (.ok len) us st
  | (.ok none, a, st) => assembleLoop iso DMA_OFF_UVC_BULK frameFid jpegCap a us st

/-- **A packet on the way to a frame** joins the run: with EOF the run is handed out, without it the
loop goes on. -/
theorem afterPacket_assembles {iso : IsochInEp} {lo n : Nat} {run : List UvcPacket}
    {frameFid : UInt8} {us us' : List Uframe} {st st' : CaptureState} {a : Assembly} {p : UvcPacket}
    {recv : List (List UInt8)} (hh : Holds run st.dma.mem a)
    (hm : a.sawData = true → Made lo st.dma a.jpegLen a.fid) (hn : UvcPacket.new p.pkt = some p)
    (hr : received st.dma.trace = recv ++ [p.pkt]) (hlo : lo ≤ recv.length) (hf : p.fid = a.fid)
    (h : afterPacket iso frameFid us (finishPacket frameFid jpegCap p a st) =
      .done (.ok n) us' st') :
    ∃ a' st₁, Assembles lo (run ++ [p]) st₁.dma a' ∧ a'.fid = a.fid ∧
      received st₁.dma.trace = received st.dma.trace ∧
      (p.eof = true ∧ a'.sawData = true ∧ st₁.lastEofFid = frameFid ∧
          Outcome.done (.ok a'.jpegLen) us st₁ = Outcome.done (.ok n) us' st' ∨
        p.eof = false ∧
          assembleLoop iso DMA_OFF_UVC_BULK frameFid jpegCap a' us st₁ = .done (.ok n) us' st') := by
  rcases hfin : finishPacket frameFid jpegCap p a st with ⟨res, a', st₁⟩
  rw [hfin] at h
  cases res with
  | error e => cases h
  | ok res =>
    obtain ⟨hasm, hfid, hrecv, ⟨rfl, heof, -⟩ | ⟨rfl, heof, hsaw, hlast⟩⟩ :=
      finishPacket_assembles hh hm hn hr hlo hf hfin
    · exact ⟨a', st₁, hasm, hfid, hrecv, .inr ⟨heof, h⟩⟩
    · exact ⟨a', st₁, hasm, hfid, hrecv, .inl ⟨heof, hsaw, hlast, h⟩⟩

/-! ## The flip wait -/

/-- The packets from the flip on. -/
def afterFlip (prev : Option UInt8) (ps : List UvcPacket) : List UvcPacket :=
  match flipRef prev ps with
  | none => []
  | some r => ps.dropWhile fun p => p.fid == r

/-- **The wait returns the packet that flips**, the last one received. -/
theorem waitFlip_ok {iso : IsochInEp} (prev : Option UInt8) (us : List Uframe) (w : DmaBuf) :
    ∀ p us' w', waitFlip iso DMA_OFF_UVC_BULK prev us w = .done (.ok p) us' w' →
      UvcPacket.new p.pkt = some p ∧ Consumes iso.mps us us' w w' ∧
      (∃ recv, received w'.trace = recv ++ [p.pkt] ∧ (received w.trace).length ≤ recv.length) ∧
      afterFlip prev (legal (packetsOf iso.mps us)) = p :: legal (packetsOf iso.mps us') := by
  intro p us' w' h
  rw [waitFlip] at h
  split at h
  · cases h
  · cases h
  · rename_i pkt us₁ w₁ hr
    have hreads := readPayload_reads hr
    have hlt := readPayload_lt hr
    -- what the rest of the wait has done, in terms of the whole of it
    have hrest : ∀ prev', waitFlip iso DMA_OFF_UVC_BULK prev' us₁ w₁ = .done (.ok p) us' w' →
        UvcPacket.new p.pkt = some p ∧ Consumes iso.mps us us' w w' ∧
        (∃ recv, received w'.trace = recv ++ [p.pkt] ∧
          (received w.trace).length ≤ recv.length) ∧
        afterFlip prev' (legal (packetsOf iso.mps us₁)) =
          p :: legal (packetsOf iso.mps us') := by
      intro prev' h'
      obtain ⟨hn, hc, ⟨recv, hrecv, hle⟩, hafter⟩ := waitFlip_ok prev' us₁ w₁ p us' w' h'
      refine ⟨hn, hreads.consumes.trans hc, ⟨recv, hrecv, ?_⟩, hafter⟩
      rw [hreads.received, List.length_append] at hle
      omega
    rw [hreads.packets, legal_cons]
    split at h
    · rename_i hn
      rw [legal_illegal hn, List.nil_append]
      exact hrest prev h
    · rename_i q hn
      obtain rfl := UvcPacket.new_pkt hn
      rw [legal_singleton hn, List.singleton_append]
      split at h
      · obtain ⟨h₁, h₂, h₃, h₄⟩ := hrest (some q.fid) h
        refine ⟨h₁, h₂, h₃, ?_⟩
        rw [← h₄]
        simp [afterFlip, flipRef]
      · rename_i r
        split at h
        · rename_i hne
          cases h
          refine ⟨hn, hreads.consumes, ⟨received w.trace, hreads.received, Nat.le_refl _⟩, ?_⟩
          simp [afterFlip, flipRef, Ne.symm hne]
        · rename_i heq
          obtain ⟨h₁, h₂, h₃, h₄⟩ := hrest (some r) h
          refine ⟨h₁, h₂, h₃, ?_⟩
          rw [← h₄]
          simp [afterFlip, flipRef, (not_not.mp heq).symm]
termination_by us.length
decreasing_by assumption

/-! ## Successive captures -/

/-- A capture that has returned: the microframes and the state it began with, its result and the
state it left. -/
structure Call where
  us : List Uframe
  before : CaptureState
  res : UsbResult Nat
  after : CaptureState

/-- Up to `k` successive captures.  The list ends early when a capture is still waiting for
microframes. -/
def calls (cam : UvcCamera) : Nat → List Uframe → CaptureState → List Call
  | 0, _, _ => []
  | k + 1, us, st =>
    match captureFrame cam us st with
    | .waiting _ => []
    | .done res us' st' => ⟨us, st, res, st'⟩ :: calls cam k us' st'

/-- Every member of the list is a capture that has returned. -/
theorem calls_captures {cam : UvcCamera} {k : Nat} {us : List Uframe} {st : CaptureState}
    {c : Call} (h : c ∈ calls cam k us st) :
    ∃ us', captureFrame cam c.us c.before = .done c.res us' c.after := by
  induction k generalizing us st with
  | zero => cases h
  | succ k ih =>
      rw [calls] at h
      split at h
      · cases h
      · rename_i res us' st' hcap
        rcases List.mem_cons.mp h with rfl | h
        · exact ⟨us', hcap⟩
        · exact ih h

end Cvirtos.Usb.Uvc
