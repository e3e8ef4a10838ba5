import Cvirtos.Usb.Uvc.FrameSources
import Mathlib.Algebra.Group.Nat.Even

/-!
# Whose FID is remembered

`try_frame` takes the FID to remember from the packet that flipped, and stores it at all three of
its successful exits.  Dropping a residual run starts the assembly again with packets of the other
FID, and the value to store is not renewed.

* `residualRuns` — the runs a capture drops before the one it hands out.
* `assembleLoop_handsOut`, `captureFrame_handsOut` — a frame carries the FID of the packet that
  flipped exactly when the number of runs dropped is even.
* `lastEofFid_names_iff` — **when `LAST_EOF_FID` names the frame just returned**.
-/

set_option autoImplicit false

namespace Cvirtos.Usb.Uvc

open Cvirtos.Lib Cvirtos.Usb.Dwc2

/-- The packet `p` flips behind a run that does not end with an end-of-image marker: what was
assembled is dropped. -/
def Drops (run : List UvcPacket) (p : UvcPacket) : Prop :=
  run.getLast?.any (·.fid != p.fid) = true ∧ ¬ Complete run

instance (run : List UvcPacket) (p : UvcPacket) : Decidable (Drops run p) :=
  inferInstanceAs (Decidable (_ ∧ _))

instance (run : List UvcPacket) (p : UvcPacket) : Decidable (Closes run p) :=
  inferInstanceAs (Decidable (_ ∨ _ ∨ _))

/-- The number of runs that the packets drop, from an assembly that stands at `run` up to the
packet that ends it. -/
def residualRuns : List UvcPacket → List UvcPacket → Nat
  | _, [] => 0
  | run, p :: ps =>
    (if Drops run p then 1 else 0) + if Closes run p then 0 else residualRuns (extendRun run p) ps

/-- The number of residual runs a capture drops behind the flip. -/
def droppedRuns (cam : UvcCamera) (us : List Uframe) (st : CaptureState) : Nat :=
  residualRuns [] (afterFlip (initFid st.lastEofFid) (legal (packetsOf cam.iso.mps us)))

/-- `LAST_EOF_FID` is the FID of the packets that make up the frame in the assembly area. -/
def NamesFrame (st : CaptureState) : Prop :=
  frameParts st.dma ≠ [] ∧
    ∀ i ∈ frameParts st.dma, (packetAt st.dma i).map UvcPacket.fid = some st.lastEofFid

/-! ## The runs a packet drops -/

theorem residualRuns_same {run : List UvcPacket} {q p : UvcPacket} (hq : run.getLast? = some q)
    (hf : p.fid = q.fid) (hfit : (assembled (run ++ [p])).length ≤ jpegCap)
    (ps : List UvcPacket) :
    residualRuns run (p :: ps) = if p.eof then 0 else residualRuns (run ++ [p]) ps := by
  obtain ⟨hrun, hcl⟩ := closes_same hq hf
  have hdrop : ¬ Drops run p := fun h => by simpa [hq, hf] using h.1
  rw [residualRuns, if_neg hdrop, Nat.zero_add, hrun]
  simp only [hcl, Nat.not_lt.mpr hfit, or_false]

theorem residualRuns_drop {run : List UvcPacket} {q p : UvcPacket} (hq : run.getLast? = some q)
    (hf : p.fid ≠ q.fid) (hc : ¬ Complete run) (hfit : (assembled [p]).length ≤ jpegCap)
    (ps : List UvcPacket) :
    residualRuns run (p :: ps) = 1 + if p.eof then 0 else residualRuns [p] ps := by
  obtain ⟨hrun, hcl⟩ := closes_flip hq hf
  have hdrop : Drops run p := ⟨by simp [hq, Ne.symm hf], hc⟩
  rw [residualRuns, if_pos hdrop, hrun]
  simp only [hcl, hc, Nat.not_lt.mpr hfit, or_false]

theorem residualRuns_complete {run : List UvcPacket} {q p : UvcPacket}
    (hq : run.getLast? = some q) (hf : p.fid ≠ q.fid) (hc : Complete run) (ps : List UvcPacket) :
    residualRuns run (p :: ps) = 0 := by
  have hcl : Closes run p := (closes_flip hq hf).2.mpr (Or.inr (Or.inl hc))
  rw [residualRuns, if_neg (fun h => h.2 hc), if_pos hcl]

/-- The packet that flipped drops nothing. -/
theorem residualRuns_first {p : UvcPacket} (hfit : (assembled [p]).length ≤ jpegCap)
    (ps : List UvcPacket) :
    residualRuns [] (p :: ps) = if p.eof then 0 else residualRuns [p] ps := by
  have hdrop : ¬ Drops [] p := fun h => by simpa using h.1
  have hcl : Closes [] p ↔ p.eof = true := by
    unfold Closes extendRun
    simpa using fun h => absurd h (Nat.not_lt.mpr hfit)
  have hrun : extendRun [] p = [p] := rfl
  rw [residualRuns, if_neg hdrop, Nat.zero_add, hrun]
  simp only [hcl]

/-! ## The FID of the frame handed out -/

/-- There are two FIDs. -/
theorem fid_eq_iff_ne {p q r : UvcPacket} (h : p.fid ≠ q.fid) : r.fid = q.fid ↔ r.fid ≠ p.fid := by
  have hp := UInt8.le_iff_toNat_le.mp (legal_fid_le (p := p))
  have hq := UInt8.le_iff_toNat_le.mp (legal_fid_le (p := q))
  have hr := UInt8.le_iff_toNat_le.mp (legal_fid_le (p := r))
  simp only [ne_eq, ← UInt8.toNat_inj] at h ⊢
  simp only [UInt8.reduceToNat] at hp hq hr
  omega

/-- What an assembly of the FID `fid` has left when it hands out `n` bytes after dropping
`dropped` runs. -/
structure HandsOut (lo : Nat) (frameFid fid : UInt8) (dropped n : Nat) (st : CaptureState) :
    Prop where
  stored : st.lastEofFid = frameFid
  made : ∃ p : UvcPacket, Made lo st.dma n p.fid ∧ (p.fid = fid ↔ Even dropped)

/-- A run that is handed out itself. -/
theorem HandsOut.of_made {lo n : Nat} {frameFid fid : UInt8} {st : CaptureState}
    (hs : st.lastEofFid = frameFid) (hm : Made lo st.dma n fid) :
    HandsOut lo frameFid fid 0 n st := by
  obtain ⟨i, hi⟩ := List.exists_mem_of_ne_nil _ hm.ne_nil
  obtain ⟨-, p, -, hp⟩ := hm.parts i hi
  exact ⟨hs, p, hp ▸ hm, by simp [hp]⟩

/-- One run more has been dropped. -/
theorem HandsOut.dropped {lo n m : Nat} {frameFid : UInt8} {p q : UvcPacket} {st : CaptureState}
    (h : HandsOut lo frameFid p.fid m n st) (hf : p.fid ≠ q.fid) :
    HandsOut lo frameFid q.fid (1 + m) n st := by
  obtain ⟨r, hm, hiff⟩ := h.made
  refine ⟨h.stored, r, hm, ?_⟩
  rw [fid_eq_iff_ne hf, Nat.add_comm, Nat.even_add_one, ← hiff]

/-- The end of a turn, when the loop that may follow it is understood. -/
theorem finish_handsOut {iso : IsochInEp} {lo n : Nat} {frameFid : UInt8} {run : List UvcPacket}
    {a : Assembly} {p : UvcPacket} {us us' : List Uframe} (st : CaptureState) {st' : CaptureState}
    {recv : List (List UInt8)} (hh : Holds run st.dma.mem a)
    (hm : a.sawData = true → Made lo st.dma a.jpegLen a.fid) (hn : UvcPacket.new p.pkt = some p)
    (hr : received st.dma.trace = recv ++ [p.pkt]) (hlo : lo ≤ recv.length) (hf : p.fid = a.fid)
    (hloop : ∀ run a st, Assembles lo run st.dma a → lo ≤ (received st.dma.trace).length →
      assembleLoop iso DMA_OFF_UVC_BULK frameFid jpegCap a us st = .done (.ok n) us' st' →
      Consumes iso.mps us us' st.dma st'.dma ∧
        HandsOut lo frameFid a.fid (residualRuns run (legal (packetsOf iso.mps us))) n st')
    (h : afterPacket iso frameFid us (finishPacket frameFid jpegCap p a st) =
      .done (.ok n) us' st') :
    (assembled (run ++ [p])).length ≤ jpegCap ∧ Consumes iso.mps us us' st.dma st'.dma ∧
      HandsOut lo frameFid a.fid
        (if p.eof then 0 else residualRuns (run ++ [p]) (legal (packetsOf iso.mps us))) n st' := by
  obtain ⟨a', st₁, hasm, hfid, hrecv, ⟨heof, hsaw, hlast, h⟩ | ⟨heof, h⟩⟩ :=
    afterPacket_assembles hh hm hn hr hlo hf h
  · cases h
    refine ⟨hasm.holds.len ▸ hasm.holds.fits, ⟨[], rfl, by simpa using hrecv⟩, ?_⟩
    rw [if_pos heof]
    exact .of_made hlast (hfid ▸ hasm.made hsaw)
  · have hlo₁ : lo ≤ (received st₁.dma.trace).length := by
      rw [hrecv, hr, List.length_append]
      omega
    obtain ⟨hc, hy⟩ := hloop (run ++ [p]) a' st₁ hasm hlo₁ h
    refine ⟨hasm.holds.len ▸ hasm.holds.fits, ?_, ?_⟩
    · obtain ⟨more, hp, hmore⟩ := hc
      exact ⟨more, hp, hrecv ▸ hmore⟩
    · rw [if_neg (by simp [heof]), ← hfid]
      exact hy

/-- **The assembly loop hands out a frame of its own FID** exactly when it has dropped an even
number of runs. -/
theorem assembleLoop_handsOut {iso : IsochInEp} {lo : Nat} (frameFid : UInt8) (run : List UvcPacket)
    (a : Assembly) (us : List Uframe) (st : CaptureState) {n : Nat} {us' : List Uframe}
    {st' : CaptureState} (ha : Assembles lo run st.dma a)
    (hlo : lo ≤ (received st.dma.trace).length)
    (h : assembleLoop iso DMA_OFF_UVC_BULK frameFid jpegCap a us st = .done (.ok n) us' st') :
    Consumes iso.mps us us' st.dma st'.dma ∧
      HandsOut lo frameFid a.fid (residualRuns run (legal (packetsOf iso.mps us))) n st' := by
  rw [assembleLoop] at h
  split at h
  · cases h
  · cases h
  rename_i pkt us₁ w hr
  have hreads := readPayload_reads hr
  have hlt := readPayload_lt hr
  have ha₁ := ha.read hreads
  have hlo₁ : lo ≤ (received w.trace).length := by
    rw [hreads.received, List.length_append]
    omega
  rw [hreads.packets, legal_cons]
  simp only at h
  split at h
  · rename_i hn
    obtain ⟨hc, hy⟩ := assembleLoop_handsOut frameFid run a us₁ { st with dma := w } ha₁ hlo₁ h
    rw [legal_illegal hn, List.nil_append]
    exact ⟨hreads.consumes.trans hc, hy⟩
  rename_i p hn
  obtain rfl := UvcPacket.new_pkt hn
  obtain ⟨q, hq, hqf⟩ := ha.last
  rw [legal_singleton hn, List.singleton_append]
  have hloop : ∀ run a st, Assembles lo run st.dma a → lo ≤ (received st.dma.trace).length →
      assembleLoop iso DMA_OFF_UVC_BULK frameFid jpegCap a us₁ st = .done (.ok n) us' st' →
      Consumes iso.mps us₁ us' st.dma st'.dma ∧
        HandsOut lo frameFid a.fid (residualRuns run (legal (packetsOf iso.mps us₁))) n st' :=
    fun run a st ha hlo h => assembleLoop_handsOut frameFid run a us₁ st ha hlo h
  split at h
  · -- the flip closes the run
    rename_i hflip
    simp only [Bool.and_eq_true, Bool.not_eq_true', UvcPacket.isFid, beq_eq_false_iff_ne] at hflip
    have hc : Complete run := ha₁.holds.complete_iff.mp (by simpa using hflip.2)
    have hne : p.fid ≠ q.fid := fun he => hflip.1 (he.trans hqf)
    cases h
    rw [residualRuns_complete hq hne hc]
    exact ⟨hreads.consumes, .of_made rfl (ha₁.made hflip.2.1)⟩
  · rename_i hflip
    by_cases hsame : p.fid = a.fid
    · -- the packet joins the run
      have hisFid : p.isFid a.fid = true := by simp [UvcPacket.isFid, hsame]
      simp only [hisFid, Bool.not_true, Bool.false_eq_true, ↓reduceIte] at h
      obtain ⟨hfit, hc, hy⟩ := finish_handsOut { st with dma := w } ha₁.holds ha₁.made hn
        hreads.received hlo hsame hloop h
      rw [residualRuns_same hq (hsame.trans hqf.symm) hfit]
      exact ⟨hreads.consumes.trans hc, hy⟩
    · -- the run is dropped
      have hisFid : p.isFid a.fid = false := by simp [UvcPacket.isFid, hsame]
      have hne : p.fid ≠ q.fid := fun he => hsame (he.trans hqf)
      have hc : ¬ Complete run := by
        intro hc
        simp only [hisFid, Bool.not_false, Bool.true_and, Bool.not_eq_true] at hflip
        rw [ha₁.holds.complete_iff.mpr hc] at hflip
        cases hflip
      simp only [hisFid, Bool.not_false, ↓reduceIte] at h
      obtain ⟨hfit, hcon, hy⟩ := finish_handsOut { st with dma := w } (Holds.nil _ _)
        (fun h => by cases h) hn hreads.received hlo rfl hloop h
      rw [residualRuns_drop hq hne hc hfit, ← hqf]
      exact ⟨hreads.consumes.trans hcon, hy.dropped hne⟩
termination_by us.length
decreasing_by all_goals exact hlt

/-- **A capture that returns a frame**: its packets were received in this call, and carry the FID
that is stored exactly when an even number of runs has been dropped. -/
theorem captureFrame_handsOut {cam : UvcCamera} {us us' : List Uframe} {st st' : CaptureState}
    {n : Nat} (h : captureFrame cam us st = .done (.ok n) us' st') :
    Consumes cam.iso.mps us us' st.dma st'.dma ∧
      ∃ fid, Made (received st.dma.trace).length st'.dma n fid ∧
        (fid = st'.lastEofFid ↔ Even (droppedRuns cam us st)) := by
  rw [captureFrame_eq] at h
  unfold tryFrame at h
  split at h
  · cases h
  · cases h
  rename_i first us₁ w hw
  obtain ⟨hn, hc, ⟨recv, hrecv, hle⟩, hafter⟩ := waitFlip_ok _ us st.dma first us₁ w hw
  unfold assemble at h
  obtain ⟨hfit, hc', hy⟩ := finish_handsOut { st with dma := w } (Holds.nil w.mem first.fid)
    (fun h => by cases h) hn hrecv hle rfl
    (fun run a st ha hlo h => assembleLoop_handsOut first.fid run a us₁ st ha hlo h) h
  rw [List.nil_append] at hfit hy
  obtain ⟨p, hm, hiff⟩ := hy.made
  refine ⟨hc.trans hc', p.fid, hm, ?_⟩
  unfold droppedRuns
  rw [hafter, residualRuns_first hfit, hy.stored]
  exact hiff

theorem namesFrame_iff {lo n : Nat} {st : CaptureState} {fid : UInt8} (h : Made lo st.dma n fid) :
    NamesFrame st ↔ fid = st.lastEofFid := by
  constructor
  · rintro ⟨-, hall⟩
    obtain ⟨i, hi⟩ := List.exists_mem_of_ne_nil _ h.ne_nil
    obtain ⟨-, p, hat, hp⟩ := h.parts i hi
    have hnamed := hall i hi
    rw [hat, Option.map_some, hp] at hnamed
    exact Option.some.inj hnamed
  · rintro rfl
    refine ⟨h.ne_nil, fun i hi => ?_⟩
    obtain ⟨-, p, hat, hp⟩ := h.parts i hi
    rw [hat, Option.map_some, hp]

/-- **When `LAST_EOF_FID` names the frame just returned**: in every sequence of captures, against
every sequence of microframes and from every state, exactly after those that have dropped an even
number of residual runs. -/
theorem lastEofFid_names_iff (cam : UvcCamera) (k : Nat) (us : List Uframe) (st : CaptureState) :
    ∀ c ∈ calls cam k us st, ∀ n, c.res = .ok n →
      (NamesFrame c.after ↔ Even (droppedRuns cam c.us c.before)) := by
  intro c hc n hres
  obtain ⟨us', hcap⟩ := calls_captures hc
  rw [hres] at hcap
  obtain ⟨-, fid, hm, hiff⟩ := captureFrame_handsOut hcap
  rw [namesFrame_iff hm, hiff]

/-- A run of FID 1 without an end-of-image marker and without EOF, then a whole frame of FID 0. -/
def residualThenFrame : List Uframe :=
  [[2, 1, 0xff, 0xd8], [2, 2, 0xff, 0xd8, 0xff, 0xd9]].map dataUframe

/-- A capture that waits for a flip from FID 0 returns the whole frame, and stores FID 1. -/
theorem residualThenFrame_returned :
    ∃ c ∈ calls demoCamera 1 residualThenFrame afterEvenFrame, c.res = .ok 4 ∧
      c.after.lastEofFid = 1 ∧
      (frameParts c.after.dma).map (fun i => (packetAt c.after.dma i).map UvcPacket.fid) =
        [some 0] := by
  have hrun : (calls demoCamera 1 residualThenFrame afterEvenFrame).map (fun c =>
      (c.res, c.after.lastEofFid, (frameParts c.after.dma).map fun i =>
        (packetAt c.after.dma i).map UvcPacket.fid)) = [(.ok 4, 1, [some 0])] := by
    decide +kernel
  obtain ⟨c, hcalls, he⟩ := List.map_eq_singleton_iff.mp hrun
  simp only [Prod.mk.injEq] at he
  exact ⟨c, by simp [hcalls], he⟩

theorem lastEofFid_names_iff_residual :
    ∃ c ∈ calls demoCamera 1 residualThenFrame afterEvenFrame, c.res = .ok 4 ∧
      (NamesFrame c.after ↔ Even (droppedRuns demoCamera c.us c.before)) := by
  obtain ⟨c, hc, hres, -⟩ := residualThenFrame_returned
  have hiff := lastEofFid_names_iff demoCamera 1 residualThenFrame afterEvenFrame c hc 4 hres
  exact ⟨c, hc, hres, hiff⟩

/-- **A residual run misnames the frame**: the capture drops the run of FID 1, returns the frame of
FID 0 behind it, and stores FID 1. -/
theorem residualRun_misnames :
    ∃ c ∈ calls demoCamera 1 residualThenFrame afterEvenFrame, c.res = .ok 4 ∧
      c.after.lastEofFid = 1 ∧ ¬ NamesFrame c.after := by
  obtain ⟨c, hc, hres, hlast, hparts⟩ := residualThenFrame_returned
  refine ⟨c, hc, hres, hlast, ?_⟩
  rintro ⟨-, hall⟩
  have hmem : some 0 ∈
      (frameParts c.after.dma).map fun i => (packetAt c.after.dma i).map UvcPacket.fid := by
    rw [hparts]
    simp
  obtain ⟨i, hi, hfid⟩ := List.mem_map.mp hmem
  have hnamed := hall i hi
  rw [hfid, hlast] at hnamed
  simp at hnamed

end Cvirtos.Usb.Uvc
