import Cvirtos.Usb.Uvc.FrameStream

/-!
# When a capture comes back

Only microframes without data are counted, inside `read_payload`; the two loops of `try_frame`
count nothing.  A capture run against a sequence of microframes therefore returns within `N` of
them exactly when the bus breaks among the first `N`, or the packets they carry end it.

* `Quiet` — no microframe fails and the bus is never idle for `MAX_UFRAMES` in a row;
  `quiet_iff` — a quiet bus delivers packets and then idles for less than that.
* `assembleLoop_quiet`, `tryFrame_quiet` — on a quiet bus a round returns exactly when its
  packets end it (`AssemblyEnds`, `CaptureEnds`).
* `assembleLoop_waiting`, `waitFlip_waiting` — a round that is still running has met a quiet bus.
* `captureFrame_budget` — **the exact condition, for every infinite sequence of microframes**;
  `repeated_not_returnsWithin` — a packet that is repeated for ever does not meet it.
-/

set_option autoImplicit false

namespace Cvirtos.Usb.Uvc

open Cvirtos.Lib Cvirtos.Usb.Dwc2

/-- Every microframe is received without an error, and fewer than `MAX_UFRAMES` of them in a row
carry no data. -/
structure Quiet (mps : Nat) (us : List Uframe) : Prop where
  received : ∀ u ∈ us, ∃ pkt, reception mps u = .ok pkt
  idle : ∀ gap, gap <:+: us → (∀ u ∈ gap, reception mps u = .ok []) → gap.length < MAX_UFRAMES

/-- The packets the microframes carry. -/
def packetsOf (mps : Nat) (us : List Uframe) : List (List UInt8) :=
  us.filterMap fun u =>
    match reception mps u with
    | .ok (b :: bs) => some (b :: bs)
    | _ => none

theorem packetsOf_idle {mps : Nat} {gap : List Uframe}
    (h : ∀ u ∈ gap, reception mps u = .ok []) : packetsOf mps gap = [] := by
  unfold packetsOf
  rw [List.filterMap_eq_nil_iff]
  intro u hu
  simp [h u hu]

theorem packetsOf_append (mps : Nat) (us us' : List Uframe) :
    packetsOf mps (us ++ us') = packetsOf mps us ++ packetsOf mps us' := by
  simp [packetsOf]

theorem packetsOf_cons {mps : Nat} {u : Uframe} {pkt : List UInt8}
    (hu : reception mps u = .ok pkt) (hne : pkt ≠ []) (us : List Uframe) :
    packetsOf mps (u :: us) = pkt :: packetsOf mps us := by
  cases pkt with
  | nil => exact absurd rfl hne
  | cons b bs => simp [packetsOf, hu]

/-- What is delivered is what the microframes carry. -/
theorem packetsOf_delivers {mps : Nat} {us : List Uframe} {pkts : List (List UInt8)}
    (h : Delivers mps us pkts) : packetsOf mps us = pkts := by
  induction h with
  | nil => rfl
  | packet hgap _ hu hne _ ih =>
      rw [packetsOf_append, packetsOf_idle hgap, packetsOf_cons hu hne, ih, List.nil_append]

/-! ## A quiet bus -/

theorem Quiet.tail {mps : Nat} {u : Uframe} {us : List Uframe} (h : Quiet mps (u :: us)) :
    Quiet mps us := by
  refine ⟨fun v hv => h.received v (List.mem_cons_of_mem _ hv), fun gap hg => ?_⟩
  exact h.idle gap (hg.trans (List.suffix_cons u us).isInfix)

/-- A quiet bus delivers its packets and then idles. -/
theorem Quiet.delivers {mps : Nat} {us : List Uframe} (h : Quiet mps us) :
    ∃ us' gap pkts, us = us' ++ gap ∧ Delivers mps us' pkts ∧
      (∀ u ∈ gap, reception mps u = .ok []) ∧ gap.length < MAX_UFRAMES := by
  induction us with
  | nil => exact ⟨[], [], [], rfl, .nil, by simp, by decide⟩
  | cons u us ih =>
      obtain ⟨us', gap, pkts, rfl, hd, hgap, hlen⟩ := ih h.tail
      obtain ⟨pkt, hu⟩ := h.received u (by simp)
      by_cases hne : pkt = []
      · -- an idle microframe joins the gap behind it
        subst hne
        cases hd with
        | nil =>
            have hall : ∀ v ∈ u :: gap, reception mps v = .ok [] := by
              intro v hv
              rcases List.mem_cons.mp hv with rfl | hv
              · exact hu
              · exact hgap v hv
            exact ⟨[], u :: gap, [], rfl, .nil, hall, h.idle _ (List.infix_refl _) hall⟩
        | @packet gap' v us'' pkt pkts hgap' hlen' hv hne hd =>
            have hall : ∀ x ∈ u :: gap', reception mps x = .ok [] := by
              intro x hx
              rcases List.mem_cons.mp hx with rfl | hx
              · exact hu
              · exact hgap' x hx
            have hpre : u :: gap' <:+: u :: (gap' ++ v :: us'' ++ gap) :=
              ⟨[], v :: us'' ++ gap, by simp⟩
            exact ⟨(u :: gap') ++ v :: us'', gap, pkt :: pkts, by simp,
              .packet hall (h.idle _ hpre hall) hv hne hd, hgap, hlen⟩
      · have hnil : ∀ v ∈ ([] : List Uframe), reception mps v = .ok [] := by simp
        exact ⟨u :: us', gap, pkt :: pkts, rfl, .packet hnil (by decide) hu hne hd, hgap, hlen⟩

theorem quiet_idle {mps : Nat} {gap : List Uframe} (h : ∀ u ∈ gap, reception mps u = .ok [])
    (hlen : gap.length < MAX_UFRAMES) : Quiet mps gap :=
  ⟨fun u hu => ⟨[], h u hu⟩, fun _ hg _ => Nat.lt_of_le_of_lt hg.length_le hlen⟩

/-- An idle stretch does not reach over a packet. -/
theorem infix_over_packet {mps : Nat} {gap us run : List Uframe} {u : Uframe} {pkt : List UInt8}
    (hu : reception mps u = .ok pkt) (hne : pkt ≠ []) (h : run <:+: gap ++ u :: us)
    (hrun : ∀ v ∈ run, reception mps v = .ok []) : run <:+: gap ∨ run <:+: us := by
  have hmem : u ∉ run := by
    intro hv
    have := hrun u hv
    rw [hu] at this
    cases this
    exact hne rfl
  obtain ⟨a, b, h⟩ := h
  rw [List.append_assoc, List.append_eq_append_iff] at h
  rcases h with ⟨c, rfl, h⟩ | ⟨c, rfl, h⟩
  · rw [List.append_eq_append_iff] at h
    rcases h with ⟨d, rfl, -⟩ | ⟨d, rfl, h⟩
    · exact Or.inl ⟨a, d, by simp⟩
    · cases d with
      | nil => exact Or.inl ⟨a, [], by simp⟩
      | cons x d =>
          rw [List.cons_append, List.cons.injEq] at h
          exact absurd (by simp [h.1]) hmem
  · cases c with
    | nil =>
        cases run with
        | nil => exact Or.inl (List.nil_infix)
        | cons x run =>
            simp only [List.nil_append, List.cons_append, List.cons.injEq] at h
            exact absurd (by simp [h.1]) hmem
    | cons x c =>
        rw [List.cons_append, List.cons.injEq] at h
        exact Or.inr ⟨c, b, by rw [List.append_assoc]; exact h.2.symm⟩

/-- A packet behind a short gap keeps the bus quiet. -/
theorem Quiet.packet {mps : Nat} {gap us : List Uframe} {u : Uframe} {pkt : List UInt8}
    (hgap : ∀ v ∈ gap, reception mps v = .ok []) (hlen : gap.length < MAX_UFRAMES)
    (hu : reception mps u = .ok pkt) (hne : pkt ≠ []) (h : Quiet mps us) :
    Quiet mps (gap ++ u :: us) := by
  constructor
  · intro v hv
    rcases List.mem_append.mp hv with hv | hv
    · exact ⟨[], hgap v hv⟩
    · rcases List.mem_cons.mp hv with rfl | hv
      · exact ⟨pkt, hu⟩
      · exact h.received v hv
  · intro run hrun hidle
    rcases infix_over_packet hu hne hrun hidle with hin | hin
    · exact Nat.lt_of_le_of_lt hin.length_le hlen
    · exact h.idle run hin hidle

/-! ## A round that is still running -/

/-- A flip wait that is still running has met a quiet bus. -/
theorem waitFlip_waiting {iso : IsochInEp} (hmps : 0 < iso.mps) (prev : Option UInt8)
    (us : List Uframe) (w : DmaBuf) :
    ∀ w', waitFlip iso DMA_OFF_UVC_BULK prev us w = .waiting w' → Quiet iso.mps us := by
  intro w' h
  rw [waitFlip] at h
  split at h
  · rename_i w₁ hr
    obtain ⟨hidle, hlen⟩ := readPayloadLoop_waiting hmps (workOff_le iso) hr
    exact quiet_idle hidle hlen
  · cases h
  · rename_i pkt us' w₁ hr
    obtain ⟨gap, u, hus, hgap, hlen, hu, hne⟩ := readPayloadLoop_packet hmps (workOff_le iso) hr
    have hlt := readPayload_lt hr
    rw [hus]
    refine .packet hgap hlen hu hne ?_
    split at h
    · exact waitFlip_waiting hmps _ _ _ _ h
    · split at h
      · exact waitFlip_waiting hmps _ _ _ _ h
      · split at h
        · cases h
        · exact waitFlip_waiting hmps _ _ _ _ h
termination_by us.length
decreasing_by all_goals assumption

/-- A wait that has returned is resumed behind what it has read. -/
theorem waitFlip_done {iso : IsochInEp} (hmps : 0 < iso.mps) (prev : Option UInt8)
    (us : List Uframe) (w : DmaBuf) :
    ∀ p us' w', waitFlip iso DMA_OFF_UVC_BULK prev us w = .done (.ok p) us' w' →
      Quiet iso.mps us' → Quiet iso.mps us := by
  intro p us' w' h hq
  rw [waitFlip] at h
  split at h
  · cases h
  · cases h
  · rename_i pkt us₁ w₁ hr
    obtain ⟨gap, u, hus, hgap, hlen, hu, hne⟩ := readPayloadLoop_packet hmps (workOff_le iso) hr
    have hlt := readPayload_lt hr
    rw [hus]
    refine .packet hgap hlen hu hne ?_
    split at h
    · exact waitFlip_done hmps _ _ _ _ _ _ h hq
    · split at h
      · exact waitFlip_done hmps _ _ _ _ _ _ h hq
      · split at h
        · cases h
          exact hq
        · exact waitFlip_done hmps _ _ _ _ _ _ h hq
termination_by us.length
decreasing_by all_goals assumption

/-- An assembly that is still running has met a quiet bus. -/
theorem assembleLoop_waiting {iso : IsochInEp} (hmps : 0 < iso.mps) (frameFid : UInt8)
    (a : Assembly) (us : List Uframe) (st : CaptureState) :
    ∀ st', assembleLoop iso DMA_OFF_UVC_BULK frameFid jpegCap a us st = .waiting st' →
      Quiet iso.mps us := by
  intro st' h
  rw [assembleLoop] at h
  split at h
  · rename_i w₁ hr
    obtain ⟨hidle, hlen⟩ := readPayloadLoop_waiting hmps (workOff_le iso) hr
    exact quiet_idle hidle hlen
  · cases h
  · rename_i pkt us' w₁ hr
    obtain ⟨gap, u, hus, hgap, hlen, hu, hne⟩ := readPayloadLoop_packet hmps (workOff_le iso) hr
    have hlt := readPayload_lt hr
    rw [hus]
    refine .packet hgap hlen hu hne ?_
    simp only at h
    split at h
    · exact assembleLoop_waiting hmps _ _ _ _ _ h
    · split at h
      · cases h
      · split at h
        · cases h
        · cases h
        · exact assembleLoop_waiting hmps _ _ _ _ _ h
termination_by us.length
decreasing_by all_goals assumption

/-- **A round that is still running has met a quiet bus.** -/
theorem tryFrame_waiting {iso : IsochInEp} (hmps : 0 < iso.mps) {prev : Option UInt8}
    {us : List Uframe} {st st' : CaptureState}
    (h : tryFrame iso DMA_OFF_UVC_BULK prev jpegCap us st = .waiting st') : Quiet iso.mps us := by
  unfold tryFrame at h
  split at h
  · rename_i w hw
    exact waitFlip_waiting hmps _ _ _ _ hw
  · cases h
  · rename_i first us' w hw
    refine waitFlip_done hmps _ _ _ _ _ _ hw ?_
    unfold assemble at h
    split at h
    · cases h
    · cases h
    · exact assembleLoop_waiting hmps _ _ _ _ _ h

/-! ## The packets that end a round -/

/-- The run of packets of one FID, `p` included: a packet of another FID starts a new run. -/
def extendRun (run : List UvcPacket) (p : UvcPacket) : List UvcPacket :=
  if run.getLast?.any (·.fid == p.fid) then run ++ [p] else [p]

/-- The packet `p` ends the assembly of `run`: it carries EOF, it flips behind a complete run,
or the run no longer fits with it. -/
def Closes (run : List UvcPacket) (p : UvcPacket) : Prop :=
  p.eof = true ∨ (run.getLast?.any (·.fid != p.fid) = true ∧ Complete run) ∨
    jpegCap < (assembled (extendRun run p)).length

/-- One of the packets `ps` ends an assembly that stands at `run`. -/
def AssemblyEnds (run ps : List UvcPacket) : Prop :=
  ∃ before p after, ps = before ++ p :: after ∧ Closes (before.foldl extendRun run) p

/-- The reference FID of the flip wait: the one given, or that of the first packet. -/
def flipRef (prev : Option UInt8) (ps : List UvcPacket) : Option UInt8 :=
  prev.or (ps.head?.map UvcPacket.fid)

/-- The packets `ps` end a capture: one flips, and they end the assembly from that one on. -/
def CaptureEnds (prev : Option UInt8) (ps : List UvcPacket) : Prop :=
  ∃ r, flipRef prev ps = some r ∧ AssemblyEnds [] (ps.dropWhile fun p => p.fid == r)

theorem not_assemblyEnds_nil (run : List UvcPacket) : ¬ AssemblyEnds run [] := by
  rintro ⟨before, p, after, h, -⟩
  simp at h

theorem assemblyEnds_cons (run : List UvcPacket) (p : UvcPacket) (ps : List UvcPacket) :
    AssemblyEnds run (p :: ps) ↔ Closes run p ∨ AssemblyEnds (extendRun run p) ps := by
  constructor
  · rintro ⟨before, q, after, h, hc⟩
    cases before with
    | nil =>
        rw [List.nil_append, List.cons.injEq] at h
        obtain ⟨rfl, rfl⟩ := h
        exact Or.inl hc
    | cons b before =>
        rw [List.cons_append, List.cons.injEq] at h
        obtain ⟨rfl, rfl⟩ := h
        exact Or.inr ⟨before, q, after, rfl, hc⟩
  · rintro (hc | ⟨before, q, after, rfl, hc⟩)
    · exact ⟨[], p, ps, rfl, hc⟩
    · exact ⟨p :: before, q, after, rfl, hc⟩

theorem not_captureEnds_nil (prev : Option UInt8) : ¬ CaptureEnds prev [] := by
  rintro ⟨r, -, h⟩
  exact not_assemblyEnds_nil [] h

theorem captureEnds_none (p : UvcPacket) (ps : List UvcPacket) :
    CaptureEnds none (p :: ps) ↔ CaptureEnds (some p.fid) ps := by
  unfold CaptureEnds flipRef
  simp

theorem captureEnds_some_same {p : UvcPacket} {r : UInt8} (h : p.fid = r) (ps : List UvcPacket) :
    CaptureEnds (some r) (p :: ps) ↔ CaptureEnds (some r) ps := by
  unfold CaptureEnds flipRef
  simp [h]

theorem captureEnds_some_flip {p : UvcPacket} {r : UInt8} (h : p.fid ≠ r) (ps : List UvcPacket) :
    CaptureEnds (some r) (p :: ps) ↔ AssemblyEnds [] (p :: ps) := by
  unfold CaptureEnds flipRef
  simp [h]

/-! ## A round on a quiet bus -/

theorem Outcome.returns_waiting {σ α : Type} (st : σ) :
    ¬ (Outcome.waiting st : Outcome σ α).Returns := fun h => h

theorem Outcome.returns_done {σ α : Type} (res : UsbResult α) (rest : List Uframe) (st : σ) :
    (Outcome.done res rest st).Returns := trivial

/-- One turn of the loop whose packet has joined the run: it returns when the packet is an EOF
packet or the run no longer fits, and otherwise when the rest of the loop does. -/
theorem turn_returns {iso : IsochInEp} {frameFid : UInt8} {run : List UvcPacket} {p : UvcPacket}
    {us : List Uframe} {st : CaptureState} {a' : Assembly} {w' : DmaBuf} {P : Prop}
    (hmore : verdict run p = .more →
      ((assembleLoop iso DMA_OFF_UVC_BULK frameFid jpegCap a' us ⟨w', st.lastEofFid⟩).Returns ↔
        P)) :
    (turn iso frameFid run p us st a' w').Returns ↔
      p.eof = true ∨ jpegCap < (assembled run).length ∨ P := by
  unfold turn
  by_cases he : p.eof = true
  · refine ⟨fun _ => Or.inl he, fun _ => ?_⟩
    rcases verdict_eof run he with ⟨hv, -, -⟩ | ⟨hv | hv, -⟩
    all_goals rw [hv]; exact Outcome.returns_done _ _ _
  · rcases verdict_not_eof run (Bool.eq_false_iff.mpr he) with hv | ⟨hv, hov⟩
    · have hfit : ¬ jpegCap < (assembled run).length := by
        intro hov
        unfold verdict at hv
        rw [if_pos hov] at hv
        cases hv
      rw [hv]
      simp only [hmore hv, he, hfit, Bool.false_eq_true, false_or]
    · rw [hv]
      exact ⟨fun _ => Or.inr (Or.inl hov), fun _ => Outcome.returns_done _ _ _⟩

/-- `Closes` for a packet of the run's FID. -/
theorem closes_same {run : List UvcPacket} {q p : UvcPacket} (hq : run.getLast? = some q)
    (hf : p.fid = q.fid) :
    extendRun run p = run ++ [p] ∧
      (Closes run p ↔ p.eof = true ∨ jpegCap < (assembled (run ++ [p])).length) := by
  have hrun : extendRun run p = run ++ [p] := by
    unfold extendRun
    rw [hq]
    simp [hf]
  refine ⟨hrun, ?_⟩
  unfold Closes
  rw [hrun, hq]
  simp [hf]

/-- `Closes` for a packet of another FID. -/
theorem closes_flip {run : List UvcPacket} {q p : UvcPacket} (hq : run.getLast? = some q)
    (hf : p.fid ≠ q.fid) :
    extendRun run p = [p] ∧
      (Closes run p ↔ p.eof = true ∨ Complete run ∨ jpegCap < (assembled [p]).length) := by
  have hrun : extendRun run p = [p] := by
    unfold extendRun
    rw [hq]
    simp [Ne.symm hf]
  refine ⟨hrun, ?_⟩
  unfold Closes
  rw [hrun, hq]
  simp [Ne.symm hf]

/-- **The assembly on a quiet bus** returns exactly when one of its packets ends it. -/
theorem assembleLoop_quiet {iso : IsochInEp} (hmps : 0 < iso.mps) {frameFid : UInt8}
    {pkts : List (List UInt8)} {us gap : List Uframe} (h : Delivers iso.mps us pkts)
    (hgap : ∀ u ∈ gap, reception iso.mps u = .ok []) (hlen : gap.length < MAX_UFRAMES)
    {run : List UvcPacket} {q : UvcPacket} (hq : run.getLast? = some q) {a : Assembly}
    {st : CaptureState} (hh : Holds run st.dma.mem a) (hfid : a.fid = q.fid) :
    (assembleLoop iso DMA_OFF_UVC_BULK frameFid jpegCap a (us ++ gap) st).Returns ↔
      AssemblyEnds run (legal pkts) := by
  induction pkts generalizing us run q a st with
  | nil =>
      cases h
      obtain ⟨w', hw⟩ := readPayload_idle hmps (workOff_le iso) hgap hlen st.dma
      rw [assembleLoop, List.nil_append, hw]
      constructor
      · intro hret
        exact absurd hret (Outcome.returns_waiting _)
      · intro hend
        exact absurd hend (not_assemblyEnds_nil run)
  | cons pkt pkts ih =>
      obtain ⟨us', w, hr, hd, hm⟩ := read_next iso h gap st.dma
      have hh₁ := hh.frame (IsochInEp.mps_le iso) hm
      cases hn : UvcPacket.new pkt with
      | none =>
          rw [assembleLoop_illegal frameFid hr hn, legal_cons, legal_illegal hn, List.nil_append]
          exact ih hd hq hh₁ hfid
      | some p =>
          obtain rfl := UvcPacket.new_pkt hn
          rw [legal_cons, legal_singleton hn, List.singleton_append, assemblyEnds_cons]
          by_cases hf : p.fid = a.fid
          · -- the packet joins the run
            obtain ⟨hrun, hcl⟩ := closes_same hq (hf.trans hfid)
            obtain ⟨a', w', hh', hloop⟩ := assembleLoop_same frameFid hr hn hh₁ hf
            rw [hloop, hrun, hcl, turn_returns (fun hv => ?_), or_assoc]
            obtain ⟨hh₂, hf₂⟩ := hh' (by rw [hv]; simp)
            exact ih hd List.getLast?_concat hh₂ (hf₂.trans hf.symm)
          · obtain ⟨hrun, hcl⟩ := closes_flip hq (fun he => hf (he.trans hfid.symm))
            by_cases hc : Complete run
            · -- the flip closes the run
              rw [assembleLoop_flip_complete frameFid hr hn hh₁ hf hc]
              refine ⟨fun _ => Or.inl (hcl.mpr (Or.inr (Or.inl hc))), fun _ => ?_⟩
              exact Outcome.returns_done _ _ _
            · -- the flip drops the run
              obtain ⟨a', w', hh', hloop⟩ := assembleLoop_flip_drop frameFid hr hn hh₁ hf hc
              simp only [hc, false_or] at hcl
              rw [hloop, hrun, hcl, turn_returns (fun hv => ?_), or_assoc]
              obtain ⟨hh₂, hf₂⟩ := hh' (by rw [hv]; simp)
              exact ih hd rfl hh₂ hf₂

/-- The assembly from the packet that flipped. -/
theorem assemble_quiet {iso : IsochInEp} (hmps : 0 < iso.mps) {pkts : List (List UInt8)}
    {us gap : List Uframe} (h : Delivers iso.mps us pkts)
    (hgap : ∀ u ∈ gap, reception iso.mps u = .ok []) (hlen : gap.length < MAX_UFRAMES)
    (first : UvcPacket) (st : CaptureState) :
    (assemble iso DMA_OFF_UVC_BULK first jpegCap (us ++ gap) st).Returns ↔
      AssemblyEnds [] (first :: legal pkts) := by
  obtain ⟨a', w', hh', hasm⟩ := assemble_eq iso first (us ++ gap) st
  have hcl : Closes [] first ↔ first.eof = true ∨ jpegCap < (assembled [first]).length := by
    unfold Closes extendRun
    simp
  have hrun : extendRun [] first = [first] := rfl
  rw [hasm, assemblyEnds_cons, hcl, hrun, turn_returns (fun hv => ?_), or_assoc]
  obtain ⟨hh₂, hf₂⟩ := hh' (by rw [hv]; simp)
  exact assembleLoop_quiet hmps h hgap hlen rfl hh₂ hf₂

/-- **A round on a quiet bus** returns exactly when its packets end the capture. -/
theorem tryFrame_quiet {iso : IsochInEp} (hmps : 0 < iso.mps) {pkts : List (List UInt8)}
    {us gap : List Uframe} (h : Delivers iso.mps us pkts)
    (hgap : ∀ u ∈ gap, reception iso.mps u = .ok []) (hlen : gap.length < MAX_UFRAMES)
    (prev : Option UInt8) (st : CaptureState) :
    (tryFrame iso DMA_OFF_UVC_BULK prev jpegCap (us ++ gap) st).Returns ↔
      CaptureEnds prev (legal pkts) := by
  induction pkts generalizing us prev st with
  | nil =>
      cases h
      obtain ⟨w', hw⟩ := readPayload_idle hmps (workOff_le iso) hgap hlen st.dma
      unfold tryFrame
      rw [waitFlip, List.nil_append, hw]
      constructor
      · intro hret
        exact absurd hret (Outcome.returns_waiting _)
      · intro hend
        exact absurd hend (not_captureEnds_nil prev)
  | cons pkt pkts ih =>
      obtain ⟨us', w, hr, hd, -⟩ := read_next iso h gap st.dma
      unfold tryFrame
      rw [waitFlip, hr]
      cases hn : UvcPacket.new pkt with
      | none =>
          rw [legal_cons, legal_illegal hn, List.nil_append]
          simp only [hn]
          exact ih hd prev { st with dma := w }
      | some p =>
          rw [legal_cons, legal_singleton hn, List.singleton_append]
          simp only [hn]
          cases prev with
          | none =>
              rw [captureEnds_none]
              exact ih hd (some p.fid) { st with dma := w }
          | some r =>
              by_cases hf : p.fid = r
              · rw [captureEnds_some_same hf]
                simp only [hf, ne_eq, not_true_eq_false, ↓reduceIte]
                exact ih hd (some r) { st with dma := w }
              · rw [captureEnds_some_flip hf]
                simp only [ne_eq, Ne.symm hf, not_false_eq_true, ↓reduceIte]
                exact assemble_quiet hmps hd hgap hlen p { st with dma := w }

/-! ## The condition for a capture to return -/

/-- A capture run against finitely many microframes. -/
theorem captureFrame_returns_iff (cam : UvcCamera) (us : List Uframe) (st : CaptureState) :
    (captureFrame cam us st).Returns ↔
      cam.iso.mps = 0 ∨ ¬ Quiet cam.iso.mps us ∨
        CaptureEnds (initFid st.lastEofFid) (legal (packetsOf cam.iso.mps us)) := by
  rw [captureFrame_eq]
  by_cases hmps : cam.iso.mps = 0
  · refine ⟨fun _ => Or.inl hmps, fun _ => ?_⟩
    unfold tryFrame
    rw [waitFlip, readPayload_bad hmps]
    exact Outcome.returns_done _ _ _
  · have hpos : 0 < cam.iso.mps := Nat.pos_of_ne_zero hmps
    by_cases hq : Quiet cam.iso.mps us
    · obtain ⟨us', gap, pkts, rfl, hd, hgap, hlen⟩ := hq.delivers
      rw [tryFrame_quiet hpos hd hgap hlen, packetsOf_append, packetsOf_delivers hd,
        packetsOf_idle hgap, List.append_nil]
      simp only [hmps, hq, not_true_eq_false, false_or]
    · refine ⟨fun _ => Or.inr (Or.inl hq), fun _ => ?_⟩
      generalize ho : tryFrame cam.iso DMA_OFF_UVC_BULK (initFid st.lastEofFid) jpegCap us st = o
      cases o with
      | done res rest st' => exact Outcome.returns_done _ _ _
      | waiting st' => exact absurd (tryFrame_waiting hpos ho) hq

/-- The first `n` microframes of a sequence. -/
def firstUframes (s : Nat → Uframe) (n : Nat) : List Uframe := (List.range n).map s

/-- The capture returns within the first `n` microframes. -/
def ReturnsWithin (cam : UvcCamera) (s : Nat → Uframe) (st : CaptureState) (n : Nat) : Prop :=
  (captureFrame cam (firstUframes s n) st).Returns

/-- **When a capture comes back**, for every infinite sequence of microframes and every bound
`n`, such as `4 * (MAX_UFRAMES + MAX_UFRAMES)` for four rounds of the stated budget: the endpoint
has no packet size, or the bus breaks within the first `n` microframes (one fails, or
`MAX_UFRAMES` in a row carry no data), or the packets they carry end the capture. -/
theorem captureFrame_budget (cam : UvcCamera) (s : Nat → Uframe) (st : CaptureState) (n : Nat) :
    ReturnsWithin cam s st n ↔
      cam.iso.mps = 0 ∨ ¬ Quiet cam.iso.mps (firstUframes s n) ∨
        CaptureEnds (initFid st.lastEofFid)
          (legal (packetsOf cam.iso.mps (firstUframes s n))) :=
  captureFrame_returns_iff cam (firstUframes s n) st

/-- Packets of the reference FID end no capture. -/
theorem not_captureEnds_of_fid {prev : Option UInt8} {ps : List UvcPacket} {fid : UInt8}
    (hprev : prev = none ∨ prev = some fid) (hfid : ∀ q ∈ ps, q.fid = fid) :
    ¬ CaptureEnds prev ps := by
  cases ps with
  | nil => exact not_captureEnds_nil prev
  | cons p ps =>
      rintro ⟨r, href, hends⟩
      have hp : p.fid = fid := hfid p List.mem_cons_self
      have hr : r = fid := by
        rcases hprev with rfl | rfl
        · exact (Option.some.inj href).symm.trans hp
        · exact (Option.some.inj href).symm
      rw [List.dropWhile_eq_nil_iff.mpr (by simpa [hr] using hfid)] at hends
      exact not_assemblyEnds_nil [] hends

/-- **A packet that is repeated for ever** holds a capture that waits for another FID than its own,
however many microframes it lasts. -/
theorem repeated_not_returnsWithin {cam : UvcCamera} {u : Uframe} {pkt : List UInt8} {p : UvcPacket}
    (hmps : cam.iso.mps ≠ 0) (hrec : reception cam.iso.mps u = .ok pkt)
    (hnew : UvcPacket.new pkt = some p) {st : CaptureState}
    (hlast : initFid st.lastEofFid = none ∨ initFid st.lastEofFid = some p.fid) (n : Nat) :
    ¬ ReturnsWithin cam (fun _ => u) st n := by
  have hu : ∀ v ∈ firstUframes (fun _ => u) n, v = u := by
    intro v hv
    obtain ⟨_, _, rfl⟩ := List.mem_map.mp hv
    rfl
  have hne : pkt ≠ [] := by
    rintro rfl
    cases hnew
  unfold ReturnsWithin
  rw [captureFrame_returns_iff]
  rintro (h0 | hbreak | hends)
  · exact hmps h0
  · -- the bus does not break: no microframe is without data
    refine hbreak ⟨fun v hv => ⟨pkt, by rw [hu v hv, hrec]⟩, fun gap hg hidle => ?_⟩
    cases gap with
    | nil => decide
    | cons v gap =>
        have hv := hidle v List.mem_cons_self
        rw [hu v (hg.subset List.mem_cons_self), hrec] at hv
        exact absurd (Except.ok.inj hv) hne
  · refine not_captureEnds_of_fid hlast (fun q hq => ?_) hends
    obtain ⟨pkt', hpkt', hnew'⟩ := List.mem_filterMap.mp hq
    obtain ⟨v, hv, hcarried⟩ := List.mem_filterMap.mp hpkt'
    rw [hu v hv, hrec] at hcarried
    cases pkt with
    | nil => exact absurd rfl hne
    | cons b bs =>
        obtain rfl := Option.some.inj hcarried
        rw [hnew] at hnew'
        rw [Option.some.inj hnew']

/-- **A FID that never flips holds the capture for ever**: on header-only packets of one FID it
has not returned after any number of microframes. -/
theorem constantFid_never_returns :
    ¬ ∃ n, ReturnsWithin demoCamera (fun _ => dataUframe [2, 0]) afterEvenFrame n := by
  rintro ⟨n, hret⟩
  have hrec : reception demoCamera.iso.mps (dataUframe [2, 0]) = .ok [2, 0] := by decide
  exact repeated_not_returnsWithin (by decide) hrec rfl (.inr (by decide)) n hret

end Cvirtos.Usb.Uvc
