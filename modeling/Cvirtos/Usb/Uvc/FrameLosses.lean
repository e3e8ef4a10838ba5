import Cvirtos.Lib.Kept
import Cvirtos.Usb.Uvc.FrameSources

/-!
# Microframes lost inside a frame

`read_uframe` reports a microframe that lost its data as one without data, and `read_payload` passes
over it.  The capture looks at the first and the last bytes of a run of packets only.

* `SpansFrame` — the microframes from the first to the last packet of the frame;
* `assembleLoop_spans` — the frame handed out is the run that the packets on the bus close;
* `captured_whole_iff` — **when no microframe inside the frame has lost data**.
-/

set_option autoImplicit false

namespace Cvirtos.Usb.Uvc

open Cvirtos.Lib Cvirtos.Usb.Dwc2

/-- An interrupt word of a microframe that has lost data. -/
def losesData (hcint : HcintSnapshot) : Bool :=
  isSet hcint HCINT.FRMOVRN || isSet hcint HCINT.XACTERR || isSet hcint HCINT.BBLERR ||
    isSet hcint HCINT.DATATGLERR || !isSet hcint HCINT.XFERCOMPL

/-- The microframe ended in an error that loses data. -/
def Lossy (u : Uframe) : Prop := u.hcint.any losesData = true

instance (u : Uframe) : Decidable (Lossy u) := inferInstanceAs (Decidable (_ = _))

/-- The packet received at position `i` belongs to the frame in the assembly area: received from
position `lo` on, and no packet of another FID is between it and one that was assembled. -/
def InFrame (lo : Nat) (w : DmaBuf) (i : Nat) : Prop :=
  lo ≤ i ∧ ∃ p, packetAt w i = some p ∧ ∃ f ∈ frameParts w, ∀ k q, min i f ≤ k → k ≤ max i f →
    packetAt w k = some q → q.fid = p.fid

/-- **No microframe between two packets of the frame has lost data**: `us` are the microframes from
the reception at position `lo` on. -/
def FrameWhole (mps lo : Nat) (us : List Uframe) (w : DmaBuf) : Prop :=
  ∀ before u after, us = before ++ u :: after → Lossy u →
    ∀ i k, InFrame lo w i → InFrame lo w k →
      ¬ (i < lo + (packetsOf mps before).length ∧ lo + (packetsOf mps before).length ≤ k)

/-! ### The run on the bus -/

/-- The legal packet a microframe carries. -/
def carried (mps : Nat) (u : Uframe) : Option UvcPacket :=
  (reception mps u).toOption.bind UvcPacket.new

/-- The legal packets microframes carry. -/
def runOf (mps : Nat) (us : List Uframe) : List UvcPacket := us.filterMap (carried mps)

/-- The microframes from the packet that flips on. -/
def fromFlip (mps : Nat) (prev : Option UInt8) : List Uframe → List Uframe
  | [] => []
  | u :: us =>
    match carried mps u with
    | none => fromFlip mps prev us
    | some p =>
      match prev with
      | none => fromFlip mps (some p.fid) us
      | some r => if r ≠ p.fid then u :: us else fromFlip mps (some r) us

/-- The microframes from the first to the last packet of the run that ends an assembly: `span` are
those of the run so far, and `gap` those since its last packet. -/
def closingSpan (mps : Nat) (span gap : List Uframe) : List Uframe → List Uframe
  | [] => span
  | u :: us =>
    match carried mps u with
    | none => closingSpan mps span (gap ++ [u]) us
    | some p =>
      if (runOf mps span).getLast?.any (·.fid == p.fid) then
        if p.eof then span ++ gap ++ [u] else closingSpan mps (span ++ gap ++ [u]) [] us
      else if Complete (runOf mps span) then span
      else if p.eof then [u]
      else closingSpan mps [u] [] us

section Carried

variable {mps : Nat} {u : Uframe} {us gap span : List Uframe} {pkt : List UInt8} {p : UvcPacket}

theorem carried_eq (hu : reception mps u = .ok pkt) : carried mps u = UvcPacket.new pkt := by
  unfold carried
  rw [hu]
  rfl

theorem carried_reception (h : carried mps u = some p) :
    reception mps u = .ok p.pkt ∧ UvcPacket.new p.pkt = some p ∧ p.pkt ≠ [] := by
  unfold carried at h
  cases hu : reception mps u with
  | error e =>
      rw [hu] at h
      cases h
  | ok pkt =>
      rw [hu] at h
      have hn : UvcPacket.new pkt = some p := h
      rw [UvcPacket.new_pkt hn]
      refine ⟨rfl, hn, ?_⟩
      rintro rfl
      cases hn

theorem runOf_append (us us' : List Uframe) :
    runOf mps (us ++ us') = runOf mps us ++ runOf mps us' := List.filterMap_append

theorem runOf_none (h : ∀ v ∈ gap, carried mps v = none) : runOf mps gap = [] :=
  List.filterMap_eq_nil_iff.mpr h

theorem runOf_singleton (h : carried mps u = some p) : runOf mps [u] = [p] := by
  simp [runOf, h]

/-- The legal ones of the packets received. -/
theorem legal_packetsOf (us : List Uframe) : legal (packetsOf mps us) = runOf mps us := by
  unfold legal packetsOf runOf
  rw [List.filterMap_filterMap]
  congr 1
  funext u
  unfold carried
  cases reception mps u with
  | error e => rfl
  | ok pkt =>
      cases pkt with
      | nil => rfl
      | cons b bs => rfl

/-- A microframe that has lost data carries nothing. -/
theorem reception_lossy (h : Lossy u) (hu : reception mps u = .ok pkt) : pkt = [] := by
  unfold Lossy losesData at h
  unfold reception at hu
  cases hh : u.hcint with
  | none => simp [hh] at h
  | some hcint =>
      rw [hh] at h hu
      simp only [Option.any_some] at h
      dsimp only at hu
      repeat' split at hu
      all_goals cases hu
      all_goals first
        | rfl
        | simp_all

/-- The packet a microframe carries, its header legal or not. -/
def rawPacket (mps : Nat) (u : Uframe) : Option (List UInt8) :=
  match reception mps u with
  | .ok (b :: bs) => some (b :: bs)
  | _ => none

theorem packetsOf_eq (us : List Uframe) : packetsOf mps us = us.filterMap (rawPacket mps) := rfl

theorem rawPacket_carried (h : carried mps u = some p) : rawPacket mps u = some p.pkt := by
  obtain ⟨hu, -, hne⟩ := carried_reception h
  unfold rawPacket
  rw [hu]
  cases hpkt : p.pkt with
  | nil => exact absurd hpkt hne
  | cons b bs => rfl

theorem rawPacket_lossy (h : Lossy u) : rawPacket mps u = none := by
  unfold rawPacket
  cases hu : reception mps u with
  | error e => rfl
  | ok pkt =>
      rw [reception_lossy h hu]

/-- What carries nothing is passed over. -/
theorem closingSpan_gap {more : List Uframe} (h : ∀ v ∈ more, carried mps v = none)
    (span gap us : List Uframe) :
    closingSpan mps span gap (more ++ us) = closingSpan mps span (gap ++ more) us := by
  induction more generalizing gap with
  | nil => simp
  | cons v more ih =>
      rw [List.cons_append, closingSpan, h v List.mem_cons_self]
      dsimp only
      rw [ih fun x hx => h x (List.mem_cons_of_mem _ hx), List.append_assoc]
      rfl

theorem fromFlip_gap {more : List Uframe} (h : ∀ v ∈ more, carried mps v = none)
    (prev : Option UInt8) (us : List Uframe) :
    fromFlip mps prev (more ++ us) = fromFlip mps prev us := by
  induction more with
  | nil => rfl
  | cons v more ih =>
      rw [List.cons_append, fromFlip, h v List.mem_cons_self]
      exact ih fun x hx => h x (List.mem_cons_of_mem _ hx)

end Carried

/-! ### The span of a run -/

/-- The microframes `span` behind `pre` carry a run of the FID `fid`: they begin and end with a
packet of it, and the last packet in front of it is of the other FID. -/
structure RunSpan (mps : Nat) (fid : UInt8) (pre span : List Uframe) : Prop where
  apart : ∀ q, (runOf mps pre).getLast? = some q → q.fid ≠ fid
  fids : ∀ q ∈ runOf mps span, q.fid = fid
  first : ∃ u rest, span = u :: rest ∧ (carried mps u).isSome
  last : ∃ rest u, span = rest ++ [u] ∧ (carried mps u).isSome

namespace RunSpan

variable {mps : Nat} {fid : UInt8} {pre span gap : List Uframe} {u : Uframe} {p : UvcPacket}

/-- A run of one packet. -/
theorem single (hpre : ∀ q, (runOf mps pre).getLast? = some q → q.fid ≠ p.fid)
    (hu : carried mps u = some p) : RunSpan mps p.fid pre [u] where
  apart := hpre
  fids := by simp [runOf_singleton hu]
  first := ⟨u, [], rfl, by simp [hu]⟩
  last := ⟨[], u, rfl, by simp [hu]⟩

/-- A packet joins the run. -/
theorem extend (h : RunSpan mps fid pre span) (hgap : ∀ v ∈ gap, carried mps v = none)
    (hu : carried mps u = some p) (hf : p.fid = fid) :
    RunSpan mps fid pre (span ++ gap ++ [u]) where
  apart := h.apart
  fids := by
    rw [runOf_append, runOf_append, runOf_none hgap, runOf_singleton hu, List.append_nil]
    intro q hq
    rcases List.mem_append.mp hq with hq | hq
    · exact h.fids q hq
    · rw [List.mem_singleton.mp hq]
      exact hf
  first := by
    obtain ⟨v, rest, rfl, hv⟩ := h.first
    exact ⟨v, rest ++ gap ++ [u], by simp, hv⟩
  last := ⟨span ++ gap, u, rfl, by simp [hu]⟩

/-- The last packet of the run. -/
theorem getLast (h : RunSpan mps fid pre span) :
    ∃ q, (runOf mps span).getLast? = some q ∧ q.fid = fid := by
  obtain ⟨rest, v, hspan, hv⟩ := h.last
  obtain ⟨q, hq⟩ := Option.isSome_iff_exists.mp hv
  have hlast : (runOf mps span).getLast? = some q := by
    rw [hspan, runOf_append, runOf_singleton hq, List.getLast?_concat]
  exact ⟨q, hlast, h.fids q (List.mem_of_getLast? hlast)⟩

/-- A packet of the other FID starts a run of its own. -/
theorem restart (h : RunSpan mps fid pre span) (hgap : ∀ v ∈ gap, carried mps v = none)
    (hu : carried mps u = some p) (hf : p.fid ≠ fid) :
    RunSpan mps p.fid (pre ++ span ++ gap) [u] := by
  refine single (fun q hq => ?_) hu
  obtain ⟨z, hz, hzf⟩ := h.getLast
  rw [runOf_append, runOf_append, runOf_none hgap, List.append_nil, List.getLast?_append, hz] at hq
  cases hq
  rw [hzf]
  exact Ne.symm hf

end RunSpan

/-! ### The packets of the frame -/

/-- `span` are the microframes from the first to the last packet of the frame in the assembly area;
`base` had been received before those of `pre`. -/
structure SpansFrame (mps : Nat) (base : List (List UInt8)) (fid : UInt8) (pre span : List Uframe)
    (w : DmaBuf) : Prop where
  run : RunSpan mps fid pre span
  arrived : ∃ more, received w.trace = base ++ packetsOf mps (pre ++ span) ++ more ∧
    ∀ q ∈ legal more, q.fid ≠ fid
  made : ∃ n, Made (base.length + (packetsOf mps pre).length) w n fid

/-- A packet received inside a part of the receptions. -/
theorem packetAt_mem {w : DmaBuf} {a b c : List (List UInt8)} (hr : received w.trace = a ++ b ++ c)
    {k : Nat} (hlow : a.length ≤ k) (hhigh : k < a.length + b.length) {q : UvcPacket}
    (hq : packetAt w k = some q) :
    ∃ pkt, b[k - a.length]? = some pkt ∧ UvcPacket.new pkt = some q := by
  unfold packetAt at hq
  rw [hr, List.append_assoc, List.getElem?_append_right hlow,
    List.getElem?_append_left (by omega)] at hq
  exact Option.bind_eq_some_iff.mp hq

theorem legal_mem {b : List (List UInt8)} {j : Nat} {pkt : List UInt8} {q : UvcPacket}
    (hpkt : b[j]? = some pkt) (hn : UvcPacket.new pkt = some q) : q ∈ legal b :=
  List.mem_filterMap.mpr ⟨pkt, List.mem_of_getElem? hpkt, hn⟩

/-- The position of the first packet. -/
def firstAt (mps : Nat) (base : List (List UInt8)) (pre : List Uframe) : Nat :=
  base.length + (packetsOf mps pre).length

/-- The position behind the last packet. -/
def endAt (mps : Nat) (base : List (List UInt8)) (pre span : List Uframe) : Nat :=
  base.length + (packetsOf mps (pre ++ span)).length

/-- The packet that a microframe carries, at its place. -/
theorem packetsOf_at {mps : Nat} {u : Uframe} {p : UvcPacket} (hu : carried mps u = some p)
    (before after : List Uframe) :
    (packetsOf mps (before ++ u :: after))[(packetsOf mps before).length]? = some p.pkt := by
  obtain ⟨hrec, -, hne⟩ := carried_reception hu
  rw [packetsOf_append, packetsOf_cons hrec hne]
  simp

namespace SpansFrame

variable {mps : Nat} {base : List (List UInt8)} {fid : UInt8} {pre span : List Uframe} {w : DmaBuf}
  {k : Nat} {q : UvcPacket}

/-- A microframe of the span that carries a packet. -/
theorem at_carrier (h : SpansFrame mps base fid pre span w) {s t : List Uframe} {u : Uframe}
    (hspan : span = s ++ u :: t) (hu : carried mps u = some q) :
    packetAt w (base.length + (packetsOf mps (pre ++ s)).length) = some q := by
  obtain ⟨more, hr, -⟩ := h.arrived
  obtain ⟨-, hn, -⟩ := carried_reception hu
  have hat := packetsOf_at hu (pre ++ s) t
  have hlt := (List.getElem?_eq_some_iff.mp hat).1
  rw [List.append_assoc, ← hspan] at hat hlt
  unfold packetAt
  rw [hr, List.append_assoc, List.getElem?_append_right (by omega), Nat.add_sub_cancel_left,
    List.getElem?_append_left hlt, hat]
  exact hn

theorem first_lt_end (h : SpansFrame mps base fid pre span w) :
    firstAt mps base pre < endAt mps base pre span := by
  obtain ⟨u, rest, hspan, hu⟩ := h.run.first
  obtain ⟨q, hq⟩ := Option.isSome_iff_exists.mp hu
  obtain ⟨hrec, -, hne⟩ := carried_reception hq
  unfold firstAt endAt
  rw [hspan, packetsOf_append, packetsOf_cons hrec hne]
  simp

/-- Between the first and the last packet there are packets of the frame's FID only. -/
theorem inside (h : SpansFrame mps base fid pre span w) (hlow : firstAt mps base pre ≤ k)
    (hhigh : k < endAt mps base pre span) (hq : packetAt w k = some q) : q.fid = fid := by
  obtain ⟨more, hr, -⟩ := h.arrived
  unfold firstAt at hlow
  unfold endAt at hhigh
  rw [packetsOf_append] at hr hhigh
  rw [← List.append_assoc] at hr
  rw [List.length_append] at hhigh
  obtain ⟨pkt, hpkt, hn⟩ := packetAt_mem hr (by rw [List.length_append]; omega)
    (by rw [List.length_append]; omega) hq
  have hmem := legal_mem hpkt hn
  rw [legal_packetsOf] at hmem
  exact h.run.fids q hmem

theorem behind (h : SpansFrame mps base fid pre span w) (hlow : endAt mps base pre span ≤ k)
    (hq : packetAt w k = some q) : q.fid ≠ fid := by
  obtain ⟨more, hr, hmore⟩ := h.arrived
  unfold endAt at hlow
  have hk : k < (received w.trace).length := by
    unfold packetAt at hq
    obtain ⟨pkt, hpkt, -⟩ := Option.bind_eq_some_iff.mp hq
    exact (List.getElem?_eq_some_iff.mp hpkt).1
  rw [hr] at hk
  simp only [List.length_append] at hk
  rw [← List.append_nil (base ++ packetsOf mps (pre ++ span) ++ more)] at hr
  obtain ⟨pkt, hpkt, hn⟩ := packetAt_mem hr (by rw [List.length_append]; omega)
    (by rw [List.length_append]; omega) hq
  exact hmore q (legal_mem hpkt hn)

/-- From a packet in front of the frame on, there is one of the other FID in front of the frame. -/
theorem front (h : SpansFrame mps base fid pre span w) (hlow : base.length ≤ k)
    (hhigh : k < firstAt mps base pre) (hq : packetAt w k = some q) :
    ∃ m z, k ≤ m ∧ m < firstAt mps base pre ∧ packetAt w m = some z ∧ z.fid ≠ fid := by
  obtain ⟨more, hr, -⟩ := h.arrived
  unfold firstAt at hhigh ⊢
  rw [packetsOf_append, ← List.append_assoc, List.append_assoc] at hr
  obtain ⟨pkt, hpkt, hn⟩ := packetAt_mem hr hlow hhigh hq
  obtain ⟨m, pkt', z, hle, hm, hz, hlast⟩ := getLast_kept hpkt hn
  have hmlt := (List.getElem?_eq_some_iff.mp hm).1
  refine ⟨base.length + m, z, by omega, by omega, ?_, h.run.apart z ?_⟩
  · unfold packetAt
    rw [hr, List.append_assoc, List.getElem?_append_right (by omega), Nat.add_sub_cancel_left,
      List.getElem?_append_left hmlt, hm]
    exact hz
  · rw [← legal_packetsOf]
    exact hlast

/-- What was assembled lies between the first and the last packet. -/
theorem part_bounds (h : SpansFrame mps base fid pre span w) {f : Nat} (hf : f ∈ frameParts w) :
    firstAt mps base pre ≤ f ∧ f < endAt mps base pre span ∧
      ∃ p, packetAt w f = some p ∧ p.fid = fid := by
  obtain ⟨n, hmade⟩ := h.made
  obtain ⟨hlow, p, hp, hfid⟩ := hmade.parts f hf
  refine ⟨hlow, ?_, p, hp, hfid⟩
  refine Nat.lt_of_not_le fun hle => ?_
  exact h.behind hle hp hfid

/-- **The packets of the frame** are those of the span. -/
theorem inFrame_iff (h : SpansFrame mps base fid pre span w) :
    InFrame base.length w k ↔
      firstAt mps base pre ≤ k ∧ k < endAt mps base pre span ∧ ∃ p, packetAt w k = some p := by
  have hfl := h.first_lt_end
  constructor
  · rintro ⟨hlo, p, hp, f, hf, hall⟩
    obtain ⟨hf₁, hf₂, z, hz, hzf⟩ := h.part_bounds hf
    have hpf : fid = p.fid := by
      rw [← hzf]
      exact hall f z (Nat.min_le_right k f) (Nat.le_max_right k f) hz
    refine ⟨Nat.le_of_not_lt fun hlt => ?_, Nat.lt_of_not_le fun hle => ?_, p, hp⟩
    · obtain ⟨m, y, hkm, hmf, hy, hyf⟩ := h.front hlo hlt hp
      exact hyf ((hall m y (by omega) (by omega) hy).trans hpf.symm)
    · exact h.behind hle hp hpf.symm
  · rintro ⟨hlow, hhigh, p, hp⟩
    obtain ⟨n, hmade⟩ := h.made
    obtain ⟨f, hf⟩ := List.exists_mem_of_ne_nil _ hmade.ne_nil
    obtain ⟨hf₁, hf₂, -⟩ := h.part_bounds hf
    refine ⟨by unfold firstAt at hlow; omega, p, hp, f, hf, fun m y hm hm' hy => ?_⟩
    rw [h.inside hlow hhigh hp]
    exact h.inside (by omega) (by omega) hy

/-- **The frame is whole when its span is.** -/
theorem whole_iff (h : SpansFrame mps base fid pre span w) (post : List Uframe) :
    FrameWhole mps base.length (pre ++ span ++ post) w ↔ ∀ u ∈ span, ¬ Lossy u := by
  constructor
  · intro hwhole u hu hlossy
    obtain ⟨first, rest, hfirst, hcarried⟩ := h.run.first
    obtain ⟨rest', last, hlast, hcarried'⟩ := h.run.last
    obtain ⟨p, hp⟩ := Option.isSome_iff_exists.mp hcarried
    obtain ⟨q, hq⟩ := Option.isSome_iff_exists.mp hcarried'
    obtain ⟨before, after, hsplit, hlow, hhigh⟩ :=
      between_of_mem hu (rawPacket_lossy hlossy : rawPacket mps u = none) hfirst hlast
        (by simp [rawPacket_carried hp]) (by simp [rawPacket_carried hq]) pre post
    rw [← packetsOf_eq, ← packetsOf_eq] at hlow hhigh
    -- the first and the last packet of the frame
    have hfirstAt := h.at_carrier (s := []) hfirst hp
    have hlastAt := h.at_carrier (s := rest') (t := []) hlast hq
    have hend : endAt mps base pre span =
        base.length + (packetsOf mps (pre ++ rest')).length + 1 := by
      unfold endAt
      rw [hlast, ← List.append_assoc, packetsOf_append, packetsOf_eq [last]]
      simp [rawPacket_carried hq, Nat.add_assoc]
    have hlt := h.first_lt_end
    rw [List.append_nil] at hfirstAt
    refine hwhole before u after hsplit hlossy _ _ (h.inFrame_iff.mpr ⟨?_, ?_, p, hfirstAt⟩)
      (h.inFrame_iff.mpr ⟨?_, ?_, q, hlastAt⟩) ⟨?_, ?_⟩
    · exact Nat.le_refl _
    · exact hlt
    · unfold firstAt at hlt ⊢
      omega
    · omega
    · omega
    · unfold endAt at hend
      omega
  · intro hspan before u after hsplit hlossy i k hi hk hbetween
    obtain ⟨hi₁, -, -⟩ := h.inFrame_iff.mp hi
    obtain ⟨-, hk₂, -⟩ := h.inFrame_iff.mp hk
    unfold firstAt at hi₁
    unfold endAt at hk₂
    rw [packetsOf_eq] at hi₁ hk₂ hbetween
    refine hspan u (mem_of_between (f := rawPacket mps) hsplit ?_ ?_) hlossy
    · omega
    · omega

end SpansFrame

/-! ### The flip wait -/

/-- The microframes of one read: some that carry nothing, and the one that carries the packet. -/
theorem readPayload_carries {iso : IsochInEp} {us us' : List Uframe} {w w' : DmaBuf}
    {pkt : List UInt8} (h : readPayload iso DMA_OFF_UVC_BULK us w = .done (.ok pkt) us' w') :
    ∃ gap u, us = gap ++ u :: us' ∧ (∀ v ∈ gap, carried iso.mps v = none) ∧
      carried iso.mps u = UvcPacket.new pkt ∧ packetsOf iso.mps (gap ++ [u]) = [pkt] := by
  have hmps : 0 < iso.mps := by
    refine Nat.pos_of_ne_zero fun h0 => ?_
    rw [readPayload_bad h0] at h
    cases h
  obtain ⟨gap, u, hus, hgap, -, hu, hne⟩ := readPayloadLoop_packet hmps (workOff_le iso) h
  refine ⟨gap, u, hus, fun v hv => ?_, carried_eq hu, ?_⟩
  · rw [carried_eq (hgap v hv)]
    rfl
  · rw [packetsOf_append, packetsOf_idle hgap, packetsOf_cons hu hne, List.nil_append]
    rfl

/-- Of the microframes `us` those up to the packet `p` have been received, and `p` flips: all legal
packets before it carry the other FID. -/
def Flips (mps : Nat) (prev : Option UInt8) (us : List Uframe) (w : DmaBuf) (p : UvcPacket)
    (us' : List Uframe) (w' : DmaBuf) : Prop :=
  ∃ pre u, us = pre ++ u :: us' ∧ carried mps u = some p ∧
    received w'.trace = received w.trace ++ packetsOf mps (pre ++ [u]) ∧
    fromFlip mps prev us = u :: us' ∧ (∀ r, prev = some r → p.fid ≠ r) ∧
    ∀ q ∈ runOf mps pre, q.fid ≠ p.fid

/-- A packet that is passed over: the wait goes on with the reference `prev'`. -/
theorem Flips.skip {mps : Nat} {prev prev' : Option UInt8} {gap us us' : List Uframe} {u : Uframe}
    {w w₁ w' : DmaBuf} {p : UvcPacket} {pkt : List UInt8} (h : Flips mps prev' us w₁ p us' w')
    (hgap : ∀ v ∈ gap, carried mps v = none) (hpackets : packetsOf mps (gap ++ [u]) = [pkt])
    (hrecv : received w₁.trace = received w.trace ++ [pkt])
    (hflip : fromFlip mps prev (u :: us) = fromFlip mps prev' us)
    (hkeep : ∀ r, prev = some r → prev' = some r)
    (hnew : ∀ q, carried mps u = some q → prev' = some q.fid) :
    Flips mps prev (gap ++ u :: us) w p us' w' := by
  obtain ⟨pre, v, hus, hv, hrecv', hfrom, hne, hall⟩ := h
  refine ⟨gap ++ [u] ++ pre, v, ?_, hv, ?_, ?_, fun r hprev => hne r (hkeep r hprev), ?_⟩
  · simp [hus]
  · rw [hrecv', hrecv, List.append_assoc (gap ++ [u]), packetsOf_append _ (gap ++ [u]), hpackets,
      List.append_assoc]
  · rw [fromFlip_gap hgap, hflip, hfrom]
  · rw [runOf_append, runOf_append, runOf_none hgap, List.nil_append]
    intro q hq
    rcases List.mem_append.mp hq with hq | hq
    · obtain ⟨x, hx, hxq⟩ := List.mem_filterMap.mp hq
      rw [List.mem_singleton.mp hx] at hxq
      exact Ne.symm (hne _ (hnew q hxq))
    · exact hall q hq

/-- **The wait stops at the packet that flips.** -/
theorem waitFlip_flips {iso : IsochInEp} (prev : Option UInt8) (us : List Uframe) (w : DmaBuf) :
    ∀ p us' w', waitFlip iso DMA_OFF_UVC_BULK prev us w = .done (.ok p) us' w' →
      Flips iso.mps prev us w p us' w' := by
  intro p us' w' h
  rw [waitFlip] at h
  split at h
  · cases h
  · cases h
  rename_i pkt us₁ w₁ hr
  have hreads := readPayload_reads hr
  have hlt := readPayload_lt hr
  obtain ⟨gap, u, hus, hgap, hu, hpackets⟩ := readPayload_carries hr
  have hskip : ∀ prev', fromFlip iso.mps prev (u :: us₁) = fromFlip iso.mps prev' us₁ →
      (∀ r, prev = some r → prev' = some r) →
      (∀ q, carried iso.mps u = some q → prev' = some q.fid) →
      waitFlip iso DMA_OFF_UVC_BULK prev' us₁ w₁ = .done (.ok p) us' w' →
      Flips iso.mps prev us w p us' w' := by
    intro prev' hflip hkeep hnew hrest
    rw [hus]
    exact (waitFlip_flips prev' us₁ w₁ p us' w' hrest).skip hgap hpackets hreads.received hflip
      hkeep hnew
  split at h
  · rename_i hn
    rw [hn] at hu
    refine hskip prev ?_ (fun r hprev => hprev) (fun q hq => ?_) h
    · rw [fromFlip, hu]
    · rw [hu] at hq
      cases hq
  · rename_i q hn
    rw [hn] at hu
    split at h
    · refine hskip (some q.fid) ?_ (fun r hr => by cases hr) (fun x hx => ?_) h
      · rw [fromFlip, hu]
      · rw [hu] at hx
        cases hx
        rfl
    · rename_i r
      split at h
      · rename_i hne
        cases h
        refine ⟨gap, u, hus, hu, ?_, ?_, fun r' hr' => ?_, ?_⟩
        · rw [hpackets]
          exact hreads.received
        · rw [hus, fromFlip_gap hgap, fromFlip, hu]
          simp [hne]
        · cases hr'
          exact Ne.symm hne
        · rw [runOf_none hgap]
          intro x hx
          cases hx
      · rename_i heq
        refine hskip (some r) ?_ (fun r' hr' => hr') (fun x hx => ?_) h
        · rw [fromFlip, hu]
          simp [heq]
        · rw [hu] at hx
          cases hx
          rw [not_not.mp heq]
termination_by us.length
decreasing_by assumption

/-! ### The assembly -/

/-- The assembly stands at the run that `span` carries; `gap` has come since. -/
structure Stands (mps : Nat) (base : List (List UInt8)) (pre span gap : List Uframe) (w : DmaBuf)
    (a : Assembly) : Prop where
  run : RunSpan mps a.fid pre span
  arrived : received w.trace = base ++ packetsOf mps (pre ++ span ++ gap)
  gap : ∀ v ∈ gap, carried mps v = none
  assembles : Assembles (firstAt mps base pre) (runOf mps span) w a

/-- Of the microframes `us`, `span` are those from the first to the last packet of the frame. -/
def HandsSpan (mps : Nat) (base : List (List UInt8)) (us span : List Uframe) (w : DmaBuf) : Prop :=
  ∃ pre post fid, us = pre ++ span ++ post ∧ SpansFrame mps base fid pre span w

/-- A packet read behind the run: the microframes before it belong to the gap. -/
theorem Stands.read {iso : IsochInEp} {base : List (List UInt8)} {pre span gap us us' : List Uframe}
    {w w' : DmaBuf} {a : Assembly} {pkt : List UInt8} (hs : Stands iso.mps base pre span gap w a)
    (h : readPayload iso DMA_OFF_UVC_BULK us w = .done (.ok pkt) us' w') :
    ∃ more u, us = more ++ u :: us' ∧ (∀ v ∈ more, carried iso.mps v = none) ∧
      (∀ v ∈ gap ++ more, carried iso.mps v = none) ∧ carried iso.mps u = UvcPacket.new pkt ∧
      received w'.trace = base ++ packetsOf iso.mps (pre ++ span ++ (gap ++ more ++ [u])) ∧
      Assembles (firstAt iso.mps base pre) (runOf iso.mps span) w' a := by
  have hreads := readPayload_reads h
  obtain ⟨more, u, hus, hmore, hu, hpackets⟩ := readPayload_carries h
  refine ⟨more, u, hus, hmore, fun v hv => ?_, hu, ?_, hs.assembles.read hreads⟩
  · exact (List.mem_append.mp hv).elim (hs.gap v) (hmore v)
  · rw [hreads.received, hs.arrived, List.append_assoc gap, ← List.append_assoc (pre ++ span),
      packetsOf_append _ (pre ++ span ++ gap), hpackets, List.append_assoc]

/-- A packet of the other FID behind a run hands the run out. -/
theorem flip_spans (us : List Uframe) {mps n : Nat} {base : List (List UInt8)} {fid : UInt8}
    {pre span gap : List Uframe} {u : Uframe} {p : UvcPacket} {w : DmaBuf}
    (hrun : RunSpan mps fid pre span) (hgap : ∀ v ∈ gap, carried mps v = none)
    (hu : carried mps u = some p) (hflip : p.fid ≠ fid)
    (harrived : received w.trace = base ++ packetsOf mps (pre ++ span ++ (gap ++ [u])))
    (hmade : Made (firstAt mps base pre) w n fid) :
    HandsSpan mps base (pre ++ span ++ (gap ++ u :: us)) span w := by
  refine ⟨pre, gap ++ u :: us, fid, rfl, hrun, ⟨packetsOf mps (gap ++ [u]), ?_, ?_⟩, n, hmade⟩
  · rw [harrived, packetsOf_append _ (pre ++ span)]
    exact (List.append_assoc ..).symm
  · rw [legal_packetsOf, runOf_append, runOf_none hgap, runOf_singleton hu, List.nil_append]
    intro x hx
    rw [List.mem_singleton.mp hx]
    exact hflip

/-- The end of a turn, when the loop that may follow it is understood: the packet `p` of the
microframe `u` joins the run of `span`. -/
theorem finish_spans {iso : IsochInEp} {base : List (List UInt8)} {frameFid : UInt8}
    (pre span : List Uframe) {us us' : List Uframe} {u : Uframe} {p : UvcPacket} {a : Assembly}
    {n : Nat} (st : CaptureState) {st' : CaptureState} (hrun : RunSpan iso.mps a.fid pre (span ++ [u]))
    (hu : carried iso.mps u = some p) (hh : Holds (runOf iso.mps span) st.dma.mem a)
    (hm : a.sawData = true → Made (firstAt iso.mps base pre) st.dma a.jpegLen a.fid)
    (harrived : received st.dma.trace = base ++ packetsOf iso.mps (pre ++ (span ++ [u])))
    (hloop : ∀ a st, Stands iso.mps base pre (span ++ [u]) [] st.dma a →
      assembleLoop iso DMA_OFF_UVC_BULK frameFid jpegCap a us st = .done (.ok n) us' st' →
      HandsSpan iso.mps base (pre ++ (span ++ [u]) ++ us) (closingSpan iso.mps (span ++ [u]) [] us)
        st'.dma)
    (h : afterPacket iso frameFid us (finishPacket frameFid jpegCap p a st) =
      .done (.ok n) us' st') :
    HandsSpan iso.mps base (pre ++ (span ++ [u]) ++ us)
      (if p.eof then span ++ [u] else closingSpan iso.mps (span ++ [u]) [] us) st'.dma := by
  obtain ⟨hrec, hn, hne⟩ := carried_reception hu
  have hsplit : received st.dma.trace = (base ++ packetsOf iso.mps (pre ++ span)) ++ [p.pkt] := by
    rw [harrived, ← List.append_assoc pre, packetsOf_append _ (pre ++ span), packetsOf_cons hrec hne,
      List.append_assoc]
    rfl
  have hlo : firstAt iso.mps base pre ≤ (base ++ packetsOf iso.mps (pre ++ span)).length := by
    rw [packetsOf_append]
    simp only [firstAt, List.length_append]
    omega
  have hf : p.fid = a.fid := hrun.fids p (by rw [runOf_append, runOf_singleton hu]; simp)
  have hsnoc : runOf iso.mps (span ++ [u]) = runOf iso.mps span ++ [p] := by
    rw [runOf_append, runOf_singleton hu]
  obtain ⟨a', st₁, hasm, hfid, hrecv, ⟨heof, hsaw, -, h⟩ | ⟨heof, h⟩⟩ :=
    afterPacket_assembles hh hm hn hsplit hlo hf h
  · cases h
    rw [if_pos heof]
    refine ⟨pre, us, a.fid, rfl, hrun, ⟨[], ?_, fun q hq => by cases hq⟩, a'.jpegLen,
      hfid ▸ hasm.made hsaw⟩
    rw [hrecv, harrived, List.append_nil]
  · rw [if_neg (by simp [heof])]
    refine hloop a' st₁ ⟨hfid ▸ hrun, ?_, (fun v hv => by cases hv), hsnoc ▸ hasm⟩ h
    rw [hrecv, harrived, List.append_nil]

/-- **The assembly loop hands out the run that the packets close.** -/
theorem assembleLoop_spans {iso : IsochInEp} {base : List (List UInt8)} (frameFid : UInt8)
    (pre span gap : List Uframe) (a : Assembly) (us : List Uframe) (st : CaptureState) {n : Nat}
    {us' : List Uframe} {st' : CaptureState} (hs : Stands iso.mps base pre span gap st.dma a)
    (h : assembleLoop iso DMA_OFF_UVC_BULK frameFid jpegCap a us st = .done (.ok n) us' st') :
    HandsSpan iso.mps base (pre ++ span ++ gap ++ us) (closingSpan iso.mps span gap us) st'.dma := by
  rw [assembleLoop] at h
  split at h
  · cases h
  · cases h
  rename_i pkt us₁ w hr
  have hlt := readPayload_lt hr
  obtain ⟨more, u, hus, hmore, hgap, hu, harrived, ha⟩ := hs.read hr
  rw [hus, closingSpan_gap hmore, closingSpan]
  simp only at h
  split at h
  · -- an illegal header
    rename_i hn
    rw [hn] at hu
    have hnone : ∀ v ∈ gap ++ more ++ [u], carried iso.mps v = none := by
      intro v hv
      rcases List.mem_append.mp hv with hv | hv
      · exact hgap v hv
      · rw [List.mem_singleton.mp hv]
        exact hu
    have hspans := assembleLoop_spans frameFid pre span (gap ++ more ++ [u]) a us₁
      { st with dma := w } ⟨hs.run, harrived, hnone, ha⟩ h
    rw [hu]
    simpa using hspans
  rename_i p hn
  rw [hn] at hu
  obtain ⟨q, hq, hqf⟩ := hs.run.getLast
  have hloop : ∀ pre span a st, Stands iso.mps base pre span [] st.dma a →
      assembleLoop iso DMA_OFF_UVC_BULK frameFid jpegCap a us₁ st = .done (.ok n) us' st' →
      HandsSpan iso.mps base (pre ++ span ++ us₁) (closingSpan iso.mps span [] us₁) st'.dma := by
    intro pre span a st hs h
    simpa using assembleLoop_spans frameFid pre span [] a us₁ st hs h
  rw [hu, hq]
  dsimp only
  split at h
  · -- the flip closes the run
    rename_i hflip
    simp only [Bool.and_eq_true, Bool.not_eq_true', UvcPacket.isFid, beq_eq_false_iff_ne] at hflip
    have hc : Complete (runOf iso.mps span) := ha.holds.complete_iff.mp (by simpa using hflip.2)
    have hne : ¬ (q.fid == p.fid) = true := by
      rw [beq_iff_eq, hqf]
      exact Ne.symm hflip.1
    cases h
    rw [Option.any_some, if_neg hne, if_pos hc]
    have hspans := flip_spans us' hs.run hgap hu hflip.1 harrived (ha.made hflip.2.1)
    simpa using hspans
  · rename_i hflip
    by_cases hsame : p.fid = a.fid
    · -- the packet joins the run
      have hisFid : p.isFid a.fid = true := by simp [UvcPacket.isFid, hsame]
      have heq : (q.fid == p.fid) = true := by rw [beq_iff_eq, hqf, hsame]
      have hholds : Holds (runOf iso.mps (span ++ (gap ++ more))) w.mem a := by
        rw [runOf_append, runOf_none hgap, List.append_nil]
        exact ha.holds
      simp only [hisFid, Bool.not_true, Bool.false_eq_true, ↓reduceIte] at h
      have hfinish := finish_spans pre (span ++ (gap ++ more)) { st with dma := w }
        (hs.run.extend hgap hu hsame) hu hholds ha.made (by simpa using harrived)
        (hloop pre (span ++ (gap ++ more) ++ [u])) h
      rw [Option.any_some, if_pos heq]
      simpa using hfinish
    · -- the run is dropped
      have hisFid : p.isFid a.fid = false := by simp [UvcPacket.isFid, hsame]
      have hne : ¬ (q.fid == p.fid) = true := by
        rw [beq_iff_eq, hqf]
        exact Ne.symm hsame
      have hc : ¬ Complete (runOf iso.mps span) := by
        intro hc
        simp only [hisFid, Bool.not_false, Bool.true_and, Bool.not_eq_true] at hflip
        rw [ha.holds.complete_iff.mpr hc] at hflip
        cases hflip
      simp only [hisFid, Bool.not_false, ↓reduceIte] at h
      have hfinish := finish_spans (pre ++ span ++ (gap ++ more)) [] { st with dma := w }
        (hs.run.restart hgap hu hsame) hu (Holds.nil _ _)
        (fun h => by cases h) (by simpa using harrived)
        (hloop (pre ++ span ++ (gap ++ more)) [u]) h
      rw [Option.any_some, if_neg hne, if_neg hc]
      simpa using hfinish
termination_by us.length
decreasing_by all_goals exact hlt

/-! ### The capture -/

/-- The microframes from the first to the last packet of the run that ends a capture. -/
def captureSpan (cam : UvcCamera) (us : List Uframe) (st : CaptureState) : List Uframe :=
  closingSpan cam.iso.mps [] [] (fromFlip cam.iso.mps (initFid st.lastEofFid) us)

/-- The packet that flips opens a run. -/
theorem closingSpan_first {mps : Nat} {u : Uframe} {p : UvcPacket} (hu : carried mps u = some p)
    (us : List Uframe) :
    closingSpan mps [] [] (u :: us) = if p.eof then [u] else closingSpan mps [u] [] us := by
  have hc : ¬ Complete (runOf mps []) := by
    intro h
    exact absurd h.length_le (by simp [runOf, assembled])
  rw [closingSpan, hu]
  dsimp only
  rw [if_neg (by simp [runOf]), if_neg hc]

/-- **A capture hands out the run that the packets close.** -/
theorem captureFrame_spans {cam : UvcCamera} {us us' : List Uframe} {st st' : CaptureState} {n : Nat}
    (h : captureFrame cam us st = .done (.ok n) us' st') :
    HandsSpan cam.iso.mps (received st.dma.trace) us (captureSpan cam us st) st'.dma := by
  rw [captureFrame_eq] at h
  unfold tryFrame at h
  split at h
  · cases h
  · cases h
  rename_i first us₁ w hw
  obtain ⟨pre, u, hus, hu, hrecv, hflip, -, hall⟩ := waitFlip_flips _ us st.dma first us₁ w hw
  have hrun : RunSpan cam.iso.mps first.fid pre [u] :=
    .single (fun q hq => hall q (List.mem_of_getLast? hq)) hu
  unfold assemble at h
  have hfinish := finish_spans pre [] { st with dma := w } hrun hu (Holds.nil w.mem first.fid)
    (fun h => by cases h) hrecv (fun a st hs h => by
      simpa using assembleLoop_spans first.fid pre [u] [] a us₁ st hs h) h
  unfold captureSpan
  rw [hflip, closingSpan_first hu, hus]
  simpa using hfinish

/-- The frame of one capture. -/
theorem captureFrame_lostNone {cam : UvcCamera} {us us' : List Uframe} {st st' : CaptureState} {n : Nat}
    (h : captureFrame cam us st = .done (.ok n) us' st') :
    FrameWhole cam.iso.mps (received st.dma.trace).length us st'.dma ↔
      ∀ u ∈ captureSpan cam us st, ¬ Lossy u := by
  obtain ⟨pre, post, fid, hus, hspans⟩ := captureFrame_spans h
  have hiff := hspans.whole_iff post
  rw [← hus] at hiff
  exact hiff

/-- **When no microframe inside the frame has lost data**: in every sequence of captures, against
every sequence of microframes and from every state, exactly when the run that the packets on the bus
close has lost none between its packets. -/
theorem captured_whole_iff (cam : UvcCamera) (k : Nat) (us : List Uframe) (st : CaptureState) :
    ∀ c ∈ calls cam k us st, ∀ n, c.res = .ok n →
      (FrameWhole cam.iso.mps (received c.before.dma.trace).length c.us c.after.dma ↔
        ∀ u ∈ captureSpan cam c.us c.before, ¬ Lossy u) := by
  intro c hc n hres
  obtain ⟨us', hcap⟩ := calls_captures hc
  rw [hres] at hcap
  exact captureFrame_lostNone hcap

/-- A frame of three packets, of which the second is lost. -/
def lostMiddle : List Uframe :=
  [dataUframe [2, 1, 0xff, 0xd8], ⟨false, some (1 <<< HCINT.XACTERR), [2, 1, 0x11, 0x22]⟩,
    dataUframe [2, 3, 0xff, 0xd9]]

/-- The capture returns the first and the third packet. -/
theorem lostMiddle_returned :
    ∃ c ∈ calls demoCamera 1 lostMiddle afterEvenFrame, c.res = .ok 4 ∧ c.us = lostMiddle ∧
      c.before = afterEvenFrame ∧
      load c.after.dma.mem UVC_ASSEMBLED_JPEG_DMA_OFF 4 = [0xff, 0xd8, 0xff, 0xd9] := by
  have hrun : (calls demoCamera 1 lostMiddle afterEvenFrame).map (fun c =>
      (c.res, load c.after.dma.mem UVC_ASSEMBLED_JPEG_DMA_OFF 4)) =
        [(.ok 4, [0xff, 0xd8, 0xff, 0xd9])] := by
    decide +kernel
  obtain ⟨c, hcalls, he⟩ := List.map_eq_singleton_iff.mp hrun
  simp only [Prod.mk.injEq] at he
  have hmem : c ∈ calls demoCamera 1 lostMiddle afterEvenFrame := by simp [hcalls]
  have hfirst : c.us = lostMiddle ∧ c.before = afterEvenFrame := by
    rw [calls] at hmem
    split at hmem
    · cases hmem
    · rw [List.mem_singleton.mp hmem]
      exact ⟨rfl, rfl⟩
  exact ⟨c, hmem, he.1, hfirst.1, hfirst.2, he.2⟩

theorem captured_whole_iff_lostMiddle :
    ∃ c ∈ calls demoCamera 1 lostMiddle afterEvenFrame, c.res = .ok 4 ∧
      (FrameWhole demoCamera.iso.mps (received c.before.dma.trace).length c.us c.after.dma ↔
        ∀ u ∈ captureSpan demoCamera c.us c.before, ¬ Lossy u) := by
  obtain ⟨c, hc, hres, -⟩ := lostMiddle_returned
  exact ⟨c, hc, hres, captured_whole_iff demoCamera 1 lostMiddle afterEvenFrame c hc 4 hres⟩

/-- **A frame with a hole is returned**: its second packet was lost. -/
theorem lostMiddle_notWhole :
    ∃ c ∈ calls demoCamera 1 lostMiddle afterEvenFrame, c.res = .ok 4 ∧
      load c.after.dma.mem UVC_ASSEMBLED_JPEG_DMA_OFF 4 = [0xff, 0xd8, 0xff, 0xd9] ∧
      ¬ FrameWhole demoCamera.iso.mps (received c.before.dma.trace).length c.us c.after.dma := by
  obtain ⟨c, hc, hres, hus, hbefore, hbytes⟩ := lostMiddle_returned
  refine ⟨c, hc, hres, hbytes, ?_⟩
  obtain ⟨us', hcap⟩ := calls_captures hc
  rw [hres] at hcap
  rw [captureFrame_lostNone hcap, hus, hbefore]
  decide +kernel

end Cvirtos.Usb.Uvc
