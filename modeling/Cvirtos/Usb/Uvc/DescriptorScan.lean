import Mathlib.Data.List.Basic
import Cvirtos.Lib.FirstMax
import Cvirtos.Usb.Uvc.Descriptor

/-!
# What a scan of the descriptors sees

The descriptors of a configuration as a list, each with the place it stands in: the interface and
the alternate setting that enclose it, and the format that precedes it.  The VideoStreaming frames
and isochronous IN endpoints are read off that list.

* `scanDescs_eq` — the loop is a fold over the list, and every descriptor lies in the buffer;
* `vsStep_frame`, `vsStep_endpoint`, `vsStep_other` — what one turn of the stream scan does.
-/

set_option autoImplicit false

namespace Cvirtos.Usb.Uvc

open Cvirtos.Lib Cvirtos.Usb.Dwc2

/-! ### Fields -/

namespace Desc

/-- The descriptor lies in its buffer. -/
structure Within (d : Desc) : Prop where
  header : 2 ≤ d.len
  fits : d.base + d.len ≤ d.buf.length

def byte (d : Desc) (off : Nat) : UInt8 := d.buf.getD (d.base + off) 0

def half (d : Desc) (off : Nat) : UInt16 :=
  (d.byte off).toUInt16 ||| (d.byte (off + 1)).toUInt16 <<< 8

def word (d : Desc) (off : Nat) : UInt32 :=
  (d.byte off).toUInt32 ||| (d.byte (off + 1)).toUInt32 <<< 8
    ||| (d.byte (off + 2)).toUInt32 <<< 16 ||| (d.byte (off + 3)).toUInt32 <<< 24

variable {d : Desc}

theorem Within.byteAt (hd : d.Within) {off : Nat} (hoff : off < d.len) :
    Uvc.byteAt d.buf (d.base + off) = .ok (d.byte off) := by
  have hlt : d.base + off < d.buf.length := by have := hd.fits; omega
  unfold Uvc.byteAt byte
  rw [List.getD_eq_getElem?_getD, List.getElem?_eq_getElem hlt]
  rfl

theorem Within.ty (hd : d.Within) : d.ty = .ok (d.byte 1) := hd.byteAt hd.header

theorem Within.u8 (hd : d.Within) (off : Nat) :
    d.u8 off = .ok (if off < d.len then some (d.byte off) else none) := by
  unfold Desc.u8
  split
  · rename_i hoff
    rw [hd.byteAt hoff]
    rfl
  · rfl

theorem Within.u8Or (hd : d.Within) (off : Nat) (dflt : UInt8) :
    d.u8Or off dflt = .ok (if off < d.len then d.byte off else dflt) := by
  unfold Desc.u8Or
  rw [hd.u8 off]
  split <;> rfl

theorem Within.u16le (hd : d.Within) (off : Nat) :
    d.u16le off = .ok (if off + 2 ≤ d.len then some (d.half off) else none) := by
  unfold Desc.u16le
  split
  · rename_i hoff
    rw [hd.byteAt (show off < d.len by omega), Nat.add_assoc,
      hd.byteAt (show off + 1 < d.len by omega)]
    rfl
  · rfl

theorem Within.u32le (hd : d.Within) (off : Nat) :
    d.u32le off = .ok (if off + 4 ≤ d.len then some (d.word off) else none) := by
  unfold Desc.u32le
  split
  · rename_i hoff
    rw [hd.byteAt (show off < d.len by omega), Nat.add_assoc, Nat.add_assoc, Nat.add_assoc,
      hd.byteAt (show off + 1 < d.len by omega), hd.byteAt (show off + 2 < d.len by omega),
      hd.byteAt (show off + 3 < d.len by omega)]
    rfl
  · rfl

end Desc

/-! ### The list of descriptors -/

/-- The descriptors from `i` on. -/
def descs (cfg : List UInt8) (len i : Nat) : List Desc :=
  if i + 2 ≤ len then
    match _hd : Desc.new cfg i len with
    | none => []
    | some d => d :: descs cfg len (i + d.len)
  else []
termination_by len - i
decreasing_by
  have := Desc.new_len _hd
  omega

/-- The descriptors that `parse_uvc_video_stream` and `parse_uvc_control_entities` go through. -/
def scanned (cfg : List UInt8) (cfgTotal : Nat) : List Desc :=
  let len := min cfgTotal cfg.length
  let first := (cfg.getD 0 0).toNat
  if len < 12 ∨ first ≥ len then [] else descs cfg len first

theorem descs_within {cfg : List UInt8} {len : Nat} (hlen : len ≤ cfg.length) (i : Nat) :
    ∀ d ∈ descs cfg len i, d.Within := by
  fun_induction descs cfg len i with
  | case1 i hi hd => simp
  | case2 i hi d hd ih =>
    intro e he
    obtain ⟨hbuf, hbase, hheader, hfits⟩ := Desc.new_len hd
    rcases List.mem_cons.mp he with rfl | he
    · exact ⟨hheader, by rw [hbuf, hbase]; omega⟩
    · exact ih e he
  | case3 i hi => simp

theorem scanned_within (cfg : List UInt8) (cfgTotal : Nat) :
    ∀ d ∈ scanned cfg cfgTotal, d.Within := by
  unfold scanned
  dsimp only
  split
  · simp
  · exact descs_within (Nat.min_le_right _ _) _

theorem descs_none {cfg : List UInt8} {len i : Nat} (hd : Desc.new cfg i len = none) :
    descs cfg len i = [] := by
  unfold descs
  split
  · split
    · rfl
    · rename_i hsome
      rw [hd] at hsome
      cases hsome
  · rfl

theorem descs_some {cfg : List UInt8} {len i : Nat} {d : Desc} (hi : i + 2 ≤ len)
    (hd : Desc.new cfg i len = some d) : descs cfg len i = d :: descs cfg len (i + d.len) := by
  rw [descs, if_pos hi]
  split
  · rename_i hnone
    rw [hd] at hnone
    cases hnone
  · rename_i hsome
    rw [hd] at hsome
    cases hsome
    rfl

/-- **The loop is a fold over the list.** -/
theorem scanDescs_eq {σ : Type} (step : Desc → σ → Checked σ) (cfg : List UInt8) (len i : Nat)
    (s : σ) : scanDescs step cfg len i s = (descs cfg len i).foldlM (fun s d => step d s) s := by
  fun_induction scanDescs step cfg len i s with
  | case1 i s hi hd => rw [descs_none hd]; rfl
  | case2 i s hi d hd c hc =>
    rw [descs_some hi hd, List.foldlM_cons, hc]
    rfl
  | case3 i s hi d hd s' hs ih =>
    rw [descs_some hi hd, List.foldlM_cons, hs]
    exact ih
  | case4 i s hi =>
    rw [descs, if_neg hi]
    rfl

/-! ### Intervals -/

/-- A continuous range of intervals whose least one exceeds its largest. -/
def Desc.CrossedRange (d : Desc) : Prop :=
  d.byte 25 = 0 ∧ 38 ≤ d.len ∧ 0 < d.word 30 ∧ d.word 30 < d.word 26

instance (d : Desc) : Decidable d.CrossedRange := inferInstanceAs (Decidable (_ ∧ _))

variable {d : Desc}

theorem forIvals_ok {σ : Type} {f : UInt32 → σ → Checked σ} (hd : d.Within)
    (hf : ∀ ival s, ∃ s', f ival s = .ok s') (remaining k : Nat) (s : σ) :
    ∃ s', forIvals d f remaining k s = .ok s' := by
  induction remaining generalizing k s with
  | zero => exact ⟨s, rfl⟩
  | succ remaining ih =>
      unfold forIvals
      rw [hd.u32le]
      split
      · obtain ⟨s', hs⟩ := hf (d.word (26 + 4 * k)) s
        obtain ⟨s'', hs'⟩ := ih (k + 1) s'
        refine ⟨s'', ?_⟩
        change (f _ s).bind _ = _
        rw [hs]
        exact hs'
      · exact ⟨s, rfl⟩

theorem fpsX100_ok (ival : UInt32) : ∃ fps, fpsX100 ival = .ok fps := by
  unfold fpsX100 divide
  split
  · rename_i hpos
    rw [if_neg (by rintro rfl; exact absurd hpos (by decide))]
    exact ⟨_, rfl⟩
  · exact ⟨_, rfl⟩

theorem minInterval_ok (hd : d.Within) (dfltIval : UInt32) (ivalType : UInt8) :
    ∃ ival, minInterval d dfltIval ivalType = .ok ival := by
  unfold minInterval
  split
  · rw [hd.u32le]
    split
    · exact ⟨_, rfl⟩
    · exact ⟨_, rfl⟩
  · split
    · exact forIvals_ok hd (fun _ _ => ⟨_, rfl⟩) _ _ _
    · exact ⟨_, rfl⟩

theorem logIntervals_ok (hd : d.Within) (dfltIval minIval : UInt32) (ivalType : UInt8) :
    logIntervals d dfltIval minIval ivalType = .ok () := by
  obtain ⟨_, hdflt⟩ := fpsX100_ok dfltIval
  obtain ⟨_, hmin⟩ := fpsX100_ok minIval
  unfold logIntervals
  rw [hdflt, hmin]
  change (if ivalType > 0 then _ else _) = _
  split
  · obtain ⟨⟨⟩, hloop⟩ := forIvals_ok (σ := Unit) hd (f := fun ival _ => (fpsX100 ival).map fun _ => ())
      (fun ival _ => by obtain ⟨_, hfps⟩ := fpsX100_ok ival; rw [hfps]; exact ⟨_, rfl⟩)
      ivalType.toNat 0 ()
    exact hloop
  · split
    · rw [hd.u32le, hd.u32le, hd.u32le]
      obtain ⟨_, hmax⟩ := fpsX100_ok (Option.getD (if 30 + 4 ≤ d.len then some (d.word 30) else none) 0)
      obtain ⟨_, hmin'⟩ := fpsX100_ok (Option.getD (if 26 + 4 ≤ d.len then some (d.word 26) else none) 0)
      change (fpsX100 _).bind _ = _
      rw [hmax]
      change (fpsX100 _).bind _ = _
      rw [hmin']
      rfl
    · rfl

theorem clampInterval_crossed (hd : d.Within) (hr : d.CrossedRange) (pref : UInt32) :
    clampInterval d pref = .error .clamp := by
  obtain ⟨-, hlong, hpos, hlt⟩ := hr
  unfold clampInterval
  rw [if_pos hlong, hd.u32le, hd.u32le, if_pos (show 26 + 4 ≤ d.len by omega),
    if_pos (show 30 + 4 ≤ d.len by omega)]
  change (if d.word 26 > 0 ∧ d.word 30 > 0 then _ else _) = _
  rw [if_pos ⟨UInt32.lt_trans hpos hlt, hpos⟩]
  unfold clamp
  rw [if_pos hlt]
  rfl

theorem clampInterval_ok (hd : d.Within) (hty : d.byte 25 = 0) (hr : ¬ d.CrossedRange)
    (pref : UInt32) : ∃ best, clampInterval d pref = .ok best := by
  unfold clampInterval
  split
  · rename_i hlong
    rw [hd.u32le, hd.u32le, if_pos (show 26 + 4 ≤ d.len by omega),
      if_pos (show 30 + 4 ≤ d.len by omega)]
    change ∃ best, (if d.word 26 > 0 ∧ d.word 30 > 0 then _ else _) = _
    split
    · rename_i hpos
      unfold clamp
      rw [if_neg fun hlt => hr ⟨hty, hlong, hpos.2, hlt⟩]
      exact ⟨_, rfl⟩
    · exact ⟨_, rfl⟩
  · exact ⟨_, rfl⟩

/-- The interval of a frame that has a preference to meet and a crossed range to meet it in. -/
theorem chooseFrameInterval_crossed (hd : d.Within) {pref : UInt32} (hpref : pref ≠ 0)
    (hr : d.CrossedRange) (dfltIval : UInt32) :
    chooseFrameInterval d dfltIval (d.byte 25) pref = .error .clamp := by
  unfold chooseFrameInterval
  rw [if_neg hpref]
  rw [if_pos hr.1, clampInterval_crossed hd hr]
  rfl

theorem chooseFrameInterval_ok (hd : d.Within) {pref : UInt32}
    (h : ¬ (pref ≠ 0 ∧ d.CrossedRange)) (dfltIval : UInt32) :
    ∃ ival, chooseFrameInterval d dfltIval (d.byte 25) pref = .ok ival := by
  unfold chooseFrameInterval
  split
  · exact ⟨_, rfl⟩
  · rename_i hpref
    split
    · rename_i hty
      obtain ⟨best, hbest⟩ := clampInterval_ok hd hty (fun hr => h ⟨hpref, hr⟩) pref
      rw [hbest]
      exact ⟨_, rfl⟩
    · obtain ⟨best, hbest⟩ := forIvals_ok hd
        (f := fun ival best => return bestFor pref ival best) (fun _ _ => ⟨_, rfl⟩)
        (d.byte 25).toNat 0 none
      rw [hbest]
      exact ⟨_, rfl⟩

/-! ### Places -/

/-- Where a descriptor stands: what the scan keeps, and the interface that declared the current
format. -/
structure Place where
  ctx : Ctx
  fmtIfc : Option UInt8
  deriving DecidableEq, Repr

def Place.new : Place := ⟨.new, none⟩

/-- The place after a descriptor. -/
def Place.next (p : Place) (d : Desc) : Place :=
  if d.byte 1 = USB_DT_INTERFACE ∧ 9 ≤ d.len then
    { p with ctx := { p.ctx with
        curIfcNum := d.byte 2, curAlt := d.byte 3, curIfcClass := d.byte 5, curIfcSub := d.byte 6 } }
  else if d.byte 1 = CS_INTERFACE ∧ p.ctx.isVs ∧ 4 ≤ d.len ∧
      (d.byte 2 = VS_FORMAT_MJPEG ∨ d.byte 2 = VS_FORMAT_UNCOMPRESSED) then
    ⟨{ p.ctx with curFmtIx := d.byte 3 }, some p.ctx.curIfcNum⟩
  else p

/-- The descriptors with their places. -/
def places (p : Place) : List Desc → List (Place × Desc)
  | [] => []
  | d :: ds => (p, d) :: places (p.next d) ds

/-- A complete frame descriptor of a VideoStreaming interface. -/
def IsVsFrame (p : Place) (d : Desc) : Prop :=
  d.byte 1 = CS_INTERFACE ∧ p.ctx.isVs ∧ 26 ≤ d.len ∧
    (d.byte 2 = VS_FRAME_MJPEG ∨ d.byte 2 = VS_FRAME_UNCOMPRESSED)

instance (p : Place) (d : Desc) : Decidable (IsVsFrame p d) :=
  inferInstanceAs (Decidable (_ ∧ _))

/-- A complete isochronous IN endpoint descriptor of a VideoStreaming interface. -/
def IsIsochIn (p : Place) (d : Desc) : Prop :=
  d.byte 1 = USB_DT_ENDPOINT ∧ p.ctx.isVs ∧ 6 ≤ d.len ∧ d.byte 2 &&& 0x80 ≠ 0 ∧
    d.byte 3 &&& 0x03 = ENDPOINT_ATTR_ISOCH

instance (p : Place) (d : Desc) : Decidable (IsIsochIn p d) :=
  inferInstanceAs (Decidable (_ ∧ _))

/-- A frame as declared: its interface, the interface of its format, and its own fields. -/
structure FrameDecl where
  ifc : UInt8
  fmtIfc : Option UInt8
  fmtIx : UInt8
  frameIx : UInt8
  w : UInt16
  h : UInt16
  isMjpeg : Bool
  deriving DecidableEq, Repr

/-- The pick carries the fields of the frame. -/
structure FrameDecl.Describes (f : FrameDecl) (pick : FramePick) : Prop where
  fmtIx : pick.fmtIx = f.fmtIx
  frameIx : pick.frameIx = f.frameIx
  w : pick.w = f.w
  h : pick.h = f.h
  isMjpeg : pick.isMjpeg = f.isMjpeg

/-- The frame that a descriptor declares. -/
def frameDecl (p : Place) (d : Desc) : FrameDecl where
  ifc := p.ctx.curIfcNum
  fmtIfc := p.fmtIfc
  fmtIx := p.ctx.curFmtIx
  frameIx := d.byte 3
  w := d.half 5
  h := d.half 7
  isMjpeg := d.byte 2 = VS_FRAME_MJPEG

/-- The endpoint that a descriptor declares. -/
def epDecl (p : Place) (d : Desc) : Candidate :=
  ⟨p.ctx.curAlt, d.byte 2 &&& 0x0F, d.half 4, p.ctx.curIfcNum⟩

/-- The frames of the VideoStreaming interfaces. -/
def frames (xs : List (Place × Desc)) : List FrameDecl :=
  xs.filterMap fun x => if IsVsFrame x.1 x.2 then some (frameDecl x.1 x.2) else none

/-- The isochronous IN endpoints of the VideoStreaming interfaces. -/
def isochIns (xs : List (Place × Desc)) : List Candidate :=
  xs.filterMap fun x => if IsIsochIn x.1 x.2 then some (epDecl x.1 x.2) else none

/-! ### One turn of the stream scan -/

theorem cs_ne_interface : CS_INTERFACE ≠ USB_DT_INTERFACE := by decide

theorem endpoint_ne_interface : USB_DT_ENDPOINT ≠ USB_DT_INTERFACE := by decide

theorem endpoint_ne_cs : USB_DT_ENDPOINT ≠ CS_INTERFACE := by decide

theorem parseVsFrame_other (hd : d.Within) {st : UInt8}
    (h : ¬ (26 ≤ d.len ∧ (st = VS_FRAME_MJPEG ∨ st = VS_FRAME_UNCOMPRESSED)))
    (fmtIx : UInt8) (prefTicks : UInt32) : parseVsFrame d st fmtIx prefTicks = .ok none := by
  unfold parseVsFrame
  split
  · rfl
  · rename_i hst
    have hlen : ¬ 26 ≤ d.len := fun hlen => h ⟨hlen, not_not.mp hst⟩
    have hlast : d.u8 25 = .ok none := by rw [hd.u8, if_neg (by omega)]
    rw [hd.u8, hd.u16le, hd.u16le, hd.u32le, hlast]
    split <;> split <;> split <;> split <;> rfl

/-- A complete frame descriptor yields its fields, if its interval can be chosen; the chosen
interval is kept. -/
theorem parseVsFrame_eq (hd : d.Within) {st : UInt8} (hlen : 26 ≤ d.len)
    (hst : st = VS_FRAME_MJPEG ∨ st = VS_FRAME_UNCOMPRESSED) (fmtIx : UInt8)
    (prefTicks : UInt32) :
    ∃ ival : UInt32 → UInt32, (∀ chosen > 0, ival chosen = chosen) ∧
      parseVsFrame d st fmtIx prefTicks =
        (chooseFrameInterval d (d.word 21) (d.byte 25) prefTicks).map fun chosen =>
          some ⟨fmtIx, d.byte 3, d.half 5, d.half 7, ival chosen, st = VS_FRAME_MJPEG⟩ := by
  obtain ⟨minIval, hmin⟩ := minInterval_ok hd (d.word 21) (d.byte 25)
  refine ⟨fun chosen => if chosen > 0 then chosen else if minIval > 0 then minIval else d.word 21,
    fun chosen hpos => if_pos hpos, ?_⟩
  unfold parseVsFrame
  rw [if_neg (not_not.mpr hst), hd.u8, hd.u16le, hd.u16le, hd.u32le, hd.u8,
    if_pos (show 3 < d.len by omega), if_pos (show 5 + 2 ≤ d.len by omega),
    if_pos (show 7 + 2 ≤ d.len by omega), if_pos (show 21 + 4 ≤ d.len by omega),
    if_pos (show 25 < d.len by omega)]
  change (minInterval d (d.word 21) (d.byte 25)).bind _ = _
  rw [hmin]
  change (logIntervals d (d.word 21) minIval (d.byte 25)).bind _ = _
  rw [logIntervals_ok hd]
  change (chooseFrameInterval d (d.word 21) (d.byte 25) prefTicks).bind _ = _
  cases chooseFrameInterval d (d.word 21) (d.byte 25) prefTicks <;> rfl

variable {p : Place} {s : VsState} {prefs : UvcPrefs}

theorem IsVsFrame.next (hf : IsVsFrame p d) : p.next d = p := by
  obtain ⟨hty, -, -, hst⟩ := hf
  unfold Place.next
  rw [if_neg fun hif => cs_ne_interface (hty.symm.trans hif.1), if_neg]
  rintro ⟨-, -, -, hfmt⟩
  rcases hst with hst | hst <;> rw [hst] at hfmt <;> revert hfmt <;> decide

theorem IsIsochIn.next (he : IsIsochIn p d) : p.next d = p := by
  have hty := he.1
  unfold Place.next
  rw [if_neg fun hif => endpoint_ne_interface (hty.symm.trans hif.1),
    if_neg fun hcs => endpoint_ne_cs (hty.symm.trans hcs.1)]

theorem IsVsFrame.not_isochIn (hf : IsVsFrame p d) : ¬ IsIsochIn p d := by
  intro he
  exact absurd (hf.1.symm.trans he.1) (by decide)

/-- A turn on a frame descriptor is the choice of its interval, and an offer. -/
theorem vsStep_frame (hd : d.Within) (hctx : s.ctx = p.ctx) (hf : IsVsFrame p d) (checks : Bool)
    (prefs : UvcPrefs) :
    (toUvcTicks prefs.frameInterval ≠ 0 ∧ d.CrossedRange ∧
      vsStep checks prefs d s = .error .clamp) ∨
    (¬ (toUvcTicks prefs.frameInterval ≠ 0 ∧ d.CrossedRange) ∧
      ∃ pick, (frameDecl p d).Describes pick ∧
        vsStep checks prefs d s = s.offer checks prefs pick) := by
  obtain ⟨hty, hvs, hlen, hst⟩ := hf
  have hformat : s.ctx.format d (d.byte 2) = .ok s.ctx := by
    unfold Ctx.format
    rw [if_neg]
    · rfl
    · intro hfmt
      rcases hst with hst | hst <;> rw [hst] at hfmt <;> revert hfmt <;> decide
  obtain ⟨ival, -, hparse⟩ :=
    parseVsFrame_eq hd hlen hst p.ctx.curFmtIx (toUvcTicks prefs.frameInterval)
  have hturn : vsStep checks prefs d s =
      (parseVsFrame d (d.byte 2) p.ctx.curFmtIx (toUvcTicks prefs.frameInterval)).bind fun pick =>
        pick.elim (.ok s) (s.offer checks prefs) := by
    unfold vsStep
    rw [hd.ty]
    change (if d.byte 1 = USB_DT_INTERFACE ∧ d.len ≥ 9 then _ else _) = _
    rw [if_neg fun hif => cs_ne_interface (hty.symm.trans hif.1), if_pos ⟨hty, hctx ▸ hvs⟩, hd.u8Or,
      if_pos (show 2 < d.len by omega)]
    change (s.ctx.format d (d.byte 2)).bind _ = _
    rw [hformat, ← hctx]
    change Except.bind (parseVsFrame d (d.byte 2) s.ctx.curFmtIx _) _ = _
    cases parseVsFrame d (d.byte 2) s.ctx.curFmtIx (toUvcTicks prefs.frameInterval) with
    | error e => rfl
    | ok pick => cases pick <;> rfl
  rw [hturn, hparse]
  by_cases hr : toUvcTicks prefs.frameInterval ≠ 0 ∧ d.CrossedRange
  · refine .inl ⟨hr.1, hr.2, ?_⟩
    rw [chooseFrameInterval_crossed hd hr.1 hr.2]
    rfl
  · obtain ⟨chosen, hchosen⟩ := chooseFrameInterval_ok hd hr (d.word 21)
    refine .inr ⟨hr, ⟨p.ctx.curFmtIx, d.byte 3, d.half 5, d.half 7, ival chosen,
      d.byte 2 = VS_FRAME_MJPEG⟩, ⟨rfl, rfl, rfl, rfl, rfl⟩, ?_⟩
    rw [hchosen]
    rfl

theorem vsStep_endpoint (hd : d.Within) (hctx : s.ctx = p.ctx) (he : IsIsochIn p d)
    (checks : Bool) :
    vsStep checks prefs d s = .ok { s with isoch := s.isoch.keep (epDecl p d) } := by
  obtain ⟨hty, hvs, hlen, hin, hattr⟩ := he
  have hconsider : s.isoch.consider d s.ctx.curAlt s.ctx.curIfcNum =
      .ok (s.isoch.keep (epDecl p d)) := by
    unfold IsochCandidates.consider
    rw [hd.u8, hd.u8, hd.u16le, if_pos (show 2 < d.len by omega),
      if_pos (show 3 < d.len by omega), if_pos (show 4 + 2 ≤ d.len by omega)]
    change (if d.byte 2 &&& 0x80 = 0 then _ else _) = _
    rw [if_neg hin, if_pos hattr, hctx]
    rfl
  unfold vsStep
  rw [hd.ty]
  change (if d.byte 1 = USB_DT_INTERFACE ∧ d.len ≥ 9 then _ else _) = _
  rw [if_neg fun hif => endpoint_ne_interface (hty.symm.trans hif.1),
    if_neg fun hcs => endpoint_ne_cs (hty.symm.trans hcs.1), if_pos ⟨hty, hctx ▸ hvs⟩]
  change (s.isoch.consider d s.ctx.curAlt s.ctx.curIfcNum).bind _ = _
  rw [hconsider]
  rfl

theorem consider_other (hd : d.Within) (c : IsochCandidates) (curAlt curIfcNum : UInt8)
    (h : ¬ (6 ≤ d.len ∧ d.byte 2 &&& 0x80 ≠ 0 ∧ d.byte 3 &&& 0x03 = ENDPOINT_ATTR_ISOCH)) :
    c.consider d curAlt curIfcNum = .ok c := by
  unfold IsochCandidates.consider
  by_cases hlen : 6 ≤ d.len
  · rw [hd.u8, hd.u8, hd.u16le, if_pos (show 2 < d.len by omega),
      if_pos (show 3 < d.len by omega), if_pos (show 4 + 2 ≤ d.len by omega)]
    change (if d.byte 2 &&& 0x80 = 0 then _ else _) = _
    split
    · rfl
    · rename_i hin
      rw [if_neg fun hattr => h ⟨hlen, hin, hattr⟩]
      rfl
  · have hlast : d.u16le 4 = .ok none := by rw [hd.u16le, if_neg (by omega)]
    rw [hd.u8, hd.u8, hlast]
    split <;> split <;> rfl

theorem enter_eq (hd : d.Within) (hlen : 9 ≤ d.len) (c : Ctx) :
    c.enter d = .ok { c with
      curIfcNum := d.byte 2, curAlt := d.byte 3, curIfcClass := d.byte 5, curIfcSub := d.byte 6 } := by
  unfold Ctx.enter
  rw [hd.u8Or, hd.u8Or, hd.u8Or, hd.u8Or, if_pos (show 2 < d.len by omega),
    if_pos (show 3 < d.len by omega), if_pos (show 5 < d.len by omega),
    if_pos (show 6 < d.len by omega)]
  rfl

theorem format_eq (hd : d.Within) (c : Ctx) :
    c.format d (if 2 < d.len then d.byte 2 else 0) =
      .ok (if 4 ≤ d.len ∧ (d.byte 2 = VS_FORMAT_MJPEG ∨ d.byte 2 = VS_FORMAT_UNCOMPRESSED)
        then { c with curFmtIx := d.byte 3 } else c) := by
  unfold Ctx.format
  rw [hd.u8]
  by_cases hlen : 4 ≤ d.len
  · rw [if_pos (show 2 < d.len by omega), if_pos (show 3 < d.len by omega)]
    by_cases hst : d.byte 2 = VS_FORMAT_MJPEG ∨ d.byte 2 = VS_FORMAT_UNCOMPRESSED
    · rw [if_pos hst, if_pos ⟨hlen, hst⟩]
      rfl
    · rw [if_neg hst, if_neg fun h => hst h.2]
      rfl
  · have hshort : ¬ (4 ≤ d.len ∧
        (d.byte 2 = VS_FORMAT_MJPEG ∨ d.byte 2 = VS_FORMAT_UNCOMPRESSED)) := fun h => hlen h.1
    rw [if_neg (show ¬ 3 < d.len by omega), if_neg hshort]
    split <;> split <;> rfl

theorem next_ctx_cs (hcs : d.byte 1 = CS_INTERFACE ∧ p.ctx.isVs) :
    (p.next d).ctx =
      if 4 ≤ d.len ∧ (d.byte 2 = VS_FORMAT_MJPEG ∨ d.byte 2 = VS_FORMAT_UNCOMPRESSED)
        then { p.ctx with curFmtIx := d.byte 3 } else p.ctx := by
  unfold Place.next
  rw [if_neg fun hif => cs_ne_interface (hcs.1.symm.trans hif.1)]
  split
  · rename_i h
    rw [if_pos h.2.2]
  · rename_i h
    rw [if_neg fun hfmt => h ⟨hcs.1, hcs.2, hfmt⟩]

/-- A turn on any other descriptor moves the place and nothing else. -/
theorem vsStep_other (hd : d.Within) (hctx : s.ctx = p.ctx) (hf : ¬ IsVsFrame p d)
    (he : ¬ IsIsochIn p d) (checks : Bool) :
    vsStep checks prefs d s = .ok { s with ctx := (p.next d).ctx } := by
  unfold vsStep
  rw [hd.ty]
  change (if d.byte 1 = USB_DT_INTERFACE ∧ d.len ≥ 9 then _ else _) = _
  by_cases hif : d.byte 1 = USB_DT_INTERFACE ∧ 9 ≤ d.len
  · rw [if_pos hif, enter_eq hd hif.2, hctx]
    unfold Place.next
    rw [if_pos hif]
    rfl
  rw [if_neg hif, hctx]
  by_cases hcs : d.byte 1 = CS_INTERFACE ∧ p.ctx.isVs
  · have hframe : ¬ (26 ≤ d.len ∧ ((if 2 < d.len then d.byte 2 else 0) = VS_FRAME_MJPEG ∨
        (if 2 < d.len then d.byte 2 else 0) = VS_FRAME_UNCOMPRESSED)) := by
      rintro ⟨hlen, hst⟩
      rw [if_pos (show 2 < d.len by omega)] at hst
      exact hf ⟨hcs.1, hcs.2, hlen, hst⟩
    rw [if_pos hcs, hd.u8Or, next_ctx_cs hcs]
    change (p.ctx.format d (if 2 < d.len then d.byte 2 else 0)).bind _ = _
    rw [format_eq hd]
    change (parseVsFrame d (if 2 < d.len then d.byte 2 else 0) _ _).bind _ = _
    rw [parseVsFrame_other hd hframe]
    rfl
  · have hnext : p.next d = p := by
      unfold Place.next
      rw [if_neg hif, if_neg fun hfmt => hcs ⟨hfmt.1, hfmt.2.1⟩]
    rw [if_neg hcs, hnext, ← hctx]
    split
    · rename_i hep
      rw [consider_other hd _ _ _ fun h => he ⟨hep.1, hctx ▸ hep.2, h⟩]
      rfl
    · rfl

end Cvirtos.Usb.Uvc
