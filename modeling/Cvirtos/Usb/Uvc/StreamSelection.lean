import Cvirtos.Usb.Uvc.DescriptorSafety

/-!
# The selected stream

Whether the frame, the endpoint and the alternate settings of a selection belong to one interface
and one endpoint.  The scan collects them apart, so they do exactly when the descriptors make them.

* `selection_coherent_iff` — **when a selection is one stream**;
* `selection_coherent_single` — the selection of a camera with one stream always is;
* `twoStreams_incoherent` — a camera with an MJPEG and an uncompressed stream.
-/

set_option autoImplicit false

namespace Cvirtos.Usb.Uvc

open Cvirtos.Lib Cvirtos.Usb.Dwc2

/-- The selected frame, as its interface would declare it below a format of its own. -/
def UvcStreamSelection.frame (sel : UvcStreamSelection) : FrameDecl where
  ifc := sel.vsInterface
  fmtIfc := some sel.vsInterface
  fmtIx := sel.formatIndex
  frameIx := sel.frameIndex
  w := sel.frameW
  h := sel.frameH
  isMjpeg := sel.isMjpeg

/-- The selected endpoint, in the alternate setting `alt`. -/
def UvcStreamSelection.endpoint (sel : UvcStreamSelection) (alt : UInt8) (mpsRaw : UInt16) :
    Candidate := ⟨alt, sel.epNum, mpsRaw, sel.vsInterface⟩

/-- **One stream**: its interface declares its frame, and it declares its endpoint in the selected
alternate setting and in each of the table. -/
structure Coherent (fs : List FrameDecl) (es : List Candidate) (sel : UvcStreamSelection) :
    Prop where
  frame : sel.frame ∈ fs
  endpoint : sel.endpoint sel.altSetting sel.mpsRaw ∈ es
  alts : ∀ x ∈ sel.isochAlts.toList.take sel.isochAltsCount.toNat, sel.endpoint x.1 x.2 ∈ es

/-- The frames of the preferred kind: MJPEG, if there are any. -/
def preferred (fs : List FrameDecl) : List FrameDecl :=
  if ofKind true fs = [] then ofKind false fs else ofKind true fs

/-- The interface of the first endpoint with the largest packet declares the first frame of the
highest rank, and it declares that endpoint in the alternate setting of each of the first eight. -/
def OneStream (prefs : UvcPrefs) (fs : List FrameDecl) (es : List Candidate) : Prop :=
  ∃ win best, FirstMax (rank prefs) (preferred fs) win ∧ FirstMax Candidate.mps es best ∧
    { win with ifc := best.ifc, fmtIfc := some best.ifc } ∈ fs ∧
    ∀ e ∈ es.take 8, { e with epNum := best.epNum, ifc := best.ifc } ∈ es

/-! ### What is selected -/

variable {prefs : UvcPrefs} {p : Place} {fs : List FrameDecl} {es : List Candidate} {s : VsState}
  {sel : UvcStreamSelection}

/-- The picks of the two kinds, MJPEG first. -/
theorem picked (hinv : ScanInv prefs p fs es s) :
    Option.Rel FrameDecl.Describes (firstMax (rank prefs) (preferred fs))
      (s.mjpegPick.or s.uncompPick) := by
  have hmjpeg := hinv.held true
  have huncomp := hinv.held false
  change Option.Rel _ _ s.mjpegPick at hmjpeg
  change Option.Rel _ _ s.uncompPick at huncomp
  unfold preferred
  by_cases hnone : ofKind true fs = []
  · rw [hnone] at hmjpeg
    cases hpick : s.mjpegPick with
    | none => rw [if_pos hnone]; exact huncomp
    | some pick => rw [hpick] at hmjpeg; cases hmjpeg
  · rw [if_neg hnone]
    cases hpick : s.mjpegPick with
    | none =>
      rw [hpick] at hmjpeg
      cases hmax : firstMax (rank prefs) (ofKind true fs) with
      | none => exact absurd (firstMax_eq_none.mp hmax) hnone
      | some win => rw [hmax] at hmjpeg; cases hmjpeg
    | some pick => rw [hpick] at hmjpeg; exact hmjpeg

/-- **What is selected**: the first frame of the highest rank of the preferred kind, the first
endpoint with the largest packet, and a table of the first eight endpoints. -/
structure Selected (prefs : UvcPrefs) (fs : List FrameDecl) (es : List Candidate) (win : FrameDecl)
    (best : Candidate) (sel : UvcStreamSelection) : Prop where
  frameMax : FirstMax (rank prefs) (preferred fs) win
  endpointMax : FirstMax Candidate.mps es best
  frame : sel.frame = { win with ifc := best.ifc, fmtIfc := some best.ifc }
  endpoint : best = sel.endpoint sel.altSetting sel.mpsRaw
  alts : sel.isochAlts.toList.take sel.isochAltsCount.toNat =
    (es.take 8).map fun e => (e.alt, e.mpsRaw)

theorem select_selected (hinv : ScanInv prefs p fs es s) (hsel : s.select = .ok sel) :
    ∃ win best, Selected prefs fs es win best sel := by
  have hpicked := picked hinv
  have hbest := hinv.best
  have halts := hinv.alts
  have hcount := hinv.count
  unfold VsState.select at hsel
  split at hsel
  · cases hsel
  · rename_i best hb
    split at hsel
    · cases hsel
    · rename_i pick hpick
      rw [hpick] at hpicked
      cases hwin : firstMax (rank prefs) (preferred fs) with
      | none => rw [hwin] at hpicked; cases hpicked
      | some win =>
        rw [hwin] at hpicked
        obtain ⟨hfmt, hframe, hw, hh, hkind⟩ := Option.rel_some_some.mp hpicked
        cases hsel
        refine ⟨win, best, firstMax_eq_some.mp hwin, firstMax_eq_some.mp (hbest.symm.trans hb),
          ?_, rfl, ?_⟩
        · unfold UvcStreamSelection.frame
          rw [hfmt, hframe, hw, hh, hkind]
        · have hsmall : (UInt8.ofNat s.isoch.count).toNat = s.isoch.count := by
            rw [UInt8.toNat_ofNat']
            omega
          rw [hsmall]
          exact halts

/-- The table of a selection is as long as it says. -/
theorem select_count (hinv : ScanInv prefs p fs es s) (hsel : s.select = .ok sel) :
    sel.isochAltsCount.toNat = min 8 es.length := by
  have hcount := hinv.count
  unfold VsState.select at hsel
  split at hsel
  · cases hsel
  · split at hsel
    · cases hsel
    · cases hsel
      rw [UInt8.toNat_ofNat']
      omega

theorem Selected.coherent_iff {win : FrameDecl} {best : Candidate}
    (h : Selected prefs fs es win best sel) : Coherent fs es sel ↔ OneStream prefs fs es := by
  obtain ⟨hwin, hbest, hframe, rfl, halts⟩ := h
  constructor
  · rintro ⟨hmem, -, htable⟩
    refine ⟨win, _, hwin, hbest, hframe ▸ hmem, fun e he => htable (e.alt, e.mpsRaw) ?_⟩
    rw [halts]
    exact List.mem_map_of_mem he
  · rintro ⟨win', best', hwin', hbest', hmem, htable⟩
    obtain rfl := hwin'.unique hwin
    obtain rfl := hbest'.unique hbest
    refine ⟨hframe ▸ hmem, hbest.mem, fun x hx => ?_⟩
    rw [halts] at hx
    obtain ⟨e, he, rfl⟩ := List.mem_map.mp hx
    exact htable e he

/-! ### The selection of a configuration -/

/-- What a selection is made from. -/
theorem parseUvcVideoStream_scan {checks : Bool} {cfg : List UInt8} {cfgTotal : Nat}
    (hsel : parseUvcVideoStream checks cfg cfgTotal prefs = .ok (.ok sel)) :
    ∃ s p, ScanInv prefs p (frames (places .new (scanned cfg cfgTotal)))
      (isochIns (places .new (scanned cfg cfgTotal))) s ∧ s.select = .ok sel := by
  rcases parseUvcVideoStream_eq checks cfg cfgTotal prefs with ⟨-, e, heq⟩ | heq
  · rw [hsel] at heq
    cases heq
  · rw [hsel] at heq
    cases hrun : vsRun checks prefs (scanned cfg cfgTotal) .new with
    | error c => rw [hrun] at heq; cases heq
    | ok s =>
      rw [hrun] at heq
      obtain ⟨q, hinv⟩ :=
        run_sound (scanned_within cfg cfgTotal) (.new prefs) (fun _ => ranksFit_nil) hrun
      exact ⟨s, q, hinv, (Except.ok.inj heq).symm⟩

theorem parseUvcVideoStream_selected {checks : Bool} {cfg : List UInt8} {cfgTotal : Nat}
    (hsel : parseUvcVideoStream checks cfg cfgTotal prefs = .ok (.ok sel)) :
    ∃ win best, Selected prefs (frames (places .new (scanned cfg cfgTotal)))
      (isochIns (places .new (scanned cfg cfgTotal))) win best sel := by
  obtain ⟨s, p, hinv, hselect⟩ := parseUvcVideoStream_scan hsel
  exact select_selected hinv hselect

/-- **When a selection is one stream.** -/
theorem selection_coherent_iff (checks : Bool) (cfg : List UInt8) (cfgTotal : Nat)
    (prefs : UvcPrefs) (sel : UvcStreamSelection)
    (hsel : parseUvcVideoStream checks cfg cfgTotal prefs = .ok (.ok sel)) :
    Coherent (frames (places .new (scanned cfg cfgTotal)))
        (isochIns (places .new (scanned cfg cfgTotal))) sel ↔
      OneStream prefs (frames (places .new (scanned cfg cfgTotal)))
        (isochIns (places .new (scanned cfg cfgTotal))) := by
  obtain ⟨win, best, h⟩ := parseUvcVideoStream_selected hsel
  exact h.coherent_iff

/-- An MJPEG stream on interface 1: endpoint 1, with 512 bytes a packet. -/
def mjpegStream : List UInt8 :=
  [9, 4, 1, 0, 0, 0x0E, 2, 0, 0] ++ [11, 0x24, 6, 1, 1, 1, 1, 0, 0, 0, 0] ++
  [30, 0x24, 7, 1, 0, 0x80, 2, 0xE0, 1, 0, 0, 0, 0, 0, 0, 0, 0, 0, 0, 0, 0,
    0x15, 0x16, 5, 0, 1, 0x15, 0x16, 5, 0] ++
  [9, 4, 1, 1, 1, 0x0E, 2, 0, 0] ++ [7, 5, 0x81, 5, 0, 2, 1]

/-- An uncompressed stream on interface 2: endpoint 2, with 1024 bytes a packet. -/
def uncompressedStream : List UInt8 :=
  [9, 4, 2, 0, 0, 0x0E, 2, 0, 0] ++ [11, 0x24, 4, 1, 1, 1, 1, 0, 0, 0, 0] ++
  [30, 0x24, 5, 2, 0, 0x40, 1, 0xF0, 0, 0, 0, 0, 0, 0, 0, 0, 0, 0, 0, 0, 0,
    0x15, 0x16, 5, 0, 1, 0x15, 0x16, 5, 0] ++
  [9, 4, 2, 1, 1, 0x0E, 2, 0, 0] ++ [7, 5, 0x82, 5, 0, 4, 1]

/-- A camera with one stream. -/
def oneStream : List UInt8 := [9, 2, 75, 0, 2, 1, 0, 0x80, 50] ++ mjpegStream

/-- A camera with both. -/
def twoStreams : List UInt8 :=
  [9, 2, 141, 0, 3, 1, 0, 0x80, 50] ++ mjpegStream ++ uncompressedStream

/-- The table of the alternate 1, of 512 bytes. -/
def firstAlt : Vector (UInt8 × UInt16) 8 := (Vector.replicate 8 (0, 0)).set 0 (1, 512)

/-- 640 by 480 in MJPEG, from endpoint `ep` of interface `ep`. -/
def mjpegFrom (ep : UInt8) (mpsRaw : UInt16) (count : UInt8)
    (alts : Vector (UInt8 × UInt16) 8) : UvcStreamSelection where
  vsInterface := ep
  altSetting := 1
  epNum := ep
  mpsRaw := mpsRaw
  formatIndex := 1
  frameIndex := 1
  frameInterval := 33333300
  isMjpeg := true
  frameW := 640
  frameH := 480
  negotiatedPayloadSize := 0
  isochAltsCount := count
  isochAlts := alts

theorem selection_coherent_iff_oneStream :
    Coherent (frames (places .new (scanned oneStream 75)))
        (isochIns (places .new (scanned oneStream 75)))
        (mjpegFrom 1 512 1 firstAlt) ↔
      OneStream vgaPrefs (frames (places .new (scanned oneStream 75)))
        (isochIns (places .new (scanned oneStream 75))) :=
  selection_coherent_iff false oneStream 75 vgaPrefs _ (by decide +kernel)

/-- With both streams, the frame is of interface 1 and the endpoint of interface 2, which declares
no such frame. -/
theorem twoStreams_incoherent : ∃ sel,
    parseUvcVideoStream false twoStreams 141 vgaPrefs = .ok (.ok sel) ∧
    ¬ Coherent (frames (places .new (scanned twoStreams 141)))
      (isochIns (places .new (scanned twoStreams 141))) sel := by
  refine ⟨mjpegFrom 2 1024 2 (firstAlt.set 1 (1, 1024)),
    by decide +kernel, fun h => ?_⟩
  exact absurd h.frame (by decide +kernel)

/-- **A camera with one stream**: the frames and the endpoints of a single interface, and a single
endpoint number. -/
theorem selection_coherent_single {checks : Bool} {cfg : List UInt8} {cfgTotal : Nat} {i n : UInt8}
    (hfs : ∀ f ∈ frames (places .new (scanned cfg cfgTotal)), f.ifc = i ∧ f.fmtIfc = some i)
    (hes : ∀ e ∈ isochIns (places .new (scanned cfg cfgTotal)), e.ifc = i ∧ e.epNum = n)
    (hsel : parseUvcVideoStream checks cfg cfgTotal prefs = .ok (.ok sel)) :
    Coherent (frames (places .new (scanned cfg cfgTotal)))
      (isochIns (places .new (scanned cfg cfgTotal))) sel := by
  obtain ⟨win, best, h⟩ := parseUvcVideoStream_selected hsel
  rw [h.coherent_iff]
  have hwin : win ∈ frames (places .new (scanned cfg cfgTotal)) := by
    have hmem := h.frameMax.mem
    unfold preferred ofKind at hmem
    split at hmem <;> exact List.mem_of_mem_filter hmem
  obtain ⟨hbi, hbn⟩ := hes best h.endpointMax.mem
  obtain ⟨hwi, hwf⟩ := hfs win hwin
  refine ⟨win, best, h.frameMax, h.endpointMax, ?_, fun e he => ?_⟩
  · rw [hbi, ← hwf, ← hwi]
    exact hwin
  · have hmem := List.mem_of_mem_take he
    obtain ⟨hei, hen⟩ := hes e hmem
    rw [hbn, hbi, ← hei, ← hen]
    exact hmem

end Cvirtos.Usb.Uvc
