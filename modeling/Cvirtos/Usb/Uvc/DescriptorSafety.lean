import Cvirtos.Usb.Uvc.StreamScan

/-!
# Crashes of the descriptor parsers

* `parsing_safe_iff` — **the parsers return exactly when** no frame offers a crossed range of
  intervals for a preference to be met in, and no two frames of a kind have to be ranked of which one
  is larger than an `i32`;
* `crossedRange_crashes` — one frame descriptor whose least interval exceeds its largest.
-/

set_option autoImplicit false

namespace Cvirtos.Usb.Uvc

open Cvirtos.Lib Cvirtos.Usb.Dwc2

/-! ### The control entities -/

variable {d : Desc}

theorem Desc.Within.succeeds_u8 (hd : d.Within) (off : Nat) : Succeeds (d.u8 off) :=
  ⟨_, hd.u8 off⟩

theorem Desc.Within.succeeds_u8Or (hd : d.Within) (off : Nat) (dflt : UInt8) :
    Succeeds (d.u8Or off dflt) := ⟨_, hd.u8Or off dflt⟩

theorem succeeds_bmControls (hd : d.Within) (off cmax : Nat) : Succeeds (bmControls d off cmax) := by
  refine .forRange (fun k bm => (hd.succeeds_u8 (off + k)).bind fun b => ?_) 0
  cases b with
  | none => exact .pure bm
  | some b => exact .pure _

theorem succeeds_inputTerminal (hd : d.Within) (s : VcState) : Succeeds (s.inputTerminal d) := by
  refine (hd.succeeds_u8Or 3 0).bind fun id => ?_
  refine (Succeeds.map ⟨_, hd.u16le 4⟩ _).bind fun tt => ?_
  refine .ite (fun _ => ?_) fun _ => .pure s
  refine (hd.succeeds_u8Or 14 0).bind fun csize => ?_
  exact (succeeds_bmControls hd 15 _).bind fun bm => .pure _

theorem succeeds_processingUnit (hd : d.Within) (s : VcState) :
    Succeeds (s.processingUnit d) := by
  refine (hd.succeeds_u8Or 3 0).bind fun id => ?_
  refine (hd.succeeds_u8Or 7 0).bind fun csize => ?_
  exact (succeeds_bmControls hd 8 _).bind fun bm => .pure _

/-- A turn of the scan for control entities never crashes. -/
theorem succeeds_vcStep (hd : d.Within) (s : VcState) : Succeeds (vcStep d s) := by
  refine Succeeds.bind ⟨_, hd.ty⟩ fun ty => .ite (fun _ => ?_) fun _ => .ite (fun _ => ?_) fun _ => .pure s
  · refine (hd.succeeds_u8Or 2 0).bind fun curIfcNum => ?_
    refine (hd.succeeds_u8Or 5 _).bind fun curIfcClass => ?_
    refine (hd.succeeds_u8Or 6 _).bind fun curIfcSub => ?_
    exact .ite (fun _ => .pure _) fun _ => .pure _
  · refine (hd.succeeds_u8Or 2 0).bind fun st => ?_
    exact .ite (fun _ => succeeds_inputTerminal hd s) fun _ =>
      .ite (fun _ => succeeds_processingUnit hd s) fun _ => .pure s

/-! ### The parsers -/

theorem byteAt_first {cfg : List UInt8} {len : Nat} (hlen : ¬ len < 12) (hle : len ≤ cfg.length) :
    byteAt cfg 0 = .ok (cfg.getD 0 0) := by
  unfold byteAt
  rw [List.getD_eq_getElem?_getD, List.getElem?_eq_getElem (by omega)]
  rfl

/-- The scan of a parser, as a fold over the descriptors. -/
theorem scan_eq {σ : Type} (step : Desc → σ → Checked σ) {cfg : List UInt8} {cfgTotal : Nat}
    (hlen : ¬ min cfgTotal cfg.length < 12)
    (hfirst : ¬ (cfg.getD 0 0).toNat ≥ min cfgTotal cfg.length) (s : σ) :
    scanDescs step cfg (min cfgTotal cfg.length) (cfg.getD 0 0).toNat s =
      (scanned cfg cfgTotal).foldlM (fun s d => step d s) s := by
  unfold scanned
  dsimp only
  rw [if_neg (not_or.mpr ⟨hlen, hfirst⟩)]
  exact scanDescs_eq ..

/-- The control entities are what the scan holds behind the last descriptor. -/
theorem parseUvcControlEntities_run (cfg : List UInt8) (cfgTotal : Nat) :
    parseUvcControlEntities cfg cfgTotal =
      ((scanned cfg cfgTotal).foldlM (fun s d => vcStep d s) .new).map fun s =>
        if s.foundVc then some s.out else none := by
  unfold parseUvcControlEntities
  dsimp only
  by_cases hlen : min cfgTotal cfg.length < 12
  · rw [if_pos hlen, show scanned cfg cfgTotal = [] from if_pos (.inl hlen)]
    rfl
  rw [if_neg hlen, byteAt_first hlen (Nat.min_le_right _ _)]
  change (if (cfg.getD 0 0).toNat ≥ _ then _ else _) = _
  by_cases hfirst : (cfg.getD 0 0).toNat ≥ min cfgTotal cfg.length
  · rw [if_pos hfirst, show scanned cfg cfgTotal = [] from if_pos (.inr hfirst)]
    rfl
  rw [if_neg hfirst, scan_eq vcStep hlen hfirst]
  cases (scanned cfg cfgTotal).foldlM (fun s d => vcStep d s) VcState.new <;> rfl

/-- The control entities are looked for without a crash in every configuration. -/
theorem parseUvcControlEntities_ok (cfg : List UInt8) (cfgTotal : Nat) :
    Succeeds (parseUvcControlEntities cfg cfgTotal) := by
  rw [parseUvcControlEntities_run]
  refine (Succeeds.foldlM (fun d hd s => ?_) _).map _
  exact succeeds_vcStep (scanned_within cfg cfgTotal d hd) s

/-- The stream selection is an early failure, or what the loop finds. -/
theorem parseUvcVideoStream_eq (checks : Bool) (cfg : List UInt8) (cfgTotal : Nat)
    (prefs : UvcPrefs) :
    (scanned cfg cfgTotal = [] ∧
      ∃ e, parseUvcVideoStream checks cfg cfgTotal prefs = .ok (.error e)) ∨
    parseUvcVideoStream checks cfg cfgTotal prefs =
      (vsRun checks prefs (scanned cfg cfgTotal) .new).map VsState.select := by
  unfold parseUvcVideoStream
  by_cases hlen : min cfgTotal cfg.length < 12
  · refine .inl ⟨if_pos (.inl hlen), _, if_pos hlen⟩
  dsimp only
  rw [if_neg hlen, byteAt_first hlen (Nat.min_le_right _ _)]
  by_cases hfirst : (cfg.getD 0 0).toNat ≥ min cfgTotal cfg.length
  · exact .inl ⟨if_pos (.inr hfirst), _, if_pos hfirst⟩
  · refine .inr ((if_neg hfirst).trans ?_)
    rw [scan_eq _ hlen hfirst]
    rfl

theorem parseUvcVideoStream_ok_iff (checks : Bool) (cfg : List UInt8) (cfgTotal : Nat)
    (prefs : UvcPrefs) : Succeeds (parseUvcVideoStream checks cfg cfgTotal prefs) ↔
      RunSafe checks prefs .new [] (scanned cfg cfgTotal) := by
  rw [← run_ok_iff (scanned_within cfg cfgTotal) (.new prefs) fun _ => ranksFit_nil]
  rcases parseUvcVideoStream_eq checks cfg cfgTotal prefs with ⟨hnone, e, heq⟩ | heq
  · rw [heq, hnone]
    exact ⟨fun _ => ⟨_, rfl⟩, fun _ => ⟨_, rfl⟩⟩
  · rw [heq]
    constructor
    · rintro ⟨r, hr⟩
      cases hrun : vsRun checks prefs (scanned cfg cfgTotal) .new with
      | error c => rw [hrun] at hr; cases hr
      | ok s => exact ⟨s, rfl⟩
    · rintro ⟨s, hs⟩
      rw [hs]
      exact ⟨_, rfl⟩

/-- **When the parsers return**, in arithmetic that does not overflow. -/
theorem parsing_safe_iff (cfg : List UInt8) (cfgTotal : Nat) (prefs : UvcPrefs) :
    (Succeeds (parseUvcVideoStream true cfg cfgTotal prefs) ∧
      Succeeds (parseUvcControlEntities cfg cfgTotal)) ↔
    (toUvcTicks prefs.frameInterval = 0 ∨ ∀ x ∈ places .new (scanned cfg cfgTotal),
      IsVsFrame x.1 x.2 → ¬ x.2.CrossedRange) ∧
    RanksFit (frames (places .new (scanned cfg cfgTotal))) := by
  rw [parseUvcVideoStream_ok_iff]
  constructor
  · rintro ⟨⟨hturns, hranks⟩, -⟩
    refine ⟨?_, hranks rfl⟩
    by_cases hpref : toUvcTicks prefs.frameInterval = 0
    · exact .inl hpref
    · exact .inr fun x hx hf hr => hturns x hx hf ⟨hpref, hr⟩
  · rintro ⟨hturns, hranks⟩
    refine ⟨⟨fun x hx hf hr => ?_, fun _ => hranks⟩, parseUvcControlEntities_ok cfg cfgTotal⟩
    rcases hturns with hpref | hturns
    · exact hr.1 hpref
    · exact hturns x hx hf hr.2

/-- A VideoStreaming interface with one frame, whose intervals range from 33.3 ms to 16.7 ms. -/
def crossedRange : List UInt8 :=
  [9, 2, 56, 0, 1, 1, 0, 0x80, 50] ++ [9, 4, 1, 0, 0, 0x0E, 2, 0, 0] ++
  [38, 0x24, 7, 1, 0, 0x80, 2, 0xE0, 1, 0, 0, 0, 0, 0, 0, 0, 0, 0, 0, 0, 0,
    0x15, 0x16, 5, 0, 0, 0x15, 0x16, 5, 0, 0x0A, 0x8B, 2, 0, 0, 0, 0, 0]

/-- Two MJPEG frames of 65535 by 65535. -/
def hugeFrames : List UInt8 :=
  [9, 2, 70, 0, 1, 1, 0, 0x80, 50] ++ [9, 4, 1, 0, 0, 0x0E, 2, 0, 0] ++
  [26, 0x24, 7, 1, 0, 0xFF, 0xFF, 0xFF, 0xFF, 0, 0, 0, 0, 0, 0, 0, 0, 0, 0, 0, 0,
    0x15, 0x16, 5, 0, 1] ++
  [26, 0x24, 7, 2, 0, 0xFF, 0xFF, 0xFF, 0xFF, 0, 0, 0, 0, 0, 0, 0, 0, 0, 0, 0, 0,
    0x15, 0x16, 5, 0, 1]

/-- 640 by 480 at 30 frames a second. -/
def vgaPrefs : UvcPrefs := ⟨640, 480, 33333300⟩

/-- The crossed range crashes every build, and the huge frames a build with overflow checks. -/
theorem crossedRange_crashes :
    parseUvcVideoStream false crossedRange 56 vgaPrefs = .error .clamp ∧
    parseUvcVideoStream true hugeFrames 70 vgaPrefs = .error .overflow ∧
    ¬ ∀ cfg cfgTotal prefs, Succeeds (parseUvcVideoStream true cfg cfgTotal prefs) ∧
      Succeeds (parseUvcControlEntities cfg cfgTotal) := by
  have hcrash : parseUvcVideoStream true crossedRange 56 vgaPrefs = .error .clamp := by
    decide +kernel
  refine ⟨by decide +kernel, by decide +kernel, fun hall => ?_⟩
  obtain ⟨⟨r, hr⟩, -⟩ := hall crossedRange 56 vgaPrefs
  rw [hcrash] at hr
  cases hr

end Cvirtos.Usb.Uvc
