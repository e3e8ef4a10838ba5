import Cvirtos.Usb.Uvc.StreamSelection

/-!
# The preferred frame

The frame that the preferences ask for: the exact size; failing that, the largest that is not
larger; failing that, the least excess.  The score of the code ranks a smaller frame higher on both
sides of the preferred area, and gives the exact size a fixed score.

* `Documented` — the choice the preferences describe;
* `rank_le_iff` — a score in terms of the area;
* `frameChoice_iff` — **when the selected frame is that choice**.
-/

set_option autoImplicit false

namespace Cvirtos.Usb.Uvc

open Cvirtos.Lib Cvirtos.Usb.Dwc2

def FrameDecl.area (f : FrameDecl) : Nat := f.w.toNat * f.h.toNat

def UvcPrefs.area (prefs : UvcPrefs) : Nat := prefs.frameW.toNat * prefs.frameH.toNat

def FrameDecl.Exact (prefs : UvcPrefs) (f : FrameDecl) : Prop :=
  f.w = prefs.frameW ∧ f.h = prefs.frameH

instance (prefs : UvcPrefs) (f : FrameDecl) : Decidable (f.Exact prefs) :=
  inferInstanceAs (Decidable (_ ∧ _))

/-- The choice among `fs` that the preferences describe. -/
def Documented (prefs : UvcPrefs) (fs : List FrameDecl) (f : FrameDecl) : Prop :=
  if ∃ g ∈ fs, g.Exact prefs then f.Exact prefs
  else if ∃ g ∈ fs, g.area ≤ prefs.area then
    f.area ≤ prefs.area ∧ ∀ g ∈ fs, g.area ≤ prefs.area → g.area ≤ f.area
  else ∀ g ∈ fs, f.area ≤ g.area

instance (prefs : UvcPrefs) (fs : List FrameDecl) (f : FrameDecl) :
    Decidable (Documented prefs fs f) := by
  unfold Documented
  infer_instance

/-- The selection carries a frame of the preferred kind that is the described choice. -/
def FollowsPreference (prefs : UvcPrefs) (fs : List FrameDecl) (sel : UvcStreamSelection) : Prop :=
  ∃ f ∈ preferred fs, f.fmtIx = sel.formatIndex ∧ f.frameIx = sel.frameIndex ∧
    f.w = sel.frameW ∧ f.h = sel.frameH ∧ f.isMjpeg = sel.isMjpeg ∧
    Documented prefs (preferred fs) f

instance (prefs : UvcPrefs) (fs : List FrameDecl) (sel : UvcStreamSelection) :
    Decidable (FollowsPreference prefs fs sel) :=
  inferInstanceAs (Decidable (∃ f ∈ preferred fs, _))

/-- A frame of another size that scores at most `n`. -/
def Yields (prefs : UvcPrefs) (n : Nat) (f : FrameDecl) : Prop :=
  min prefs.area (2 ^ 31 - 1) ≤ f.area + n ∧
    (f.area ≤ prefs.area + 2 ^ 31 ∨ prefs.area + 2 ^ 32 ≤ f.area + n)

/-- The exact size is offered and outscores the others; or it is not, no two frames of different
areas fit the preferred one, and no frame is so large that its score wraps while another's does
not. -/
def PreferenceKept (prefs : UvcPrefs) (fs : List FrameDecl) : Prop :=
  (∃ before f after, fs = before ++ f :: after ∧ f.Exact prefs ∧
    (∀ g ∈ before, ¬ g.Exact prefs ∧ Yields prefs 1999999 g) ∧
    ∀ g ∈ after, ¬ g.Exact prefs → Yields prefs 2000000 g) ∨
  ((∀ f ∈ fs, ¬ f.Exact prefs) ∧
    (∀ f ∈ fs, ∀ g ∈ fs, f.area ≤ prefs.area → g.area ≤ prefs.area → f.area = g.area) ∧
    ((∀ f ∈ fs, f.area ≤ prefs.area + 2 ^ 31) ∨ ∀ f ∈ fs, prefs.area + 2 ^ 31 < f.area))

/-! ### Scores -/

variable {prefs : UvcPrefs} {f g : FrameDecl} {fs : List FrameDecl}

theorem area_lt (f : FrameDecl) : f.area < 2 ^ 32 := by
  have hw := f.w.toNat_lt
  have hh := f.h.toNat_lt
  have := Nat.mul_le_mul (Nat.le_of_lt_succ hw) (Nat.le_of_lt_succ hh)
  unfold FrameDecl.area
  omega

theorem prefArea_eq (prefs : UvcPrefs) :
    prefArea prefs = ((min prefs.area (2 ^ 31 - 1) : Nat) : Int) := by
  have hcast : (prefs.frameW.toNat : Int) * prefs.frameH.toNat = (prefs.area : Nat) := by
    unfold UvcPrefs.area
    rw [Int.natCast_mul]
  unfold prefArea saturatingMul
  rw [hcast]
  split
  · omega
  · rw [if_neg (by omega)]
    omega

theorem rank_exact (h : f.Exact prefs) : rank prefs f = 2000000 := if_pos h

/-- Twice wrapped: the preferred area less the area, in two's complement. -/
theorem rank_other (h : ¬ f.Exact prefs) :
    rank prefs f = ((min prefs.area (2 ^ 31 - 1) : Nat) : Int) - (f.area : Nat) +
      if f.area ≤ prefs.area + 2 ^ 31 then 0 else 4294967296 := by
  have harea := area_lt f
  have hcast : (f.w.toNat : Int) * f.h.toNat = (f.area : Nat) := by
    unfold FrameDecl.area
    rw [Int.natCast_mul]
  have hother : ¬ (f.w = prefs.frameW ∧ f.h = prefs.frameH) := h
  rw [rank, if_neg hother, prefArea_eq, hcast]
  unfold wrap
  rw [Int.bmod_def, Int.bmod_def]
  repeat' split
  all_goals omega

/-- **A score in terms of the area.** -/
theorem rank_le_iff (h : ¬ f.Exact prefs) {n : Nat} (hn : n < 2 ^ 31) :
    rank prefs f ≤ n ↔ Yields prefs n f := by
  have harea := area_lt f
  rw [rank_other h]
  unfold Yields
  split <;> omega

/-! ### The choice -/

variable {win : FrameDecl}

/-- Where the exact size is offered. -/
theorem exact_iff (hwin : FirstMax (rank prefs) fs win) (hex : ∃ g ∈ fs, g.Exact prefs) :
    Documented prefs fs win ↔ PreferenceKept prefs fs := by
  have hsame : ∀ x ∈ fs, ∀ y ∈ fs, x.Exact prefs → y.Exact prefs → rank prefs x = rank prefs y :=
    fun x _ y _ hx hy => by rw [rank_exact hx, rank_exact hy]
  unfold Documented PreferenceKept
  rw [if_pos hex, hwin.mem_iff hsame]
  have hno : ¬ ∀ f ∈ fs, ¬ f.Exact prefs := by
    obtain ⟨g, hg, hge⟩ := hex
    exact fun hall => hall g hg hge
  constructor
  · rintro ⟨before, d, after, hfs, hd, hbefore, hafter⟩
    refine .inl ⟨before, d, after, hfs, hd, fun x hx => ?_, fun x hx hne => ?_⟩
    · obtain ⟨hne, hlt⟩ := hbefore x hx
      rw [rank_exact hd] at hlt
      exact ⟨hne, (rank_le_iff hne (by decide)).mp (by omega)⟩
    · have hle := hafter x hx hne
      rw [rank_exact hd] at hle
      exact (rank_le_iff hne (by decide)).mp hle
  · rintro (⟨before, d, after, hfs, hd, hbefore, hafter⟩ | ⟨hall, -⟩)
    · refine ⟨before, d, after, hfs, hd, fun x hx => ?_, fun x hx hne => ?_⟩
      · obtain ⟨hne, hyields⟩ := hbefore x hx
        have hle := (rank_le_iff hne (by decide)).mpr hyields
        rw [rank_exact hd]
        exact ⟨hne, by omega⟩
      · rw [rank_exact hd]
        exact (rank_le_iff hne (by decide)).mpr (hafter x hx hne)
    · exact absurd hall hno

/-- Where it is not. -/
theorem inexact_iff (hwin : FirstMax (rank prefs) fs win) (hno : ∀ g ∈ fs, ¬ g.Exact prefs) :
    Documented prefs fs win ↔
      (∀ f ∈ fs, ∀ g ∈ fs, f.area ≤ prefs.area → g.area ≤ prefs.area → f.area = g.area) ∧
        ((∀ f ∈ fs, f.area ≤ prefs.area + 2 ^ 31) ∨ ∀ f ∈ fs, prefs.area + 2 ^ 31 < f.area) := by
  have hmem := hwin.mem
  -- no frame scores higher than the winner
  have hbest : ∀ g ∈ fs, win.area + (if g.area ≤ prefs.area + 2 ^ 31 then 0 else 4294967296) ≤
      g.area + if win.area ≤ prefs.area + 2 ^ 31 then 0 else 4294967296 := by
    intro g hg
    have hle := hwin.le g hg
    rw [rank_other (hno g hg), rank_other (hno win hmem)] at hle
    by_cases hgw : g.area ≤ prefs.area + 2 ^ 31 <;>
      by_cases hww : win.area ≤ prefs.area + 2 ^ 31 <;>
      simp only [hgw, hww, ↓reduceIte] at hle ⊢ <;> omega
  have hunwrapped : win.area ≤ prefs.area + 2 ^ 31 → ∀ g ∈ fs,
      g.area ≤ prefs.area + 2 ^ 31 ∧ win.area ≤ g.area := by
    intro hw g hg
    have hle := hbest g hg
    have hlt := area_lt g
    rw [if_pos hw] at hle
    split at hle <;> omega
  unfold Documented
  rw [if_neg fun ⟨g, hg, hge⟩ => hno g hg hge]
  by_cases hfit : ∃ g ∈ fs, g.area ≤ prefs.area
  · rw [if_pos hfit]
    constructor
    · rintro ⟨hw, hmax⟩
      have hall := hunwrapped (by omega)
      refine ⟨fun f hf g hg hff hgf => ?_, .inl fun f hf => (hall f hf).1⟩
      have hf' := hmax f hf hff
      have hg' := hmax g hg hgf
      have := (hall f hf).2
      have := (hall g hg).2
      omega
    · rintro ⟨hsame, hwraps⟩
      obtain ⟨g, hg, hgf⟩ := hfit
      have hall : ∀ f ∈ fs, f.area ≤ prefs.area + 2 ^ 31 := by
        rcases hwraps with hall | hnone
        · exact hall
        · have := hnone g hg
          omega
      have hw : win.area ≤ prefs.area := by
        have := (hunwrapped (hall win hmem) g hg).2
        omega
      exact ⟨hw, fun f hf hff => Nat.le_of_eq (hsame f hf win hmem hff hw)⟩
  · rw [if_neg hfit]
    constructor
    · intro hmin
      refine ⟨fun f hf _ _ hff => absurd ⟨f, hf, hff⟩ hfit, ?_⟩
      by_cases hw : win.area ≤ prefs.area + 2 ^ 31
      · exact .inl fun f hf => (hunwrapped hw f hf).1
      · exact .inr fun f hf => by have := hmin f hf; omega
    · rintro ⟨-, hall | hnone⟩ g hg
      · exact (hunwrapped (hall win hmem) g hg).2
      · have hle := hbest g hg
        have hg' := hnone g hg
        have hw := hnone win hmem
        rw [if_neg (by omega), if_neg (by omega)] at hle
        omega

theorem documented_iff (hwin : FirstMax (rank prefs) fs win) :
    Documented prefs fs win ↔ PreferenceKept prefs fs := by
  by_cases hex : ∃ g ∈ fs, g.Exact prefs
  · exact exact_iff hwin hex
  · have hno : ∀ g ∈ fs, ¬ g.Exact prefs := fun g hg hge => hex ⟨g, hg, hge⟩
    rw [inexact_iff hwin hno]
    unfold PreferenceKept
    constructor
    · rintro ⟨hsame, hwraps⟩
      exact .inr ⟨hno, hsame, hwraps⟩
    · rintro (⟨before, f, after, rfl, hf, -⟩ | ⟨-, hkept⟩)
      · exact absurd hf (hno f (by simp))
      · exact hkept

/-- The choice depends on the size of a frame only. -/
theorem Documented.of_size (h : Documented prefs fs f) (hw : g.w = f.w) (hh : g.h = f.h) :
    Documented prefs fs g := by
  have harea : g.area = f.area := by
    unfold FrameDecl.area
    rw [hw, hh]
  unfold Documented FrameDecl.Exact at h ⊢
  rw [hw, hh, harea]
  exact h

/-- **When the selected frame is the one the preferences describe.** -/
theorem frameChoice_iff (checks : Bool) (cfg : List UInt8) (cfgTotal : Nat) (prefs : UvcPrefs)
    (sel : UvcStreamSelection)
    (hsel : parseUvcVideoStream checks cfg cfgTotal prefs = .ok (.ok sel)) :
    FollowsPreference prefs (frames (places .new (scanned cfg cfgTotal))) sel ↔
      PreferenceKept prefs (preferred (frames (places .new (scanned cfg cfgTotal)))) := by
  obtain ⟨win, best, h⟩ := parseUvcVideoStream_selected hsel
  have hframe := h.frame
  unfold UvcStreamSelection.frame at hframe
  injection hframe with _ _ hfmt hix hw hh hkind
  rw [← documented_iff h.frameMax]
  constructor
  · rintro ⟨f, -, -, -, hfw, hfh, -, hdoc⟩
    exact hdoc.of_size (hw.symm.trans hfw.symm) (hh.symm.trans hfh.symm)
  · intro hdoc
    exact ⟨win, h.frameMax.mem, hfmt.symm, hix.symm, hw.symm, hh.symm, hkind.symm, hdoc⟩

/-- An MJPEG frame descriptor, at 30 frames a second. -/
def mjpegFrame (frameIx : UInt8) (w h : UInt16) : List UInt8 :=
  [30, 0x24, 7, frameIx, 0, w.toUInt8, (w >>> 8).toUInt8, h.toUInt8, (h >>> 8).toUInt8] ++
  List.replicate 12 0 ++ [0x15, 0x16, 5, 0, 1, 0x15, 0x16, 5, 0]

/-- A camera with one MJPEG stream of two frame sizes. -/
def twoSizes (w₁ h₁ w₂ h₂ : UInt16) : List UInt8 :=
  [9, 2, 105, 0, 2, 1, 0, 0x80, 50] ++ [9, 4, 1, 0, 0, 0x0E, 2, 0, 0] ++
  [11, 0x24, 6, 1, 2, 1, 1, 0, 0, 0, 0] ++ mjpegFrame 1 w₁ h₁ ++ mjpegFrame 2 w₂ h₂ ++
  [9, 4, 1, 1, 1, 0x0E, 2, 0, 0] ++ [7, 5, 0x81, 5, 0, 2, 1]

theorem frameChoice_iff_oneStream :
    FollowsPreference vgaPrefs (frames (places .new (scanned oneStream 75)))
      (mjpegFrom 1 512 1 firstAlt) :=
  (frameChoice_iff false oneStream 75 vgaPrefs _ (by decide +kernel)).mpr
    (.inl ⟨[], ⟨1, some 1, 1, 1, 640, 480, true⟩, [], by decide +kernel, by decide, nofun, nofun⟩)

/-- 160 by 120 in MJPEG. -/
def smallFrom (frameIx : UInt8) : UvcStreamSelection :=
  { mjpegFrom 1 512 1 firstAlt with frameIndex := frameIx, frameW := 160, frameH := 120 }

/-- **The smallest frame is chosen**: below the preferred size the smaller of two, and the smaller
even beside the exact size if that has more than two million pixels. -/
theorem smallFrame_chosen :
    (∃ sel, parseUvcVideoStream false (twoSizes 160 120 352 288) 105 vgaPrefs = .ok (.ok sel) ∧
      ¬ FollowsPreference vgaPrefs
        (frames (places .new (scanned (twoSizes 160 120 352 288) 105))) sel) ∧
    ∃ sel, parseUvcVideoStream false (twoSizes 1920 1080 160 120) 105 ⟨1920, 1080, 33333300⟩ =
        .ok (.ok sel) ∧
      ¬ FollowsPreference ⟨1920, 1080, 33333300⟩
        (frames (places .new (scanned (twoSizes 1920 1080 160 120) 105))) sel := by
  refine ⟨⟨smallFrom 1, by decide +kernel, by decide +kernel⟩, smallFrom 2, by decide +kernel,
    by decide +kernel⟩

end Cvirtos.Usb.Uvc
