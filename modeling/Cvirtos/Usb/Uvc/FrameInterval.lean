import Mathlib.Data.Int.Order.Basic
import Cvirtos.Usb.Uvc.DescriptorScan

/-!
# The choice of a frame interval

The interval `choose_frame_interval` settles on, against everything the frame descriptor offers: the
default, the table of a discrete frame, the range of a continuous one.

* `bestFor_eq` — the comparison keeps the first of the closest intervals other than 0;
* `chooseFrameInterval_eq` — what is compared: the default and, before it, the table, or the one
  interval of the range that is nearest to the preferred one;
* `choosesClosest_iff` — **the choice is a closest interval on offer, exactly when the bounds of
  the range are not crossed**.
-/

set_option autoImplicit false

namespace Cvirtos.Usb.Uvc

open Cvirtos.Lib Cvirtos.Usb.Dwc2

/-- How far an interval is from the preferred one. -/
def distance (pref v : UInt32) : Nat := ((v.toNat : Int) - pref.toNat).natAbs

/-- The closer, the higher. -/
def closeness (pref v : UInt32) : Int := -(distance pref v : Int)

namespace Desc

/-- A frame descriptor with every field up to `bFrameIntervalType`. -/
structure VsFrame (d : Desc) : Prop where
  within : d.Within
  complete : 26 ≤ d.len
  subtype : d.byte 2 = VS_FRAME_MJPEG ∨ d.byte 2 = VS_FRAME_UNCOMPRESSED

/-- The frame offers the interval. -/
inductive Offers (d : Desc) : UInt32 → Prop
  | dflt : d.word 21 ≠ 0 → Offers d (d.word 21)
  | entry (k : Nat) : k < (d.byte 25).toNat → 26 + 4 * k + 4 ≤ d.len → d.word (26 + 4 * k) ≠ 0 →
      Offers d (d.word (26 + 4 * k))
  | range (v : UInt32) : d.byte 25 = 0 → 38 ≤ d.len → 0 < d.word 26 → d.word 26 ≤ v →
      v ≤ d.word 30 → Offers d v

/-- The entries of the interval table that lie in the descriptor. -/
def table (d : Desc) (first count : Nat) : List UInt32 :=
  ((List.range' first count).filter fun k => 26 + 4 * k + 4 ≤ d.len).map fun k => d.word (26 + 4 * k)

/-- The interval of the range nearest to the preferred one. -/
def nearest (d : Desc) (pref : UInt32) : UInt32 :=
  if pref < d.word 26 then d.word 26 else if pref > d.word 30 then d.word 30 else pref

/-- The range has an interval. -/
def HasRange (d : Desc) : Prop := 38 ≤ d.len ∧ d.word 26 > 0 ∧ d.word 30 > 0

instance (d : Desc) : Decidable d.HasRange := inferInstanceAs (Decidable (_ ∧ _))

/-- What is compared, in order. -/
def compared (d : Desc) (pref : UInt32) : List UInt32 :=
  (if d.byte 25 = 0 then (if d.HasRange then [d.nearest pref] else [])
    else d.table 0 (d.byte 25).toNat) ++ [d.word 21]

end Desc

variable {d : Desc} {pref : UInt32}

/-! ### The comparison -/

theorem distance_toNat (v : UInt32) :
    (if v ≥ pref then v - pref else pref - v).toNat = distance pref v := by
  unfold distance
  split
  · rename_i hge
    have hle := UInt32.le_iff_toNat_le.mp hge
    rw [UInt32.toNat_sub_of_le _ _ hge]
    omega
  · rename_i hlt
    have hlt := UInt32.not_le.mp hlt
    have hle := UInt32.lt_iff_toNat_lt.mp hlt
    rw [UInt32.toNat_sub_of_le _ _ (UInt32.le_of_lt hlt)]
    omega

/-- **One comparison** passes over 0 and keeps the closer interval, the earlier one of two equally
close. -/
theorem bestFor_eq (pref v : UInt32) (best : Option UInt32) :
    bestFor pref v best = if v ≠ 0 then better (closeness pref) best v else best := by
  unfold bestFor
  by_cases hv : v = 0
  · rw [if_pos hv, if_neg (not_not.mpr hv)]
  rw [if_neg hv, if_pos hv]
  cases best with
  | none => rfl
  | some b =>
    have hcloser : (if v ≥ pref then v - pref else pref - v) < (if b ≥ pref then b - pref else pref - b) ↔
        closeness pref b < closeness pref v := by
      rw [UInt32.lt_iff_toNat_lt, distance_toNat, distance_toNat]
      unfold closeness
      omega
    rw [better_some]
    exact if_congr hcloser rfl rfl

theorem foldl_bestFor (pref : UInt32) (vs : List UInt32) :
    vs.foldl (fun best v => bestFor pref v best) none =
      firstMax (closeness pref) (vs.filter (· ≠ 0)) := by
  unfold firstMax
  rw [List.foldl_filter]
  refine congrArg (fun f => vs.foldl f none) ?_
  funext best v
  rw [bestFor_eq]
  simp

/-! ### What is compared -/

theorem Desc.table_succ (d : Desc) (first count : Nat) :
    d.table first (count + 1) =
      if 26 + 4 * first + 4 ≤ d.len then d.word (26 + 4 * first) :: d.table (first + 1) count else [] := by
  unfold Desc.table
  rw [List.range'_succ]
  by_cases hfit : 26 + 4 * first + 4 ≤ d.len
  · rw [if_pos hfit, List.filter_cons_of_pos (by simpa using hfit), List.map_cons]
  · have hnone : (List.range' (first + 1) count).filter (fun k => 26 + 4 * k + 4 ≤ d.len) = [] := by
      rw [List.filter_eq_nil_iff]
      intro k hk
      have := (List.mem_range'_1.mp hk).1
      simp only [decide_eq_true_eq]
      omega
    rw [if_neg hfit, List.filter_cons_of_neg (by simpa using hfit), hnone, List.map_nil]

/-- The loop over the table, for a body that cannot fail. -/
theorem forIvals_eq {σ : Type} (hd : d.Within) (g : UInt32 → σ → σ) (remaining k : Nat) (s : σ) :
    forIvals d (fun ival s => return g ival s) remaining k s =
      .ok ((d.table k remaining).foldl (fun s ival => g ival s) s) := by
  induction remaining generalizing k s with
  | zero => rfl
  | succ remaining ih =>
      unfold forIvals
      rw [hd.u32le, d.table_succ]
      by_cases hfit : 26 + 4 * k + 4 ≤ d.len
      · rw [if_pos hfit, if_pos hfit]
        exact ih (k + 1) (g (d.word (26 + 4 * k)) s)
      · rw [if_neg hfit, if_neg hfit]
        rfl

theorem clampInterval_eq (hd : d.Within) (hty : d.byte 25 = 0) (hr : ¬ d.CrossedRange)
    (pref : UInt32) :
    clampInterval d pref =
      .ok ((if d.HasRange then [d.nearest pref] else []).foldl
        (fun best v => bestFor pref v best) none) := by
  unfold clampInterval
  by_cases hlong : d.len ≥ 38
  · rw [if_pos hlong, hd.u32le, hd.u32le, if_pos (show 26 + 4 ≤ d.len by omega),
      if_pos (show 30 + 4 ≤ d.len by omega)]
    change (if d.word 26 > 0 ∧ d.word 30 > 0 then _ else _) = _
    by_cases hpos : d.word 26 > 0 ∧ d.word 30 > 0
    · have hrange : d.HasRange := ⟨hlong, hpos⟩
      have hclamp : clamp pref (d.word 26) (d.word 30) = .ok (d.nearest pref) := by
        unfold clamp
        rw [if_neg fun hlt => hr ⟨hty, hlong, hpos.2, hlt⟩]
        rfl
      rw [if_pos hpos, if_pos hrange, hclamp]
      rfl
    · have hno : ¬ d.HasRange := fun h => hpos h.2
      rw [if_neg hpos, if_neg hno]
      rfl
  · have hno : ¬ d.HasRange := fun h => hlong h.1
    rw [if_neg hlong, if_neg hno]
    rfl

/-- **The choice is the first of the closest among the intervals compared**, or 0 if all are 0. -/
theorem chooseFrameInterval_eq (hd : d.Within) (hpref : pref ≠ 0) (hr : ¬ d.CrossedRange) :
    chooseFrameInterval d (d.word 21) (d.byte 25) pref =
      .ok ((firstMax (closeness pref) ((d.compared pref).filter (· ≠ 0))).getD 0) := by
  unfold chooseFrameInterval
  rw [if_neg hpref, ← foldl_bestFor]
  unfold Desc.compared
  rw [List.foldl_append]
  by_cases hty : d.byte 25 = 0
  · rw [if_pos hty, if_pos hty, clampInterval_eq hd hty hr]
    rfl
  · rw [if_neg hty, if_neg hty]
    change (forIvals d (fun ival best => return bestFor pref ival best) _ 0 none).bind _ = _
    rw [forIvals_eq hd]
    rfl

/-! ### What is on offer -/

theorem Desc.mem_table {v : UInt32} {count : Nat} :
    v ∈ d.table 0 count ↔ ∃ k < count, 26 + 4 * k + 4 ≤ d.len ∧ d.word (26 + 4 * k) = v := by
  simp [Desc.table, and_assoc]

/-- The nearest interval of a range is in it, and none of the range is closer. -/
theorem Desc.nearest_spec (hle : d.word 26 ≤ d.word 30) (pref : UInt32) :
    d.word 26 ≤ d.nearest pref ∧ d.nearest pref ≤ d.word 30 ∧
      ∀ v, d.word 26 ≤ v → v ≤ d.word 30 → distance pref (d.nearest pref) ≤ distance pref v := by
  have hle' := UInt32.le_iff_toNat_le.mp hle
  unfold Desc.nearest distance
  simp only [UInt32.le_iff_toNat_le, gt_iff_lt, UInt32.lt_iff_toNat_lt]
  split
  · refine ⟨Nat.le_refl _, hle', fun v hlo hhi => ?_⟩
    omega
  · split
    · refine ⟨hle', Nat.le_refl _, fun v hlo hhi => ?_⟩
      omega
    · refine ⟨by omega, by omega, fun v hlo hhi => ?_⟩
      omega

/-- A range that is not crossed and has an interval is in order. -/
theorem range_ordered (hty : d.byte 25 = 0) (hr : ¬ d.CrossedRange) (hrange : d.HasRange) :
    d.word 26 ≤ d.word 30 :=
  UInt32.not_lt.mp fun hlt => hr ⟨hty, hrange.1, hrange.2.2, hlt⟩

/-- Every interval compared, other than 0, is on offer. -/
theorem offers_of_compared (hr : ¬ d.CrossedRange) {v : UInt32}
    (hv : v ∈ (d.compared pref).filter (· ≠ 0)) : d.Offers v := by
  obtain ⟨hmem, hne⟩ := List.mem_filter.mp hv
  have hne : v ≠ 0 := by simpa using hne
  rcases List.mem_append.mp hmem with hmem | hmem
  · split at hmem
    · rename_i hty
      split at hmem
      · rename_i hrange
        obtain ⟨hlo, hhi, -⟩ := Desc.nearest_spec (range_ordered hty hr hrange) pref
        rw [List.mem_singleton.mp hmem]
        exact .range _ hty hrange.1 hrange.2.1 hlo hhi
      · cases hmem
    · obtain ⟨k, hk, hfit, rfl⟩ := Desc.mem_table.mp hmem
      exact .entry k hk hfit hne
  · rw [List.mem_singleton.mp hmem] at hne ⊢
    exact .dflt hne

/-- Every interval on offer has one among those compared that is as close. -/
theorem compared_of_offers (pref : UInt32) {u : UInt32} (hu : d.Offers u) :
    ∃ v ∈ (d.compared pref).filter (· ≠ 0), distance pref v ≤ distance pref u := by
  cases hu with
  | dflt hne =>
      refine ⟨d.word 21, List.mem_filter.mpr ⟨List.mem_append_right _ ?_, by simpa using hne⟩, Nat.le_refl _⟩
      exact List.mem_singleton.mpr rfl
  | entry k hk hfit hne =>
      have hty : d.byte 25 ≠ 0 := by
        intro h0
        rw [h0] at hk
        exact absurd hk (Nat.not_lt_zero k)
      refine ⟨_, List.mem_filter.mpr ⟨List.mem_append_left _ ?_, by simpa using hne⟩, Nat.le_refl _⟩
      rw [if_neg hty]
      exact Desc.mem_table.mpr ⟨k, hk, hfit, rfl⟩
  | range v hty hlong hpos hlo hhi =>
      have hle := UInt32.le_trans hlo hhi
      have hrange : d.HasRange := ⟨hlong, hpos, UInt32.lt_of_lt_of_le hpos hle⟩
      obtain ⟨hnlo, -, hclosest⟩ := Desc.nearest_spec hle pref
      have hne : d.nearest pref ≠ 0 := UInt32.pos_iff_ne_zero.mp (UInt32.lt_of_lt_of_le hpos hnlo)
      refine ⟨d.nearest pref, List.mem_filter.mpr ⟨List.mem_append_left _ ?_, by simpa using hne⟩,
        hclosest u hlo hhi⟩
      rw [if_pos hty, if_pos hrange]
      exact List.mem_singleton.mpr rfl

/-- What the choice is to do for a frame and a preferred interval: it is a closest interval on offer
and kept by `parse_vs_frame`, or 0 when nothing is on offer. -/
def ChoosesClosest (d : Desc) (pref : UInt32) : Prop :=
  ∃ v, chooseFrameInterval d (d.word 21) (d.byte 25) pref = .ok v ∧
    ((∃ u, d.Offers u) → d.Offers v ∧ (∀ u, d.Offers u → distance pref v ≤ distance pref u) ∧
      ∀ fmtIx, ∃ pick, parseVsFrame d (d.byte 2) fmtIx pref = .ok (some pick) ∧ pick.ival = v) ∧
    ((¬ ∃ u, d.Offers u) → v = 0)

theorem choosesClosest (hd : d.VsFrame) (hpref : pref ≠ 0) (hr : ¬ d.CrossedRange) :
    ChoosesClosest d pref := by
  have hchoice := chooseFrameInterval_eq hd.within hpref hr
  refine ⟨_, hchoice, ?_, ?_⟩
  · rintro ⟨u, hu⟩
    obtain ⟨w, hw, -⟩ := compared_of_offers pref hu
    cases hmax : firstMax (closeness pref) ((d.compared pref).filter (· ≠ 0)) with
    | none =>
      rw [firstMax_eq_none.mp hmax] at hw
      cases hw
    | some v =>
      have hfirst := firstMax_eq_some.mp hmax
      have hoffer := offers_of_compared hr hfirst.mem
      have hpos : v > 0 := by
        have := (List.mem_filter.mp hfirst.mem).2
        exact UInt32.pos_iff_ne_zero.mpr (by simpa using this)
      refine ⟨hoffer, fun u hu => ?_, fun fmtIx => ?_⟩
      · obtain ⟨w, hw, hle⟩ := compared_of_offers pref hu
        have hclose := hfirst.le w hw
        unfold closeness at hclose
        show distance pref v ≤ _
        omega
      · obtain ⟨ival, hkeep, hparse⟩ := parseVsFrame_eq hd.within hd.complete hd.subtype fmtIx pref
        rw [hchoice, hmax] at hparse
        exact ⟨_, hparse, hkeep v hpos⟩
  · intro hnone
    cases hmax : firstMax (closeness pref) ((d.compared pref).filter (· ≠ 0)) with
    | none => rfl
    | some v => exact absurd ⟨v, offers_of_compared hr (firstMax_eq_some.mp hmax).mem⟩ hnone

/-- **The choice is a closest interval on offer exactly when the range is not crossed.** -/
theorem choosesClosest_iff (d : Desc) (hd : d.VsFrame) (pref : UInt32) (hpref : pref > 0) :
    ChoosesClosest d pref ↔ ¬ d.CrossedRange := by
  have hne : pref ≠ 0 := UInt32.pos_iff_ne_zero.mp hpref
  constructor
  · rintro ⟨v, hv, -⟩ hr
    rw [chooseFrameInterval_crossed hd.within hne hr] at hv
    cases hv
  · exact choosesClosest hd hne

/-- 640 by 480 with a default of 30 frames a second and a range from 30 down to 15. -/
def rangedFrame : Desc where
  buf := [38, 0x24, 7, 1, 0, 0x80, 2, 0xE0, 1, 0, 0, 0, 0, 0, 0, 0, 0, 0, 0, 0, 0,
    0x15, 0x16, 5, 0, 0, 0x15, 0x16, 5, 0, 0x2A, 0x2C, 0x0A, 0, 0, 0, 0, 0]
  base := 0
  len := 38

/-- 20 frames a second are preferred. -/
theorem choosesClosest_iff_ranged :
    rangedFrame.VsFrame ∧ (500000 : UInt32) > 0 ∧ ChoosesClosest rangedFrame 500000 := by
  have hd : rangedFrame.VsFrame := ⟨⟨by decide, by decide⟩, by decide, by decide⟩
  exact ⟨hd, by decide, (choosesClosest_iff _ hd _ (by decide)).mpr (by decide)⟩

/-- The same frame with the two bounds of its range exchanged. -/
def swappedFrame : Desc where
  buf := [38, 0x24, 7, 1, 0, 0x80, 2, 0xE0, 1, 0, 0, 0, 0, 0, 0, 0, 0, 0, 0, 0, 0,
    0x15, 0x16, 5, 0, 0, 0x2A, 0x2C, 0x0A, 0, 0x15, 0x16, 5, 0, 0, 0, 0, 0]
  base := 0
  len := 38

/-- The default of the swapped frame is on offer, but nothing is chosen: `clamp` panics. -/
theorem swapped_not_chosen :
    swappedFrame.Offers (swappedFrame.word 21) ∧
    ¬ ∀ d : Desc, d.VsFrame → ∀ pref > 0, ChoosesClosest d pref := by
  refine ⟨.dflt (by decide), fun h => ?_⟩
  obtain ⟨v, hv, -⟩ := h swappedFrame ⟨⟨by decide, by decide⟩, by decide, by decide⟩ 500000 (by decide)
  have hpanic : chooseFrameInterval swappedFrame (swappedFrame.word 21) (swappedFrame.byte 25) 500000 =
      .error .clamp := by decide +kernel
  rw [hpanic] at hv
  cases hv

end Cvirtos.Usb.Uvc
