import Mathlib.Data.Int.Order.Basic
import Mathlib.Data.Nat.Basic
import Cvirtos.Usb.Uvc.DescriptorScan

/-!
# The run of the stream scan

What the scan holds after any list of descriptors, in terms of the frames and the endpoints that
the list declares: of each kind of frame the first of the highest rank, the first endpoint with the
largest packet, and the first eight endpoints.

* `ScanInv` — **the invariant**; `run_sound` carries it over a run;
* `run_ok_iff` — **when a run has no crash**.
-/

set_option autoImplicit false

namespace Cvirtos.Usb.Uvc

open Cvirtos.Lib Cvirtos.Usb.Dwc2

/-! ### Ranks -/

/-- An `i32` in two's complement. -/
def wrap (x : Int) : Int := x.bmod 4294967296

/-- The preferred area, saturated. -/
def prefArea (prefs : UvcPrefs) : Int :=
  saturatingMul prefs.frameW.toNat prefs.frameH.toNat

/-- The rank of a frame, in arithmetic that wraps. -/
def rank (prefs : UvcPrefs) (f : FrameDecl) : Int :=
  if f.w = prefs.frameW ∧ f.h = prefs.frameH then 2000000
  else wrap (prefArea prefs - wrap (f.w.toNat * f.h.toNat))

/-- The area of the frame is an `i32`. -/
def FrameDecl.Fits (f : FrameDecl) : Prop := f.w.toNat * f.h.toNat ≤ 2147483647

instance (f : FrameDecl) : Decidable f.Fits := inferInstanceAs (Decidable (_ ≤ _))

theorem wrap_small {x : Int} (h : -2147483648 ≤ x ∧ x ≤ 2147483647) : wrap x = x := by
  unfold wrap
  rw [Int.bmod_def]
  split <;> omega

theorem wrap_range (x : Int) : -2147483648 ≤ wrap x ∧ wrap x ≤ 2147483647 := by
  unfold wrap
  rw [Int.bmod_def]
  split <;> omega

theorem i32_eq {checks : Bool} {x : Int} (h : checks = true → -2147483648 ≤ x ∧ x ≤ 2147483647) :
    i32 checks x = .ok (wrap x) := by
  unfold i32
  split
  · rename_i hx
    rw [wrap_small hx]
  · rename_i hx
    cases checks with
    | true => exact absurd (h rfl) hx
    | false => rfl

theorem prefArea_range (prefs : UvcPrefs) : 0 ≤ prefArea prefs ∧ prefArea prefs ≤ 2147483647 := by
  have hpos : (0 : Int) ≤ prefs.frameW.toNat * prefs.frameH.toNat :=
    Int.mul_nonneg (Int.natCast_nonneg _) (Int.natCast_nonneg _)
  unfold prefArea saturatingMul
  split
  · omega
  · split <;> omega

variable {prefs : UvcPrefs} {f b : FrameDecl} {pick prev : FramePick} {checks : Bool}

theorem i32_overflow {x : Int} (h : ¬ x ≤ 2147483647) : i32 true x = .error .overflow := by
  unfold i32
  rw [if_neg (by omega)]
  rfl

theorem area_range (f : FrameDecl) : (0 : Int) ≤ f.w.toNat * f.h.toNat :=
  Int.mul_nonneg (Int.natCast_nonneg _) (Int.natCast_nonneg _)

theorem FrameDecl.fits_iff (f : FrameDecl) :
    f.Fits ↔ (f.w.toNat * f.h.toNat : Int) ≤ 2147483647 := by
  unfold FrameDecl.Fits
  constructor
  · intro h
    omega
  · intro h
    omega

theorem frameRank_unfold (checks : Bool) (pick : FramePick) (prefs : UvcPrefs) :
    frameRank checks pick prefs = (i32 checks (pick.w.toNat * pick.h.toNat)).bind fun area =>
      if (pick.w.toNat : Int) = prefs.frameW.toNat ∧ (pick.h.toNat : Int) = prefs.frameH.toNat then
        .ok 2000000
      else if area ≤ prefArea prefs then i32 checks (prefArea prefs - area)
      else (i32 checks (area - prefArea prefs)).bind fun excess => i32 checks (-excess) := rfl

theorem frameRank_eq (hf : f.Describes pick) (hfits : checks = true → f.Fits) :
    frameRank checks pick prefs = .ok (rank prefs f) := by
  have hpos := area_range f
  obtain ⟨hlo, hhi⟩ := prefArea_range prefs
  obtain ⟨hwlo, hwhi⟩ := wrap_range (f.w.toNat * f.h.toNat)
  have harea : i32 checks (f.w.toNat * f.h.toNat) = .ok (wrap (f.w.toNat * f.h.toNat)) :=
    i32_eq fun hc => ⟨by omega, f.fits_iff.mp (hfits hc)⟩
  have hwrap : checks = true → 0 ≤ wrap (f.w.toNat * f.h.toNat) := by
    intro hc
    rw [wrap_small ⟨by omega, f.fits_iff.mp (hfits hc)⟩]
    exact hpos
  have hexact : ((f.w.toNat : Int) = prefs.frameW.toNat ∧ (f.h.toNat : Int) = prefs.frameH.toNat) ↔
      f.w = prefs.frameW ∧ f.h = prefs.frameH := by
    rw [Int.natCast_inj, Int.natCast_inj, UInt16.toNat_inj, UInt16.toNat_inj]
  rw [frameRank_unfold, hf.w, hf.h, harea, Checked.ok_bind]
  unfold rank
  by_cases hex : f.w = prefs.frameW ∧ f.h = prefs.frameH
  · rw [if_pos hex, if_pos (hexact.mpr hex)]
  rw [if_neg hex, if_neg fun h => hex (hexact.mp h)]
  by_cases hle : wrap (f.w.toNat * f.h.toNat) ≤ prefArea prefs
  · rw [if_pos hle, i32_eq fun hc => ⟨by omega, by have := hwrap hc; omega⟩]
  · have hover : i32 checks (wrap (f.w.toNat * f.h.toNat) - prefArea prefs) =
        .ok (wrap (f.w.toNat * f.h.toNat) - prefArea prefs) := by
      rw [i32_eq fun _ => ⟨by omega, by omega⟩, wrap_small ⟨by omega, by omega⟩]
    rw [if_neg hle, hover, Checked.ok_bind, i32_eq fun _ => ⟨by omega, by omega⟩, Int.neg_sub]

theorem frameRank_overflow (hf : f.Describes pick) (hbig : ¬ f.Fits) :
    frameRank true pick prefs = .error .overflow := by
  unfold frameRank
  rw [hf.w, hf.h]
  change (i32 true (f.w.toNat * f.h.toNat)).bind _ = _
  rw [i32_overflow fun h => hbig (f.fits_iff.mpr h)]
  rfl

/-! ### Offers -/

/-- What the scan holds of a kind. -/
def VsState.held (s : VsState) (isMjpeg : Bool) : Option FramePick :=
  if isMjpeg then s.mjpegPick else s.uncompPick

theorem beats_eq (hf : f.Describes pick) (hb : b.Describes prev)
    (hfits : checks = true → f.Fits ∧ b.Fits) :
    beats checks prefs pick (some prev) = .ok (rank prefs f > rank prefs b : Bool) := by
  unfold beats
  dsimp only
  rw [frameRank_eq hf fun hc => (hfits hc).1, frameRank_eq hb fun hc => (hfits hc).2]
  rfl

theorem beats_overflow (hf : f.Describes pick) (hb : b.Describes prev)
    (hbig : ¬ (f.Fits ∧ b.Fits)) : beats true prefs pick (some prev) = .error .overflow := by
  unfold beats
  dsimp only
  by_cases hff : f.Fits
  · rw [frameRank_eq hf fun _ => hff, frameRank_overflow hb fun hbf => hbig ⟨hff, hbf⟩]
    rfl
  · rw [frameRank_overflow hf hff]
    rfl

/-- An offered frame that wins is held, and the other kind keeps its own. -/
theorem take_held (s : VsState) (pick : FramePick) :
    ∃ s', (if pick.isMjpeg then (return { s with mjpegPick := some pick } : Checked VsState)
        else return { s with uncompPick := some pick }) = .ok s' ∧ s'.ctx = s.ctx ∧
      s'.isoch = s.isoch ∧ s'.held pick.isMjpeg = some pick ∧
      s'.held (!pick.isMjpeg) = s.held (!pick.isMjpeg) := by
  obtain ⟨fmtIx, frameIx, w, h, ival, isMjpeg⟩ := pick
  cases isMjpeg with
  | true => exact ⟨_, rfl, rfl, rfl, rfl, rfl⟩
  | false => exact ⟨_, rfl, rfl, rfl, rfl, rfl⟩

theorem offer_unfold (checks : Bool) (prefs : UvcPrefs) (s : VsState) (pick : FramePick) :
    s.offer checks prefs pick = (beats checks prefs pick (s.held pick.isMjpeg)).bind fun beats =>
      if beats then
        if pick.isMjpeg then return { s with mjpegPick := some pick }
        else return { s with uncompPick := some pick }
      else return s := rfl

/-- **An offer that goes through** leaves the better of the two frames held. -/
theorem offer_ok (checks : Bool) (prefs : UvcPrefs) {s : VsState} (hf : f.Describes pick)
    {best : Option FrameDecl}
    (hheld : Option.Rel FrameDecl.Describes best (s.held f.isMjpeg))
    (hfits : checks = true → ∀ b, best = some b → f.Fits ∧ b.Fits) :
    ∃ s', s.offer checks prefs pick = .ok s' ∧ s'.ctx = s.ctx ∧ s'.isoch = s.isoch ∧
      Option.Rel FrameDecl.Describes (better (rank prefs) best f) (s'.held f.isMjpeg) ∧
      s'.held (!f.isMjpeg) = s.held (!f.isMjpeg) := by
  obtain ⟨s', htake, hctx, hisoch, hsame, hother⟩ := take_held s pick
  rw [hf.isMjpeg] at hsame hother
  rw [offer_unfold, hf.isMjpeg]
  rw [hf.isMjpeg] at htake
  cases hprev : s.held f.isMjpeg with
  | none =>
    rw [hprev] at hheld
    cases hheld
    exact ⟨s', htake, hctx, hisoch, hsame ▸ .some hf, hother⟩
  | some prev =>
    rw [hprev] at hheld
    cases hheld with
    | some hb =>
      rename_i b
      rw [beats_eq hf hb fun hc => hfits hc b rfl, Checked.ok_bind, better_some]
      by_cases hlt : rank prefs b < rank prefs f
      · rw [if_pos hlt, decide_eq_true (show rank prefs f > rank prefs b from hlt)]
        exact ⟨s', htake, hctx, hisoch, hsame ▸ .some hf, hother⟩
      · rw [if_neg hlt, decide_eq_false (show ¬ rank prefs f > rank prefs b from hlt)]
        exact ⟨s, rfl, rfl, rfl, hprev ▸ .some hb, rfl⟩

theorem offer_overflow {s : VsState} (hf : f.Describes pick)
    (hheld : Option.Rel FrameDecl.Describes (some b) (s.held f.isMjpeg))
    (hbig : ¬ (f.Fits ∧ b.Fits)) : s.offer true prefs pick = .error .overflow := by
  rw [offer_unfold, hf.isMjpeg]
  cases hprev : s.held f.isMjpeg with
  | none =>
    rw [hprev] at hheld
    cases hheld
  | some prev =>
    rw [hprev] at hheld
    cases hheld with
    | some hb =>
      rw [beats_overflow hf hb hbig]
      rfl

/-! ### The invariant -/

/-- The frames of a kind. -/
def ofKind (isMjpeg : Bool) (fs : List FrameDecl) : List FrameDecl :=
  fs.filter fun f => f.isMjpeg = isMjpeg

theorem ofKind_append (k : Bool) (fs gs : List FrameDecl) :
    ofKind k (fs ++ gs) = ofKind k fs ++ ofKind k gs := List.filter_append ..

theorem ofKind_same (f : FrameDecl) : ofKind f.isMjpeg [f] = [f] := by
  simp [ofKind]

theorem ofKind_other (f : FrameDecl) : ofKind (!f.isMjpeg) [f] = [] := by
  simp [ofKind]

/-- The largest packet of an endpoint. -/
def Candidate.mps (e : Candidate) : Nat := wmaxMps e.mpsRaw

/-- What the scan has collected at `p`, past the frames `fs` and the endpoints `es`. -/
structure ScanInv (prefs : UvcPrefs) (p : Place) (fs : List FrameDecl) (es : List Candidate)
    (s : VsState) : Prop where
  ctx : s.ctx = p.ctx
  held : ∀ k, Option.Rel FrameDecl.Describes (firstMax (rank prefs) (ofKind k fs)) (s.held k)
  best : s.isoch.best = firstMax Candidate.mps es
  count : s.isoch.count = min 8 es.length
  alts : s.isoch.alts.toList.take s.isoch.count = (es.take 8).map fun e => (e.alt, e.mpsRaw)

theorem ScanInv.new (prefs : UvcPrefs) : ScanInv prefs .new [] [] .new where
  ctx := rfl
  held k := by cases k <;> exact .none
  best := rfl
  count := rfl
  alts := rfl

theorem keep_best (c : IsochCandidates) (e : Candidate) :
    (c.keep e).best = better Candidate.mps c.best e := by
  unfold IsochCandidates.keep better
  cases c.best with
  | none => rfl
  | some b =>
    change some (if e.mps > b.mps then e else b) = if b.mps < e.mps then some e else some b
    split <;> rfl

theorem keep_room (c : IsochCandidates) (e : Candidate) (h : c.count < 8) :
    (c.keep e).count = c.count + 1 ∧ (c.keep e).alts = c.alts.set c.count (e.alt, e.mpsRaw) :=
  ⟨if_pos h, dif_pos h⟩

theorem keep_full (c : IsochCandidates) (e : Candidate) (h : ¬ c.count < 8) :
    (c.keep e).count = c.count ∧ (c.keep e).alts = c.alts := ⟨if_neg h, dif_neg h⟩

theorem take_set (v : Vector (UInt8 × UInt16) 8) {n : Nat} (hn : n < 8) (x : UInt8 × UInt16) :
    (v.set n x).toList.take (n + 1) = v.toList.take n ++ [x] := by
  have hlen : n < (v.toList.set n x).length := by
    rw [List.length_set, Vector.length_toList]
    exact hn
  rw [Vector.toList_set, List.take_succ_eq_append_getElem hlen, List.take_set_of_le (Nat.le_refl n),
    List.getElem_set_self]

/-- The table holds the first eight endpoints. -/
theorem keep_alts {c : IsochCandidates} {es : List Candidate} (hcount : c.count = min 8 es.length)
    (halts : c.alts.toList.take c.count = (es.take 8).map fun e => (e.alt, e.mpsRaw))
    (e : Candidate) :
    (c.keep e).count = min 8 (es ++ [e]).length ∧
      (c.keep e).alts.toList.take (c.keep e).count =
        ((es ++ [e]).take 8).map fun e => (e.alt, e.mpsRaw) := by
  have hlen : (es ++ [e]).length = es.length + 1 := by
    rw [List.length_append, List.length_singleton]
  by_cases hroom : c.count < 8
  · obtain ⟨hc, ha⟩ := keep_room c e hroom
    have hshort : es.take 8 = es := List.take_of_length_le (by omega)
    have hshort' : (es ++ [e]).take 8 = es ++ [e] := List.take_of_length_le (by omega)
    rw [hc, ha, hlen, take_set c.alts hroom, halts, hshort, hshort', List.map_append]
    exact ⟨by omega, rfl⟩
  · obtain ⟨hc, ha⟩ := keep_full c e hroom
    rw [hc, ha, hlen, halts, List.take_append_of_le_length (by omega)]
    exact ⟨by omega, rfl⟩

/-- **No kind of frame is ranked outside `i32`**: the first frame of a kind is not ranked until a
second one is offered. -/
def RanksFit (fs : List FrameDecl) : Prop :=
  ∀ k, (ofKind k fs).length ≤ 1 ∨ ∀ f ∈ ofKind k fs, f.Fits

theorem ranksFit_nil : RanksFit [] := fun _ => .inl (Nat.zero_le 1)

theorem RanksFit.left {fs gs : List FrameDecl} (h : RanksFit (fs ++ gs)) : RanksFit fs := by
  intro k
  rcases h k with hlen | hfits
  · rw [ofKind_append, List.length_append] at hlen
    exact .inl (by omega)
  · rw [ofKind_append] at hfits
    exact .inr fun f hf => hfits f (List.mem_append_left _ hf)

/-- A further frame fits when it and the best of its kind do. -/
theorem ranksFit_concat (prefs : UvcPrefs) {fs : List FrameDecl} (h : RanksFit fs)
    (f : FrameDecl) :
    RanksFit (fs ++ [f]) ↔
      ∀ b, firstMax (rank prefs) (ofKind f.isMjpeg fs) = some b → f.Fits ∧ b.Fits := by
  constructor
  · intro hfits b hb
    have hmem := (firstMax_eq_some.mp hb).mem
    have hkind := hfits f.isMjpeg
    rw [ofKind_append, ofKind_same] at hkind
    rcases hkind with hlen | hall
    · have := List.length_pos_of_mem hmem
      rw [List.length_append, List.length_singleton] at hlen
      omega
    · exact ⟨hall f (by simp), hall b (List.mem_append_left _ hmem)⟩
  · intro hbest k
    by_cases hk : k = f.isMjpeg
    · subst hk
      rw [ofKind_append, ofKind_same]
      cases hb : firstMax (rank prefs) (ofKind f.isMjpeg fs) with
      | none =>
        rw [firstMax_eq_none.mp hb]
        exact .inl (Nat.le_refl 1)
      | some b =>
        obtain ⟨hf, hbf⟩ := hbest b hb
        have hmem := (firstMax_eq_some.mp hb).mem
        refine .inr fun g hg => ?_
        rcases List.mem_append.mp hg with hg | hg
        · rcases h f.isMjpeg with hlen | hall
          · obtain ⟨c, hc⟩ := List.length_eq_one_iff.mp
              (Nat.le_antisymm hlen (List.length_pos_of_mem hmem))
            rw [hc, List.mem_singleton] at hmem hg
            rw [hg, ← hmem]
            exact hbf
          · exact hall g hg
        · rw [List.mem_singleton.mp hg]
          exact hf
    · have hother : k = !f.isMjpeg := by
        cases k <;> cases hm : f.isMjpeg <;> simp_all
      rw [hother, ofKind_append, ofKind_other, List.append_nil]
      exact h _

/-! ### Turns and runs -/

/-- The interval of a frame can be chosen. -/
def TurnSafe (prefs : UvcPrefs) (p : Place) (d : Desc) : Prop :=
  IsVsFrame p d → ¬ (toUvcTicks prefs.frameInterval ≠ 0 ∧ d.CrossedRange)

variable {p : Place} {d : Desc} {fs : List FrameDecl} {es : List Candidate} {s : VsState}

theorem frames_cons (x : Place × Desc) (xs : List (Place × Desc)) :
    frames (x :: xs) = frames [x] ++ frames xs := List.filterMap_append (l := [x])

theorem isochIns_cons (x : Place × Desc) (xs : List (Place × Desc)) :
    isochIns (x :: xs) = isochIns [x] ++ isochIns xs := List.filterMap_append (l := [x])

theorem frames_yes (h : IsVsFrame p d) : frames [(p, d)] = [frameDecl p d] := by
  simp [frames, h]

theorem frames_no (h : ¬ IsVsFrame p d) : frames [(p, d)] = [] := by
  simp [frames, h]

theorem isochIns_yes (h : IsIsochIn p d) : isochIns [(p, d)] = [epDecl p d] := by
  simp [isochIns, h]

theorem isochIns_no (h : ¬ IsIsochIn p d) : isochIns [(p, d)] = [] := by
  simp [isochIns, h]

/-- **A safe turn** goes through and keeps the invariant. -/
theorem vsStep_safe (hd : d.Within) (hinv : ScanInv prefs p fs es s) (hturn : TurnSafe prefs p d)
    (hbefore : checks = true → RanksFit fs)
    (hranks : checks = true → RanksFit (fs ++ frames [(p, d)])) :
    ∃ s', vsStep checks prefs d s = .ok s' ∧
      ScanInv prefs (p.next d) (fs ++ frames [(p, d)]) (es ++ isochIns [(p, d)]) s' := by
  by_cases hf : IsVsFrame p d
  · rw [frames_yes hf, isochIns_no hf.not_isochIn, List.append_nil, hf.next]
    rw [frames_yes hf] at hranks
    rcases vsStep_frame hd hinv.ctx hf checks prefs with
      ⟨hpref, hr, -⟩ | ⟨-, pick, hdescr, hstep⟩
    · exact absurd ⟨hpref, hr⟩ (hturn hf)
    · obtain ⟨s', hoffer, hctx, hisoch, hsame, hother⟩ := offer_ok checks prefs hdescr (hinv.held _)
        fun hc => (ranksFit_concat prefs (hbefore hc) _).mp (hranks hc)
      refine ⟨s', hstep.trans hoffer, hctx.trans hinv.ctx, fun k => ?_, ?_, ?_, ?_⟩
      · by_cases hk : k = (frameDecl p d).isMjpeg
        · rw [hk, ofKind_append, ofKind_same, firstMax_concat]
          exact hsame
        · have hk' : k = !(frameDecl p d).isMjpeg := Bool.eq_not.mpr hk
          rw [hk', ofKind_append, ofKind_other, List.append_nil, hother]
          exact hinv.held _
      · rw [hisoch]
        exact hinv.best
      · rw [hisoch]
        exact hinv.count
      · rw [hisoch]
        exact hinv.alts
  · by_cases he : IsIsochIn p d
    · rw [frames_no hf, isochIns_yes he, List.append_nil, he.next]
      obtain ⟨hcount, halts⟩ := keep_alts hinv.count hinv.alts (epDecl p d)
      refine ⟨_, vsStep_endpoint hd hinv.ctx he checks, hinv.ctx, hinv.held, ?_, hcount, halts⟩
      rw [firstMax_concat, ← hinv.best]
      exact keep_best _ _
    · rw [frames_no hf, isochIns_no he, List.append_nil, List.append_nil]
      exact ⟨_, vsStep_other hd hinv.ctx hf he checks, rfl, hinv.held, hinv.best, hinv.count,
        hinv.alts⟩

/-- **An unsafe turn** crashes. -/
theorem vsStep_crash (hd : d.Within) (hinv : ScanInv prefs p fs es s)
    (hbefore : checks = true → RanksFit fs)
    (hbad : ¬ (TurnSafe prefs p d ∧ (checks = true → RanksFit (fs ++ frames [(p, d)])))) :
    ∃ c, vsStep checks prefs d s = .error c := by
  by_cases hf : IsVsFrame p d
  · rw [frames_yes hf] at hbad
    rcases vsStep_frame hd hinv.ctx hf checks prefs with
      ⟨-, -, hcrash⟩ | ⟨hr, pick, hdescr, hstep⟩
    · exact ⟨_, hcrash⟩
    · have hranks := fun h => hbad ⟨fun _ => hr, h⟩
      obtain ⟨rfl, hbig⟩ := Classical.not_imp.mp hranks
      rw [ranksFit_concat prefs (hbefore rfl)] at hbig
      obtain ⟨b, hbig⟩ := not_forall.mp hbig
      obtain ⟨hb, hbig⟩ := Classical.not_imp.mp hbig
      have hheld := hinv.held (frameDecl p d).isMjpeg
      rw [hb] at hheld
      exact ⟨_, hstep.trans (offer_overflow hdescr hheld hbig)⟩
  · refine absurd ⟨fun h => absurd h hf, fun hc => ?_⟩ hbad
    rw [frames_no hf, List.append_nil]
    exact hbefore hc

/-- A run of the scan from `p` on goes through. -/
structure RunSafe (checks : Bool) (prefs : UvcPrefs) (p : Place) (fs : List FrameDecl)
    (ds : List Desc) : Prop where
  turns : ∀ x ∈ places p ds, TurnSafe prefs x.1 x.2
  ranks : checks = true → RanksFit (fs ++ frames (places p ds))

variable {ds : List Desc}

theorem runSafe_cons : RunSafe checks prefs p fs (d :: ds) ↔
    TurnSafe prefs p d ∧ RunSafe checks prefs (p.next d) (fs ++ frames [(p, d)]) ds := by
  have hframes : fs ++ frames (places p (d :: ds)) =
      fs ++ frames [(p, d)] ++ frames (places (p.next d) ds) := by
    rw [places, frames_cons, List.append_assoc]
  constructor
  · intro h
    refine ⟨h.turns _ List.mem_cons_self, fun x hx => h.turns x (List.mem_cons_of_mem _ hx), ?_⟩
    rw [← hframes]
    exact h.ranks
  · rintro ⟨hturn, hrest⟩
    refine ⟨fun x hx => ?_, ?_⟩
    · rcases List.mem_cons.mp hx with rfl | hx
      · exact hturn
      · exact hrest.turns x hx
    · rw [hframes]
      exact hrest.ranks

/-- The loop of `parse_uvc_video_stream`. -/
def vsRun (checks : Bool) (prefs : UvcPrefs) (ds : List Desc) (s : VsState) : Checked VsState :=
  ds.foldlM (fun s d => vsStep checks prefs d s) s

theorem vsRun_cons (checks : Bool) (prefs : UvcPrefs) (d : Desc) (ds : List Desc) (s : VsState) :
    vsRun checks prefs (d :: ds) s = (vsStep checks prefs d s).bind (vsRun checks prefs ds) := by
  unfold vsRun
  rw [List.foldlM_cons]
  rfl

/-- **A safe run** goes through and keeps the invariant. -/
theorem run_safe (hds : ∀ d ∈ ds, d.Within) (hinv : ScanInv prefs p fs es s)
    (hbefore : checks = true → RanksFit fs) (hsafe : RunSafe checks prefs p fs ds) :
    ∃ s' q, vsRun checks prefs ds s = .ok s' ∧
      ScanInv prefs q (fs ++ frames (places p ds)) (es ++ isochIns (places p ds)) s' := by
  induction ds generalizing p fs es s with
  | nil =>
      refine ⟨s, p, rfl, ?_⟩
      rw [places, frames, isochIns, List.filterMap_nil, List.filterMap_nil, List.append_nil,
        List.append_nil]
      exact hinv
  | cons d ds ih =>
      obtain ⟨hturn, hrest⟩ := runSafe_cons.mp hsafe
      have hranks := fun hc => (hrest.ranks hc).left
      obtain ⟨s', hstep, hinv'⟩ :=
        vsStep_safe (hds d List.mem_cons_self) hinv hturn hbefore hranks
      obtain ⟨s'', q, hrun, hinv''⟩ :=
        ih (fun e he => hds e (List.mem_cons_of_mem _ he)) hinv' hranks hrest
      refine ⟨s'', q, ?_, ?_⟩
      · rw [vsRun_cons, hstep]
        exact hrun
      · rw [places, frames_cons, isochIns_cons, ← List.append_assoc, ← List.append_assoc]
        exact hinv''

/-- **An unsafe run** crashes. -/
theorem run_crash (hds : ∀ d ∈ ds, d.Within) (hinv : ScanInv prefs p fs es s)
    (hbefore : checks = true → RanksFit fs) (hbad : ¬ RunSafe checks prefs p fs ds) :
    ∃ c, vsRun checks prefs ds s = .error c := by
  induction ds generalizing p fs es s with
  | nil =>
      refine absurd ⟨fun x hx => absurd hx List.not_mem_nil, fun hc => ?_⟩ hbad
      rw [places, frames, List.filterMap_nil, List.append_nil]
      exact hbefore hc
  | cons d ds ih =>
      have hd := hds d List.mem_cons_self
      rw [vsRun_cons]
      by_cases hturn : TurnSafe prefs p d ∧ (checks = true → RanksFit (fs ++ frames [(p, d)]))
      · obtain ⟨s', hstep, hinv'⟩ := vsStep_safe hd hinv hturn.1 hbefore hturn.2
        rw [hstep]
        exact ih (fun e he => hds e (List.mem_cons_of_mem _ he)) hinv' hturn.2
          fun hrest => hbad (runSafe_cons.mpr ⟨hturn.1, hrest⟩)
      · obtain ⟨c, hstep⟩ := vsStep_crash hd hinv hbefore hturn
        rw [hstep]
        exact ⟨c, rfl⟩

/-- **When a run has no crash.** -/
theorem run_ok_iff (hds : ∀ d ∈ ds, d.Within) (hinv : ScanInv prefs p fs es s)
    (hbefore : checks = true → RanksFit fs) :
    (∃ s', vsRun checks prefs ds s = .ok s') ↔ RunSafe checks prefs p fs ds := by
  constructor
  · rintro ⟨s', hrun⟩
    by_contra hbad
    obtain ⟨c, hcrash⟩ := run_crash hds hinv hbefore hbad
    rw [hrun] at hcrash
    cases hcrash
  · intro hsafe
    obtain ⟨s', q, hrun, -⟩ := run_safe hds hinv hbefore hsafe
    exact ⟨s', hrun⟩

/-- **The invariant of a run.** -/
theorem run_sound {s' : VsState} (hds : ∀ d ∈ ds, d.Within) (hinv : ScanInv prefs p fs es s)
    (hbefore : checks = true → RanksFit fs) (hrun : vsRun checks prefs ds s = .ok s') :
    ∃ q, ScanInv prefs q (fs ++ frames (places p ds)) (es ++ isochIns (places p ds)) s' := by
  obtain ⟨t, q, ht, hinv'⟩ :=
    run_safe hds hinv hbefore ((run_ok_iff hds hinv hbefore).mp ⟨s', hrun⟩)
  rw [hrun] at ht
  cases ht
  exact ⟨q, hinv'⟩

end Cvirtos.Usb.Uvc
