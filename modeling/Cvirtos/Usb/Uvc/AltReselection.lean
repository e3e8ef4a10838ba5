import Cvirtos.Usb.Uvc.StreamSelection

/-!
# The alternate setting for a payload

`reselect_isoch_alt_for_payload` after a parse.  Of the endpoint of the stream, the alternates of one
transaction a microframe are to be considered: the smallest packet that carries the payload, or else
the largest.  The table that is searched holds the first eight endpoints of all streams, whatever
their multiplier.

* `reselect_eq` — the two accumulators of the search keep the first alternate of the best fitness;
* `reselect_optimal_iff` — **when the search ends at a right alternate**;
* `reselect_optimal_single` — a camera with one stream, at most eight alternates and no multiplier.
-/

set_option autoImplicit false

namespace Cvirtos.Usb.Uvc

open Cvirtos.Lib Cvirtos.Usb.Dwc2

/-- One transaction a microframe: the bits 12:11 are clear. -/
def Candidate.single (e : Candidate) : Prop := e.mpsRaw &&& 0x1800 = 0

instance (e : Candidate) : Decidable e.single := inferInstanceAs (Decidable (_ = _))

/-- The endpoints of the selected number and interface. -/
def UvcStreamSelection.ownEndpoints (es : List Candidate) (sel : UvcStreamSelection) :
    List Candidate := es.filter fun e => e.epNum = sel.epNum ∧ e.ifc = sel.vsInterface

/-- A right alternate for `need`: of the endpoints of one transaction, the smallest packet of at
least `need` bytes or else the largest packet; the largest of all, if there are no such
endpoints. -/
def BestAlt (own : List Candidate) (need : Nat) (e : Candidate) : Prop :=
  e ∈ own ∧
    if ∃ x ∈ own, x.single then
      e.single ∧
        if ∃ x ∈ own, x.single ∧ need ≤ x.mps then
          need ≤ e.mps ∧ ∀ x ∈ own, x.single → need ≤ x.mps → e.mps ≤ x.mps
        else ∀ x ∈ own, x.single → x.mps ≤ e.mps
    else ∀ x ∈ own, x.mps ≤ e.mps

instance (own : List Candidate) (need : Nat) (e : Candidate) : Decidable (BestAlt own need e) := by
  unfold BestAlt
  infer_instance

/-- `sel'` is `sel` with `need` negotiated and a right alternate selected. -/
structure Reselected (es : List Candidate) (need : UInt32) (sel sel' : UvcStreamSelection) :
    Prop where
  best : BestAlt (sel.ownEndpoints es) need.toNat (sel.endpoint sel'.altSetting sel'.mpsRaw)
  frame : sel' = { sel with
    negotiatedPayloadSize := need, altSetting := sel'.altSetting, mpsRaw := sel'.mpsRaw }

/-- A packet of `a` bytes serves a payload of `need` better than one of `b`. -/
def Serves (need a b : Nat) : Prop :=
  need ≤ a ∧ (need ≤ b → a < b) ∨ a < need ∧ b < a

instance (need a b : Nat) : Decidable (Serves need a b) := inferInstanceAs (Decidable (_ ∨ _))

/-- One of the first eight endpoints has the alternate setting and the packet size of a right one; it
serves better than the ones before it, and none of those behind it serves better. -/
def TableServes (es : List Candidate) (need : Nat) (sel : UvcStreamSelection) : Prop :=
  let Right (x : Candidate) := BestAlt (sel.ownEndpoints es) need (sel.endpoint x.alt x.mpsRaw)
  ∃ before e after, es.take 8 = before ++ e :: after ∧ Right e ∧
    (∀ x ∈ before, ¬ Right x ∧ Serves need e.mps x.mps) ∧
    ∀ x ∈ after, ¬ Right x → ¬ Serves need x.mps e.mps

/-! ### The search -/

/-- The order of the search: the packets that carry the payload, the smallest best, and below them
the others, the largest best. -/
def fitness (need mps : Nat) : Int := if need ≤ mps then 4096 - mps else mps - 4096

theorem serves_iff {need a b : Nat} (ha : a ≤ 2047) (hb : b ≤ 2047) :
    Serves need a b ↔ fitness need b < fitness need a := by
  unfold Serves fitness
  split <;> split <;> omega

/-- What the two accumulators hold after the alternates `xs`. -/
structure SearchInv (need : Nat) (xs : List (UInt8 × UInt16))
    (best : Option AltPick × Option AltPick) : Prop where
  fit : ∀ p, best.1 = some p → p.total = wmaxMps p.mpsRaw ∧ need ≤ p.total
  large : ∀ p, best.2 = some p → p.total = wmaxMps p.mpsRaw
  unfit : best.1 = none → ∀ p, best.2 = some p → p.total < need
  chosen : (best.1.or best.2).map (fun p => (p.alt, p.mpsRaw)) =
    firstMax (fun x => fitness need (wmaxMps x.2)) xs

theorem fitness_fit {need mps : Nat} (h : need ≤ mps) : fitness need mps = 4096 - mps := if_pos h

theorem fitness_unfit {need mps : Nat} (h : ¬ need ≤ mps) : fitness need mps = mps - 4096 := if_neg h

section Step

variable {need : Nat} {xs : List (UInt8 × UInt16)} {best : Option AltPick × Option AltPick}

/-- An alternate as a pick. -/
def altPick (x : UInt8 × UInt16) : AltPick := ⟨x.1, x.2, wmaxMps x.2⟩

theorem considerAlt_large (need : Nat) (best : Option AltPick × Option AltPick)
    (x : UInt8 × UInt16) :
    (considerAlt need best x).2 = some (match best.2 with
      | none => altPick x
      | some p => if p.total < wmaxMps x.2 then altPick x else p) := rfl

theorem considerAlt_fit (best : Option AltPick × Option AltPick) {x : UInt8 × UInt16} (h : need ≤ wmaxMps x.2) :
    (considerAlt need best x).1 = some (match best.1 with
      | none => altPick x
      | some p => if p.total > wmaxMps x.2 then altPick x else p) := if_pos h

theorem considerAlt_unfit (best : Option AltPick × Option AltPick) {x : UInt8 × UInt16}
    (h : ¬ need ≤ wmaxMps x.2) :
    (considerAlt need best x).1 = best.1 := if_neg h

/-- The largest so far is the new alternate or the old one. -/
theorem large_cases {x : UInt8 × UInt16} {p : AltPick}
    (hp : (considerAlt need best x).2 = some p) : p = altPick x ∨ best.2 = some p := by
  rw [considerAlt_large] at hp
  cases hbest : best.2 with
  | none =>
    rw [hbest] at hp
    cases hp
    exact .inl rfl
  | some q =>
    rw [hbest] at hp
    dsimp only at hp
    split at hp
    · cases hp
      exact .inl rfl
    · exact .inr hp

/-- A packet that carries the payload is compared with the best fit. -/
theorem searchInv_fit (h : SearchInv need xs best) {x : UInt8 × UInt16}
    (hx : need ≤ wmaxMps x.2) : SearchInv need (xs ++ [x]) (considerAlt need best x) := by
  have hle := wmaxMps_le x.2
  have hlarge : ∀ p, (considerAlt need best x).2 = some p → p.total = wmaxMps p.mpsRaw := by
    intro p hp
    rcases large_cases hp with rfl | hold
    · rfl
    · exact h.large p hold
  have hchosen := h.chosen
  cases hbest : best.1 with
  | none =>
    have hfit := considerAlt_fit best hx
    rw [hbest] at hfit hchosen
    refine ⟨fun p hp => ?_, hlarge, fun hnone => ?_, ?_⟩
    · rw [hfit] at hp
      cases hp
      exact ⟨rfl, hx⟩
    · rw [hfit] at hnone
      cases hnone
    · rw [firstMax_concat, ← hchosen, hfit]
      cases hold : best.2 with
      | none => rfl
      | some q =>
        have hq := h.unfit hbest q hold
        have hqle := wmaxMps_le q.mpsRaw
        rw [h.large q hold] at hq
        have hlow : fitness need (wmaxMps q.mpsRaw) < fitness need (wmaxMps x.2) := by
          rw [fitness_fit hx, fitness_unfit (by omega)]
          omega
        show _ = better _ (some (q.alt, q.mpsRaw)) x
        rw [better_some, if_pos hlow]
        rfl
  | some p =>
    obtain ⟨htotal, hcarries⟩ := h.fit p hbest
    rw [htotal] at hcarries
    have hfit := considerAlt_fit best hx
    rw [hbest] at hfit hchosen
    dsimp only at hfit
    have hrank : better (fun x : UInt8 × UInt16 => fitness need (wmaxMps x.2))
        (some (p.alt, p.mpsRaw)) x = _ := better_some (p.alt, p.mpsRaw) x
    dsimp only at hrank
    rw [fitness_fit hx, fitness_fit hcarries] at hrank
    by_cases hlt : p.total > wmaxMps x.2
    · rw [if_pos hlt] at hfit
      rw [if_pos (by omega)] at hrank
      refine ⟨fun q hq => ?_, hlarge, fun hnone => ?_, ?_⟩
      · rw [hfit] at hq
        cases hq
        exact ⟨rfl, hx⟩
      · rw [hfit] at hnone
        cases hnone
      · rw [firstMax_concat, ← hchosen, hfit]
        exact hrank.symm
    · rw [if_neg hlt] at hfit
      rw [if_neg (by omega)] at hrank
      refine ⟨fun q hq => ?_, hlarge, fun hnone => ?_, ?_⟩
      · rw [hfit] at hq
        exact h.fit q (hbest.trans hq)
      · rw [hfit] at hnone
        cases hnone
      · rw [firstMax_concat, ← hchosen, hfit]
        exact hrank.symm

/-- Any other is compared with the largest only. -/
theorem searchInv_unfit (h : SearchInv need xs best) {x : UInt8 × UInt16}
    (hx : ¬ need ≤ wmaxMps x.2) : SearchInv need (xs ++ [x]) (considerAlt need best x) := by
  have hle := wmaxMps_le x.2
  have hfit := considerAlt_unfit best hx
  refine ⟨fun p hp => h.fit p (hfit ▸ hp), fun p hp => ?_, fun hnone p hp => ?_, ?_⟩
  · rcases large_cases hp with rfl | hold
    · rfl
    · exact h.large p hold
  · rcases large_cases hp with rfl | hold
    · exact Nat.lt_of_not_le hx
    · exact h.unfit (hfit ▸ hnone) p hold
  · have hchosen := h.chosen
    rw [firstMax_concat, ← hchosen, hfit]
    cases hbest : best.1 with
    | some p =>
      obtain ⟨htotal, hcarries⟩ := h.fit p hbest
      have hp := wmaxMps_le p.mpsRaw
      rw [htotal] at hcarries
      show some (p.alt, p.mpsRaw) = better _ (some (p.alt, p.mpsRaw)) x
      rw [better_some, fitness_unfit hx, fitness_fit hcarries, if_neg (by omega)]
    | none =>
      rw [considerAlt_large]
      cases hold : best.2 with
      | none => rfl
      | some q =>
        have hq := h.unfit hbest q hold
        have htotal := h.large q hold
        rw [htotal] at hq
        show some _ = better _ (some (q.alt, q.mpsRaw)) x
        rw [better_some, fitness_unfit hx, fitness_unfit (show ¬ need ≤ wmaxMps q.mpsRaw by omega)]
        dsimp only
        rw [htotal]
        by_cases hlt : wmaxMps q.mpsRaw < wmaxMps x.2
        · rw [if_pos hlt, if_pos (by omega)]
          rfl
        · rw [if_neg hlt, if_neg (by omega)]

end Step

/-- **The search keeps the first alternate of the best fitness.** -/
theorem search_chosen (need : Nat) (xs : List (UInt8 × UInt16)) :
    SearchInv need xs (xs.foldl (considerAlt need) (none, none)) := by
  induction xs using List.reverseRecOn with
  | nil => exact ⟨nofun, nofun, nofun, rfl⟩
  | append_singleton xs x ih =>
      rw [List.foldl_append]
      by_cases hx : need ≤ wmaxMps x.2
      · exact searchInv_fit ih hx
      · exact searchInv_unfit ih hx

/-- A re-selection with a table that is not empty. -/
theorem reselect_eq {sel : UvcStreamSelection} {x : UInt8 × UInt16}
    (hcount : sel.isochAltsCount.toNat ≤ 8) (hneed : sel.negotiatedPayloadSize ≠ 0)
    (hx : firstMax (fun x => fitness sel.negotiatedPayloadSize.toNat (wmaxMps x.2))
      (sel.isochAlts.toList.take sel.isochAltsCount.toNat) = some x) :
    sel.reselectIsochAltForPayload = .ok { sel with altSetting := x.1, mpsRaw := x.2 } := by
  have hnonzero : sel.isochAltsCount ≠ 0 := by
    intro h0
    rw [h0] at hx
    cases hx
  have hchosen := (search_chosen sel.negotiatedPayloadSize.toNat
    (sel.isochAlts.toList.take sel.isochAltsCount.toNat)).chosen
  rw [hx] at hchosen
  obtain ⟨pick, hpick, hpair⟩ := Option.map_eq_some_iff.mp hchosen
  unfold UvcStreamSelection.reselectIsochAltForPayload
  rw [if_neg hnonzero, if_neg hneed, if_neg (by omega)]
  dsimp only
  rw [hpick]
  dsimp only [Option.getD_some]
  rw [← hpair]
  split
  · rfl
  · rename_i hsame
    obtain ⟨halt, hmps⟩ := not_or.mp hsame
    rw [not_not.mp halt, not_not.mp hmps]

/-! ### The alternate found -/

variable {es : List Candidate} {sel : UvcStreamSelection}

/-- Right alternates have packets of one size. -/
theorem BestAlt.mps_eq {own : List Candidate} {need : Nat} {e e' : Candidate}
    (h : BestAlt own need e) (h' : BestAlt own need e') : e.mps = e'.mps := by
  obtain ⟨hmem, h⟩ := h
  obtain ⟨hmem', h'⟩ := h'
  by_cases hsingle : ∃ x ∈ own, x.single
  · rw [if_pos hsingle] at h h'
    obtain ⟨hs, h⟩ := h
    obtain ⟨hs', h'⟩ := h'
    by_cases hcarries : ∃ x ∈ own, x.single ∧ need ≤ x.mps
    · rw [if_pos hcarries] at h h'
      exact Nat.le_antisymm (h.2 e' hmem' hs' h'.1) (h'.2 e hmem hs h.1)
    · rw [if_neg hcarries] at h h'
      exact Nat.le_antisymm (h' e hmem hs) (h e' hmem' hs')
  · rw [if_neg hsingle] at h h'
    exact Nat.le_antisymm (h' e hmem) (h e' hmem')

theorem mps_le (e : Candidate) : e.mps ≤ 2047 := wmaxMps_le e.mpsRaw

/-- The search ends at the fittest of the first eight endpoints. -/
theorem reselect_first {checks : Bool} {cfg : List UInt8} {cfgTotal : Nat} {prefs : UvcPrefs}
    (hsel : parseUvcVideoStream checks cfg cfgTotal prefs = .ok (.ok sel)) {need : UInt32}
    (hneed : need ≠ 0) :
    ∃ e, FirstMax (fun e : Candidate => fitness need.toNat e.mps)
        ((isochIns (places .new (scanned cfg cfgTotal))).take 8) e ∧
      ({ sel with negotiatedPayloadSize := need } :
          UvcStreamSelection).reselectIsochAltForPayload =
        .ok { sel with negotiatedPayloadSize := need, altSetting := e.alt, mpsRaw := e.mpsRaw } := by
  obtain ⟨s, p, hinv, hselect⟩ := parseUvcVideoStream_scan hsel
  obtain ⟨win, best, hselected⟩ := select_selected hinv hselect
  have hcount := select_count hinv hselect
  have hne : (isochIns (places .new (scanned cfg cfgTotal))).take 8 ≠ [] := by
    have := List.length_pos_of_mem hselected.endpointMax.mem
    rw [Ne, ← List.length_eq_zero_iff, List.length_take]
    omega
  cases hfirst : firstMax (fun e : Candidate => fitness need.toNat e.mps)
      ((isochIns (places .new (scanned cfg cfgTotal))).take 8) with
  | none => exact absurd (firstMax_eq_none.mp hfirst) hne
  | some e =>
    refine ⟨e, firstMax_eq_some.mp hfirst, ?_⟩
    refine reselect_eq (x := (e.alt, e.mpsRaw)) (by show sel.isochAltsCount.toNat ≤ 8; omega) hneed ?_
    show firstMax _ (sel.isochAlts.toList.take sel.isochAltsCount.toNat) = _
    rw [hselected.alts, firstMax_map]
    exact congrArg (Option.map _) hfirst

/-- **When the search ends at a right alternate.** -/
theorem reselect_optimal_iff (checks : Bool) (cfg : List UInt8) (cfgTotal : Nat) (prefs : UvcPrefs)
    (sel : UvcStreamSelection)
    (hsel : parseUvcVideoStream checks cfg cfgTotal prefs = .ok (.ok sel)) (need : UInt32)
    (hneed : need ≠ 0) :
    (∃ sel', ({ sel with negotiatedPayloadSize := need } :
          UvcStreamSelection).reselectIsochAltForPayload = .ok sel' ∧
        Reselected (isochIns (places .new (scanned cfg cfgTotal))) need sel sel') ↔
      TableServes (isochIns (places .new (scanned cfg cfgTotal))) need.toNat sel := by
  obtain ⟨e, hfirst, hres⟩ := reselect_first hsel hneed
  have hright := hfirst.mem_iff (D := fun x => BestAlt
    (sel.ownEndpoints (isochIns (places .new (scanned cfg cfgTotal)))) need.toNat
    (sel.endpoint x.alt x.mpsRaw)) fun x _ y _ hx hy => by
      have heq := hx.mps_eq hy
      change x.mps = y.mps at heq
      rw [heq]
  have hserves (a b : Candidate) : Serves need.toNat a.mps b.mps ↔ _ :=
    serves_iff (mps_le a) (mps_le b)
  have htable : TableServes (isochIns (places .new (scanned cfg cfgTotal))) need.toNat sel ↔
      BestAlt (sel.ownEndpoints (isochIns (places .new (scanned cfg cfgTotal)))) need.toNat
        (sel.endpoint e.alt e.mpsRaw) := by
    rw [hright]
    unfold TableServes
    simp only [hserves, Int.not_lt]
  rw [htable]
  constructor
  · rintro ⟨sel', hok, hbest, -⟩
    rw [hres] at hok
    cases hok
    exact hbest
  · intro hbest
    exact ⟨_, hres, hbest, rfl⟩

theorem reselect_optimal_oneStream :
    ∃ sel', ({ mjpegFrom 1 512 1 firstAlt with negotiatedPayloadSize := 400 } :
          UvcStreamSelection).reselectIsochAltForPayload = .ok sel' ∧
        Reselected (isochIns (places .new (scanned oneStream 75))) 400
          (mjpegFrom 1 512 1 firstAlt) sel' :=
  (reselect_optimal_iff false oneStream 75 vgaPrefs _ (by decide +kernel) 400 (by decide)).mpr
    ⟨[], ⟨1, 1, 512, 1⟩, [], by decide +kernel, by decide +kernel, nofun, nofun⟩

/-- An MJPEG stream whose second alternate has 1024 bytes three times a microframe. -/
def highBandwidth : List UInt8 :=
  [9, 2, 91, 0, 2, 1, 0, 0x80, 50] ++ mjpegStream ++
  [9, 4, 1, 2, 1, 0x0E, 2, 0, 0] ++ [7, 5, 0x81, 5, 0, 0x14, 1]

/-- The table of the alternates 1, of 512 bytes, and `alt`, of `mpsRaw`. -/
def secondAlt (alt : UInt8) (mpsRaw : UInt16) : Vector (UInt8 × UInt16) 8 :=
  firstAlt.set 1 (alt, mpsRaw)

/-- **A wrong alternate**: for 800 bytes the one of three transactions is selected, and with two
streams, for 400 bytes, an alternate of the other endpoint. -/
theorem highBandwidth_selected :
    (∃ sel, parseUvcVideoStream false highBandwidth 91 vgaPrefs = .ok (.ok sel) ∧
      ¬ ∃ sel', ({ sel with negotiatedPayloadSize := 800 } :
          UvcStreamSelection).reselectIsochAltForPayload = .ok sel' ∧
        Reselected (isochIns (places .new (scanned highBandwidth 91))) 800 sel sel') ∧
    ∃ sel, parseUvcVideoStream false twoStreams 141 vgaPrefs = .ok (.ok sel) ∧
      ¬ ∃ sel', ({ sel with negotiatedPayloadSize := 400 } :
          UvcStreamSelection).reselectIsochAltForPayload = .ok sel' ∧
        Reselected (isochIns (places .new (scanned twoStreams 141))) 400 sel sel' := by
  constructor
  · refine ⟨{ mjpegFrom 1 0x1400 2 (secondAlt 2 0x1400) with altSetting := 2 },
      by decide +kernel, ?_⟩
    rintro ⟨sel', hok, hbest, -⟩
    rw [reselect_eq (x := (2, 0x1400)) (by decide) (by decide) (by decide +kernel)] at hok
    cases hok
    exact absurd hbest (by decide +kernel)
  · refine ⟨mjpegFrom 2 1024 2 (secondAlt 1 1024), by decide +kernel, ?_⟩
    rintro ⟨sel', hok, hbest, -⟩
    rw [reselect_eq (x := (1, 512)) (by decide) (by decide) (by decide +kernel)] at hok
    cases hok
    exact absurd hbest (by decide +kernel)

/-- The fittest of endpoints of one transaction is right. -/
theorem bestAlt_of_first {own : List Candidate} {need : Nat} {e : Candidate}
    (hsingle : ∀ x ∈ own, x.single) (h : FirstMax (fun e : Candidate => fitness need e.mps) own e) :
    BestAlt own need e := by
  have hmem := h.mem
  refine ⟨hmem, ?_⟩
  rw [if_pos ⟨e, hmem, hsingle e hmem⟩]
  refine ⟨hsingle e hmem, ?_⟩
  have he := mps_le e
  by_cases hcarries : ∃ x ∈ own, x.single ∧ need ≤ x.mps
  · rw [if_pos hcarries]
    obtain ⟨y, hy, -, hneed⟩ := hcarries
    have hfit : need ≤ e.mps := by
      refine Classical.byContradiction fun hlow => ?_
      have hle := h.le y hy
      rw [fitness_fit hneed, fitness_unfit hlow] at hle
      have := mps_le y
      omega
    refine ⟨hfit, fun x hx _ hxneed => ?_⟩
    have hle := h.le x hx
    rw [fitness_fit hxneed, fitness_fit hfit] at hle
    omega
  · rw [if_neg hcarries]
    intro x hx hs
    have hle := h.le x hx
    rw [fitness_unfit fun hx' => hcarries ⟨x, hx, hs, hx'⟩,
      fitness_unfit fun he' => hcarries ⟨e, hmem, hsingle e hmem, he'⟩] at hle
    omega

/-- **A camera with one stream**, of at most eight alternates of one transaction. -/
theorem reselect_optimal_single {checks : Bool} {cfg : List UInt8} {cfgTotal : Nat}
    {prefs : UvcPrefs} {i n : UInt8}
    (hes : ∀ e ∈ isochIns (places .new (scanned cfg cfgTotal)),
      e.ifc = i ∧ e.epNum = n ∧ e.single)
    (hlen : (isochIns (places .new (scanned cfg cfgTotal))).length ≤ 8)
    (hsel : parseUvcVideoStream checks cfg cfgTotal prefs = .ok (.ok sel)) {need : UInt32}
    (hneed : need ≠ 0) :
    ∃ sel', ({ sel with negotiatedPayloadSize := need } :
          UvcStreamSelection).reselectIsochAltForPayload = .ok sel' ∧
        Reselected (isochIns (places .new (scanned cfg cfgTotal))) need sel sel' := by
  obtain ⟨e, hfirst, hres⟩ := reselect_first hsel hneed
  obtain ⟨win, best, hselected⟩ := parseUvcVideoStream_selected hsel
  obtain ⟨hbi, hbn, -⟩ := hes best hselected.endpointMax.mem
  rw [hselected.endpoint] at hbi hbn
  change sel.vsInterface = i at hbi
  change sel.epNum = n at hbn
  have hown : sel.ownEndpoints (isochIns (places .new (scanned cfg cfgTotal))) =
      isochIns (places .new (scanned cfg cfgTotal)) := by
    unfold UvcStreamSelection.ownEndpoints
    rw [List.filter_eq_self]
    intro x hx
    obtain ⟨hxi, hxn, -⟩ := hes x hx
    rw [hxi, hxn, hbi, hbn]
    simp
  rw [List.take_of_length_le hlen] at hfirst
  obtain ⟨hei, hen, -⟩ := hes e hfirst.mem
  have hsame : sel.endpoint e.alt e.mpsRaw = e := by
    unfold UvcStreamSelection.endpoint
    rw [hbi, hbn, ← hei, ← hen]
  refine ⟨_, hres, ?_, rfl⟩
  rw [hown]
  show BestAlt _ _ (sel.endpoint e.alt e.mpsRaw)
  rw [hsame]
  exact bestAlt_of_first (fun x hx => (hes x hx).2.2) hfirst

end Cvirtos.Usb.Uvc
