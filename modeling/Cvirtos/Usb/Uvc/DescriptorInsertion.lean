import Cvirtos.Lib.Records
import Cvirtos.Usb.Uvc.DescriptorSafety

/-!
# Unknown descriptors

A configuration into which descriptors of unknown types have been put.  The scans look at a
descriptor through its own bytes only, so a configuration is to them a stream of length-prefixed
records, and the stream does not depend on where its records stand.

* `vsStep_same`, `vcStep_same` — a turn depends on nothing but the bytes of its descriptor;
* `scanDescs_records` — **a scan is a fold over the records of the configuration**;
* `unknown_transparent` — **both parsers return the same with and without unknown descriptors**.
-/

set_option autoImplicit false

namespace Cvirtos.Usb.Uvc

open Cvirtos.Lib Cvirtos.Usb.Dwc2

/-! ### The bytes of a descriptor -/

namespace Desc

/-- The descriptor on its own. -/
def of (x : List UInt8) : Desc := ⟨x, 0, x.length⟩

/-- The bytes of the descriptor. -/
def bytes (d : Desc) : List UInt8 := (d.buf.drop d.base).take d.len

/-- Two descriptors of the same bytes. -/
structure Same (d e : Desc) : Prop where
  len : d.len = e.len
  byteAt : ∀ off < d.len, Uvc.byteAt d.buf (d.base + off) = Uvc.byteAt e.buf (e.base + off)
  header : 2 ≤ d.len

theorem Within.same_of_bytes {d : Desc} (hd : d.Within) : d.Same (of d.bytes) where
  len := by
    have := hd.fits
    simp only [of, bytes, List.length_take, List.length_drop]
    omega
  byteAt off hoff := by
    unfold Uvc.byteAt
    simp only [of, bytes, Nat.zero_add]
    rw [List.getElem?_take_of_lt hoff, List.getElem?_drop]
  header := hd.header

variable {d e : Desc}

theorem Same.ty (h : d.Same e) : d.ty = e.ty := h.byteAt 1 h.header

theorem Same.u8 (h : d.Same e) (off : Nat) : d.u8 off = e.u8 off := by
  unfold Desc.u8
  rw [← h.len]
  split
  · rename_i hoff
    rw [h.byteAt off hoff]
  · rfl

theorem Same.u8Or (h : d.Same e) (off : Nat) (dflt : UInt8) : d.u8Or off dflt = e.u8Or off dflt := by
  unfold Desc.u8Or
  rw [h.u8]

theorem Same.u16le (h : d.Same e) (off : Nat) : d.u16le off = e.u16le off := by
  unfold Desc.u16le
  rw [← h.len]
  split
  · rw [h.byteAt off (by omega), Nat.add_assoc, h.byteAt (off + 1) (by omega), Nat.add_assoc]
  · rfl

theorem Same.u32le (h : d.Same e) (off : Nat) : d.u32le off = e.u32le off := by
  unfold Desc.u32le
  rw [← h.len]
  split
  · rw [h.byteAt off (by omega), Nat.add_assoc, h.byteAt (off + 1) (by omega), Nat.add_assoc,
      h.byteAt (off + 2) (by omega), Nat.add_assoc, h.byteAt (off + 3) (by omega), Nat.add_assoc,
      Nat.add_assoc, Nat.add_assoc]
  · rfl

end Desc

/-! ### Turns -/

section

variable {d e : Desc} (h : d.Same e)

include h

theorem forIvals_same {σ : Type} (f : UInt32 → σ → Checked σ) (remaining k : Nat) (s : σ) :
    forIvals d f remaining k s = forIvals e f remaining k s := by
  induction remaining generalizing k s with
  | zero => rfl
  | succ remaining ih =>
      unfold forIvals
      rw [h.u32le]
      simp only [ih]

theorem chooseFrameInterval_same (dfltIval : UInt32) (ivalType : UInt8) (pref : UInt32) :
    chooseFrameInterval d dfltIval ivalType pref = chooseFrameInterval e dfltIval ivalType pref := by
  unfold chooseFrameInterval clampInterval
  simp only [h.len, h.u32le, forIvals_same h]

theorem parseVsFrame_same (st fmtIx : UInt8) (prefTicks : UInt32) :
    parseVsFrame d st fmtIx prefTicks = parseVsFrame e st fmtIx prefTicks := by
  unfold parseVsFrame minInterval logIntervals
  simp only [h.u8, h.u16le, h.u32le, h.len, forIvals_same h, chooseFrameInterval_same h]

theorem vsStep_same (checks : Bool) (prefs : UvcPrefs) (s : VsState) :
    vsStep checks prefs d s = vsStep checks prefs e s := by
  unfold vsStep Ctx.enter Ctx.format IsochCandidates.consider
  simp only [h.ty, h.u8, h.u8Or, h.u16le, h.len, parseVsFrame_same h]

theorem vcStep_same (s : VcState) : vcStep d s = vcStep e s := by
  unfold vcStep VcState.inputTerminal VcState.processingUnit bmControls
  simp only [h.ty, h.u8, h.u8Or, h.u16le, h.len]

end

/-! ### Scans -/

theorem length_drop_take {cfg : List UInt8} {len : Nat} (hlen : len ≤ cfg.length) (i : Nat) :
    ((cfg.take len).drop i).length = len - i := by
  rw [List.length_drop, List.length_take, Nat.min_eq_left hlen]

theorem drop_take_cons {cfg : List UInt8} {len i : Nat} (hlen : len ≤ cfg.length) (hi : i < len) :
    (cfg.take len).drop i = cfg[i] :: (cfg.take len).drop (i + 1) := by
  rw [List.drop_eq_getElem_cons (by rw [List.length_take]; omega), List.getElem_take]

/-- The descriptor at the front of what is left is its first record. -/
theorem new_record {cfg : List UInt8} {len i : Nat} {d : Desc} (hlen : len ≤ cfg.length)
    (hd : Desc.new cfg i len = some d) :
    IsRecord 1 d.bytes ∧ d.bytes = ((cfg.take len).drop i).take d.len := by
  obtain ⟨hbuf, hbase, hheader, hfits⟩ := Desc.new_len hd
  have hbytes : d.bytes = ((cfg.take len).drop i).take d.len := by
    unfold Desc.bytes
    rw [hbuf, hbase, List.drop_take, List.take_take, Nat.min_eq_left (by omega)]
  have hlength : d.bytes.length = d.len := by
    rw [hbytes, List.length_take, length_drop_take hlen, Nat.min_eq_left (by omega)]
  refine ⟨⟨?_, by omega⟩, hbytes⟩
  have hfirst : cfg[i].toNat = d.len := by
    unfold Desc.new at hd
    rw [List.getElem?_eq_getElem (by omega)] at hd
    dsimp only at hd
    split at hd
    · cases hd
    · exact congrArg Desc.len (Option.some.inj hd)
  obtain ⟨n, hn⟩ := Nat.exists_eq_add_of_le hheader
  rw [hlength, hbytes, drop_take_cons hlen (by omega), hn, Nat.add_comm 2 n, List.take_succ_cons,
    List.headD_cons, hfirst]
  omega

/-- Where there is no descriptor there is no record. -/
theorem new_no_record {cfg : List UInt8} {len i : Nat} (hlen : len ≤ cfg.length) (hi : i < len)
    (hd : Desc.new cfg i len = none) : records 1 ((cfg.take len).drop i) = [] := by
  unfold Desc.new at hd
  rw [List.getElem?_eq_getElem (by omega)] at hd
  dsimp only at hd
  split at hd
  · rename_i hbad
    rw [drop_take_cons hlen hi]
    apply records_cons_short
    rw [length_drop_take hlen]
    omega
  · cases hd

/-- The descriptors that a scan goes through are the records of the configuration. -/
theorem descs_bytes {cfg : List UInt8} {len : Nat} (hlen : len ≤ cfg.length) (i : Nat) :
    (descs cfg len i).map Desc.bytes = records 1 ((cfg.take len).drop i) := by
  fun_induction descs cfg len i with
  | case1 i hi hd => exact (new_no_record hlen (by omega) hd).symm
  | case2 i hi d hd ih =>
      obtain ⟨hrecord, hbytes⟩ := new_record hlen hd
      rw [List.map_cons, ih, ← records_append hrecord, hbytes, ← List.drop_drop,
        List.take_append_drop]
  | case3 i hi =>
      -- at most one byte is left
      have hleft : ((cfg.take len).drop i).length ≤ 1 := by
        rw [length_drop_take hlen]
        omega
      cases hrest : (cfg.take len).drop i with
      | nil =>
          rw [records]
          rfl
      | cons b bs =>
          rw [hrest] at hleft
          have hbs : bs = [] := by simpa using hleft
          rw [hbs, records_cons_short]
          · rfl
          · simp only [List.length_nil]
            omega

/-- **A scan is a fold over the records of the configuration.** -/
theorem scanDescs_records {σ : Type} {step : Desc → σ → Checked σ}
    (hstep : ∀ d e s, d.Same e → step d s = step e s) {cfg : List UInt8} {len : Nat}
    (hlen : len ≤ cfg.length) (i : Nat) (s : σ) :
    scanDescs step cfg len i s =
      (records 1 ((cfg.take len).drop i)).foldlM (fun s x => step (.of x) s) s := by
  have hwithin := descs_within hlen i
  rw [scanDescs_eq, ← descs_bytes hlen, List.foldlM_map]
  generalize descs cfg len i = ds at hwithin
  induction ds generalizing s with
  | nil => rfl
  | cons d ds ih =>
      obtain ⟨hd, hds⟩ := List.forall_mem_cons.mp hwithin
      rw [List.foldlM_cons, List.foldlM_cons, hstep d _ s hd.same_of_bytes]
      refine congrArg _ ?_
      funext s'
      exact ih s' hds

/-! ### Insertions -/

/-- The walk over the descriptors from `i` on reaches the boundary `j`. -/
inductive Reaches (cfg : List UInt8) (len : Nat) : Nat → Nat → Prop
  | here (i : Nat) : Reaches cfg len i i
  | next (i j : Nat) (d : Desc) : i + 2 ≤ len → Desc.new cfg i len = some d →
      Reaches cfg len (i + d.len) j → Reaches cfg len i j

/-- A descriptor of a type the parsers do not know. -/
structure UnknownDesc (x : List UInt8) : Prop where
  bLength : (x.headD 0).toNat = x.length
  header : 2 ≤ x.length
  interface : x.getD 1 0 ≠ USB_DT_INTERFACE
  endpoint : x.getD 1 0 ≠ USB_DT_ENDPOINT
  csInterface : x.getD 1 0 ≠ CS_INTERFACE

/-- The configuration with the descriptors put in at `i`. -/
def insertDescs (cfg : List UInt8) (i : Nat) (xs : List (List UInt8)) : List UInt8 :=
  cfg.take i ++ (xs.flatten ++ cfg.drop i)

theorem UnknownDesc.isRecord {x : List UInt8} (hx : UnknownDesc x) : IsRecord 1 x :=
  ⟨hx.bLength, hx.header⟩

theorem UnknownDesc.ty {x : List UInt8} (hx : UnknownDesc x) : (Desc.of x).ty = .ok (x.getD 1 0) := by
  have h1 : 1 < x.length := hx.header
  show byteAt x (0 + 1) = _
  unfold byteAt
  rw [List.getD_eq_getElem?_getD, List.getElem?_eq_getElem h1]
  rfl

/-- A turn on an unknown descriptor changes nothing. -/
theorem vsStep_unknown {x : List UInt8} (hx : UnknownDesc x) (checks : Bool) (prefs : UvcPrefs)
    (s : VsState) : vsStep checks prefs (.of x) s = .ok s := by
  unfold vsStep
  rw [hx.ty]
  change (if x.getD 1 0 = USB_DT_INTERFACE ∧ _ then _ else _) = _
  rw [if_neg fun h => hx.interface h.1, if_neg fun h => hx.csInterface h.1,
    if_neg fun h => hx.endpoint h.1]
  rfl

theorem vcStep_unknown {x : List UInt8} (hx : UnknownDesc x) (s : VcState) :
    vcStep (.of x) s = .ok s := by
  unfold vcStep
  rw [hx.ty]
  change (if x.getD 1 0 = USB_DT_INTERFACE ∧ _ then _ else _) = _
  rw [if_neg fun h => hx.interface h.1, if_neg fun h => hx.csInterface h.1]
  rfl

variable {cfg : List UInt8} {len i j : Nat} {ins : List (List UInt8)}

/-- **What the walk has passed** is a run of records. -/
theorem Reaches.passed (h : Reaches cfg len i j) (hlen : len ≤ cfg.length) (hi : i ≤ len) :
    ∃ xs : List (List UInt8), (∀ x ∈ xs, IsRecord 1 x) ∧ i ≤ j ∧ j ≤ len ∧
      (cfg.take len).drop i = xs.flatten ++ (cfg.take len).drop j := by
  induction h with
  | here i => exact ⟨[], fun x hx => absurd hx List.not_mem_nil, Nat.le_refl i, hi, rfl⟩
  | next i j d hroom hd _ ih =>
      obtain ⟨hrecord, hbytes⟩ := new_record hlen hd
      obtain ⟨-, -, -, hfits⟩ := Desc.new_len hd
      obtain ⟨xs, hxs, hij, hj, hsplit⟩ := ih (by omega)
      refine ⟨d.bytes :: xs, List.forall_mem_cons.mpr ⟨hrecord, hxs⟩, by omega, hj, ?_⟩
      rw [List.flatten_cons, List.append_assoc, ← hsplit, hbytes, ← List.drop_drop,
        List.take_append_drop]

theorem length_insertDescs (cfg : List UInt8) (j : Nat) (ins : List (List UInt8)) :
    (insertDescs cfg j ins).length = cfg.length + ins.flatten.length := by
  simp only [insertDescs, List.length_append, List.length_take, List.length_drop]
  omega

/-- What the walk finds in the longer configuration: the inserted descriptors stand in front of what
is behind the boundary. -/
theorem insertDescs_split {xs : List UInt8} (hij : i ≤ j) (hj : j ≤ len) (hlen : len ≤ cfg.length)
    (hsplit : (cfg.take len).drop i = xs ++ (cfg.take len).drop j) :
    ((insertDescs cfg j ins).take (len + ins.flatten.length)).drop i =
      xs ++ (ins.flatten ++ (cfg.take len).drop j) := by
  have hfront : (cfg.take j).length = j := by
    rw [List.length_take]
    omega
  have hins : len + ins.flatten.length - j = ins.flatten.length + (len - j) := by omega
  have htake : (insertDescs cfg j ins).take (len + ins.flatten.length) =
      cfg.take j ++ (ins.flatten ++ (cfg.take len).drop j) := by
    have hall : (cfg.take j).take (len + ins.flatten.length) = cfg.take j :=
      List.take_of_length_le (by omega)
    unfold insertDescs
    rw [List.take_append, hall, hfront, hins, List.take_length_add_append, List.drop_take]
  have hwhole : (cfg.take len).drop i = (cfg.take j).drop i ++ (cfg.take len).drop j := by
    have hcut : cfg.take len = cfg.take j ++ (cfg.take len).drop j := by
      conv_lhs => rw [← List.take_append_drop j (cfg.take len), List.take_take, Nat.min_eq_left hj]
    conv_lhs => rw [hcut]
    exact List.drop_append_of_le_length (by omega)
  have hxs : (cfg.take j).drop i = xs := List.append_cancel_right (hwhole.symm.trans hsplit)
  rw [htake, List.drop_append_of_le_length (by omega), hxs]

theorem foldlM_unknown {σ : Type} {step : Desc → σ → Checked σ}
    (hunknown : ∀ x, UnknownDesc x → ∀ s, step (.of x) s = .ok s) (hins : ∀ x ∈ ins, UnknownDesc x)
    (s : σ) : ins.foldlM (fun s x => step (.of x) s) s = .ok s := by
  induction ins with
  | nil => rfl
  | cons x ins ih =>
      obtain ⟨hx, hins⟩ := List.forall_mem_cons.mp hins
      rw [List.foldlM_cons, hunknown x hx]
      exact ih hins

/-- **A scan sees nothing of unknown descriptors.** -/
theorem scanDescs_insert {σ : Type} {step : Desc → σ → Checked σ}
    (hstep : ∀ d e s, d.Same e → step d s = step e s)
    (hunknown : ∀ x, UnknownDesc x → ∀ s, step (.of x) s = .ok s) (hins : ∀ x ∈ ins, UnknownDesc x)
    (hlen : len ≤ cfg.length) (hi : i ≤ len) (hreach : Reaches cfg len i j) (s : σ) :
    scanDescs step (insertDescs cfg j ins) (len + ins.flatten.length) i s =
      scanDescs step cfg len i s := by
  obtain ⟨xs, hxs, hij, hj, hsplit⟩ := hreach.passed hlen hi
  have hroom : len + ins.flatten.length ≤ (insertDescs cfg j ins).length := by
    rw [length_insertDescs]
    omega
  rw [scanDescs_records hstep hroom, scanDescs_records hstep hlen,
    insertDescs_split hij hj hlen hsplit, hsplit, records_flatten_append hxs,
    records_flatten_append hxs, records_flatten_append fun x hx => (hins x hx).isRecord,
    List.foldlM_append, List.foldlM_append]
  refine congrArg _ ?_
  funext s'
  rw [List.foldlM_append, foldlM_unknown hunknown hins]
  rfl

/-- A configuration with a descriptor behind its header is long enough, and its header has a
length. -/
theorem scanned_header {cfg : List UInt8} {cfgTotal : Nat} (hsome : scanned cfg cfgTotal ≠ []) :
    12 ≤ min cfgTotal cfg.length ∧ (cfg.getD 0 0).toNat < min cfgTotal cfg.length ∧
      0 < (cfg.getD 0 0).toNat := by
  unfold scanned at hsome
  dsimp only at hsome
  split at hsome
  · exact absurd rfl hsome
  · rename_i hlen
    obtain ⟨hlen, hfirst⟩ := not_or.mp hlen
    refine ⟨by omega, by omega, Nat.pos_of_ne_zero fun h0 => hsome ?_⟩
    apply descs_none
    rw [h0]
    unfold Desc.new
    rw [List.getElem?_eq_getElem (by omega)]
    have hzero : cfg[0].toNat = 0 := by
      rw [List.getD_eq_getElem?_getD, List.getElem?_eq_getElem (by omega)] at h0
      exact h0
    dsimp only
    rw [if_pos (.inl (by omega))]

/-- **Unknown descriptors change nothing.** -/
theorem unknown_transparent (checks : Bool) (cfg : List UInt8) (cfgTotal : Nat) (prefs : UvcPrefs)
    (j : Nat) (ins : List (List UInt8)) (hsome : scanned cfg cfgTotal ≠ [])
    (hreach : Reaches cfg (min cfgTotal cfg.length) (cfg.getD 0 0).toNat j)
    (hins : ∀ x ∈ ins, UnknownDesc x) :
    parseUvcVideoStream checks (insertDescs cfg j ins) (cfgTotal + ins.flatten.length) prefs =
        parseUvcVideoStream checks cfg cfgTotal prefs ∧
      parseUvcControlEntities (insertDescs cfg j ins) (cfgTotal + ins.flatten.length) =
        parseUvcControlEntities cfg cfgTotal := by
  obtain ⟨hlong, hfirst, hpos⟩ := scanned_header hsome
  have hle : min cfgTotal cfg.length ≤ cfg.length := Nat.min_le_right _ _
  obtain ⟨-, -, hij, hj, -⟩ := hreach.passed hle (Nat.le_of_lt hfirst)
  have hlen : min (cfgTotal + ins.flatten.length) (insertDescs cfg j ins).length =
      min cfgTotal cfg.length + ins.flatten.length := by
    rw [length_insertDescs, Nat.add_min_add_right]
  have hhead : byteAt (insertDescs cfg j ins) 0 = .ok (cfg.getD 0 0) := by
    rw [← byteAt_first (Nat.not_lt.mpr hlong) hle]
    unfold byteAt insertDescs
    rw [List.getElem?_append_left (by rw [List.length_take]; omega), List.getElem?_take_of_lt (by omega)]
  have hfirst' : ¬ (cfg.getD 0 0).toNat ≥ min cfgTotal cfg.length + ins.flatten.length := by omega
  have hfirst : ¬ (cfg.getD 0 0).toNat ≥ min cfgTotal cfg.length := by omega
  have hlong' : ¬ min cfgTotal cfg.length + ins.flatten.length < 12 := by omega
  have hlong : ¬ min cfgTotal cfg.length < 12 := by omega
  constructor
  · unfold parseUvcVideoStream
    dsimp only
    rw [hlen, if_neg hlong', if_neg hlong, hhead, byteAt_first hlong hle]
    change (if (cfg.getD 0 0).toNat ≥ _ then _ else _) = (if (cfg.getD 0 0).toNat ≥ _ then _ else _)
    rw [if_neg hfirst', if_neg hfirst]
    rw [scanDescs_insert (fun d e s h => vsStep_same h checks prefs s)
      (fun x hx s => vsStep_unknown hx checks prefs s) hins hle (by omega) hreach]
  · unfold parseUvcControlEntities
    dsimp only
    rw [hlen, if_neg hlong', if_neg hlong, hhead, byteAt_first hlong hle]
    change (if (cfg.getD 0 0).toNat ≥ _ then _ else _) = (if (cfg.getD 0 0).toNat ≥ _ then _ else _)
    rw [if_neg hfirst', if_neg hfirst]
    rw [scanDescs_insert (fun d e s h => vcStep_same h s) (fun x hx s => vcStep_unknown hx s) hins hle
      (by omega) hreach]

/-- A camera of one VideoControl interface. -/
def controlOnly : List UInt8 := [9, 2, 18, 0, 1, 1, 0, 0x80, 50] ++ [9, 4, 0, 0, 0, 0x0E, 1, 0, 0]

/-- An interface association behind the header. -/
theorem unknown_transparent_association :
    scanned controlOnly 18 ≠ [] ∧ Reaches controlOnly 18 9 9 ∧
      UnknownDesc [8, 0x0B, 0, 2, 0x0E, 3, 0, 0] ∧
      parseUvcVideoStream true (insertDescs controlOnly 9 [[8, 0x0B, 0, 2, 0x0E, 3, 0, 0]]) (18 + 8)
          vgaPrefs = parseUvcVideoStream true controlOnly 18 vgaPrefs ∧
      parseUvcControlEntities (insertDescs controlOnly 9 [[8, 0x0B, 0, 2, 0x0E, 3, 0, 0]]) (18 + 8) =
        parseUvcControlEntities controlOnly 18 := by
  have hsome : scanned controlOnly 18 ≠ [] := by decide +kernel
  have hunknown : UnknownDesc [8, 0x0B, 0, 2, 0x0E, 3, 0, 0] :=
    ⟨by decide, by decide, by decide, by decide, by decide⟩
  have hreach : Reaches controlOnly 18 9 9 := .here 9
  exact ⟨hsome, hreach, hunknown, unknown_transparent true controlOnly 18 vgaPrefs 9
    [[8, 0x0B, 0, 2, 0x0E, 3, 0, 0]] hsome hreach (List.forall_mem_singleton.mpr hunknown)⟩

end Cvirtos.Usb.Uvc
