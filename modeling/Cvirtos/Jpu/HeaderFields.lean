import Cvirtos.Lib.LastWriter
import Cvirtos.Jpu.HeaderRecovery
import Cvirtos.Jpu.HuffmanCodes

/-!
# The fields of a well-formed header

* `Recovers` — what the parser is to return for a header;
* `items_slot`, `items_quant`, `items_dri` — the last item that writes a field decides it;
* `parseJpegHeader_recovers` — **every field of a well-formed header is recovered**.
-/

set_option autoImplicit false

namespace Cvirtos.Jpu

open Cvirtos.Lib

/-! ## What is to be recovered -/

/-- The item is a Huffman table for `tc` and `th`. -/
def Item.isDht (tc th : Fin 2) : Item → Bool
  | .dht t => t.tc == tc && t.th == th
  | _ => false

/-- The item is a quantisation table for `tq`. -/
def Item.isDqt (tq : Fin 4) : Item → Bool
  | .dqt t => t.tq == tq
  | _ => false

def Item.isDri : Item → Bool
  | .dri _ => true
  | _ => false

/-- `(Th << 1) | Tc`. -/
def slotOf (tc th : Fin 2) : Fin 4 := ⟨th.1 <<< 1 ||| tc.1, by revert tc th; decide⟩

/-- The slot holds the table, with its codes. -/
structure Holds (slot : HuffTable) (t : DhtTable) : Prop where
  bits : slot.bits = t.bits
  numValues : slot.numValues = t.values.length
  values : ∀ (j : Fin 256) (hj : j.1 < t.values.length), slot.values[j] = t.values[j.1]
  canonical : slot.Canonical

/-- What the parser is to return for a header whose entropy-coded bytes begin at `ecsOffset`. -/
structure Recovers (hd : Headers) (ecsOffset : Nat) (h : JpegHeaderInfo) : Prop where
  width : h.width = hd.frame.width.toUInt32
  height : h.height = hd.frame.height.toUInt32
  numComponents : h.numComponents = 3
  sampling : h.sampling = hd.frame.sampling
  quantTbl : h.quantTbl = hd.frame.quantTbl
  format : h.format = formatOf hd.frame.sampling
  /-- The interval of the last DRI. -/
  restartInterval : ∀ ri, lastSelected Item.isDri hd.items = some (.dri ri) →
    h.restartInterval = ri.toUInt32
  noRestart : lastSelected Item.isDri hd.items = none → h.restartInterval = 0
  /-- The slot holds the last table for `Tc` and `Th`. -/
  huffTables : ∀ (tc th : Fin 2) t, lastSelected (Item.isDht tc th) hd.items = some (.dht t) →
    Holds h.huffTables[slotOf tc th] t
  quantTables : ∀ (tq : Fin 4) t, lastSelected (Item.isDqt tq) hd.items = some (.dqt t) →
    h.quantTables[tq].values = t.coeffs.stored
  /-- One more than the largest `Tq`. -/
  quantTableCount : (∀ t, .dqt t ∈ hd.items → t.tq.1 + 1 ≤ h.quantTableCount) ∧
    (h.quantTableCount = 0 ∨ ∃ t, .dqt t ∈ hd.items ∧ h.quantTableCount = t.tq.1 + 1)
  dcHuffTbl : h.dcHuffTbl = hd.scan.comps.map fun c => c.td.1
  acHuffTbl : h.acHuffTbl = hd.scan.comps.map fun c => c.ta.1
  ecsOffset : h.ecsOffset = ecsOffset

/-! ## The last item decides -/

theorem fill_holds (t : DhtTable) (old : HuffTable) : Holds (t.fill old).generate t := by
  obtain ⟨hbits, hvalues, hnum⟩ := generate_data (t.fill old)
  refine ⟨hbits, hnum, ?_, generate_canonical _⟩
  intro j hj
  simp only [hvalues]
  show (filled t.values.length (fun _ => True) (fun j => t.values.getD j 0) old.values)[j.1] = _
  rw [filled_getElem, if_pos ⟨hj, trivial⟩]
  simp [hj]

theorem slot_eq (t : DhtTable) (tc th : Fin 2) :
    t.slot = slotOf tc th ↔ t.tc = tc ∧ t.th = th := by
  have hall : ∀ tc' th' tc th : Fin 2,
      (⟨th'.1 * 2 + tc'.1, by omega⟩ : Fin 4) = slotOf tc th ↔ tc' = tc ∧ th' = th := by decide
  exact hall t.tc t.th tc th

theorem set_at {α : Type} {n : Nat} (v : Vector α n) {i j : Fin n} (x : α) (h : i = j) :
    (v.set i x)[j] = x := by
  subst h
  exact Vector.getElem_set_self i.2

theorem set_off {α : Type} {n i : Nat} (v : Vector α n) {j : Fin n} (x : α) (hi : i < n)
    (h : i ≠ j.1) : (v.set i x)[j] = v[j] := Vector.getElem_set_ne hi j.2 h

theorem items_slot (tc th : Fin 2) (items : List Item) {t : DhtTable}
    (hlast : lastSelected (Item.isDht tc th) items = some (.dht t)) :
    Holds (items.foldl Item.apply .new).huffTables[slotOf tc th] t := by
  let R : Option Item → JpegHeaderInfo → Prop := fun o h =>
    ∀ t, o = some (.dht t) → Holds h.huffTables[slotOf tc th] t
  have hset : ∀ h b, Item.isDht tc th b = true → R (some b) (Item.apply h b) := by
    rintro h b hb t ⟨⟩
    obtain ⟨htc, hth⟩ : t.tc = tc ∧ t.th = th := by simpa [Item.isDht] using hb
    have hslot := (slot_eq t tc th).mpr ⟨htc, hth⟩
    show Holds (h.huffTables.set t.slot _)[slotOf tc th] t
    rw [set_at _ _ hslot]
    exact fill_holds t _
  have hkeep : ∀ h b o, Item.isDht tc th b = false → R o h → R o (Item.apply h b) := by
    intro h b o hb hr t ht
    cases b with
    | dqt _ | dri _ | frame _ => exact hr t ht
    | dht t' =>
      have hne : t'.slot ≠ slotOf tc th := by
        intro heq
        obtain ⟨htc, hth⟩ := (slot_eq t' tc th).mp heq
        simp [Item.isDht, htc, hth] at hb
      show Holds (h.huffTables.set t'.slot _)[slotOf tc th] t
      rw [set_off _ _ t'.slot.2 (Fin.val_ne_of_ne hne)]
      exact hr t ht
  exact foldl_lastSelected (R := R) hset hkeep (fun _ h => by cases h) items t hlast

theorem items_quant (tq : Fin 4) (items : List Item) {t : DqtTable}
    (hlast : lastSelected (Item.isDqt tq) items = some (.dqt t)) :
    (items.foldl Item.apply .new).quantTables[tq].values = t.coeffs.stored := by
  let R : Option Item → JpegHeaderInfo → Prop := fun o h =>
    ∀ t, o = some (.dqt t) → h.quantTables[tq].values = t.coeffs.stored
  have hset : ∀ h b, Item.isDqt tq b = true → R (some b) (Item.apply h b) := by
    rintro h b hb t ⟨⟩
    have htq : t.tq = tq := by simpa [Item.isDqt] using hb
    show (h.quantTables.set t.tq _)[tq].values = _
    rw [set_at _ _ htq]
  have hkeep : ∀ h b o, Item.isDqt tq b = false → R o h → R o (Item.apply h b) := by
    intro h b o hb hr t ht
    cases b with
    | dht _ | dri _ | frame _ => exact hr t ht
    | dqt t' =>
      have hne : t'.tq ≠ tq := by simpa [Item.isDqt] using hb
      show (h.quantTables.set t'.tq _)[tq].values = _
      rw [set_off _ _ t'.tq.2 (Fin.val_ne_of_ne hne)]
      exact hr t ht
  exact foldl_lastSelected (R := R) hset hkeep (fun _ h => by cases h) items t hlast

theorem items_dri (items : List Item) :
    (∀ ri, lastSelected Item.isDri items = some (.dri ri) →
      (items.foldl Item.apply .new).restartInterval = ri.toUInt32) ∧
    (lastSelected Item.isDri items = none →
      (items.foldl Item.apply .new).restartInterval = 0) := by
  let R : Option Item → JpegHeaderInfo → Prop := fun o h =>
    (∀ ri, o = some (.dri ri) → h.restartInterval = ri.toUInt32) ∧
      (o = none → h.restartInterval = 0)
  have hset : ∀ h b, Item.isDri b = true → R (some b) (Item.apply h b) := by
    intro h b hb
    refine ⟨?_, fun hn => nomatch hn⟩
    rintro ri ⟨⟩
    rfl
  have hkeep : ∀ h b o, Item.isDri b = false → R o h → R o (Item.apply h b) := by
    intro h b o hb hr
    cases b with
    | dht _ | dqt _ | frame _ => exact hr
    | dri _ => cases hb
  exact foldl_lastSelected (R := R) hset hkeep ⟨(fun _ h => nomatch h), fun _ => rfl⟩ items

theorem items_quantCount (items : List Item) :
    (∀ t, .dqt t ∈ items → t.tq.1 + 1 ≤ (items.foldl Item.apply .new).quantTableCount) ∧
    ((items.foldl Item.apply .new).quantTableCount = 0 ∨
      ∃ t, .dqt t ∈ items ∧ (items.foldl Item.apply .new).quantTableCount = t.tq.1 + 1) := by
  induction items using List.reverseRecOn with
  | nil => exact ⟨by simp, Or.inl rfl⟩
  | append_singleton items b ih =>
      obtain ⟨hle, hex⟩ := ih
      rw [List.foldl_append]
      show (∀ t, .dqt t ∈ items ++ [b] →
          t.tq.1 + 1 ≤ (Item.apply (items.foldl Item.apply .new) b).quantTableCount) ∧
        ((Item.apply (items.foldl Item.apply .new) b).quantTableCount = 0 ∨
          ∃ t, .dqt t ∈ items ++ [b] ∧
            (Item.apply (items.foldl Item.apply .new) b).quantTableCount = t.tq.1 + 1)
      generalize items.foldl Item.apply .new = h at hle hex
      cases b with
      | dht _ | dri _ | frame _ => simpa [Item.apply] using ⟨hle, hex⟩
      | dqt t' =>
        have hcount : (Item.apply h (.dqt t')).quantTableCount =
            max h.quantTableCount (t'.tq.1 + 1) := rfl
        rw [hcount]
        constructor
        · intro t ht
          rcases List.mem_append.mp ht with ht | ht
          · exact Nat.le_trans (hle t ht) (Nat.le_max_left _ _)
          · obtain rfl : t = t' := by simpa using ht
            exact Nat.le_max_right _ _
        · right
          rcases Nat.le_total h.quantTableCount (t'.tq.1 + 1) with hmax | hmax
          · exact ⟨t', by simp, Nat.max_eq_right hmax⟩
          · rcases hex with hzero | ⟨t, ht, heq⟩
            · omega
            · refine ⟨t, List.mem_append_left _ ht, ?_⟩
              rw [Nat.max_eq_left hmax, heq]

/-- The item leaves what the frame wrote. -/
theorem apply_frameFields (h : JpegHeaderInfo) (f : Frame) (items : List Item)
    (hno : ∀ f', .frame f' ∉ items) :
    let h' := items.foldl Item.apply (Item.apply h (.frame f))
    h'.width = f.width.toUInt32 ∧ h'.height = f.height.toUInt32 ∧ h'.numComponents = 3 ∧
      h'.sampling = f.sampling ∧ h'.quantTbl = f.quantTbl ∧ h'.format = formatOf f.sampling := by
  induction items using List.reverseRecOn with
  | nil => exact ⟨rfl, rfl, rfl, rfl, rfl, rfl⟩
  | append_singleton items b ih =>
      have hrest := ih fun f' hf => hno f' (List.mem_append_left _ hf)
      rw [List.foldl_append]
      cases b with
      | dht _ | dqt _ | dri _ => exact hrest
      | frame f' => exact absurd (List.mem_append_right _ (List.mem_singleton.mpr rfl)) (hno f')

theorem segments_noFrame (segs : List (Nat × Segment)) (f : Frame) :
    .frame f ∉ segs.flatMap fun s => s.2.items := by
  intro hf
  obtain ⟨s, -, hs⟩ := List.mem_flatMap.mp hf
  cases hseg : s.2 <;> simp [hseg, Segment.items] at hs

/-- **Every field of a well-formed header is recovered**, whatever bytes follow it. -/
theorem parseJpegHeader_recovers (hd : Headers) (ecs : List UInt8) :
    ∃ h, parseJpegHeader (hd.encode ++ ecs) = .ok h ∧ Recovers hd hd.encode.length h := by
  refine ⟨hd.parsed, parseJpegHeader_encode hd ecs, ?_⟩
  obtain ⟨hdri, hnone⟩ := items_dri hd.items
  have hitems : hd.items.foldl Item.apply .new =
      (hd.after.flatMap fun s => s.2.items).foldl Item.apply
        (Item.apply ((hd.before.flatMap fun s => s.2.items).foldl Item.apply .new)
          (.frame hd.frame)) := by
    unfold Headers.items
    rw [List.foldl_append, List.foldl_append]
    rfl
  obtain ⟨hw, hh, hn, hs, hq, hf⟩ := apply_frameFields
    ((hd.before.flatMap fun s => s.2.items).foldl Item.apply .new) hd.frame
    (hd.after.flatMap fun s => s.2.items) (segments_noFrame hd.after)
  rw [← hitems] at hw hh hn hs hq hf
  exact {
    width := hw
    height := hh
    numComponents := hn
    sampling := hs
    quantTbl := hq
    format := hf
    restartInterval := hdri
    noRestart := hnone
    huffTables := fun tc th _ hlast => items_slot tc th hd.items hlast
    quantTables := fun tq _ hlast => items_quant tq hd.items hlast
    quantTableCount := items_quantCount hd.items
    dcHuffTbl := rfl
    acHuffTbl := rfl
    ecsOffset := rfl }

end Cvirtos.Jpu
