import Cvirtos.Lib.WriteBack
import Cvirtos.Arch.Cache
import Cvirtos.Usb.Uvc.CaptureChannel

/-!
# A camera behind a cache

The machine that serves a list of microframes to the video channel, with a write-back cache between
the CPU and the memory the controller writes.  Before every access to the memory the cache evicts
whatever lines it likes.

* `Window` — what the memory and the cache hold of the window, as the list-level model has it;
* `Window.evict`, `Window.receive`, `Window.write`, `Window.drop` — what it outlives;
* `readUframe_ends`, `readPayload_ends` — **a packet read through the cache** is the packet of the
  list-level model.
-/

set_option autoImplicit false

namespace Cvirtos.Usb.Uvc

open Cvirtos.Lib Cvirtos.Arch Cvirtos.Usb.Dwc2

/-- The controller, the camera and the cache. -/
structure Serving where
  cache : WriteBack UInt8
  /-- The microframes that are left. -/
  uframes : List Uframe
  /-- The interrupt word of the microframe under way. -/
  hcint : Option HcintSnapshot
  /-- `HCTSIZ.XFERSIZE`. -/
  left : Nat
  clock : Nat

section

-- the lines that make room at each tick
variable (evicted : Nat → List Nat)

namespace Serving

def tick (s : Serving) : Serving :=
  { s with
    cache := (evicted s.clock).foldl (fun c line => c.evict CACHE_LINE line) s.cache
    clock := s.clock + 1 }

def receiveByte (s : Serving) (off : Nat) (b : UInt8) : Serving :=
  { s with cache := s.cache.receive off b }

def writeByte (s : Serving) (off : Nat) (b : UInt8) : Serving :=
  { s with cache := s.cache.write CACHE_LINE off b }

/-- The controller stores what it received. -/
def receiveBytes : Nat → List UInt8 → Serving → Serving
  | _, [], s => s
  | off, b :: bs, s => receiveBytes (off + 1) bs ((s.tick evicted).receiveByte off b)

def writeBytes : Nat → List UInt8 → Serving → Serving
  | _, [], s => s
  | off, b :: bs, s => writeBytes (off + 1) bs ((s.tick evicted).writeByte off b)

def readBytes : Nat → Nat → Serving → List UInt8 × Serving
  | _, 0, s => ([], s)
  | off, len + 1, s =>
    let s := s.tick evicted
    let (bs, s') := readBytes (off + 1) len s
    (s.cache.view off :: bs, s')

/-- `dcache.cva`. -/
def dcacheCva (addr : Nat) (s : Serving) : Serving :=
  { s.tick evicted with
    cache := (s.tick evicted).cache.writeBack CACHE_LINE (addr / CACHE_LINE) }

/-- `dcache.iva`. -/
def dcacheIva (addr : Nat) (s : Serving) : Serving :=
  { s.tick evicted with cache := (s.tick evicted).cache.drop CACHE_LINE (addr / CACHE_LINE) }

end Serving

/-- A channel is armed for the next microframe, and cannot be armed once there is none. -/
def servingMachine : Machine Serving where
  arm _ t s :=
    match s.uframes with
    | [] => (false, s)
    | u :: us =>
      if u.busy then (false, { s with uframes := us })
      else
        let stored := u.data.take t.xferSize
        (true, Serving.receiveBytes evicted t.dmaOff stored
          { s with uframes := us, hcint := u.hcint, left := t.xferSize - stored.length })
  waitHalted _ s := (s.hcint, s.tick evicted)
  xferSizeLeft _ s := s.left
  write off bytes s := Serving.writeBytes evicted off bytes s
  read off len s := Serving.readBytes evicted off len s
  clean off len s := dcacheCleanRange (Serving.dcacheCva evicted) off len s
  invalidate off len s := dcacheInvalidateRange (Serving.dcacheIva evicted) off len s

end

/-! ### What the cache and the memory hold -/

/-- The work area of a microframe. -/
def InWork (a : Nat) : Prop := DMA_OFF_UVC_BULK ≤ a ∧ a < UVC_ASSEMBLED_JPEG_DMA_OFF

/-- **The window behind the cache**: the memory holds the work area, of which no line is dirty, and
the CPU has what was assembled behind it. -/
structure Window (c : WriteBack UInt8) (mem : Memory UInt8) : Prop where
  clean : ∀ a, InWork a → c.dirty (a / CACHE_LINE) = false
  work : ∀ a, InWork a → c.mem a = mem a
  jpeg : ∀ a, UVC_ASSEMBLED_JPEG_DMA_OFF ≤ a → c.Holds CACHE_LINE a (mem a)

/-- The CPU reads `[lo, hi)` as it is. -/
def Sees (c : WriteBack UInt8) (mem : Memory UInt8) (lo hi : Nat) : Prop :=
  ∀ a, lo ≤ a → a < hi → c.view a = mem a

section Window

variable {c : WriteBack UInt8} {mem : Memory UInt8} {lo hi : Nat}

theorem work_line {a b : Nat} (ha : InWork a) (hb : UVC_ASSEMBLED_JPEG_DMA_OFF ≤ b) :
    a / CACHE_LINE ≠ b / CACHE_LINE := by
  obtain ⟨-, ha⟩ := ha
  simp only [UVC_ASSEMBLED_JPEG_DMA_OFF, DMA_OFF_UVC_BULK, EP0_REGION_BYTES, UVC_WORK_AREA_BYTES,
    CACHE_LINE] at ha hb ⊢
  omega

theorem Window.evict (h : Window c mem) (line : Nat) : Window (c.evict CACHE_LINE line) mem where
  clean a ha := Bool.eq_false_iff.mpr fun hdirty =>
    Bool.eq_false_iff.mp (h.clean a ha) (WriteBack.dirty_evict hdirty)
  work a ha := (WriteBack.mem_evict (h.clean a ha)).trans (h.work a ha)
  jpeg a ha := (h.jpeg a ha).evict

/-- What the CPU reads as it is, it reads as it is after an eviction. -/
theorem Window.sees_evict (h : Window c mem) (hlo : DMA_OFF_UVC_BULK ≤ lo) (hs : Sees c mem lo hi)
    (line : Nat) : Sees (c.evict CACHE_LINE line) mem lo hi := by
  intro a h1 h2
  by_cases ha : UVC_ASSEMBLED_JPEG_DMA_OFF ≤ a
  · exact ((h.evict line).jpeg a ha).view
  · have hwork : InWork a := ⟨Nat.le_trans hlo h1, Nat.lt_of_not_le ha⟩
    change (if a / CACHE_LINE = line then (c.writeBack CACHE_LINE line).mem a else c.view a) = mem a
    split
    · exact (WriteBack.mem_writeBack (h.clean a hwork)).trans (h.work a hwork)
    · exact hs a h1 h2

theorem Window.sees_jpeg (h : Window c mem) (hlo : UVC_ASSEMBLED_JPEG_DMA_OFF ≤ lo) :
    Sees c mem lo hi := fun a h1 _ => (h.jpeg a (Nat.le_trans hlo h1)).view

/-- The controller stores a byte in the work area. -/
theorem Window.receive (h : Window c mem) {b : Nat} (hb : InWork b) (x : UInt8) :
    Window (c.receive b x) (fun a => if a = b then x else mem a) where
  clean a ha := h.clean a ha
  work a ha := by
    change (if a = b then x else c.mem a) = if a = b then x else mem a
    rw [h.work a ha]
  jpeg a ha := by
    have hne : a ≠ b := Nat.ne_of_gt (Nat.lt_of_lt_of_le hb.2 ha)
    rw [if_neg hne]
    exact (h.jpeg a ha).receive hne

/-- The CPU writes a byte of what it assembles. -/
theorem Window.write (h : Window c mem) {b : Nat} (hb : UVC_ASSEMBLED_JPEG_DMA_OFF ≤ b) (x : UInt8) :
    Window (c.write CACHE_LINE b x) (fun a => if a = b then x else mem a) where
  clean a ha := Bool.eq_false_iff.mpr fun hdirty => by
    rcases WriteBack.dirty_write hdirty with hline | hdirty
    · exact work_line ha hb hline
    · exact Bool.eq_false_iff.mp (h.clean a ha) hdirty
  work a ha := by
    rw [if_neg (Nat.ne_of_lt (Nat.lt_of_lt_of_le ha.2 hb))]
    exact h.work a ha
  jpeg a ha := by
    by_cases heq : a = b
    · subst heq
      rw [if_pos rfl]
      exact WriteBack.holds_write
    · rw [if_neg heq]
      exact (h.jpeg a ha).write heq

/-- The CPU throws away a line of the work area. -/
theorem Window.drop (h : Window c mem) {line : Nat} (hline : InWork (line * CACHE_LINE)) :
    Window (c.drop CACHE_LINE line) mem where
  clean a ha := Bool.eq_false_iff.mpr fun hdirty =>
    Bool.eq_false_iff.mp (h.clean a ha) (WriteBack.dirty_drop hdirty).2
  work a ha := h.work a ha
  jpeg a ha := by
    have hclean := h.clean _ hline
    rw [Nat.mul_div_cancel line (by decide : 0 < CACHE_LINE)] at hclean
    exact (h.jpeg a ha).drop hclean

end Window

/-! ### The accesses -/

section Accesses

variable (evicted : Nat → List Nat) {mem : Memory UInt8} {lo hi : Nat}

/-- `t` is `s` but for the cache and the clock. -/
def Passed (s t : Serving) : Prop :=
  t.uframes = s.uframes ∧ t.hcint = s.hcint ∧ t.left = s.left

theorem Passed.refl (s : Serving) : Passed s s := ⟨rfl, rfl, rfl⟩

theorem Passed.trans {s t u : Serving} (h : Passed s t) (h' : Passed t u) : Passed s u :=
  ⟨h'.1.trans h.1, h'.2.1.trans h.2.1, h'.2.2.trans h.2.2⟩

/-- What an eviction keeps is kept while lines make room. -/
theorem tick_keeps {P : WriteBack UInt8 → Prop} {s : Serving}
    (hevict : ∀ c line, P c → P (c.evict CACHE_LINE line)) (h : P s.cache) :
    P (s.tick evicted).cache := by
  have hrun : ∀ (lines : List Nat) c, P c →
      P (lines.foldl (fun c line => c.evict CACHE_LINE line) c) := by
    intro lines
    induction lines with
    | nil => exact fun _ h => h
    | cons line lines ih => exact fun c h => ih _ (hevict c line h)
  exact hrun _ _ h

theorem tick_window {s : Serving} (h : Window s.cache mem) : Window (s.tick evicted).cache mem :=
  tick_keeps evicted (P := fun c => Window c mem) (fun _ line h => h.evict line) h

theorem tick_sees {s : Serving} (h : Window s.cache mem) (hlo : DMA_OFF_UVC_BULK ≤ lo)
    (hs : Sees s.cache mem lo hi) : Sees (s.tick evicted).cache mem lo hi :=
  (tick_keeps evicted (P := fun c => Window c mem ∧ Sees c mem lo hi)
    (fun _ line h => ⟨h.1.evict line, h.1.sees_evict hlo h.2 line⟩) ⟨h, hs⟩).2

theorem receiveBytes_window {bytes : List UInt8} {off : Nat} {s : Serving}
    (h : Window s.cache mem) (hoff : DMA_OFF_UVC_BULK ≤ off)
    (hend : off + bytes.length ≤ UVC_ASSEMBLED_JPEG_DMA_OFF) :
    Passed s (s.receiveBytes evicted off bytes) ∧
      Window (s.receiveBytes evicted off bytes).cache (store mem off bytes) := by
  induction bytes generalizing off s mem with
  | nil =>
      refine ⟨.refl s, ?_⟩
      rw [store_nil]
      exact h
  | cons b bs ih =>
      rw [List.length_cons] at hend
      have hb : InWork off := ⟨hoff, by omega⟩
      obtain ⟨hpassed, hwindow⟩ := ih (s := (s.tick evicted).receiveByte off b)
        ((tick_window evicted h).receive hb b) (Nat.le_succ_of_le hoff) (by omega)
      rw [store_cons]
      exact ⟨hpassed, hwindow⟩

theorem writeBytes_window (bytes : List UInt8) {off : Nat} {s : Serving}
    (h : Window s.cache mem) (hoff : UVC_ASSEMBLED_JPEG_DMA_OFF ≤ off) :
    Passed s (s.writeBytes evicted off bytes) ∧
      Window (s.writeBytes evicted off bytes).cache (store mem off bytes) := by
  induction bytes generalizing off s mem with
  | nil =>
      refine ⟨.refl s, ?_⟩
      rw [store_nil]
      exact h
  | cons b bs ih =>
      obtain ⟨hpassed, hwindow⟩ := ih (s := (s.tick evicted).writeByte off b)
        ((tick_window evicted h).write hoff b) (Nat.le_succ_of_le hoff)
      rw [store_cons]
      exact ⟨hpassed, hwindow⟩

/-- The CPU reads what it sees. -/
theorem readBytes_window {len off : Nat} {s : Serving} (h : Window s.cache mem)
    (hlo : DMA_OFF_UVC_BULK ≤ lo) (hs : Sees s.cache mem lo hi) (hoff : lo ≤ off)
    (hend : off + len ≤ hi) :
    (s.readBytes evicted off len).1 = load mem off len ∧
      Passed s (s.readBytes evicted off len).2 ∧
      Window (s.readBytes evicted off len).2.cache mem := by
  induction len generalizing off s with
  | zero => exact ⟨rfl, .refl s, h⟩
  | succ len ih =>
      have hs' := tick_sees evicted h hlo hs
      obtain ⟨hload, hpassed, hwindow⟩ := ih (s := s.tick evicted) (tick_window evicted h) hs'
        (Nat.le_succ_of_le hoff) (by omega)
      refine ⟨?_, hpassed, hwindow⟩
      rw [load, ← hload, ← hs' off hoff (by omega)]
      rfl

/-- **An invalidate** of received bytes: the CPU sees them. -/
theorem invalidate_window {size : Nat} {s : Serving} (h : Window s.cache mem) (hsize : 0 < size)
    (hend : size ≤ UVC_WORK_AREA_BYTES) :
    Passed s (dcacheInvalidateRange (Serving.dcacheIva evicted) DMA_OFF_UVC_BULK size s) ∧
      Window (dcacheInvalidateRange (Serving.dcacheIva evicted) DMA_OFF_UVC_BULK size s).cache mem ∧
      Sees (dcacheInvalidateRange (Serving.dcacheIva evicted) DMA_OFF_UVC_BULK size s).cache mem
        DMA_OFF_UVC_BULK (DMA_OFF_UVC_BULK + size) := by
  have hstep : ∀ line t, InLines DMA_OFF_UVC_BULK (DMA_OFF_UVC_BULK + size) line →
      (Passed s t ∧ Window t.cache mem ∧ Sees t.cache mem DMA_OFF_UVC_BULK
        (min (DMA_OFF_UVC_BULK + size) (line * CACHE_LINE))) →
      Passed s (Serving.dcacheIva evicted (line * CACHE_LINE) t) ∧
        Window (Serving.dcacheIva evicted (line * CACHE_LINE) t).cache mem ∧
        Sees (Serving.dcacheIva evicted (line * CACHE_LINE) t).cache mem DMA_OFF_UVC_BULK
          (min (DMA_OFF_UVC_BULK + size) ((line + 1) * CACHE_LINE)) := by
    rintro line t ⟨hfirst, hline⟩ ⟨hpassed, hwindow, hsees⟩
    have hwork : InWork (line * CACHE_LINE) := by
      unfold InWork UVC_ASSEMBLED_JPEG_DMA_OFF
      unfold DMA_OFF_UVC_BULK EP0_REGION_BYTES CACHE_LINE at hfirst hline ⊢
      omega
    have hw := tick_window evicted hwindow
    have hsees' := tick_sees evicted hwindow (Nat.le_refl _) hsees
    unfold Serving.dcacheIva
    rw [Nat.mul_div_cancel line (by decide : 0 < CACHE_LINE)]
    refine ⟨hpassed.trans ⟨rfl, rfl, rfl⟩, hw.drop hwork, fun a h1 h2 => ?_⟩
    change (if a / CACHE_LINE = line then (t.tick evicted).cache.mem a
      else (t.tick evicted).cache.view a) = mem a
    split
    · refine hw.work a ⟨h1, ?_⟩
      unfold UVC_ASSEMBLED_JPEG_DMA_OFF
      omega
    · rename_i hne
      refine hsees' a h1 ?_
      unfold CACHE_LINE at h2 hne ⊢
      omega
  have hstart : Sees s.cache mem DMA_OFF_UVC_BULK
      (min (DMA_OFF_UVC_BULK + size) (DMA_OFF_UVC_BULK / CACHE_LINE * CACHE_LINE)) := by
    intro a h1 h2
    have := Nat.div_mul_le_self DMA_OFF_UVC_BULK CACHE_LINE
    omega
  obtain ⟨line, hstop, hpassed, hwindow, hsees⟩ :=
    dcacheRange_rule hsize hstep ⟨.refl s, h, hstart⟩
  rw [Nat.min_eq_left hstop] at hsees
  exact ⟨hpassed, hwindow, hsees⟩

end Accesses

/-! ### Reading packets -/

/-- A run on the machine ends as an outcome of the list-level model: with `R` after a result, with
`F` after an error. -/
def Ends {α β τ : Type} (R : α → β → Serving → List Uframe → τ → Prop)
    (F : Serving → List Uframe → τ → Prop) :
    Outcome τ β → EStateM.Result Dwc2.Stop Serving α → Prop
  | .waiting _, _ => True
  | .done (.error e) us t, r => ∃ s, r = .error (.err e) s ∧ F s us t
  | .done (.ok b) us t, r => ∃ a s, r = .ok a s ∧ R a b s us t

/-- The machine serves `us`, of at most `n` microframes. -/
def Queued (n : Nat) (s : Serving) (us : List Uframe) : Prop := s.uframes = us ∧ us.length ≤ n

/-- The machine serves `us`, and has the window `w` behind its cache. -/
def Shows (n : Nat) (s : Serving) (us : List Uframe) (w : DmaBuf) : Prop :=
  Queued n s us ∧ Window s.cache w.mem

theorem Queued.passed {n : Nat} {s t : Serving} {us : List Uframe} (h : Queued n s us)
    (hpassed : Passed s t) : Queued n t us := ⟨hpassed.1.trans h.1, h.2⟩

section Packets

variable (evicted : Nat → List Nat) {n : Nat} {us : List Uframe} {w : DmaBuf} {s : Serving}

/-- A microframe is received, if there is one and the channel is idle. -/
theorem arm_serving (ep : IsochInEp) {u : Uframe} (h : Shows n s (u :: us) w)
    (hidle : ¬ u.busy = true) :
    ∃ t, (Channel.video.arm (servingMachine evicted)
        (OnMachine.isochTransfer ep (wmaxMps ep.mpsRaw) DMA_OFF_UVC_BULK)).run s = .ok () t ∧
      t.hcint = u.hcint ∧
      t.left = wmaxMps ep.mpsRaw - (u.data.take (wmaxMps ep.mpsRaw)).length ∧
      Shows n t us (w.receive DMA_OFF_UVC_BULK (u.data.take (wmaxMps ep.mpsRaw))) := by
  obtain ⟨⟨huframes, hcount⟩, hwindow⟩ := h
  have hlen : (u.data.take (wmaxMps ep.mpsRaw)).length ≤ 2047 :=
    Nat.le_trans (List.length_take_le _ _) (wmaxMps_le ep.mpsRaw)
  have hroom : DMA_OFF_UVC_BULK + (u.data.take (wmaxMps ep.mpsRaw)).length ≤
      UVC_ASSEMBLED_JPEG_DMA_OFF := by
    unfold UVC_ASSEMBLED_JPEG_DMA_OFF UVC_WORK_AREA_BYTES
    omega
  obtain ⟨hpassed, hwindow'⟩ := receiveBytes_window evicted
    (s := { s with
      uframes := us
      hcint := u.hcint
      left := wmaxMps ep.mpsRaw - (u.data.take (wmaxMps ep.mpsRaw)).length })
    hwindow (Nat.le_refl _) hroom
  refine ⟨_, run_bind (a := true) ?_, hpassed.2.1, hpassed.2.2,
    ⟨hpassed.1, Nat.le_of_succ_le hcount⟩, hwindow'⟩
  change EStateM.Result.ok ((servingMachine evicted).arm _ _ s).1
    ((servingMachine evicted).arm _ _ s).2 = _
  simp only [servingMachine, huframes, if_neg hidle]
  rfl

theorem arm_busy (ep : IsochInEp) {u : Uframe} (h : Shows n s (u :: us) w) (hbusy : u.busy = true) :
    (Channel.video.arm (servingMachine evicted)
        (OnMachine.isochTransfer ep (wmaxMps ep.mpsRaw) DMA_OFF_UVC_BULK)).run s =
      .error (.err .timeout) { s with uframes := us } := by
  refine run_bind (a := false) (t := { s with uframes := us }) ?_
  change EStateM.Result.ok ((servingMachine evicted).arm _ _ s).1
    ((servingMachine evicted).arm _ _ s).2 = _
  simp only [servingMachine, h.1.1, if_pos hbusy]

theorem waitHalted_serving :
    (Channel.video.waitHalted (servingMachine evicted)).run s =
      match s.hcint with
      | some st => .ok st (s.tick evicted)
      | none => .error (.err .timeout) (s.tick evicted) := by
  have hquery : (query ((servingMachine evicted).waitHalted .video)).run s =
      .ok s.hcint (s.tick evicted) := rfl
  refine (run_bind hquery).trans ?_
  cases s.hcint <;> rfl

/-- **One microframe through the cache.** -/
theorem readUframe_ends (ep : IsochInEp) (h : Shows n s us w) :
    Ends (fun k k' s us w => k = k' ∧ Shows n s us w ∧
        Sees s.cache w.mem DMA_OFF_UVC_BULK (DMA_OFF_UVC_BULK + k))
      (Shows n) (readUframe ep DMA_OFF_UVC_BULK us w)
      ((OnMachine.readUframe (servingMachine evicted) ep DMA_OFF_UVC_BULK).run s) := by
  unfold readUframe OnMachine.readUframe
  by_cases h0 : wmaxMps ep.mpsRaw = 0
  · simp only [if_pos h0]
    exact ⟨s, rfl, h⟩
  by_cases hcap : wmaxMps ep.mpsRaw > UVC_BULK_DMA_CAP
  · simp only [if_neg h0, if_pos hcap]
    exact ⟨s, rfl, h⟩
  simp only [if_neg h0, if_neg hcap]
  cases us with
  | nil => trivial
  | cons u us =>
    by_cases hbusy : u.busy = true
    · simp only [if_pos hbusy]
      exact ⟨_, run_bind_error (arm_busy evicted ep h hbusy), ⟨rfl, Nat.le_of_succ_le h.1.2⟩, h.2⟩
    simp only [if_neg hbusy]
    obtain ⟨t, harm, hcint, hleft, hshows⟩ := arm_serving evicted ep h hbusy
    have hwindow : Window (t.tick evicted).cache _ := tick_window evicted hshows.2
    have hhalt := waitHalted_serving evicted (s := t)
    rw [run_bind harm]
    rw [hcint] at hhalt
    cases hu : u.hcint with
    | none =>
      rw [hu] at hhalt
      exact ⟨_, run_bind_error hhalt, hshows.1, hwindow⟩
    | some st =>
      rw [hu] at hhalt
      rw [run_bind hhalt]
      by_cases hstall : isSet st HCINT.STALL = true
      · simp only [if_pos hstall]
        exact ⟨_, rfl, hshows.1, hwindow⟩
      by_cases hahb : isSet st HCINT.AHBERR = true
      · simp only [if_neg hstall, if_pos hahb]
        exact ⟨_, rfl, hshows.1, hwindow⟩
      simp only [if_neg hstall, if_neg hahb]
      have hnothing : Sees (t.tick evicted).cache
          (store w.mem DMA_OFF_UVC_BULK (u.data.take (wmaxMps ep.mpsRaw)))
          DMA_OFF_UVC_BULK (DMA_OFF_UVC_BULK + 0) :=
        fun a h1 h2 => absurd h2 (Nat.not_lt_of_le h1)
      split
      · exact ⟨0, _, rfl, rfl, ⟨hshows.1, hwindow⟩, hnothing⟩
      split
      · exact ⟨0, _, rfl, rfl, ⟨hshows.1, hwindow⟩, hnothing⟩
      · have hquery : (query fun s => ((servingMachine evicted).xferSizeLeft .video s, s)).run
            (t.tick evicted) = .ok t.left (t.tick evicted) := rfl
        have hlen : (u.data.take (wmaxMps ep.mpsRaw)).length ≤ wmaxMps ep.mpsRaw :=
          List.length_take_le _ _
        have hwork : wmaxMps ep.mpsRaw ≤ UVC_WORK_AREA_BYTES :=
          Nat.le_trans (wmaxMps_le ep.mpsRaw) (by decide)
        rw [run_bind hquery, hleft]
        generalize hn : wmaxMps ep.mpsRaw -
          (wmaxMps ep.mpsRaw - (u.data.take (wmaxMps ep.mpsRaw)).length) = k
        by_cases hpos : k > 0
        · obtain ⟨hpassed, hwindow', hsees⟩ := invalidate_window evicted hwindow hpos
            (by omega)
          rw [if_pos hpos]
          exact ⟨k, _, rfl, rfl, ⟨hshows.1.passed hpassed, hwindow'⟩, hsees⟩
        · rw [if_neg hpos]
          obtain rfl : k = 0 := by omega
          exact ⟨0, _, rfl, rfl, ⟨hshows.1, hwindow⟩, hnothing⟩

/-- A slice is what the list-level model reads, if the CPU sees it. -/
theorem dmaRxSlice_run (off len : Nat) {lo hi : Nat} (h : Shows n s us w) (hlo : DMA_OFF_UVC_BULK ≤ lo)
    (hs : Sees s.cache w.mem lo hi) (hoff : lo ≤ off) (hend : off + len ≤ hi) :
    ∃ t, (OnMachine.dmaRxSlice (servingMachine evicted) off len).run s =
      .ok (dmaRxSlice w off len) t ∧ Shows n t us w := by
  unfold OnMachine.dmaRxSlice dmaRxSlice
  by_cases hnone : len = 0 ∨ off + len > DMA_BUF_TOTAL
  · rw [if_pos hnone, if_pos hnone]
    exact ⟨s, rfl, h⟩
  · rw [if_neg hnone, if_neg hnone]
    obtain ⟨hload, hpassed, hwindow⟩ :=
      readBytes_window evicted h.2 hlo hs hoff hend
    have hquery : (query ((servingMachine evicted).read off len)).run s =
        .ok (load w.mem off len) (s.readBytes evicted off len).2 :=
      congrArg (fun bytes => EStateM.Result.ok bytes (s.readBytes evicted off len).2) hload
    exact ⟨_, (run_bind hquery).trans rfl, h.1.passed hpassed, hwindow⟩

theorem readPayloadLoop_ends (ep : IsochInEp) (left : Nat) (h : Shows n s us w) :
    Ends (fun pkt pkt' s us w => pkt = pkt' ∧ Shows n s us w) (Shows n)
      (readPayloadLoop ep DMA_OFF_UVC_BULK left us w)
      ((OnMachine.readPayloadLoop (servingMachine evicted) ep DMA_OFF_UVC_BULK left).run s) := by
  induction left generalizing us w s with
  | zero => exact ⟨s, rfl, h⟩
  | succ left ih =>
      have hread := readUframe_ends evicted ep h
      rw [readPayloadLoop, OnMachine.readPayloadLoop]
      cases ho : readUframe ep DMA_OFF_UVC_BULK us w with
      | waiting w₁ => trivial
      | done res us₁ w₁ =>
        rw [ho] at hread
        cases res with
        | error e =>
          obtain ⟨t, hrun, hshows⟩ := hread
          exact ⟨t, run_bind_error hrun, hshows⟩
        | ok k =>
          obtain ⟨_, t, hrun, rfl, hshows, hsees⟩ := hread
          rw [run_bind hrun]
          rename_i k
          by_cases hpos : k > 0
          · simp only [if_pos hpos]
            obtain ⟨t', hslice, hshows'⟩ := dmaRxSlice_run evicted DMA_OFF_UVC_BULK k hshows
              (Nat.le_refl _) hsees (Nat.le_refl _) (Nat.le_refl _)
            rw [run_bind hslice]
            cases dmaRxSlice w₁ DMA_OFF_UVC_BULK k with
            | none => exact ⟨t', rfl, hshows'⟩
            | some pkt => exact ⟨pkt, t', rfl, rfl, hshows'⟩
          · simp only [if_neg hpos]
            exact ih hshows

/-- **A packet through the cache.** -/
theorem readPayload_ends (ep : IsochInEp) (h : Shows n s us w) :
    Ends (fun pkt pkt' s us w => pkt = pkt' ∧ Shows n s us w) (Shows n)
      (readPayload ep DMA_OFF_UVC_BULK us w)
      ((OnMachine.readPayload (servingMachine evicted) ep DMA_OFF_UVC_BULK).run s) :=
  readPayloadLoop_ends evicted ep MAX_UFRAMES h

end Packets

end Cvirtos.Usb.Uvc
