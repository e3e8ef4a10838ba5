import Cvirtos.Lib.WriteBack
import Cvirtos.Arch.Cache
import Cvirtos.Usb.Dwc2.Control

/-!
# The DMA window behind the D-cache

The machine as the coherence of the window sees it: a write-back cache in front of the memory, and
channels that read and write the memory while they run.  Between any two steps of the CPU the bus
does what it likes: it evicts lines, moves bytes of running transfers and halts channels.

* `DmaFault` — what must not happen; the world keeps a record of it;
* `coherentMachine` — the machine;
* `Safe` — **the invariant**, which the bus keeps (`Safe.event`, `Safe.tick_keeps`);
* `writeBytes_own`, `cleanRange_own`, `invalidateRange_fresh`, `readBytes_fresh` — the four accesses
  of the CPU;
* `triple_xferFrame` — a transfer.

The window starts on a line, so lines are counted from its start.
-/

set_option autoImplicit false

namespace Cvirtos.Usb.Dwc2

open Cvirtos.Lib Cvirtos.Arch

/-- What must not happen to the window. -/
inductive DmaFault where
  /-- A line in the target of a running IN transfer is dirty. -/
  | dirtyTarget (ch : Channel)
  /-- An invalidate drops a dirty line. -/
  | droppedDirty (line : Nat)
  /-- An OUT transfer fetches another byte than the CPU wrote. -/
  | outMismatch (off : Nat)
  /-- The CPU reads a byte that a DMA has written and nobody has invalidated since. -/
  | staleRead (off : Nat)
  deriving DecidableEq, Repr

/-- A transfer on its channel. -/
structure Running where
  transfer : Transfer
  /-- What the CPU had written when the channel was armed. -/
  sent : Memory UInt8

/-- The offset of byte `i` of a transfer. -/
def Transfer.at (t : Transfer) (i : Nat) : Nat := t.dmaOff + i

structure DmaWorld where
  cache : WriteBack UInt8
  /-- The last byte the CPU wrote. -/
  written : Memory UInt8
  /-- Written by a DMA and not invalidated since. -/
  stale : Nat → Bool
  running : Channel → Option Running
  clock : Nat
  faults : List DmaFault

/-- Before a run: any memory and any cached copy of it, but nothing dirty and nothing running. -/
def DmaWorld.start (mem view : Memory UInt8) : DmaWorld :=
  ⟨⟨mem, view, fun _ => false⟩, view, fun _ => false, fun _ => none, 0, []⟩

/-- What the bus may do. -/
inductive BusEvent where
  | evict (line : Nat)
  | dmaIn (ch : Channel) (i : Nat) (b : UInt8)
  | dmaOut (ch : Channel) (i : Nat)
  | halt (ch : Channel)
  deriving DecidableEq, Repr

/-- The bus, at every tick of the clock. -/
structure DmaBus where
  events : Nat → List BusEvent
  /-- The interrupt word a channel halts with, if it halts while it is waited for. -/
  word : Nat → Option HcintSnapshot
  /-- `HCTSIZ.XFERSIZE` once it has. -/
  left : Nat → Nat

def DmaWorld.fault (w : DmaWorld) (f : DmaFault) : DmaWorld := { w with faults := w.faults ++ [f] }

/-- A channel halts, or is armed. -/
def DmaWorld.setRunning (w : DmaWorld) (ch : Channel) (r : Option Running) : DmaWorld :=
  { w with running := fun c => if c = ch then r else w.running c }

/-- Byte `i` of a running IN transfer arrives. -/
def DmaWorld.dmaIn (w : DmaWorld) (ch : Channel) (i : Nat) (b : UInt8) : DmaWorld :=
  match w.running ch with
  | none => w
  | some r =>
    if r.transfer.dirIn ∧ i < r.transfer.xferSize then
      { w with
        cache := w.cache.receive (r.transfer.at i) b
        stale := fun a => if a = r.transfer.at i then true else w.stale a }
    else w

/-- Byte `i` of a running OUT transfer is fetched. -/
def DmaWorld.dmaOut (w : DmaWorld) (ch : Channel) (i : Nat) : DmaWorld :=
  match w.running ch with
  | none => w
  | some r =>
    if ¬ r.transfer.dirIn ∧ i < r.transfer.xferSize ∧
        w.cache.mem (r.transfer.at i) ≠ r.sent (r.transfer.at i) then
      w.fault (.outMismatch (r.transfer.at i))
    else w

def DmaWorld.event (w : DmaWorld) : BusEvent → DmaWorld
  | .evict line => { w with cache := w.cache.evict CACHE_LINE line }
  | .dmaIn ch i b => w.dmaIn ch i b
  | .dmaOut ch i => w.dmaOut ch i
  | .halt ch => w.setRunning ch none

/-- A line in the target of a running IN transfer is dirty. -/
def DmaWorld.dirtyTarget (w : DmaWorld) (ch : Channel) : Bool :=
  match w.running ch with
  | none => false
  | some r =>
    r.transfer.dirIn && (List.range r.transfer.xferSize).any fun i =>
      w.cache.dirty (r.transfer.at i / CACHE_LINE)

/-- The targets are looked at after every step. -/
def DmaWorld.audit (w : DmaWorld) : DmaWorld :=
  if w.dirtyTarget .control then w.fault (.dirtyTarget .control)
  else if w.dirtyTarget .video then w.fault (.dirtyTarget .video)
  else w

def DmaWorld.busStep (w : DmaWorld) (e : BusEvent) : DmaWorld := (w.event e).audit

/-- The bus runs until the next step of the CPU. -/
def DmaWorld.tick (bus : DmaBus) (w : DmaWorld) : DmaWorld :=
  (bus.events w.clock).foldl DmaWorld.busStep { w with clock := w.clock + 1 }

/-! ### The steps of the CPU -/

def DmaWorld.writeByte (w : DmaWorld) (off : Nat) (b : UInt8) : DmaWorld :=
  { w with
    cache := w.cache.write CACHE_LINE off b
    written := fun a => if a = off then b else w.written a
    stale := fun a => if a = off then false else w.stale a }

def DmaWorld.writeBytes (bus : DmaBus) (off : Nat) (w : DmaWorld) : List UInt8 → DmaWorld
  | [] => w
  | b :: bs => DmaWorld.writeBytes bus (off + 1) (((w.tick bus).writeByte off b).audit) bs

def DmaWorld.readByte (w : DmaWorld) (off : Nat) : UInt8 × DmaWorld :=
  (w.cache.view off, if w.stale off then w.fault (.staleRead off) else w)

def DmaWorld.readBytes (bus : DmaBus) (off : Nat) (w : DmaWorld) : Nat → List UInt8 × DmaWorld
  | 0 => ([], w)
  | len + 1 =>
    let (b, w) := (w.tick bus).readByte off
    let (bs, w) := DmaWorld.readBytes bus (off + 1) w len
    (b :: bs, w)

def DmaWorld.cleanLine (w : DmaWorld) (line : Nat) : DmaWorld :=
  { w with cache := w.cache.writeBack CACHE_LINE line }

/-- `dcache.cva`. -/
def DmaWorld.dcacheCva (bus : DmaBus) (addr : Nat) (w : DmaWorld) : DmaWorld :=
  ((w.tick bus).cleanLine (addr / CACHE_LINE)).audit

def DmaWorld.dropLine (w : DmaWorld) (line : Nat) : DmaWorld :=
  { w with
    cache := w.cache.drop CACHE_LINE line
    stale := fun a => if a / CACHE_LINE = line then false else w.stale a
    faults := if w.cache.dirty line then w.faults ++ [.droppedDirty line] else w.faults }

/-- `dcache.iva`. -/
def DmaWorld.dcacheIva (bus : DmaBus) (addr : Nat) (w : DmaWorld) : DmaWorld :=
  ((w.tick bus).dropLine (addr / CACHE_LINE)).audit

def coherentMachine (bus : DmaBus) : Machine DmaWorld where
  arm ch t w :=
    let w := w.tick bus
    match w.running ch with
    | none => (true, (w.setRunning ch (some ⟨t, w.written⟩)).audit)
    | some _ => (false, w)
  waitHalted ch w :=
    let w := w.tick bus
    match bus.word w.clock with
    | none => (none, w)
    | some st => (some st, w.setRunning ch none)
  xferSizeLeft _ w := bus.left w.clock
  write off bytes w := w.writeBytes bus off bytes
  read off len w := w.readBytes bus off len
  clean off len w := dcacheCleanRange (DmaWorld.dcacheCva bus) off len w
  invalidate off len w := dcacheInvalidateRange (DmaWorld.dcacheIva bus) off len w

/-! ### The invariant -/

/-- Where the transfers of a channel lie. -/
def Placed (ch : Channel) (t : Transfer) : Prop :=
  match ch with
  | .control =>
    (t.dmaOff = OFF_EP0 ∨ t.dmaOff = DMA_OFF_SMALL_IO) ∧ t.dmaOff + t.xferSize ≤ EP0_REGION_BYTES
  | .video => t.dirIn = true ∧ t.dmaOff = DMA_OFF_UVC_BULK ∧ t.xferSize ≤ 2047

/-- The first offset past the targets of all transfers. -/
def TARGETS_END : Nat := DMA_OFF_UVC_BULK + 4096

/-- **The invariant**: nothing has gone wrong, and where transfers may lie only the lines in `D` are
dirty, which no running transfer touches. -/
structure Safe (D : Nat → Prop) (w : DmaWorld) : Prop where
  faultless : w.faults = []
  placed : ∀ ch r, w.running ch = some r → Placed ch r.transfer
  dirty : ∀ line, w.cache.dirty line = true → TARGETS_END / CACHE_LINE ≤ line ∨ D line
  apart : ∀ ch r, w.running ch = some r → ∀ i < r.transfer.xferSize,
    ¬ D (r.transfer.at i / CACHE_LINE)
  sent : ∀ ch r, w.running ch = some r → r.transfer.dirIn = false →
    ∀ i < r.transfer.xferSize, w.cache.mem (r.transfer.at i) = r.sent (r.transfer.at i)
  stale : ∀ a, w.stale a = true → a < TARGETS_END

/-- No line outside that area is dirty. -/
def Settled : DmaWorld → Prop := Safe fun _ => False

section

variable {D : Nat → Prop} {w : DmaWorld} {ch : Channel} {r : Running} {i : Nat}

/-- The targets of the two channels lie in different lines, and in none of the area beyond. -/
theorem Placed.bounds {t : Transfer} (h : Placed ch t) (hi : i < t.xferSize) :
    (ch = .control → t.at i < EP0_REGION_BYTES) ∧
      (ch = .video → EP0_REGION_BYTES ≤ t.at i) ∧ t.at i < TARGETS_END := by
  unfold Transfer.at
  cases ch with
  | control =>
    obtain ⟨-, hend⟩ := h
    unfold EP0_REGION_BYTES at hend ⊢
    unfold TARGETS_END DMA_OFF_UVC_BULK EP0_REGION_BYTES
    exact ⟨fun _ => by omega, fun hch => absurd hch (by decide), by omega⟩
  | video =>
    obtain ⟨-, hoff, hsize⟩ := h
    unfold TARGETS_END
    rw [hoff]
    unfold DMA_OFF_UVC_BULK EP0_REGION_BYTES
    exact ⟨fun hch => absurd hch (by decide), fun _ => by omega, by omega⟩

/-- Two running transfers have no byte in common. -/
theorem Safe.disjoint {ch' : Channel} {r' : Running} {j : Nat} (h : Safe D w)
    (hr : w.running ch = some r) (hr' : w.running ch' = some r') (hne : ch ≠ ch')
    (hi : i < r.transfer.xferSize) (hj : j < r'.transfer.xferSize) :
    r.transfer.at i ≠ r'.transfer.at j := by
  obtain ⟨hcontrol, hvideo, -⟩ := (h.placed ch r hr).bounds hi
  obtain ⟨hcontrol', hvideo', -⟩ := (h.placed ch' r' hr').bounds hj
  cases ch with
  | control =>
    cases ch' with
    | control => exact absurd rfl hne
    | video => exact Nat.ne_of_lt (Nat.lt_of_lt_of_le (hcontrol rfl) (hvideo' rfl))
  | video =>
    cases ch' with
    | control => exact Nat.ne_of_gt (Nat.lt_of_lt_of_le (hcontrol' rfl) (hvideo rfl))
    | video => exact absurd rfl hne

/-- The target of a running transfer is clean. -/
theorem Safe.clean (h : Safe D w) (hr : w.running ch = some r) (hi : i < r.transfer.xferSize) :
    w.cache.dirty (r.transfer.at i / CACHE_LINE) = false := by
  refine Bool.eq_false_iff.mpr fun hdirty => ?_
  rcases h.dirty _ hdirty with hbeyond | hD
  · have hend := ((h.placed ch r hr).bounds hi).2.2
    have hline := Nat.div_lt_of_lt_mul
      (show r.transfer.at i < CACHE_LINE * (TARGETS_END / CACHE_LINE) from hend)
    exact Nat.not_lt_of_le hbeyond hline
  · exact h.apart ch r hr i hi hD

theorem Safe.dirtyTarget (h : Safe D w) (ch : Channel) : w.dirtyTarget ch = false := by
  unfold DmaWorld.dirtyTarget
  split
  · rfl
  · rename_i r hr
    refine Bool.and_eq_false_imp.mpr fun _ => List.any_eq_false.mpr fun i hi => ?_
    exact Bool.eq_false_iff.mp (h.clean hr (List.mem_range.mp hi))

/-- The audit of a safe world finds nothing. -/
theorem Safe.audit (h : Safe D w) : w.audit = w := by
  unfold DmaWorld.audit
  rw [h.dirtyTarget .control, h.dirtyTarget .video]
  rfl

theorem setRunning_some {r' : Option Running} {c : Channel}
    (h : (w.setRunning ch r').running c = some r) :
    (c = ch ∧ r' = some r) ∨ (c ≠ ch ∧ w.running c = some r) := by
  change (if c = ch then r' else w.running c) = some r at h
  split at h
  · rename_i heq
    exact Or.inl ⟨heq, h⟩
  · rename_i hne
    exact Or.inr ⟨hne, h⟩

/-- A transfer that still runs once a channel has halted ran before. -/
theorem running_of_halted {c : Channel} (h : (w.setRunning ch none).running c = some r) :
    w.running c = some r := by
  rcases setRunning_some h with ⟨-, hnone⟩ | ⟨-, hr⟩
  · cases hnone
  · exact hr

theorem Safe.halted (h : Safe D w) (ch : Channel) : Safe D (w.setRunning ch none) :=
  ⟨h.faultless, fun c r hr => h.placed c r (running_of_halted hr), h.dirty,
    fun c r hr => h.apart c r (running_of_halted hr),
    fun c r hr => h.sent c r (running_of_halted hr), h.stale⟩

theorem Safe.evict (h : Safe D w) (line : Nat) :
    Safe D { w with cache := w.cache.evict CACHE_LINE line } :=
  ⟨h.faultless, h.placed, fun l hl => h.dirty l (WriteBack.dirty_evict hl), h.apart,
    fun ch r hr hout i hi =>
      (WriteBack.mem_evict (h.clean hr hi)).trans (h.sent ch r hr hout i hi), h.stale⟩

theorem Safe.dmaIn (h : Safe D w) (ch : Channel) (i : Nat) (b : UInt8) :
    Safe D (w.dmaIn ch i b) := by
  unfold DmaWorld.dmaIn
  split
  · exact h
  · rename_i r hr
    split
    · rename_i hin
      obtain ⟨hdir, hi⟩ := hin
      refine ⟨h.faultless, h.placed, h.dirty, h.apart, fun ch' r' hr' hout j hj => ?_,
        fun a ha => ?_⟩
      · have hne : ch' ≠ ch := by
          rintro rfl
          obtain rfl : r = r' := Option.some.inj (hr.symm.trans hr')
          rw [hdir] at hout
          cases hout
        exact (WriteBack.mem_receive (h.disjoint hr' hr hne hj hi)).trans
          (h.sent ch' r' hr' hout j hj)
      · change (if a = r.transfer.at i then true else w.stale a) = true at ha
        split at ha
        · rename_i heq
          rw [heq]
          exact ((h.placed ch r hr).bounds hi).2.2
        · exact h.stale a ha
    · exact h

/-- What is fetched of an OUT transfer is what the CPU has written. -/
theorem Safe.dmaOut (h : Safe D w) (ch : Channel) (i : Nat) : w.dmaOut ch i = w := by
  unfold DmaWorld.dmaOut
  split
  · rfl
  · rename_i r hr
    refine if_neg fun hout => ?_
    obtain ⟨hdir, hi, hne⟩ := hout
    exact hne (h.sent ch r hr (Bool.eq_false_iff.mpr hdir) i hi)

/-- **The bus keeps the invariant.** -/
theorem Safe.event (h : Safe D w) (e : BusEvent) : Safe D (w.event e) := by
  cases e with
  | evict line => exact h.evict line
  | dmaIn ch i b => exact h.dmaIn ch i b
  | dmaOut ch i =>
    change Safe D (w.dmaOut ch i)
    rw [h.dmaOut ch i]
    exact h
  | halt ch => exact h.halted ch

theorem Safe.busStep (h : Safe D w) (e : BusEvent) : w.busStep e = w.event e := (h.event e).audit

/-- What every event keeps in a safe world is kept while the bus runs. -/
theorem Safe.tick_keeps {P : DmaWorld → Prop} (h : Safe D w) (bus : DmaBus)
    (hclock : ∀ n, P { w with clock := n }) (hevent : ∀ w e, Safe D w → P w → P (w.event e)) :
    Safe D (w.tick bus) ∧ P (w.tick bus) := by
  have hrun : ∀ (es : List BusEvent) (w : DmaWorld), Safe D w → P w →
      Safe D (es.foldl DmaWorld.busStep w) ∧ P (es.foldl DmaWorld.busStep w) := by
    intro es
    induction es with
    | nil => exact fun _ h hP => ⟨h, hP⟩
    | cons e es ih =>
        intro w h hP
        rw [List.foldl_cons, h.busStep e]
        exact ih _ (h.event e) (hevent w e h hP)
  exact hrun _ _ ⟨h.faultless, h.placed, h.dirty, h.apart, h.sent, h.stale⟩ (hclock _)

theorem Safe.tick (h : Safe D w) (bus : DmaBus) : Safe D (w.tick bus) :=
  (h.tick_keeps (P := fun _ => True) bus (fun _ => trivial) fun _ _ _ _ => trivial).1

/-! ### What else outlasts the bus -/

/-- No channel receives into `[lo, hi)`. -/
def Undisturbed (lo hi : Nat) (w : DmaWorld) : Prop :=
  ∀ ch r, w.running ch = some r → r.transfer.dirIn = true →
    ∀ i < r.transfer.xferSize, ¬ (lo ≤ r.transfer.at i ∧ r.transfer.at i < hi)

/-- What the CPU wrote to `[lo, hi)` is there, or will be once it is written back. -/
def Own (lo hi : Nat) (w : DmaWorld) : Prop :=
  ∀ a, lo ≤ a → a < hi → w.cache.Holds CACHE_LINE a (w.written a)

/-- No byte of `[lo, hi)` is waiting to be invalidated. -/
def Fresh (lo hi : Nat) (w : DmaWorld) : Prop := ∀ a, lo ≤ a → a < hi → w.stale a = false

/-- What runs in `w'` runs in `w`. -/
def Fewer (w w' : DmaWorld) : Prop := ∀ ch r, w'.running ch = some r → w.running ch = some r

variable {w' : DmaWorld} {lo hi : Nat}

theorem Fewer.refl (w : DmaWorld) : Fewer w w := fun _ _ h => h

theorem Fewer.trans {w'' : DmaWorld} (h : Fewer w w') (h' : Fewer w' w'') : Fewer w w'' :=
  fun ch r hr => h ch r (h' ch r hr)

theorem Fewer.idle (h : Fewer w w') (hidle : w.running ch = none) : w'.running ch = none := by
  cases hr : w'.running ch with
  | none => rfl
  | some r => exact absurd ((h ch r hr).symm.trans hidle) (Option.some_ne_none r)

theorem Undisturbed.of_fewer (h : Undisturbed lo hi w) (hf : Fewer w w') : Undisturbed lo hi w' :=
  fun ch r hr => h ch r (hf ch r hr)

theorem Undisturbed.mono {hi' : Nat} (h : Undisturbed lo hi w) (hle : hi' ≤ hi) :
    Undisturbed lo hi' w :=
  fun ch r hr hdir i hlt hin => h ch r hr hdir i hlt ⟨hin.1, Nat.lt_of_lt_of_le hin.2 hle⟩

theorem fewer_audit (w : DmaWorld) : Fewer w w.audit := by
  unfold DmaWorld.audit
  split
  · exact .refl w
  · split
    · exact .refl w
    · exact .refl w

theorem fewer_event (w : DmaWorld) (e : BusEvent) : Fewer w (w.event e) := by
  cases e with
  | evict line => exact .refl w
  | dmaIn c i b =>
    change Fewer w (w.dmaIn c i b)
    unfold DmaWorld.dmaIn
    split
    · exact .refl w
    · split
      · exact .refl w
      · exact .refl w
  | dmaOut c i =>
    change Fewer w (w.dmaOut c i)
    unfold DmaWorld.dmaOut
    split
    · exact .refl w
    · split
      · exact .refl w
      · exact .refl w
  | halt c => exact fun _ _ hr => running_of_halted hr

/-- Nothing starts by itself. -/
theorem fewer_tick (bus : DmaBus) (w : DmaWorld) : Fewer w (w.tick bus) := by
  have hrun : ∀ (es : List BusEvent) (w : DmaWorld), Fewer w (es.foldl DmaWorld.busStep w) := by
    intro es
    induction es with
    | nil => exact Fewer.refl
    | cons e es ih => exact fun w => ((fewer_event w e).trans (fewer_audit _)).trans (ih _)
  exact hrun _ { w with clock := w.clock + 1 }

theorem Own.event (hq : Undisturbed lo hi w) (h : Own lo hi w) (e : BusEvent) :
    Own lo hi (w.event e) := by
  cases e with
  | evict line => exact fun a h1 h2 => (h a h1 h2).evict
  | dmaIn c i b =>
    change Own lo hi (w.dmaIn c i b)
    unfold DmaWorld.dmaIn
    split
    · exact h
    · rename_i r hr
      split
      · rename_i hin
        refine fun a h1 h2 => (h a h1 h2).receive ?_
        rintro rfl
        exact hq c r hr hin.1 i hin.2 ⟨h1, h2⟩
      · exact h
  | dmaOut c i =>
    change Own lo hi (w.dmaOut c i)
    unfold DmaWorld.dmaOut
    split
    · exact h
    · split
      · exact h
      · exact h
  | halt c => exact h

/-- What the CPU has written is safe from the bus where nothing is received. -/
theorem Own.tick (hs : Safe D w) (hq : Undisturbed lo hi w) (h : Own lo hi w) (bus : DmaBus) :
    Own lo hi (w.tick bus) :=
  (hs.tick_keeps (P := fun w => Undisturbed lo hi w ∧ Own lo hi w) bus (fun _ => ⟨hq, h⟩)
    fun w e _ h => ⟨h.1.of_fewer (fewer_event w e), h.2.event h.1 e⟩).2.2

theorem Fresh.event (hq : Undisturbed lo hi w) (h : Fresh lo hi w) (e : BusEvent) :
    Fresh lo hi (w.event e) := by
  cases e with
  | evict line => exact h
  | dmaIn c i b =>
    change Fresh lo hi (w.dmaIn c i b)
    unfold DmaWorld.dmaIn
    split
    · exact h
    · rename_i r hr
      split
      · rename_i hin
        refine fun a h1 h2 => (if_neg ?_).trans (h a h1 h2)
        rintro rfl
        exact hq c r hr hin.1 i hin.2 ⟨h1, h2⟩
      · exact h
  | dmaOut c i =>
    change Fresh lo hi (w.dmaOut c i)
    unfold DmaWorld.dmaOut
    split
    · exact h
    · split
      · exact h
      · exact h
  | halt c => exact h

theorem Fresh.tick (hs : Safe D w) (hq : Undisturbed lo hi w) (h : Fresh lo hi w) (bus : DmaBus) :
    Fresh lo hi (w.tick bus) :=
  (hs.tick_keeps (P := fun w => Undisturbed lo hi w ∧ Fresh lo hi w) bus (fun _ => ⟨hq, h⟩)
    fun w e _ h => ⟨h.1.of_fewer (fewer_event w e), h.2.event h.1 e⟩).2.2

/-! ### The CPU writes -/

variable {D' : Nat → Prop} {bus : DmaBus} {off : Nat} {b : UInt8}

theorem Safe.relabel (h : Safe D w) (hdirty : ∀ line, w.cache.dirty line = true → D line → D' line)
    (hapart : ∀ line, D' line → D line) : Safe D' w :=
  ⟨h.faultless, h.placed, fun line hl => (h.dirty line hl).imp id (hdirty line hl),
    fun ch r hr i hi hD' => h.apart ch r hr i hi (hapart _ hD'), h.sent, h.stale⟩

theorem Safe.writeByte (h : Safe D w)
    (hoff : TARGETS_END / CACHE_LINE ≤ off / CACHE_LINE ∨ D (off / CACHE_LINE)) :
    Safe D (w.writeByte off b) := by
  refine ⟨h.faultless, h.placed, fun line hl => ?_, h.apart, h.sent, fun a ha => ?_⟩
  · rcases WriteBack.dirty_write hl with rfl | hdirty
    · exact hoff
    · exact h.dirty line hdirty
  · change (if a = off then false else w.stale a) = true at ha
    split at ha
    · cases ha
    · exact h.stale a ha

theorem Own.writeByte (h : Own lo off w) : Own lo (off + 1) (w.writeByte off b) := by
  intro a h1 h2
  change WriteBack.Holds CACHE_LINE _ a (if a = off then b else w.written a)
  split
  · rename_i heq
    rw [heq]
    exact WriteBack.holds_write
  · rename_i hne
    exact (h a h1 (by omega)).write hne

/-- The lines of `bytes` at `off` may be dirtied. -/
def Writable (D : Nat → Prop) (lo hi : Nat) : Prop :=
  ∀ a, lo ≤ a → a < hi → TARGETS_END / CACHE_LINE ≤ a / CACHE_LINE ∨ D (a / CACHE_LINE)

/-- **A write**: what was written is there. -/
theorem writeBytes_own (bus : DmaBus) {bytes : List UInt8} (hs : Safe D w)
    (hD : Writable D off (off + bytes.length)) (hle : lo ≤ off)
    (hq : Undisturbed lo (off + bytes.length) w) (ho : Own lo off w) :
    Safe D (w.writeBytes bus off bytes) ∧ Fewer w (w.writeBytes bus off bytes) ∧
      Own lo (off + bytes.length) (w.writeBytes bus off bytes) := by
  induction bytes generalizing off w with
  | nil => exact ⟨hs, .refl w, ho⟩
  | cons b bs ih =>
      have hlen : off + (b :: bs).length = off + 1 + bs.length := by
        rw [List.length_cons, Nat.add_assoc, Nat.add_comm 1]
      rw [hlen] at hD hq ⊢
      have hbyte := (hs.tick bus).writeByte (b := b) (hD off (Nat.le_refl _) (by omega))
      have hfewer := (fewer_tick bus w).trans (fewer_audit ((w.tick bus).writeByte off b))
      have hown := (ho.tick hs (hq.mono (by omega)) bus).writeByte (b := b)
      unfold DmaWorld.writeBytes
      rw [hbyte.audit] at hfewer ⊢
      obtain ⟨hs', hfewer', hown'⟩ := ih hbyte (fun a h1 h2 => hD a (by omega) h2) (by omega)
        (hq.of_fewer hfewer) hown
      exact ⟨hs', hfewer.trans hfewer', hown'⟩

/-! ### Clean -/

theorem Safe.cleanLine (h : Safe D w) (line : Nat) :
    Safe (fun l => D l ∧ l ≠ line) (w.cleanLine line) := by
  refine ⟨h.faultless, h.placed, fun l hl => ?_, fun ch r hr i hi hD => h.apart ch r hr i hi hD.1,
    fun ch r hr hout i hi => ?_, h.stale⟩
  · obtain ⟨hne, hdirty⟩ := WriteBack.dirty_writeBack hl
    exact (h.dirty l hdirty).imp id fun hD => ⟨hD, hne⟩
  · exact (WriteBack.mem_writeBack (h.clean hr hi)).trans (h.sent ch r hr hout i hi)

/-- **A clean**: nothing is dirty any more, and what was written is still there. -/
theorem cleanRange_own (bus : DmaBus) {size : Nat} (hsize : 0 < size)
    (hs : Safe (InLines off (off + size)) w) (hq : Undisturbed off (off + size) w)
    (ho : Own off (off + size) w) :
    Settled (dcacheCleanRange (DmaWorld.dcacheCva bus) off size w) ∧
      Fewer w (dcacheCleanRange (DmaWorld.dcacheCva bus) off size w) ∧
      Own off (off + size) (dcacheCleanRange (DmaWorld.dcacheCva bus) off size w) := by
  have hstep : ∀ line w₁, InLines off (off + size) line →
      (Safe (fun l => line ≤ l ∧ l * CACHE_LINE < off + size) w₁ ∧ Fewer w w₁ ∧
        Own off (off + size) w₁) →
      (Safe (fun l => line + 1 ≤ l ∧ l * CACHE_LINE < off + size)
          (DmaWorld.dcacheCva bus (line * CACHE_LINE) w₁) ∧
        Fewer w (DmaWorld.dcacheCva bus (line * CACHE_LINE) w₁) ∧
        Own off (off + size) (DmaWorld.dcacheCva bus (line * CACHE_LINE) w₁)) := by
    rintro line w₁ - ⟨hs₁, hfewer, ho₁⟩
    have hback := (hs₁.tick bus).cleanLine line
    have hown := ho₁.tick hs₁ (hq.of_fewer hfewer) bus
    have hfewer' := hfewer.trans (fewer_tick bus w₁)
    unfold DmaWorld.dcacheCva
    rw [Nat.mul_div_cancel line (by decide : 0 < CACHE_LINE), hback.audit]
    refine ⟨hback.relabel (fun l _ hl => ?_) fun l hl => ?_, hfewer', fun a h1 h2 => ?_⟩
    · exact ⟨Nat.lt_of_le_of_ne hl.1.1 (Ne.symm hl.2), hl.1.2⟩
    · exact ⟨⟨Nat.le_of_succ_le hl.1, hl.2⟩, Nat.ne_of_gt hl.1⟩
    · exact (hown a h1 h2).writeBack
  obtain ⟨line, hend, hs', hfewer, ho'⟩ := dcacheRange_rule hsize hstep ⟨hs, .refl w, ho⟩
  refine ⟨hs'.relabel (fun l _ hl => ?_) fun _ h => h.elim, hfewer, ho'⟩
  have hle := Nat.mul_le_mul_right CACHE_LINE hl.1
  omega

/-! ### Invalidate and read -/

/-- An invalidate drops nothing that is dirty, where targets may lie. -/
theorem Settled.dropLine (h : Settled w) {line : Nat} (hline : line * CACHE_LINE < TARGETS_END) :
    Settled (w.dropLine line) := by
  have hclean : w.cache.dirty line = false := by
    refine Bool.eq_false_iff.mpr fun hdirty => ?_
    rcases h.dirty line hdirty with hbeyond | hD
    · have hle := Nat.mul_le_mul_right CACHE_LINE hbeyond
      exact absurd hline (Nat.not_lt_of_le hle)
    · exact hD
  refine ⟨?_, h.placed, fun l hl => h.dirty l (WriteBack.dirty_drop hl).2, h.apart, h.sent,
    fun a ha => ?_⟩
  · change (if w.cache.dirty line then w.faults ++ [.droppedDirty line] else w.faults) = []
    rw [hclean]
    exact h.faultless
  · change (if a / CACHE_LINE = line then false else w.stale a) = true at ha
    split at ha
    · cases ha
    · exact h.stale a ha

/-- **An invalidate**: no byte of the range is stale any more. -/
theorem invalidateRange_fresh (bus : DmaBus) {size : Nat} (hsize : 0 < size)
    (hend : off + size ≤ TARGETS_END) (hs : Settled w) (hq : Undisturbed off (off + size) w) :
    Settled (dcacheInvalidateRange (DmaWorld.dcacheIva bus) off size w) ∧
      Fewer w (dcacheInvalidateRange (DmaWorld.dcacheIva bus) off size w) ∧
      Fresh off (off + size) (dcacheInvalidateRange (DmaWorld.dcacheIva bus) off size w) := by
  have hstep : ∀ line w₁, InLines off (off + size) line →
      (Settled w₁ ∧ Fewer w w₁ ∧ Fresh off (min (off + size) (line * CACHE_LINE)) w₁) →
      (Settled (DmaWorld.dcacheIva bus (line * CACHE_LINE) w₁) ∧
        Fewer w (DmaWorld.dcacheIva bus (line * CACHE_LINE) w₁) ∧
        Fresh off (min (off + size) ((line + 1) * CACHE_LINE))
          (DmaWorld.dcacheIva bus (line * CACHE_LINE) w₁)) := by
    rintro line w₁ hline ⟨hs₁, hfewer, hf⟩
    have hdrop := Settled.dropLine (hs₁.tick bus) (Nat.lt_of_lt_of_le hline.2 hend)
    have hfewer' := hfewer.trans (fewer_tick bus w₁)
    unfold DmaWorld.dcacheIva
    rw [Nat.mul_div_cancel line (by decide : 0 < CACHE_LINE), hdrop.audit]
    refine ⟨hdrop, hfewer', fun a h1 h2 => ?_⟩
    change (if a / CACHE_LINE = line then false else (w₁.tick bus).stale a) = false
    split
    · rfl
    · rename_i hne
      have hq₁ := (hq.of_fewer hfewer).mono (Nat.min_le_left (off + size) (line * CACHE_LINE))
      refine hf.tick hs₁ hq₁ bus a h1 ?_
      unfold CACHE_LINE at h2 hne ⊢
      omega
  have hstart : Fresh off (min (off + size) (off / CACHE_LINE * CACHE_LINE)) w := by
    intro a h1 h2
    have := Nat.div_mul_le_self off CACHE_LINE
    omega
  obtain ⟨line, hstop, hs', hfewer, hf⟩ := dcacheRange_rule hsize hstep ⟨hs, .refl w, hstart⟩
  rw [Nat.min_eq_left hstop] at hf
  exact ⟨hs', hfewer, hf⟩

/-- **A read** of bytes that are not stale. -/
theorem readBytes_fresh (bus : DmaBus) (lo hi : Nat) {len : Nat} (hs : Settled w)
    (hq : Undisturbed off (off + len) w) (hf : Fresh off (off + len) w) :
    Settled (w.readBytes bus off len).2 ∧ Fewer w (w.readBytes bus off len).2 ∧
      (Undisturbed lo hi w → Fresh lo hi w → Fresh lo hi (w.readBytes bus off len).2) := by
  induction len generalizing off w with
  | zero => exact ⟨hs, .refl w, fun _ h => h⟩
  | succ len ih =>
      have hlen : off + (len + 1) = off + 1 + len := by omega
      rw [hlen] at hq hf
      have hf' := hf.tick hs hq bus
      have hbyte : (w.tick bus).readByte off = ((w.tick bus).cache.view off, w.tick bus) := by
        unfold DmaWorld.readByte
        rw [hf' off (Nat.le_refl _) (by omega)]
        rfl
      have hfewer := fewer_tick bus w
      obtain ⟨hs', hfewer', hkeep⟩ := ih (hs.tick bus)
        (fun ch r hr hdir i hi hin => hq ch r (hfewer ch r hr) hdir i hi ⟨by omega, hin.2⟩)
        fun a h1 h2 => hf' a (by omega) h2
      unfold DmaWorld.readBytes
      rw [hbyte]
      exact ⟨hs', hfewer.trans hfewer', fun hq₁ hf₁ =>
        hkeep (hq₁.of_fewer hfewer) (hf₁.tick hs hq₁ bus)⟩

/-! ### Transfers -/

theorem Safe.armed {t : Transfer} (h : Settled w) (hplaced : Placed ch t)
    (hsent : t.dirIn = false → Own t.dmaOff (t.dmaOff + t.xferSize) w) :
    Settled (w.setRunning ch (some ⟨t, w.written⟩)) := by
  have hnew : ∀ c r, (w.setRunning ch (some ⟨t, w.written⟩)).running c = some r →
      (c = ch ∧ r = ⟨t, w.written⟩) ∨ w.running c = some r := by
    intro c r hr
    rcases setRunning_some hr with ⟨hc, heq⟩ | ⟨-, hr⟩
    · exact Or.inl ⟨hc, (Option.some.inj heq).symm⟩
    · exact Or.inr hr
  refine ⟨h.faultless, fun c r hr => ?_, h.dirty, fun _ _ _ _ _ => id, fun c r hr hout i hi => ?_,
    h.stale⟩
  · rcases hnew c r hr with ⟨rfl, rfl⟩ | hr
    · exact hplaced
    · exact h.placed c r hr
  · rcases hnew c r hr with ⟨rfl, rfl⟩ | hr
    · refine (hsent hout (t.at i) (Nat.le_add_right _ _) (Nat.add_lt_add_left hi _)).mem ?_
      refine Bool.eq_false_iff.mpr fun hdirty => ?_
      rcases h.dirty _ hdirty with hbeyond | hD
      · have hend := (hplaced.bounds hi).2.2
        exact Nat.not_lt_of_le hbeyond (Nat.div_lt_of_lt_mul
          (show t.at i < CACHE_LINE * (TARGETS_END / CACHE_LINE) from hend))
      · exact hD
    · exact h.sent c r hr hout i hi

/-- A channel that is done with what it ran. -/
def Idle (ch : Channel) (w : DmaWorld) : Prop := Settled w ∧ w.running ch = none

/-- The bytes of an OUT transfer are written, and nothing is received where they lie. -/
def Ready (t : Transfer) (w : DmaWorld) : Prop :=
  Settled w ∧ (t.dirIn = false →
    Undisturbed t.dmaOff (t.dmaOff + t.xferSize) w ∧ Own t.dmaOff (t.dmaOff + t.xferSize) w)

variable {t : Transfer}

theorem Ready.tick (h : Ready t w) (bus : DmaBus) : Ready t (w.tick bus) := by
  refine ⟨h.1.tick bus, fun hout => ?_⟩
  obtain ⟨hq, ho⟩ := h.2 hout
  exact ⟨hq.of_fewer (fewer_tick bus w), ho.tick h.1 hq bus⟩

theorem Ready.halted (h : Ready t w) (ch : Channel) : Ready t (w.setRunning ch none) := by
  refine ⟨h.1.halted ch, fun hout => ?_⟩
  obtain ⟨hq, ho⟩ := h.2 hout
  exact ⟨hq.of_fewer fun _ _ hr => running_of_halted hr, ho⟩

theorem Ready.armed (h : Ready t w) (hplaced : Placed ch t) :
    Ready t (w.setRunning ch (some ⟨t, w.written⟩)) := by
  refine ⟨Safe.armed h.1 hplaced fun hout => (h.2 hout).2, fun hout => ?_⟩
  obtain ⟨hq, ho⟩ := h.2 hout
  refine ⟨fun c r hr hdir => ?_, ho⟩
  rcases setRunning_some hr with ⟨-, heq⟩ | ⟨-, hr⟩
  · obtain rfl : ⟨t, w.written⟩ = r := Option.some.inj heq
    rw [hout] at hdir
    cases hdir
  · exact hq c r hr hdir

/-- What a transfer leaves alone. -/
structure Frame (bus : DmaBus) (ch : Channel) (t : Transfer) (F : DmaWorld → Prop) : Prop where
  tick : ∀ w, Settled w → F w → F (w.tick bus)
  armed : ∀ w, F w → F (w.setRunning ch (some ⟨t, w.written⟩))
  halted : ∀ w, F w → F (w.setRunning ch none)

theorem frame_true (bus : DmaBus) (ch : Channel) (t : Transfer) : Frame bus ch t fun _ => True :=
  ⟨fun _ _ _ => trivial, fun _ _ => trivial, fun _ _ => trivial⟩

variable {F : DmaWorld → Prop}

/-- **Arming a channel.** -/
theorem triple_armReady (hplaced : Placed ch t) (hF : Frame bus ch t F) :
    Triple (fun w => Ready t w ∧ F w) (ch.arm (coherentMachine bus) t)
      (fun _ w => Ready t w ∧ F w) (fun _ => Settled) := by
  refine triple_arm (fun w hw harm => ?_) fun w hw harm => ?_
  · simp only [coherentMachine] at harm ⊢
    have hF' := hF.tick w hw.1.1 hw.2
    split
    · have harmed := (hw.1.tick bus).armed hplaced
      rw [harmed.1.audit]
      exact ⟨harmed, hF.armed _ hF'⟩
    · exact ⟨hw.1.tick bus, hF'⟩
  · simp only [coherentMachine] at harm ⊢
    split
    · rename_i hidle
      rw [hidle] at harm
      cases harm
    · exact hw.1.1.tick bus

/-- **A channel that halts** is idle. -/
theorem triple_waitReady (hF : Frame bus ch t F) :
    Triple (fun w => Ready t w ∧ F w) (ch.waitHalted (coherentMachine bus))
      (fun _ w => (Ready t w ∧ F w) ∧ w.running ch = none) (fun _ => Settled) := by
  refine triple_waitHalted (fun w st hw hst => ?_) fun w hw hst => ?_
  · simp only [coherentMachine] at hst ⊢
    have hF' := hF.tick w hw.1.1 hw.2
    split
    · rename_i hword
      rw [hword] at hst
      cases hst
    · exact ⟨⟨(hw.1.tick bus).halted ch, hF.halted _ hF'⟩, if_pos rfl⟩
  · simp only [coherentMachine] at hst ⊢
    split
    · exact hw.1.1.tick bus
    · exact (hw.1.1.tick bus).halted ch

/-- **A transfer**: one that succeeds has halted, one that fails may still run. -/
theorem triple_xferFrame (hplaced : Placed ch t) (hF : Frame bus ch t F) :
    Triple (fun w => Ready t w ∧ F w) (ch.xfer (coherentMachine bus) t)
      (fun _ w => Idle ch w ∧ F w) (fun _ => Settled) :=
  triple_xfer (triple_armReady hplaced hF) (triple_waitReady hF) (fun _ _ _ h => h.1)
    (fun _ _ _ h => ⟨⟨h.1.1.1, h.2⟩, h.1.2⟩) (fun _ _ _ h => h.1.1.1) fun _ h => h.1.1

theorem triple_xferReady (hplaced : Placed ch t) :
    Triple (Ready t) (ch.xfer (coherentMachine bus) t) (fun _ => Idle ch) (fun _ => Settled) :=
  triple_weaken (triple_xferFrame hplaced (frame_true bus ch t)) (fun _ h => ⟨h, trivial⟩)
    (fun _ _ h => h.1) fun _ _ h => h

end

end Cvirtos.Usb.Dwc2
