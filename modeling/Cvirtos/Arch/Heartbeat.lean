import Cvirtos.Arch.Time
import Cvirtos.Lib.Transition

/-!
# The heartbeat and the watchdog

`init_interrupts` of `arch/trap.rs` from `set_mtimer` on, `init_heartbeat`, `rearm` and
`heartbeat_tick` of `arch/time.rs`, `start` and `kick` of `drivers/wdt.rs`.  Every access to a
register is one step; the timer interrupt may come between any two of the start-up, and time passes
between any two steps at all.

* `step` — one tick of the clock, or one access;
* `Armed` — **the comparator is never set further than one interval ahead**, although it is written
  in two halves and the interrupt may rearm it between them;
* `responsive_never_resets` — the watchdog never expires while every interrupt is served in time;
* `unfed_resets` — it does in every run without a kick that is long enough.
-/

set_option autoImplicit false

namespace Cvirtos.Arch

open Cvirtos.Lib

def HEARTBEAT_INTERVAL_TICKS : BitVec 64 := .ofNat 64 (TIMEBASE_HZ / 100)

/-- Where `init_interrupts` stands, by its next access. -/
inductive Init where
  | setMtimer
  | setMie
  | clearHeartbeat
  | clearLastPc
  | readTime
  | writeLo (next : BitVec 64)
  | writeHi (next : BitVec 64)
  | setMtimerAgain
  | wdtTorr
  | wdtEnable
  | wdtKick
  /-- It has returned. -/
  | returned
  deriving DecidableEq, Repr

/-- Where `heartbeat_tick` stands, by its next access. -/
inductive Tick where
  | off
  | kick
  | readHeartbeat
  | writeHeartbeat (hb : UInt32)
  | samplePc
  | readTime
  | writeLo (next : BitVec 64)
  | writeHi (next : BitVec 64)
  deriving DecidableEq, Repr

structure Core where
  mtime : BitVec 64
  mtimecmpLo : BitVec 32
  mtimecmpHi : BitVec 32
  mtie : Bool
  mie : Bool
  torr : Nat
  wdtEnabled : Bool
  /-- The cycles that the watchdog has left. -/
  wdtLeft : Nat
  /-- The board has been reset. -/
  reset : Bool
  heartbeat : UInt32
  lastPc : UInt32
  mepc : UInt64
  init : Init
  tick : Tick
  /-- The ticks since the interrupt has been due, until it has returned. -/
  lag : Nat
  deriving DecidableEq, Repr

inductive Act where
  /-- The clock goes on, and the watchdog with it. -/
  | clock
  /-- The next access of `init_interrupts`. -/
  | init
  /-- The timer interrupt is taken at `pc`. -/
  | trap (pc : UInt64)
  /-- The next access of `heartbeat_tick`. -/
  | tick
  deriving DecidableEq, Repr

namespace Core

/-- What the comparator holds. -/
def mtimecmp (s : Core) : Nat := s.mtimecmpHi.toNat * 2 ^ 32 + s.mtimecmpLo.toNat

/-- The timer interrupt is pending. -/
def pending (s : Core) : Bool := s.mtimecmp ≤ s.mtime.toNat

/-- The timer interrupt is owed: it is to be taken, or has not returned yet. -/
def owed (s : Core) : Bool := s.tick ≠ .off || (s.mtie && s.mie && s.pending)

def wdtPeriod (s : Core) : Nat := 2 ^ (8 + s.torr) + 1

/-- `kick`. -/
def kick (s : Core) : Core := { s with wdtLeft := s.wdtPeriod }

/-- The reading of `rearm`. -/
def nextBeat (s : Core) : BitVec 64 := s.mtime + HEARTBEAT_INTERVAL_TICKS

def writeLo (s : Core) (next : BitVec 64) : Core := { s with mtimecmpLo := next.setWidth 32 }

def writeHi (s : Core) (next : BitVec 64) : Core :=
  { s with mtimecmpHi := (next >>> 32).setWidth 32 }

def clockStep (s : Core) : Core :=
  { s with
    mtime := s.mtime + 1
    wdtLeft := if s.wdtEnabled then s.wdtLeft - 1 else s.wdtLeft
    reset := s.reset || (s.wdtEnabled && s.wdtLeft ≤ 1)
    lag := if s.owed then s.lag + 1 else 0 }

/-- `init_interrupts`, with `init_heartbeat` and `wdt::start`. -/
def initStep (s : Core) : Option Core :=
  match s.init with
  | .setMtimer => some { s with mtie := true, init := .setMie }
  | .setMie => some { s with mie := true, init := .clearHeartbeat }
  | .clearHeartbeat => some { s with heartbeat := 0, init := .clearLastPc }
  | .clearLastPc => some { s with lastPc := 0, init := .readTime }
  | .readTime => some { s with init := .writeLo s.nextBeat }
  | .writeLo next => some { s.writeLo next with init := .writeHi next }
  | .writeHi next => some { s.writeHi next with init := .setMtimerAgain }
  | .setMtimerAgain => some { s with mtie := true, init := .wdtTorr }
  | .wdtTorr => some { s with torr := 15, init := .wdtEnable }
  | .wdtEnable => some { s with wdtEnabled := true, wdtLeft := s.wdtPeriod, init := .wdtKick }
  | .wdtKick => some { s.kick with init := .returned }
  | .returned => none

/-- `heartbeat_tick`. -/
def tickStep (s : Core) : Option Core :=
  match s.tick with
  | .off => none
  | .kick => some { s.kick with tick := .readHeartbeat }
  | .readHeartbeat => some { s with tick := .writeHeartbeat s.heartbeat }
  | .writeHeartbeat hb => some { s with heartbeat := hb + 1, tick := .samplePc }
  | .samplePc => some { s with lastPc := s.mepc.toUInt32, tick := .readTime }
  | .readTime => some { s with tick := .writeLo s.nextBeat }
  | .writeLo next => some { s.writeLo next with tick := .writeHi next }
  | .writeHi next => some { s.writeHi next with tick := .off, lag := 0 }

def step (s : Core) : Act → Option Core
  | .clock => some s.clockStep
  | .init => if s.reset = false ∧ s.tick = .off then s.initStep else none
  | .trap pc =>
    if s.reset = false ∧ s.tick = .off ∧ s.mtie ∧ s.mie ∧ s.pending then
      some { s with tick := .kick, mepc := pc }
    else none
  | .tick => if s.reset = false then s.tickStep else none

/-! ### The comparator -/

theorem nextBeat_toNat {s : Core} (h : s.mtime.toNat + 250000 < 2 ^ 64) :
    s.nextBeat.toNat = s.mtime.toNat + 250000 := by
  have hinterval : HEARTBEAT_INTERVAL_TICKS.toNat = 250000 := by decide
  unfold nextBeat
  rw [BitVec.toNat_add, hinterval, Nat.mod_eq_of_lt h]

theorem writeLo_toNat (s : Core) (next : BitVec 64) :
    (s.writeLo next).mtimecmpLo.toNat = next.toNat % 2 ^ 32 :=
  BitVec.toNat_setWidth _ _

theorem writeHi_mtimecmp (s : Core) (next : BitVec 64) :
    (s.writeHi next).mtimecmp = next.toNat / 2 ^ 32 * 2 ^ 32 + s.mtimecmpLo.toNat := by
  have hhi : ((next >>> 32).setWidth 32 : BitVec 32).toNat = next.toNat / 2 ^ 32 := by
    rw [BitVec.toNat_setWidth, BitVec.toNat_ushiftRight, Nat.shiftRight_eq_div_pow]
    have := next.isLt
    omega
  unfold mtimecmp writeHi
  dsimp only
  rw [hhi]

end Core

/-- What the start-up knows of the comparator `cmp`, whose low half is `lo`; `off` says that no
interrupt is under way. -/
def Init.Armed (off : Prop) (mtime lo cmp : Nat) : Init → Prop
  | .writeLo next => next.toNat ≤ mtime + 250000
  -- the interrupt may have rearmed it in the meantime, for a later beat
  | .writeHi next => ∃ beat, next.toNat ≤ beat ∧ beat ≤ mtime + 250000 ∧ lo = beat % 2 ^ 32
  | .setMtimerAgain | .wdtTorr | .wdtEnable | .wdtKick | .returned => off → cmp ≤ mtime + 250000
  | _ => True

/-- A beat of the interrupt is within an interval, and no earlier than the start-up's. -/
def Beat (init : Init) (mtime : Nat) (next : BitVec 64) : Prop :=
  next.toNat ≤ mtime + 250000 ∧ ∀ n, init = .writeHi n → n.toNat ≤ next.toNat

/-- What the interrupt knows of the comparator. -/
def Tick.Armed (init : Init) (mtime lo : Nat) : Tick → Prop
  | .writeLo next => Beat init mtime next
  | .writeHi next => Beat init mtime next ∧ lo = next.toNat % 2 ^ 32
  | _ => True

theorem Init.Armed.later {i : Init} {off : Prop} {mtime mtime' lo cmp : Nat}
    (h : i.Armed off mtime lo cmp) (hle : mtime ≤ mtime') : i.Armed off mtime' lo cmp := by
  cases i with
  | writeLo next => exact Nat.le_trans h (Nat.add_le_add_right hle _)
  | writeHi next =>
    obtain ⟨beat, h1, h2, h3⟩ := h
    exact ⟨beat, h1, by omega, h3⟩
  | setMtimerAgain | wdtTorr | wdtEnable | wdtKick | returned =>
    exact fun hoff => Nat.le_trans (h hoff) (Nat.add_le_add_right hle _)
  | _ => trivial

/-- An access of the interrupt, which may write the low half for its beat. -/
theorem Init.Armed.busy {i : Init} {off off' : Prop} {mtime lo lo' cmp cmp' : Nat}
    (h : i.Armed off mtime lo cmp) (hoff : ¬ off')
    (hlo : lo' = lo ∨ ∃ next, Beat i mtime next ∧ lo' = next.toNat % 2 ^ 32) :
    i.Armed off' mtime lo' cmp' := by
  cases i with
  | writeLo next => exact h
  | writeHi next =>
    rcases hlo with rfl | ⟨beat, hbeat, hlo⟩
    · exact h
    · exact ⟨beat.toNat, hbeat.2 next rfl, hbeat.1, hlo⟩
  | setMtimerAgain | wdtTorr | wdtEnable | wdtKick | returned => exact fun h' => absurd h' hoff
  | _ => trivial

/-- The interrupt has rearmed the comparator. -/
theorem Init.Armed.rearmed {i : Init} {off off' : Prop} {mtime lo cmp cmp' : Nat}
    (h : i.Armed off mtime lo cmp) (hcmp : cmp' ≤ mtime + 250000) : i.Armed off' mtime lo cmp' := by
  cases i with
  | writeLo next => exact h
  | writeHi next => exact h
  | setMtimerAgain | wdtTorr | wdtEnable | wdtKick | returned => exact fun _ => hcmp
  | _ => trivial

theorem Beat.later {i : Init} {mtime mtime' : Nat} {next : BitVec 64} (h : Beat i mtime next)
    (hle : mtime ≤ mtime') : Beat i mtime' next := ⟨by have := h.1; omega, h.2⟩

theorem Tick.Armed.later {t : Tick} {i : Init} {mtime mtime' lo : Nat} (h : t.Armed i mtime lo)
    (hle : mtime ≤ mtime') : t.Armed i mtime' lo := by
  cases t with
  | writeLo next => exact Beat.later h hle
  | writeHi next => exact ⟨h.1.later hle, h.2⟩
  | _ => trivial

namespace Core

/-- **The comparator is never more than an interval ahead** once the start-up has written it. -/
structure Armed (s : Core) : Prop where
  time : s.mtime.toNat + 250000 < 2 ^ 64
  init : s.init.Armed (s.tick = .off) s.mtime.toNat s.mtimecmpLo.toNat s.mtimecmp
  tick : s.tick.Armed s.init s.mtime.toNat s.mtimecmpLo.toNat

theorem clockStep_mtime {s : Core} (h : s.mtime.toNat + 1 < 2 ^ 64) :
    s.clockStep.mtime.toNat = s.mtime.toNat + 1 := by
  change (s.mtime + 1).toNat = _
  rw [BitVec.toNat_add]
  exact Nat.mod_eq_of_lt h

theorem Armed.clock {s : Core} (h : s.Armed) (htime : s.mtime.toNat + 250001 < 2 ^ 64) :
    s.clockStep.Armed := by
  have hmtime : s.clockStep.mtime.toNat = s.mtime.toNat + 1 := clockStep_mtime (by omega)
  have hle : s.mtime.toNat ≤ s.clockStep.mtime.toNat := by omega
  exact ⟨by omega, h.init.later hle, h.tick.later hle⟩

theorem armed_off {t : Tick} (h : t = .off) (i : Init) (mtime lo : Nat) : t.Armed i mtime lo := by
  subst h
  trivial

theorem Armed.initStep {s s' : Core} (h : s.Armed) (hoff : s.tick = .off)
    (hstep : s.initStep = some s') : s'.Armed := by
  have hinit := h.init
  have htick := armed_off hoff
  unfold Core.initStep at hstep
  cases hi : s.init <;> rw [hi] at hstep hinit <;> cases hstep
  case readTime => exact ⟨h.time, Nat.le_of_eq (nextBeat_toNat h.time), htick _ _ _⟩
  case writeLo next =>
    exact ⟨h.time, ⟨next.toNat, Nat.le_refl _, hinit, writeLo_toNat s next⟩, htick _ _ _⟩
  case writeHi next =>
    obtain ⟨beat, hle, hbeat, hlo⟩ := hinit
    refine ⟨h.time, fun _ => ?_, htick _ _ _⟩
    have hdiv : next.toNat / 2 ^ 32 ≤ beat / 2 ^ 32 := Nat.div_le_div_right hle
    have hcmp : next.toNat / 2 ^ 32 * 2 ^ 32 + s.mtimecmpLo.toNat ≤ s.mtime.toNat + 250000 := by omega
    exact Nat.le_trans (Nat.le_of_eq (writeHi_mtimecmp s next)) hcmp
  all_goals exact ⟨h.time, hinit, htick _ _ _⟩

theorem Armed.tickStep {s s' : Core} (h : s.Armed) (hstep : s.tickStep = some s') : s'.Armed := by
  have hinit := h.init
  have htick := h.tick
  unfold Core.tickStep at hstep
  cases ht : s.tick <;> rw [ht] at hstep hinit htick <;> cases hstep
  case readTime =>
    refine ⟨h.time, hinit.busy nofun (.inl rfl), Nat.le_of_eq (nextBeat_toNat h.time), ?_⟩
    intro n hn
    rw [show s.init = .writeHi n from hn] at hinit
    obtain ⟨beat, hle, hbeat, -⟩ := hinit
    rw [nextBeat_toNat h.time]
    exact Nat.le_trans hle hbeat
  case writeLo next =>
    have hlo := writeLo_toNat s next
    exact ⟨h.time, hinit.busy nofun (.inr ⟨next, htick, hlo⟩), htick, hlo⟩
  case writeHi next =>
    obtain ⟨hbeat, hlo⟩ := htick
    have hcmp : (s.writeHi next).mtimecmp ≤ s.mtime.toNat + 250000 := by
      rw [writeHi_mtimecmp, hlo, Nat.div_add_mod']
      exact hbeat.1
    exact ⟨h.time, hinit.rearmed hcmp, trivial⟩
  all_goals exact ⟨h.time, hinit.busy nofun (.inl rfl), trivial⟩

end Core

/-! ### The watchdog -/

/-- What is left of the watchdog's time, if an interrupt that is due is served within `bound` ticks:
enough until the next kick. -/
def Tick.Fed (bound mtime cmp left lag : Nat) : Tick → Prop
  | .off => (cmp ≤ mtime → bound < left + lag) ∧ (mtime < cmp → cmp + bound < mtime + left)
  | .kick => bound < left + lag
  | .writeLo next | .writeHi next =>
    250000 + 2 * bound < left + lag ∧ next.toNat + bound < mtime + left
  | _ => 250000 + 2 * bound < left + lag

/-- A tick of the clock, while an interrupt that is due is still in time. -/
theorem Tick.Fed.clock {t : Tick} {bound mtime cmp left lag lag' : Nat}
    (h : t.Fed bound mtime cmp left lag) (hlag : lag < bound)
    (howed : t ≠ .off ∨ cmp ≤ mtime → lag' = lag + 1)
    (hidle : t = .off → mtime < cmp → lag' = 0) :
    t.Fed bound (mtime + 1) cmp (left - 1) lag' ∧ 1 < left := by
  cases t with
  | off =>
    rcases Nat.lt_or_ge mtime cmp with hlt | hge
    · have hleft := h.2 hlt
      have hzero := hidle rfl hlt
      exact ⟨⟨fun _ => by omega, fun _ => by omega⟩, by omega⟩
    · have hleft := h.1 hge
      have hone := howed (.inr hge)
      exact ⟨⟨fun _ => by omega, fun _ => by omega⟩, by omega⟩
  | writeLo next | writeHi next =>
    have hone := howed (.inl nofun)
    obtain ⟨h1, h2⟩ := h
    exact ⟨⟨by omega, by omega⟩, by omega⟩
  | kick | readHeartbeat | writeHeartbeat hb | samplePc | readTime =>
    have hone := howed (.inl nofun)
    unfold Tick.Fed at h ⊢
    exact ⟨by dsimp only at h ⊢; omega, by dsimp only at h; omega⟩

namespace Core

/-- What the start-up has set so far. -/
def Started (s : Core) : Prop :=
  match s.init with
  | .setMtimer => True
  | .setMie => s.mtie = true
  | .wdtEnable | .wdtKick | .returned => s.mtie = true ∧ s.mie = true ∧ s.torr = 15
  | _ => s.mtie = true ∧ s.mie = true

/-- **The invariant** of a core that serves every interrupt within `bound` ticks. -/
structure Responds (bound : Nat) (s : Core) : Prop where
  armed : s.Armed
  alive : s.reset = false
  lag : s.lag ≤ bound
  started : s.Started
  enabled : s.wdtEnabled = true → s.init = .wdtKick ∨ s.init = .returned
  fed : s.wdtEnabled = true → s.tick.Fed bound s.mtime.toNat s.mtimecmp s.wdtLeft s.lag

/-- No tick passes while an interrupt has been due for `bound` ticks, and the clock does not wrap. -/
def InTime (bound : Nat) (s : Core) (a : Act) : Prop :=
  a = .clock → s.lag < bound ∧ s.mtime.toNat + 250001 < 2 ^ 64

instance (bound : Nat) (s : Core) (a : Act) : Decidable (InTime bound s a) :=
  inferInstanceAs (Decidable (_ → _))

theorem Started.on {s : Core} (h : s.Started) (hinit : s.init = .wdtKick ∨ s.init = .returned) :
    s.mtie = true ∧ s.mie = true ∧ s.torr = 15 := by
  unfold Started at h
  rcases hinit with hinit | hinit <;> rw [hinit] at h <;> exact h

section

variable {bound : Nat} {s s' : Core}

theorem owed_iff (s : Core) (hmtie : s.mtie = true) (hmie : s.mie = true) :
    s.owed = true ↔ s.tick ≠ .off ∨ s.mtimecmp ≤ s.mtime.toNat := by
  unfold owed pending
  rw [hmtie, hmie, Bool.or_eq_true, decide_eq_true_iff, Bool.true_and, Bool.true_and,
    decide_eq_true_iff]

theorem Responds.clock (h : s.Responds bound) (htime : InTime bound s .clock) :
    s.clockStep.Responds bound := by
  obtain ⟨hlag, hwrap⟩ := htime rfl
  have hmtime : s.clockStep.mtime.toNat = s.mtime.toNat + 1 := clockStep_mtime (by omega)
  have hfed : s.wdtEnabled = true →
      s.tick.Fed bound (s.mtime.toNat + 1) s.mtimecmp (s.wdtLeft - 1) s.clockStep.lag ∧
        1 < s.wdtLeft := by
    intro hen
    obtain ⟨hmtie, hmie, -⟩ := h.started.on (h.enabled hen)
    have hiff := owed_iff s hmtie hmie
    refine (h.fed hen).clock hlag (fun howed => if_pos (hiff.mpr howed)) fun hoff hlt => if_neg ?_
    rw [hiff, not_or, not_not]
    exact ⟨hoff, Nat.not_le_of_lt hlt⟩
  refine ⟨h.armed.clock hwrap, ?_, ?_, h.started, h.enabled, fun hen => ?_⟩
  · change (s.reset || (s.wdtEnabled && decide (s.wdtLeft ≤ 1))) = false
    rw [h.alive, Bool.false_or, Bool.and_eq_false_imp]
    intro hen
    exact decide_eq_false (Nat.not_le_of_lt (hfed hen).2)
  · change (if s.owed then s.lag + 1 else 0) ≤ bound
    split <;> omega
  · have hleft : s.clockStep.wdtLeft = s.wdtLeft - 1 := if_pos hen
    rw [hmtime, hleft]
    exact (hfed hen).1

/-- What the watchdog has left right after a kick. -/
theorem kick_fed {cmp : Nat} (hbound : 250000 + 2 * bound < 2 ^ 23 + 1) (htorr : s.torr = 15)
    (hcmp : cmp ≤ s.mtime.toNat + 250000) :
    Tick.off.Fed bound s.mtime.toNat cmp s.wdtPeriod s.lag := by
  unfold wdtPeriod
  rw [htorr]
  exact ⟨fun _ => by omega, fun _ => by omega⟩

theorem Responds.initStep (hbound : 250000 + 2 * bound < 2 ^ 23 + 1) (h : s.Responds bound)
    (hoff : s.tick = .off) (hstep : s.initStep = some s') : s'.Responds bound := by
  have harmed := h.armed.initStep hoff hstep
  have hinit := h.armed.init
  have hstarted := h.started
  have henabled := h.enabled
  unfold Core.initStep at hstep
  unfold Started at hstarted
  cases hi : s.init <;> rw [hi] at hstep hinit hstarted henabled <;> cases hstep
  case wdtEnable =>
    refine ⟨harmed, h.alive, h.lag, hstarted, fun _ => .inl rfl, fun _ => ?_⟩
    change s.tick.Fed _ _ _ _ _
    rw [hoff]
    exact kick_fed hbound hstarted.2.2 (hinit hoff)
  case wdtKick =>
    refine ⟨harmed, h.alive, h.lag, hstarted, fun _ => .inr rfl, fun _ => ?_⟩
    change s.tick.Fed _ _ _ _ _
    rw [hoff]
    exact kick_fed hbound hstarted.2.2 (hinit hoff)
  -- the watchdog is off
  all_goals
    have hdisabled : ¬ s.wdtEnabled = true := fun hen => by
      rcases henabled hen with hi | hi <;> cases hi
    refine ⟨harmed, h.alive, h.lag, ?_, fun hen => absurd hen hdisabled, fun hen => absurd hen hdisabled⟩
    first
      | exact hstarted
      | exact rfl
      | exact ⟨hstarted, rfl⟩
      | exact ⟨rfl, hstarted.2⟩
      | exact ⟨hstarted.1, hstarted.2, rfl⟩

theorem Responds.trap (h : s.Responds bound) (hpending : s.pending = true) (pc : UInt64)
    (hoff : s.tick = .off) : Responds bound { s with tick := .kick, mepc := pc } where
  armed := ⟨h.armed.time, h.armed.init.busy nofun (.inl rfl), trivial⟩
  alive := h.alive
  lag := h.lag
  started := h.started
  enabled := h.enabled
  fed hen := by
    have hfed := h.fed hen
    rw [hoff] at hfed
    exact hfed.1 (of_decide_eq_true hpending)

theorem Responds.tickStep (hbound : 250000 + 2 * bound < 2 ^ 23 + 1) (h : s.Responds bound)
    (hstep : s.tickStep = some s') : s'.Responds bound := by
  have harmed := h.armed.tickStep hstep
  have hlag := h.lag
  have hfed := h.fed
  unfold Core.tickStep at hstep
  cases ht : s.tick <;> rw [ht] at hstep hfed <;> cases hstep
  case kick =>
    refine ⟨harmed, h.alive, hlag, h.started, h.enabled, fun hen => ?_⟩
    obtain ⟨-, -, htorr⟩ := h.started.on (h.enabled hen)
    change 250000 + 2 * bound < s.wdtPeriod + s.lag
    unfold wdtPeriod
    rw [htorr]
    omega
  case readTime =>
    refine ⟨harmed, h.alive, hlag, h.started, h.enabled, fun hen => ⟨hfed hen, ?_⟩⟩
    have hleft : 250000 + 2 * bound < s.wdtLeft + s.lag := hfed hen
    change s.nextBeat.toNat + bound < s.mtime.toNat + s.wdtLeft
    rw [nextBeat_toNat h.armed.time]
    omega
  case writeHi next =>
    refine ⟨harmed, h.alive, Nat.zero_le _, h.started, h.enabled, fun hen => ?_⟩
    obtain ⟨hleft, hnext⟩ := hfed hen
    have hcmp : (s.writeHi next).mtimecmp = next.toNat := by
      have htick := h.armed.tick
      rw [ht] at htick
      rw [writeHi_mtimecmp, htick.2, Nat.div_add_mod']
    change (_ → bound < s.wdtLeft + 0) ∧
      (_ → (s.writeHi next).mtimecmp + bound < s.mtime.toNat + s.wdtLeft)
    rw [hcmp]
    exact ⟨fun _ => by omega, fun _ => hnext⟩
  all_goals exact ⟨harmed, h.alive, hlag, h.started, h.enabled, hfed⟩

/-- What a step can be. -/
theorem step_cases {a : Act} (hstep : s.step a = some s') :
    a = .clock ∧ s' = s.clockStep ∨
      a = .init ∧ s.reset = false ∧ s.tick = .off ∧ s.initStep = some s' ∨
      (∃ pc, a = .trap pc ∧ s.reset = false ∧ s.tick = .off ∧ s.pending = true ∧
        s' = { s with tick := .kick, mepc := pc }) ∨
      a = .tick ∧ s.reset = false ∧ s.tickStep = some s' := by
  cases a with
  | clock => exact .inl ⟨rfl, (Option.some.inj hstep).symm⟩
  | init =>
    obtain ⟨⟨halive, hoff⟩, hstep⟩ := Option.ite_none_right_eq_some.mp hstep
    exact .inr (.inl ⟨rfl, halive, hoff, hstep⟩)
  | trap pc =>
    obtain ⟨⟨halive, hoff, -, -, hpending⟩, hstep⟩ := Option.ite_none_right_eq_some.mp hstep
    exact .inr (.inr (.inl ⟨pc, rfl, halive, hoff, hpending, (Option.some.inj hstep).symm⟩))
  | tick =>
    obtain ⟨halive, hstep⟩ := Option.ite_none_right_eq_some.mp hstep
    exact .inr (.inr (.inr ⟨rfl, halive, hstep⟩))

theorem responds_step (hbound : 250000 + 2 * bound < 2 ^ 23 + 1) {a : Act} (htime : InTime bound s a)
    (hstep : s.step a = some s') (h : s.Responds bound) : s'.Responds bound := by
  obtain ⟨rfl, rfl⟩ | ⟨-, -, hoff, hinit⟩ | ⟨pc, -, -, hoff, hpending, rfl⟩ | ⟨-, -, htick⟩ :=
    step_cases hstep
  · exact h.clock htime
  · exact h.initStep hbound hoff hinit
  · exact h.trap hpending pc hoff
  · exact h.tickStep hbound htick

/-- A core before `set_mtimer`: the comparator and the observation words hold anything. -/
structure Boots (s : Core) : Prop where
  time : s.mtime.toNat + 250000 < 2 ^ 64
  init : s.init = .setMtimer
  tick : s.tick = .off
  disabled : s.wdtEnabled = false
  alive : s.reset = false
  lag : s.lag = 0

theorem Boots.responds (h : s.Boots) : s.Responds bound where
  armed := ⟨h.time, by rw [h.init]; trivial, by rw [h.tick]; trivial⟩
  alive := h.alive
  lag := Nat.le_trans (Nat.le_of_eq h.lag) (Nat.zero_le _)
  started := by
    unfold Started
    rw [h.init]
    trivial
  enabled hen := absurd hen (by rw [h.disabled]; exact Bool.false_ne_true)
  fed hen := absurd hen (by rw [h.disabled]; exact Bool.false_ne_true)

/-- **A core that serves its interrupts in time is never reset**, from the start-up on and however
the interrupts fall into it: two delays and an interval are less than the watchdog's period. -/
theorem responsive_never_resets (hbound : 250000 + 2 * bound < 2 ^ 23 + 1) (h : s.Boots)
    {as : List Act} (htime : AllSteps step (InTime bound) s as) (hrun : run step s as = some s') :
    s'.reset = false :=
  (run_invariant (fun _ _ _ hok hstep hinv => responds_step hbound hok hstep hinv) h.responds htime
    hrun).alive

/-- The step starts or kicks the watchdog. -/
def Kicks (s : Core) (a : Act) : Prop :=
  a = .init ∧ (s.init = .wdtEnable ∨ s.init = .wdtKick) ∨ a = .tick ∧ s.tick = .kick

/-- The watchdog counts down, or has reset the board. -/
structure Counts (s : Core) : Prop where
  started : s.Started
  enabled : s.wdtEnabled = true → s.init = .wdtKick ∨ s.init = .returned
  left : s.wdtEnabled = true → s.wdtLeft ≤ 2 ^ 23 + 1 ∧ (s.reset = false → 0 < s.wdtLeft)

theorem Boots.counts (h : s.Boots) : s.Counts where
  started := (h.responds : s.Responds 0).started
  enabled hen := absurd hen (by rw [h.disabled]; exact Bool.false_ne_true)
  left hen := absurd hen (by rw [h.disabled]; exact Bool.false_ne_true)

theorem Started.kick_period (h : s.Started) (hinit : s.init = .wdtKick ∨ s.init = .returned) :
    s.wdtPeriod = 2 ^ 23 + 1 := by
  unfold wdtPeriod
  rw [(h.on hinit).2.2]

theorem Counts.initStep (h : s.Counts) (hstep : s.initStep = some s') : s'.Counts := by
  have hstarted := h.started
  have henabled := h.enabled
  unfold Core.initStep at hstep
  unfold Started at hstarted
  cases hi : s.init <;> rw [hi] at hstep hstarted henabled <;> cases hstep
  case wdtEnable =>
    have hperiod : s.wdtPeriod = 2 ^ 23 + 1 := by
      unfold wdtPeriod
      rw [hstarted.2.2]
    exact ⟨hstarted, fun _ => .inl rfl, fun _ => ⟨Nat.le_of_eq hperiod, fun _ => Nat.succ_pos _⟩⟩
  case wdtKick =>
    have hperiod := h.started.kick_period (.inl hi)
    exact ⟨hstarted, fun _ => .inr rfl, fun _ => ⟨Nat.le_of_eq hperiod, fun _ => Nat.succ_pos _⟩⟩
  all_goals
    have hdisabled : ¬ s.wdtEnabled = true := fun hen => by
      rcases henabled hen with hi | hi <;> cases hi
    refine ⟨?_, fun hen => absurd hen hdisabled, fun hen => absurd hen hdisabled⟩
    first
      | exact hstarted
      | exact rfl
      | exact ⟨hstarted, rfl⟩
      | exact ⟨rfl, hstarted.2⟩
      | exact ⟨hstarted.1, hstarted.2, rfl⟩

theorem Counts.tickStep (h : s.Counts) (hstep : s.tickStep = some s') : s'.Counts := by
  unfold Core.tickStep at hstep
  cases ht : s.tick <;> rw [ht] at hstep <;> cases hstep
  case kick =>
    refine ⟨h.started, h.enabled, fun hen => ?_⟩
    have hperiod := h.started.kick_period (h.enabled hen)
    exact ⟨Nat.le_of_eq hperiod, fun _ => Nat.succ_pos _⟩
  all_goals exact ⟨h.started, h.enabled, h.left⟩

theorem Counts.clock (h : s.Counts) : s.clockStep.Counts := by
  refine ⟨h.started, h.enabled, fun hen => ?_⟩
  obtain ⟨hle, hpos⟩ := h.left hen
  have hleft : s.clockStep.wdtLeft = s.wdtLeft - 1 := if_pos hen
  rw [hleft]
  refine ⟨Nat.le_trans (Nat.sub_le _ _) hle, fun halive => ?_⟩
  have hreset : (s.reset || (true && decide (s.wdtLeft ≤ 1))) = false := by
    rw [← show s.wdtEnabled = true from hen]
    exact halive
  rw [Bool.true_and, Bool.or_eq_false_iff, decide_eq_false_iff_not] at hreset
  omega

theorem counts_step {a : Act} (hstep : s.step a = some s') (h : s.Counts) : s'.Counts := by
  obtain ⟨rfl, rfl⟩ | ⟨-, -, -, hinit⟩ | ⟨pc, -, -, -, -, rfl⟩ | ⟨-, -, htick⟩ := step_cases hstep
  · exact h.clock
  · exact h.initStep hinit
  · exact ⟨h.started, h.enabled, h.left⟩
  · exact h.tickStep htick

theorem initStep_unkicked (hstep : s.initStep = some s') (henable : s.init ≠ .wdtEnable)
    (hkick : s.init ≠ .wdtKick) :
    s'.reset = s.reset ∧ s'.wdtEnabled = s.wdtEnabled ∧ s'.wdtLeft = s.wdtLeft := by
  unfold Core.initStep at hstep
  cases hi : s.init <;> rw [hi] at hstep <;> cases hstep
  case wdtEnable => exact absurd hi henable
  case wdtKick => exact absurd hi hkick
  all_goals exact ⟨rfl, rfl, rfl⟩

theorem tickStep_unkicked (hstep : s.tickStep = some s') (hkick : s.tick ≠ .kick) :
    s'.reset = s.reset ∧ s'.wdtEnabled = s.wdtEnabled ∧ s'.wdtLeft = s.wdtLeft := by
  unfold Core.tickStep at hstep
  cases ht : s.tick <;> rw [ht] at hstep <;> cases hstep
  case kick => exact absurd ht hkick
  all_goals exact ⟨rfl, rfl, rfl⟩

/-- Without a kick only the clock changes what is left. -/
theorem unkicked_step {a : Act} (hno : ¬ Kicks s a) (hstep : s.step a = some s') :
    a = .clock ∧ s' = s.clockStep ∨ a ≠ .clock ∧ s.reset = false ∧
      s'.reset = s.reset ∧ s'.wdtEnabled = s.wdtEnabled ∧ s'.wdtLeft = s.wdtLeft := by
  obtain h | ⟨rfl, halive, -, hinit⟩ | ⟨pc, rfl, halive, -, -, rfl⟩ | ⟨rfl, halive, htick⟩ :=
    step_cases hstep
  · exact .inl h
  · exact .inr ⟨nofun, halive, initStep_unkicked hinit (fun hi => hno (.inl ⟨rfl, .inl hi⟩))
      fun hi => hno (.inl ⟨rfl, .inr hi⟩)⟩
  · exact .inr ⟨nofun, halive, rfl, rfl, rfl⟩
  · exact .inr ⟨nofun, halive, tickStep_unkicked htick fun ht => hno (.inr ⟨rfl, ht⟩)⟩

/-- Once the board has been reset it stays so. -/
theorem reset_run {as : List Act} (hreset : s.reset = true) (hrun : run step s as = some s') :
    s'.reset = true := by
  have hkeep : ∀ (s : Core) a s', s.step a = some s' → s.reset = true → s'.reset = true := by
    intro s a s' hstep hs
    obtain ⟨-, rfl⟩ | ⟨-, halive, -⟩ | ⟨pc, -, halive, -⟩ | ⟨-, halive, -⟩ := step_cases hstep
    · change (s.reset || _) = true
      rw [hs, Bool.true_or]
    all_goals
      rw [hs] at halive
      cases halive
  exact run_preserves hkeep hreset hrun

/-- The watchdog runs out in a run without a kick. -/
theorem expires {as : List Act} (hen : s.wdtEnabled = true) (hpos : s.reset = false → 0 < s.wdtLeft)
    (hcount : s.wdtLeft ≤ as.count .clock) (hno : AllSteps step (fun s a => ¬ Kicks s a) s as)
    (hrun : run step s as = some s') : s'.reset = true := by
  induction as generalizing s with
  | nil =>
      cases hrun
      rw [List.count_nil] at hcount
      by_contra halive
      exact absurd (hpos (Bool.eq_false_iff.mpr halive)) (Nat.not_lt_of_le hcount)
  | cons a as ih =>
      obtain ⟨hfirst, hrest⟩ := hno
      unfold run at hrun
      split at hrun
      · cases hrun
      · rename_i s₁ hs
        obtain ⟨rfl, rfl⟩ | ⟨hne, halive, -, hen', hleft'⟩ := unkicked_step hfirst hs
        · rw [List.count_cons_self] at hcount
          have hleft : s.clockStep.wdtLeft = s.wdtLeft - 1 := if_pos hen
          by_cases hlast : s.wdtLeft ≤ 1
          · refine reset_run ?_ hrun
            change (s.reset || (s.wdtEnabled && decide (s.wdtLeft ≤ 1))) = true
            rw [hen, decide_eq_true hlast, Bool.true_and, Bool.or_true]
          · exact ih (s := s.clockStep) hen (fun _ => by omega) (by omega) (hrest s.clockStep hs) hrun
        · rw [List.count_cons_of_ne hne] at hcount
          have hpos' := hpos halive
          exact ih (hen'.trans hen) (fun _ => by omega) (by omega) (hrest s₁ hs) hrun

/-- **A board whose heartbeat has stopped is reset**, 2²³ + 1 cycles after the last kick at the
latest, whatever else the core still does. -/
theorem unfed_resets (h : s.Boots) {s₁ : Core} {bs as : List Act} (hstart : run step s bs = some s₁)
    (hen : s₁.wdtEnabled = true) (hno : AllSteps step (fun s a => ¬ Kicks s a) s₁ as)
    (hcount : 2 ^ 23 + 1 ≤ as.count .clock) (hrun : run step s₁ as = some s') : s'.reset = true := by
  obtain ⟨hle, hpos⟩ := (run_preserves (fun _ _ _ => counts_step) h.counts hstart).left hen
  exact expires hen hpos (Nat.le_trans hle hcount) hno hrun

end

/-- A core whose comparator and heartbeat hold anything. -/
def dirty : Core :=
  ⟨77#64, 5#32, 0#32, false, false, 0, false, 0, false, 41, 42, 0, .setMtimer, .off, 0⟩

/-- The interrupt comes before the start-up has armed it, and again after the start-up. -/
def dirtyStart : List Act :=
  [.init, .clock, .init, .trap 8, .clock] ++ List.replicate 7 .tick ++ List.replicate 9 .init

theorem responsive_dirty :
    ∃ s', run step dirty (dirtyStart ++ [.clock, .clock]) = some s' ∧ s'.reset = false := by
  obtain ⟨s', hrun⟩ : ∃ s', run step dirty (dirtyStart ++ [.clock, .clock]) = some s' := ⟨_, rfl⟩
  have hall : AllSteps step (InTime 10) dirty (dirtyStart ++ [.clock, .clock]) := by decide +kernel
  exact ⟨s', hrun, responsive_never_resets (by decide) ⟨by decide, rfl, rfl, rfl, rfl, rfl⟩ hall
    hrun⟩

theorem clocks_run (n : Nat) (s : Core) :
    (∃ s', run step s (List.replicate n .clock) = some s') ∧
      AllSteps step (fun s a => ¬ Kicks s a) s (List.replicate n .clock) := by
  induction n generalizing s with
  | zero => exact ⟨⟨s, rfl⟩, trivial⟩
  | succ n ih =>
      obtain ⟨⟨s', hrun⟩, hno⟩ := ih s.clockStep
      refine ⟨⟨s', hrun⟩, ?_, fun s₁ hs => ?_⟩
      · rintro (⟨h, -⟩ | ⟨h, -⟩) <;> cases h
      · cases hs
        exact hno

/-- The core stops after its start-up. -/
theorem unfed_dirty :
    ∃ s₁ s', run step dirty dirtyStart = some s₁ ∧
      run step s₁ (List.replicate (2 ^ 23 + 1) .clock) = some s' ∧ s'.reset = true := by
  obtain ⟨s₁, hstart, hen⟩ : ∃ s₁, run step dirty dirtyStart = some s₁ ∧ s₁.wdtEnabled = true :=
    ⟨_, rfl, rfl⟩
  obtain ⟨⟨s', hrun⟩, hno⟩ := clocks_run (2 ^ 23 + 1) s₁
  exact ⟨s₁, s', hstart, hrun, unfed_resets ⟨by decide, rfl, rfl, rfl, rfl, rfl⟩ hstart hen hno
    (Nat.le_of_eq List.count_replicate_self.symm) hrun⟩

end Core

end Cvirtos.Arch
