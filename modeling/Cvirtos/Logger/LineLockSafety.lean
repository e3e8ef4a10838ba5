import Cvirtos.Lib.Transition
import Cvirtos.Logger.LineLock

/-!
# Mutual exclusion of the line lock

* `Thread.step_flag`, `Thread.step_past` — what one step of a thread can do to its own flag, and
  when it gets past its check;
* `LockInv`, `step_inv` — a flag is up while its core counts on it, and the two cores are not both
  past their checks;
* `lineLock_exclusive` — **mutual exclusion in every run** in which no echo of the ISR lands where
  the main loop counts on its flag and `LOCK_HELD` does not say so;
* `landing_breaks_exclusion` — one landing there is enough for both cores to print.
-/

set_option autoImplicit false

namespace Cvirtos.Logger

open Cvirtos.Lib

/-! ## One thread -/

/-- The thread has raised its flag and not lowered it. -/
def Pc.raised : Pc → Bool
  | .check | .readTurn | .lower | .count | .hold | .print | .release | .passTurn | .drop => true
  | _ => false

/-- The thread counts on its flag: it may get, or has got, past its check without raising it
again. -/
def Pc.relies : Pc → Bool
  | .check | .readTurn | .count | .hold | .print | .release => true
  | _ => false

/-- The thread is past its check and has not begun to give the lock back. -/
def Pc.past : Pc → Bool
  | .hold | .print | .release => true
  | _ => false

/-- The thread holds the lock as `LOCK_HELD` has it. -/
def Pc.holds : Pc → Bool
  | .print | .release => true
  | _ => false

theorem Pc.relies_of_past {pc : Pc} (h : pc.past = true) : pc.relies = true := by
  cases pc <;> first | rfl | cases h

theorem Pc.raised_of_relies {pc : Pc} (h : pc.relies = true) : pc.raised = true := by
  cases pc <;> first | rfl | cases h

@[simp] theorem Words.setFlag_self (w : Words) (c : Core) (v : UInt32) :
    (w.setFlag c v).flag c = v := if_pos rfl

@[simp] theorem Words.setFlag_other (w : Words) (c : Core) (v : UInt32) :
    (w.setFlag c v).flag c.other = w.flag c.other := by cases c <;> rfl

@[simp] theorem Words.setFlag_held (w : Words) (c c' : Core) (v : UInt32) :
    (w.setFlag c v).lockHeld c' = w.lockHeld c' := rfl

@[simp] theorem Words.setHeld_self (w : Words) (c : Core) (v : Bool) :
    (w.setHeld c v).lockHeld c = v := if_pos rfl

@[simp] theorem Words.setHeld_other (w : Words) (c : Core) (v : Bool) :
    (w.setHeld c v).lockHeld c.other = w.lockHeld c.other := by cases c <;> rfl

@[simp] theorem Words.setHeld_flag (w : Words) (c c' : Core) (v : Bool) :
    (w.setHeld c v).flag c' = w.flag c' := rfl

section Thread

variable (me : Core) (w : Words) (t : Thread)

/-- **A thread leaves the other core's words alone.** -/
theorem Thread.step_other :
    (t.step me w).1.flag me.other = w.flag me.other ∧
      (t.step me w).1.lockHeld me.other = w.lockHeld me.other := by
  obtain ⟨pc, spins⟩ := t
  unfold Thread.step
  cases pc <;> simp
  split <;> simp

/-- A thread that waits for its turn spins on or goes on, and touches no word. -/
theorem Thread.step_yield (spins : Nat) :
    Thread.step me w ⟨.yield, spins⟩ = (w, ⟨.yield, spins + 1⟩) ∨
      Thread.step me w ⟨.yield, spins⟩ = (w, ⟨.raiseAgain, spins⟩) := by
  by_cases hwait : w.turn ≠ me.cpu ∧ spins < LOCK_SPIN_LIMIT
  · exact .inl (if_pos hwait)
  · exact .inr (if_neg hwait)

/-- A thread's flag is up while it says so. -/
theorem Thread.step_raised (h : t.pc.raised = true → w.flag me = 1) :
    (t.step me w).2.pc.raised = true → (t.step me w).1.flag me = 1 := by
  obtain ⟨pc, spins⟩ := t
  cases pc with
  | yield =>
    rcases Thread.step_yield me w spins with hstep | hstep
    · rw [hstep]
      exact h
    · rw [hstep]
      exact h
  | _ => simp_all [Thread.step, Pc.raised]

/-- A thread's flag is up while it counts on it, even when something else may lower it before the
thread does. -/
theorem Thread.step_relies (h : t.pc.relies = true → w.flag me = 1) :
    (t.step me w).2.pc.relies = true → (t.step me w).1.flag me = 1 := by
  obtain ⟨pc, spins⟩ := t
  cases pc with
  | yield =>
    rcases Thread.step_yield me w spins with hstep | hstep
    · rw [hstep]
      exact h
    · rw [hstep]
      exact h
  | _ => simp_all [Thread.step, Pc.relies]

/-- **A thread gets past its check** only while the other flag is down, if it does not run into
the spin limit. -/
theorem Thread.step_past (hspin : t.spins < LOCK_SPIN_LIMIT)
    (h : (t.step me w).2.pc.past = true) : t.pc.past = true ∨ w.flag me.other ≠ 1 := by
  obtain ⟨pc, spins⟩ := t
  unfold Thread.step at h
  cases pc with
  | check =>
    right
    intro hflag
    simp [hflag, Pc.past] at h
  | count =>
    have hle : ¬ spins + 1 > LOCK_SPIN_LIMIT := by simp only at hspin; omega
    simp only [if_neg hle] at h
    simp [Pc.past] at h
  | yield => simp only at h; split at h <;> simp [Pc.past] at h
  | readTurn => simp only at h; split at h <;> simp [Pc.past] at h
  | hold | print => exact Or.inl rfl
  | _ => simp [Pc.past] at h

/-- `LOCK_HELD` is set while the thread holds the lock. -/
theorem Thread.step_holds (h : t.pc.holds = true → w.lockHeld me = true) :
    (t.step me w).2.pc.holds = true → (t.step me w).1.lockHeld me = true := by
  obtain ⟨pc, spins⟩ := t
  cases pc with
  | yield =>
    rcases Thread.step_yield me w spins with hstep | hstep
    · rw [hstep]
      exact h
    · rw [hstep]
      exact h
  | check | readTurn | count =>
    intro hc
    simp only [Thread.step] at hc
    split at hc <;> cases hc
  | _ => simp_all [Thread.step, Pc.holds]

end Thread

/-! ## The two cores -/

/-- No waiter has run into the spin limit. -/
def State.Patient (s : State) : Prop :=
  s.main.spins < LOCK_SPIN_LIMIT ∧ s.big.spins < LOCK_SPIN_LIMIT

/-- The ISR is in the print of a drain overflow. -/
def Isr.overflowing : Isr → Bool
  | .overflow _ => true
  | _ => false

/-- The step takes nobody to the spin limit, nor the ISR into the print of a drain overflow. -/
def InScope (s : State) (a : Action) : Prop :=
  ∀ s' ∈ step s a, s'.Patient ∧ s'.isr.overflowing = false

instance (s : State) (a : Action) : Decidable (InScope s a) :=
  inferInstanceAs (Decidable (∀ s' ∈ step s a, (_ ∧ _) ∧ s'.isr.overflowing = false))

/-- The step takes the ISR's echo past its look at `LOCK_HELD`. -/
def echoes (s : State) (a : Action) : Bool :=
  match a, s.isr with
  | .isr _, .tryLoad _ => !s.words.lockHeld .small
  | _, _ => false

/-- No echo of the ISR goes ahead where the main loop counts on its flag. -/
def NoLanding (s : State) (a : Action) : Prop :=
  echoes s a = true → s.main.pc.relies = false

instance (s : State) (a : Action) : Decidable (NoLanding s a) :=
  inferInstanceAs (Decidable (echoes s a = true → s.main.pc.relies = false))

/-- The ISR has gone past its look at `LOCK_HELD`. -/
def Isr.busy : Isr → Bool
  | .off | .handler _ | .tryLoad _ => false
  | _ => true

/-- The ISR has raised the flag and not lowered it. -/
def Isr.raised : Isr → Bool
  | .tryRead _ | .tryLower _ => true
  | .echo _ t => t.pc.raised
  | _ => false

/-- The ISR's echo is past its check and has not begun to give the lock back. -/
def Isr.past : Isr → Bool
  | .echo _ t => t.pc.past
  | _ => false

/-- The echo has the lock, or is giving it back. -/
def Isr.Echoing : Isr → Prop
  | .echo _ t => t.pc = .hold ∨ t.pc = .print ∨ t.pc = .release ∨ t.pc = .passTurn ∨ t.pc = .drop
  | .overflow _ => False
  | _ => True

/-- **The invariant of the line lock.** -/
structure LockInv (s : State) : Prop where
  bigFlag : s.big.pc.raised = true → s.words.flag .big = 1
  mainFlag : s.main.pc.relies = true → s.words.flag .small = 1
  isrFlag : s.isr.raised = true → s.words.flag .small = 1
  /-- The ISR touches the flag only while the main loop does not count on it. -/
  alone : s.isr.busy = true → s.main.pc.relies = false
  held : s.main.pc.holds = true → s.words.lockHeld .small = true
  echoing : s.isr.Echoing
  exclusive : s.big.pc.past = true → s.main.pc.past = false ∧ s.isr.past = false
  patient : s.Patient

theorem Isr.raised_of_past {isr : Isr} (h : isr.past = true) : isr.raised = true := by
  cases isr with
  | echo drain t => exact Pc.raised_of_relies (Pc.relies_of_past h)
  | _ => cases h

theorem init_inv (turn : UInt32) : LockInv (State.init turn) where
  bigFlag := fun h => nomatch h
  mainFlag := fun h => nomatch h
  isrFlag := fun h => nomatch h
  alone := fun h => nomatch h
  held := fun h => nomatch h
  echoing := trivial
  exclusive := fun h => nomatch h
  patient := ⟨show 0 < LOCK_SPIN_LIMIT by decide, show 0 < LOCK_SPIN_LIMIT by decide⟩

/-- A step of the big core. -/
theorem stepBig_inv {s : State} (h : LockInv s) {w : Words} {t : Thread}
    (he : s.big.step .big s.words = (w, t)) (hpat : ({ s with words := w, big := t } : State).Patient) :
    LockInv { s with words := w, big := t } := by
  have hraised := s.big.step_raised .big s.words h.bigFlag
  have hpast := s.big.step_past .big s.words h.patient.2
  obtain ⟨hflag, hheld⟩ := s.big.step_other .big s.words
  rw [he] at hraised hpast hflag hheld
  have hflag : w.flag .small = s.words.flag .small := hflag
  have hheld : w.lockHeld .small = s.words.lockHeld .small := hheld
  refine ⟨hraised, ?_, ?_, h.alone, ?_, h.echoing, ?_, hpat⟩
  · intro hr
    rw [hflag]
    exact h.mainFlag hr
  · intro hr
    rw [hflag]
    exact h.isrFlag hr
  · intro hr
    rw [hheld]
    exact h.held hr
  · intro hp
    rcases hpast hp with hold | hdown
    · exact h.exclusive hold
    · have hdown : s.words.flag .small ≠ 1 := hdown
      constructor
      · apply Bool.eq_false_iff.mpr
        intro hm
        exact hdown (h.mainFlag (Pc.relies_of_past hm))
      · apply Bool.eq_false_iff.mpr
        intro hi
        exact hdown (h.isrFlag (Isr.raised_of_past hi))

/-- A step of the main loop, while the ISR is not running. -/
theorem stepMain_inv {s : State} (h : LockInv s) (hoff : s.isr = .off) {w : Words} {t : Thread}
    (he : s.main.step .small s.words = (w, t))
    (hpat : ({ s with words := w, main := t } : State).Patient) :
    LockInv { s with words := w, main := t } := by
  have hrelies := s.main.step_relies .small s.words h.mainFlag
  have hpast := s.main.step_past .small s.words h.patient.1
  have hholds := s.main.step_holds .small s.words h.held
  obtain ⟨hflag, -⟩ := s.main.step_other .small s.words
  rw [he] at hrelies hpast hholds hflag
  have hflag : w.flag .big = s.words.flag .big := hflag
  have hnot : ∀ {p : Isr → Bool}, p .off = false → p s.isr = true → False := by
    intro p hp hi
    rw [hoff, hp] at hi
    cases hi
  refine ⟨?_, hrelies, fun hi => (hnot rfl hi).elim, fun hi => (hnot rfl hi).elim, hholds,
    h.echoing, ?_, hpat⟩
  · intro hr
    show w.flag .big = 1
    rw [hflag]
    exact h.bigFlag hr
  · intro hb
    obtain ⟨hm, hi⟩ := h.exclusive hb
    refine ⟨Bool.eq_false_iff.mpr fun hp => ?_, hi⟩
    rcases hpast hp with hold | hdown
    · have hold : s.main.pc.past = true := hold
      rw [hold] at hm
      cases hm
    · exact hdown (h.bigFlag (Pc.raised_of_relies (Pc.relies_of_past hb)))

/-- A step of the ISR that leaves the words alone and does not go past its look at `LOCK_HELD`. -/
theorem isrOutside_inv {s : State} (h : LockInv s) {isr : Isr} (hbusy : isr.busy = false) :
    LockInv { s with isr := isr } := by
  have hraised : isr.raised = false := by cases isr <;> first | rfl | cases hbusy
  have hpast : isr.past = false := by cases isr <;> first | rfl | cases hbusy
  refine ⟨h.bigFlag, h.mainFlag, fun hr => ?_, fun hb => ?_, h.held, ?_, fun hb => ?_, h.patient⟩
  · have hr : isr.raised = true := hr
    rw [hraised] at hr
    cases hr
  · have hb : isr.busy = true := hb
    rw [hbusy] at hb
    cases hb
  · cases isr with
    | off | handler | tryLoad => trivial
    | _ => cases hbusy
  · exact ⟨(h.exclusive hb).1, hpast⟩

/-- A step of the ISR while the main loop does not count on its flag. -/
theorem isrAlone_inv {s : State} (h : LockInv s) (hm : s.main.pc.relies = false) {w : Words}
    {isr : Isr} (hbig : w.flag .big = s.words.flag .big)
    (hraised : isr.raised = true → w.flag .small = 1) (hecho : isr.Echoing)
    (hpast : isr.past = true → s.isr.past = true ∨ s.words.flag .big ≠ 1) :
    LockInv { s with words := w, isr := isr } := by
  have hnot : s.main.pc.relies = true → False := by
    intro hr
    rw [hm] at hr
    cases hr
  have hholds : s.main.pc.holds = true → s.main.pc.relies = true := by
    cases s.main.pc <;> first | exact fun _ => rfl | exact fun h => nomatch h
  refine ⟨fun hb => ?_, fun hr => (hnot hr).elim, hraised, fun _ => hm,
    fun hh => (hnot (hholds hh)).elim, hecho, fun hb => ⟨(h.exclusive hb).1, ?_⟩, h.patient⟩
  · show w.flag .big = 1
    rw [hbig]
    exact h.bigFlag hb
  · apply Bool.eq_false_iff.mpr
    intro hp
    rcases hpast hp with hold | hdown
    · have hi := (h.exclusive hb).2
      rw [hold] at hi
      cases hi
    · exact hdown (h.bigFlag (Pc.raised_of_relies (Pc.relies_of_past hb)))

/-- A step of the echo once it has the lock. -/
theorem stepEcho_inv {s : State} (h : LockInv s) {drain : Nat} {t : Thread}
    (hisr : s.isr = .echo drain t) {w : Words} {isr : Isr}
    (he : (Isr.echo drain t).step none s.words = some (w, isr)) :
    LockInv { s with words := w, isr := isr } := by
  have hm : s.main.pc.relies = false := h.alone (by rw [hisr]; rfl)
  have hflag := h.isrFlag
  have hpc := h.echoing
  rw [hisr] at hflag hpc
  obtain ⟨pc, spins⟩ := t
  rcases hpc with hpc | hpc | hpc | hpc | hpc
  all_goals
    simp only at hpc
    subst hpc
    cases he
  · exact isrAlone_inv h hm rfl hflag (Or.inr (Or.inl rfl)) (fun _ => Or.inl (by rw [hisr]; rfl))
  · exact isrAlone_inv h hm rfl hflag (Or.inr (Or.inr (Or.inl rfl)))
      (fun _ => Or.inl (by rw [hisr]; rfl))
  · exact isrAlone_inv h hm rfl hflag (Or.inr (Or.inr (Or.inr (Or.inl rfl))))
      (fun hp => nomatch hp)
  · exact isrAlone_inv h hm rfl hflag (Or.inr (Or.inr (Or.inr (Or.inr rfl))))
      (fun hp => nomatch hp)
  · exact isrAlone_inv h hm rfl (fun hr => nomatch hr) trivial (fun hp => nomatch hp)

theorem claim_busy (drain : Nat) (msg : Option Msg)
    (h : (Isr.claim drain msg).overflowing = false) : (Isr.claim drain msg).busy = false := by
  unfold Isr.claim at h ⊢
  cases msg with
  | none => rfl
  | some msg =>
    obtain ⟨control, muted⟩ := msg
    by_cases hover : drain + 1 > 4
    · simp only [if_pos hover] at h ⊢
      cases muted with
      | true => rfl
      | false => cases h
    · simp only [if_neg hover]
      cases control <;> cases muted <;> rfl

/-- A step of the ISR. -/
theorem stepIsr_inv {s : State} (h : LockInv s) {msg : Option Msg} {w : Words} {isr : Isr}
    (he : s.isr.step msg s.words = some (w, isr)) (hscope : isr.overflowing = false)
    (hland : ∀ drain, s.isr = .tryLoad drain → s.words.lockHeld .small = false →
      s.main.pc.relies = false) :
    LockInv { s with words := w, isr := isr } := by
  cases hisr : s.isr with
  | off =>
    rw [hisr] at he
    cases he
  | handler drain =>
    rw [hisr] at he
    cases he
    exact isrOutside_inv h (claim_busy drain msg hscope)
  | tryLoad drain =>
    rw [hisr] at he
    cases he
    cases hheld : s.words.lockHeld .small with
    | true => exact isrOutside_inv h rfl
    | false =>
      exact isrAlone_inv h (hland drain hisr hheld) rfl (fun hr => nomatch hr) trivial
        (fun hp => nomatch hp)
  | tryRaise drain =>
    have hm : s.main.pc.relies = false := h.alone (by rw [hisr]; rfl)
    rw [hisr] at he
    cases he
    exact isrAlone_inv h hm rfl (fun _ => rfl) trivial (fun hp => nomatch hp)
  | tryRead drain =>
    have hm : s.main.pc.relies = false := h.alone (by rw [hisr]; rfl)
    have hflag : s.words.flag .small = 1 := h.isrFlag (by rw [hisr]; rfl)
    rw [hisr] at he
    cases he
    by_cases hother : s.words.flag .big = 1
    · rw [if_pos hother]
      exact isrAlone_inv h hm rfl (fun _ => hflag) trivial (fun hp => nomatch hp)
    · rw [if_neg hother]
      exact isrAlone_inv h hm rfl (fun _ => hflag) (Or.inl rfl) (fun _ => Or.inr hother)
  | tryLower drain =>
    have hm : s.main.pc.relies = false := h.alone (by rw [hisr]; rfl)
    rw [hisr] at he
    cases he
    exact isrAlone_inv h hm rfl (fun hr => nomatch hr) trivial (fun hp => nomatch hp)
  | echo drain t =>
    rw [hisr] at he
    exact stepEcho_inv h hisr he
  | overflow t =>
    have hecho := h.echoing
    rw [hisr] at hecho
    exact hecho.elim

/-- **Every step in scope keeps the invariant**, unless an echo lands. -/
theorem step_inv (s : State) (a : Action) (s' : State) (hok : InScope s a ∧ NoLanding s a)
    (he : step s a = some s') (h : LockInv s) : LockInv s' := by
  obtain ⟨hscope, hland⟩ := hok
  obtain ⟨hpat, hover⟩ := hscope s' he
  cases a with
  | main =>
    simp only [step] at he
    split at he
    · rename_i hoff
      cases he
      exact stepMain_inv h hoff rfl hpat
    · cases he
  | interrupt =>
    simp only [step] at he
    split at he
    · cases he
      exact isrOutside_inv h rfl
    · cases he
  | isr msg =>
    obtain ⟨⟨w, isr⟩, hstep, rfl⟩ := Option.map_eq_some_iff.mp he
    refine stepIsr_inv h hstep hover fun drain hisr hheld => hland ?_
    unfold echoes
    rw [hisr]
    simp [hheld]
  | big =>
    cases he
    exact stepBig_inv h rfl hpat

theorem LockInv.exclusive_inside {s : State} (h : LockInv s) :
    ¬ (s.bigInside = true ∧ s.smallInside = true) := by
  rintro ⟨hb, hs⟩
  have hb : s.big.pc = .print := by simpa [State.bigInside] using hb
  obtain ⟨hm, hi⟩ := h.exclusive (by rw [hb]; rfl)
  have hs : s.main.pc = .print ∨ s.isr.inside = true := by simpa [State.smallInside] using hs
  rcases hs with hs | hs
  · rw [hs] at hm
    cases hm
  · have hecho := h.echoing
    cases hisr : s.isr with
    | echo drain t =>
      rw [hisr] at hs hi
      have ht : t.pc = .print := by simpa [Isr.inside] using hs
      have hi : t.pc.past = false := hi
      rw [ht] at hi
      cases hi
    | overflow t =>
      rw [hisr] at hecho
      exact hecho.elim
    | _ =>
      rw [hisr] at hs
      cases hs

/-- **Mutual exclusion of the line lock**, in every run in which no echo lands where the main loop
counts on its flag. -/
theorem lineLock_exclusive (turn : UInt32) (schedule : List Action) (s : State)
    (hscope : AllSteps step InScope (State.init turn) schedule)
    (hland : AllSteps step NoLanding (State.init turn) schedule)
    (hrun : run step (State.init turn) schedule = some s) :
    ¬ (s.bigInside = true ∧ s.smallInside = true) :=
  (run_invariant step_inv (init_inv turn) (allSteps_and hscope hland) hrun).exclusive_inside

/-- A line of the main loop, with the lock taken by the small core and the big core waiting; an
echo that finds `LOCK_HELD` set gives up. -/
def politeSchedule : List Action :=
  [.main, .main, .main, .main, .interrupt, .isr (some ⟨false, false⟩), .isr none, .isr none,
    .big, .big, .big, .big]

theorem lineLock_exclusive_polite :
    ∃ s, run step (State.init 0) politeSchedule = some s ∧ s.smallInside = true ∧
      ¬ (s.bigInside = true ∧ s.smallInside = true) :=
  ⟨_, rfl, rfl, lineLock_exclusive 0 politeSchedule _ (by decide) (by decide) rfl⟩

/-- The main loop raises its flag; before it reads the other one an echo prints a whole line and
lowers the flag again; then both cores get past their checks. -/
def landing : List Action :=
  [.main, .main, .interrupt, .isr (some ⟨false, false⟩), .isr none, .isr none, .isr none,
    .isr none, .isr none, .isr none, .isr none, .isr none, .isr none, .main, .main,
    .big, .big, .big, .big]

/-- **One landing is enough**: within the scope both cores print. -/
theorem landing_breaks_exclusion :
    ¬ ∀ (turn : UInt32) (schedule : List Action) (s : State),
      AllSteps step InScope (State.init turn) schedule →
      run step (State.init turn) schedule = some s →
      ¬ (s.bigInside = true ∧ s.smallInside = true) := by
  intro h
  exact h 0 landing _ (by decide) rfl ⟨rfl, rfl⟩

end Cvirtos.Logger
