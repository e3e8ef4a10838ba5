/-!
# The cross-core UART line lock

`logger.rs`, and the echo of `ipc::handle_mailbox_irq`.  Each access to a flag word, to `turn` and
to `LOCK_HELD` is one step.  The small core runs its main loop and the ISR, which may interrupt it
between any two steps and then runs to its end; the big core runs the same lock beside them.
-/

set_option autoImplicit false

namespace Cvirtos.Logger

/-- The cores: `ME` is 1 on the small one and 0 on the big one. -/
inductive Core where
  | big
  | small
  deriving DecidableEq, Repr

def Core.cpu : Core → UInt32
  | .big => 0
  | .small => 1

/-- `1 - ME`. -/
def Core.other : Core → Core
  | .big => .small
  | .small => .big

def LOCK_SPIN_LIMIT : Nat := 2000000

/-- The lock words: a flag for each core and `turn`, shared, and each core's own `LOCK_HELD`. -/
structure Words where
  flag : Core → UInt32
  turn : UInt32
  lockHeld : Core → Bool

/-- `write_volatile(flag_addr(cpu), v)`. -/
def Words.setFlag (w : Words) (c : Core) (v : UInt32) : Words :=
  { w with flag := fun c' => if c' = c then v else w.flag c' }

/-- `LOCK_HELD.store(v)`. -/
def Words.setHeld (w : Words) (c : Core) (v : Bool) : Words :=
  { w with lockHeld := fun c' => if c' = c then v else w.lockHeld c' }

/-- Where a core stands in printing a line. -/
inductive Pc where
  /-- Not printing. -/
  | idle
  /-- `line_lock_wait`: before the flag is raised. -/
  | raise
  /-- Before the other flag is read. -/
  | check
  | readTurn
  /-- Before the flag is lowered to let the other core go first. -/
  | lower
  /-- Waiting for `turn`. -/
  | yield
  | raiseAgain
  /-- Before `spins` is counted up. -/
  | count
  /-- Before `LOCK_HELD` is set. -/
  | hold
  /-- The lock is held: the line goes out. -/
  | print
  /-- `line_unlock`: before `LOCK_HELD` is cleared. -/
  | release
  | passTurn
  /-- Before the flag is lowered for good. -/
  | drop
  deriving DecidableEq, Repr

structure Thread where
  pc : Pc
  spins : Nat
  deriving DecidableEq, Repr

/-- One step of `line_lock_wait`, print, `line_unlock`. -/
def Thread.step (me : Core) (w : Words) (t : Thread) : Words × Thread :=
  match t.pc with
  | .idle => (w, ⟨.raise, 0⟩)
  | .raise => (w.setFlag me 1, { t with pc := .check })
  | .check => (w, { t with pc := if w.flag me.other = 1 then .readTurn else .hold })
  | .readTurn => (w, { t with pc := if w.turn ≠ me.cpu then .lower else .count })
  | .lower => (w.setFlag me 0, { t with pc := .yield })
  | .yield =>
    if w.turn ≠ me.cpu ∧ t.spins < LOCK_SPIN_LIMIT then (w, { t with spins := t.spins + 1 })
    else (w, { t with pc := .raiseAgain })
  | .raiseAgain => (w.setFlag me 1, { t with pc := .count })
  | .count => (w, ⟨if t.spins + 1 > LOCK_SPIN_LIMIT then .hold else .check, t.spins + 1⟩)
  | .hold => (w.setHeld me true, { t with pc := .print })
  | .print => (w, { t with pc := .release })
  | .release => (w.setHeld me false, { t with pc := .passTurn })
  | .passTurn => ({ w with turn := me.other.cpu }, { t with pc := .drop })
  | .drop => (w.setFlag me 0, { t with pc := .idle })

/-- A mailbox message: whether it is a control message, and whether output is muted by then. -/
structure Msg where
  control : Bool
  muted : Bool
  deriving DecidableEq, Repr

/-- Where the ISR stands; `drain` counts the messages it has claimed. -/
inductive Isr where
  /-- Not running. -/
  | off
  /-- Before `claim_b2s`. -/
  | handler (drain : Nat)
  /-- `line_lock_try`: before `LOCK_HELD` is read. -/
  | tryLoad (drain : Nat)
  | tryRaise (drain : Nat)
  /-- Before the other flag is read. -/
  | tryRead (drain : Nat)
  | tryLower (drain : Nat)
  /-- The echo, from the `LOCK_HELD` store on. -/
  | echo (drain : Nat) (t : Thread)
  /-- The `print` of a drain overflow, which waits for the lock. -/
  | overflow (t : Thread)
  deriving DecidableEq, Repr

/-- What the handler does with the message it claims, if any. -/
def Isr.claim (drain : Nat) : Option Msg → Isr
  | none => .off
  | some msg =>
    if drain + 1 > 4 then (if msg.muted then .off else .overflow ⟨.raise, 0⟩)
    else if msg.control then .handler (drain + 1)
    else if msg.muted then .handler (drain + 1)
    else .tryLoad (drain + 1)

/-- One step of `handle_mailbox_irq`. -/
def Isr.step (msg : Option Msg) (w : Words) : Isr → Option (Words × Isr)
  | .off => none
  | .handler drain => some (w, .claim drain msg)
  | .tryLoad drain => some (w, if w.lockHeld .small then .handler drain else .tryRaise drain)
  | .tryRaise drain => some (w.setFlag .small 1, .tryRead drain)
  | .tryRead drain =>
    some (w, if w.flag .big = 1 then .tryLower drain else .echo drain ⟨.hold, 0⟩)
  | .tryLower drain => some (w.setFlag .small 0, .handler drain)
  | .echo drain t =>
    let (w, t) := t.step .small w
    some (w, if t.pc = .idle then .handler drain else .echo drain t)
  | .overflow t =>
    let (w, t) := t.step .small w
    some (w, if t.pc = .idle then .off else .overflow t)

structure State where
  words : Words
  main : Thread
  isr : Isr
  big : Thread

/-- Who takes the next step. -/
inductive Action where
  | main
  | interrupt
  /-- The ISR; `msg` is what `claim_b2s` answers if this step calls it. -/
  | isr (msg : Option Msg)
  | big
  deriving DecidableEq, Repr

/-- One step of the two cores.  The main loop stands still while the ISR runs. -/
def step (s : State) : Action → Option State
  | .main =>
    if s.isr = .off then
      let (w, t) := s.main.step .small s.words
      some { s with words := w, main := t }
    else none
  | .interrupt => if s.isr = .off then some { s with isr := .handler 0 } else none
  | .isr msg => (s.isr.step msg s.words).map fun (w, isr) => { s with words := w, isr := isr }
  | .big =>
    let (w, t) := s.big.step .big s.words
    some { s with words := w, big := t }

/-- Both flags down, nobody printing. -/
def State.init (turn : UInt32) : State where
  words := ⟨fun _ => 0, turn, fun _ => false⟩
  main := ⟨.idle, 0⟩
  isr := .off
  big := ⟨.idle, 0⟩

/-- The ISR is printing. -/
def Isr.inside : Isr → Bool
  | .echo _ t => t.pc = .print
  | .overflow t => t.pc = .print
  | _ => false

/-- The small core is inside its locked section: its main loop or its ISR. -/
def State.smallInside (s : State) : Bool := s.main.pc = .print || s.isr.inside

/-- The big core is inside its locked section. -/
def State.bigInside (s : State) : Bool := s.big.pc = .print

end Cvirtos.Logger
