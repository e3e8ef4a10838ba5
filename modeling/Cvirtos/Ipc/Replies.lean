import Cvirtos.Ipc.Mailbox
import Cvirtos.Lib.Transition

/-!
# Messages and their replies

The big core sends through slot 1 of the mailbox controller and waits for `cpu2_en` to be cleared
before it sends again; `handle_mailbox_irq` claims, handles and answers what it finds.  Every access
to a register of the controller is one step, and the big core may take its own between any two.

* `handshake_step` — a message is claimed once, as it was sent;
* `accounts_step` — the drain limit decides what becomes of a claimed message;
* `handleMailboxIrq_accounts` — **the first four messages of an interrupt are handled and answered
  in order; a fifth is dropped and ends it**.
-/

set_option autoImplicit false

namespace Cvirtos.Ipc.Replies

open Cvirtos.Lib

/-- What control messages change, and the `[MB-RX]` lines printed. -/
structure Runtime where
  paused : Bool
  muted : Bool
  fmtSelOverride : UInt32
  lines : List UInt32
  deriving DecidableEq, Repr

/-- The body of the drain loop up to the reply; `lock` is the answer of `line_lock_try`. -/
def handleMsg (rt : Runtime) (msg : UInt32) (lock : Bool) : Runtime :=
  if msg &&& 0xFFFF0000 = 0xF0490000 then
    let cmd := (msg >>> 8) &&& 0xFF
    let arg := msg &&& 0xFF
    if cmd = 0x50 then { rt with paused := arg != 0 }
    else if cmd = 0x56 then { rt with fmtSelOverride := arg }
    else if cmd = 0x57 then { rt with muted := arg != 0 }
    else rt
  else if rt.muted = false ∧ lock = true then { rt with lines := rt.lines ++ [msg] }
  else rt

/-- Where the big core stands in sending. -/
inductive Sender where
  | ready
  /-- The payload is in slot 1. -/
  | posted (msg : UInt32)
  /-- `cpu2_en` is set. -/
  | enabled (msg : UInt32)
  /-- The doorbell is rung: waiting for `cpu2_en` to be cleared. -/
  | waiting (msg : UInt32)
  deriving DecidableEq, Repr

/-- Where the ISR stands; `drain` counts the messages of this interrupt it has let through. -/
inductive Isr where
  | off
  /-- `claim_b2s`: before `int_val` is read. -/
  | readPending (drain : Nat)
  | readPayload (drain : Nat)
  | clearPayload (drain : Nat) (msg : UInt32)
  | clearPending (drain : Nat) (msg : UInt32)
  | clearEn (drain : Nat) (msg : UInt32)
  /-- `claim_b2s` has returned the message. -/
  | handle (drain : Nat) (msg : UInt32)
  /-- Before `write_reply`. -/
  | reply (drain : Nat) (msg : UInt32)
  deriving DecidableEq, Repr

/-- The two cores and what is between them, with the history of the messages. -/
structure System where
  payload : UInt32
  pending : Bool
  cpu2En : Bool
  sender : Sender
  isr : Isr
  mailbox : MailboxRegs
  runtime : Runtime
  /-- The messages sent. -/
  sent : List UInt32
  /-- The messages claimed by each finished interrupt, and by the one under way. -/
  interrupts : List (List UInt32)
  burst : List UInt32
  /-- The messages handled, each with what `line_lock_try` answered. -/
  handled : List (UInt32 × Bool)
  replies : List UInt32
  deriving DecidableEq, Repr

inductive Action where
  /-- The big core puts a message into slot 1. -/
  | send (msg : UInt32)
  /-- Its next step in sending. -/
  | big
  | interrupt
  /-- The ISR's next step; `lock` is the answer of `line_lock_try` if this step calls it. -/
  | isr (lock : Bool)
  /-- The main loop publishes a frame. -/
  | notify (r : Record)
  deriving DecidableEq, Repr

def System.init (payload : UInt32) (mailbox : MailboxRegs) (rt : Runtime) : System :=
  ⟨payload, false, false, .ready, .off, mailbox, rt, [], [], [], [], []⟩

/-- The interrupt returns. -/
def System.leave (s : System) : System :=
  { s with isr := .off, interrupts := s.interrupts ++ [s.burst], burst := [] }

/-- `handle_mailbox_irq`, with `claim_b2s`. -/
def System.isrStep (s : System) (lock : Bool) : Option System :=
  match s.isr with
  | .off => none
  | .readPending drain =>
    some (if s.pending then { s with isr := .readPayload drain } else s.leave)
  | .readPayload drain => some { s with isr := .clearPayload drain s.payload }
  | .clearPayload drain msg => some { s with payload := 0, isr := .clearPending drain msg }
  | .clearPending drain msg => some { s with pending := false, isr := .clearEn drain msg }
  | .clearEn drain msg =>
    some { s with cpu2En := false, isr := .handle drain msg, burst := s.burst ++ [msg] }
  | .handle drain msg =>
    some (if drain + 1 > 4 then s.leave
      else { s with
        runtime := handleMsg s.runtime msg lock, isr := .reply (drain + 1) msg,
        handled := s.handled ++ [(msg, lock)] })
  | .reply drain msg =>
    some { s with
      mailbox := s.mailbox.setAll (writeReply s.mailbox msg), isr := .readPending drain,
      replies := s.replies ++ [msg] }

/-- The big core's steps.  `cpu2_en` has one user, so its read-modify-write is one step; the
doorbell makes the slot pending only where it is enabled. -/
def System.bigStep (s : System) : Option System :=
  match s.sender with
  | .ready => none
  | .posted msg => some { s with cpu2En := true, sender := .enabled msg }
  | .enabled msg => some { s with pending := s.pending || s.cpu2En, sender := .waiting msg }
  | .waiting _ => if s.cpu2En then none else some { s with sender := .ready }

def step (s : System) : Action → Option System
  | .send msg =>
    if s.sender = .ready then
      some { s with payload := msg, sender := .posted msg, sent := s.sent ++ [msg] }
    else none
  | .big => s.bigStep
  | .interrupt => if s.isr = .off then some { s with isr := .readPending 0 } else none
  | .isr lock => s.isrStep lock
  | .notify r =>
    if s.isr = .off then some { s with mailbox := s.mailbox.setAll (notify r) } else none

/-! ### The handshake -/

/-- The message on its way: sent and not yet claimed. -/
def System.unclaimed (s : System) : List UInt32 :=
  match s.sender with
  | .ready => []
  | .posted msg => [msg]
  | .enabled msg => [msg]
  | .waiting msg => if s.cpu2En then [msg] else []

/-- The ISR is between reading `int_val` and clearing `cpu2_en`. -/
def Isr.claiming : Isr → Bool
  | .readPayload _ => true
  | .clearPayload _ _ => true
  | .clearPending _ _ => true
  | .clearEn _ _ => true
  | _ => false

/-- Slot 1, for the message the big core waits for. -/
def System.holds (s : System) (msg : UInt32) : Prop :=
  match s.isr with
  | .readPayload _ => s.payload = msg ∧ s.cpu2En = true ∧ s.pending = true
  | .clearPayload _ m => m = msg ∧ s.cpu2En = true ∧ s.pending = true
  | .clearPending _ m => m = msg ∧ s.cpu2En = true ∧ s.pending = true
  | .clearEn _ m => m = msg ∧ s.cpu2En = true ∧ s.pending = false
  | _ =>
    (s.payload = msg ∧ s.cpu2En = true ∧ s.pending = true) ∨
      (s.cpu2En = false ∧ s.pending = false)

/-- Where the two cores stand in handing over a message. -/
def Handshake (s : System) : Prop :=
  match s.sender with
  | .ready => s.cpu2En = false ∧ s.pending = false ∧ s.isr.claiming = false
  | .posted msg =>
    s.payload = msg ∧ s.cpu2En = false ∧ s.pending = false ∧ s.isr.claiming = false
  | .enabled msg =>
    s.payload = msg ∧ s.cpu2En = true ∧ s.pending = false ∧ s.isr.claiming = false
  | .waiting msg => s.holds msg

/-- Every message claimed was sent, once and in order, and at most one is on its way. -/
structure Claimed (s : System) : Prop where
  handshake : Handshake s
  sent : s.sent = s.interrupts.flatten ++ s.burst ++ s.unclaimed

theorem claimed_init (payload : UInt32) (m : MailboxRegs) (rt : Runtime) :
    Claimed (.init payload m rt) :=
  ⟨⟨rfl, rfl, rfl⟩, rfl⟩

theorem claimed_big {s s' : System} (hstep : s.bigStep = some s') (h : Claimed s) :
    Claimed s' := by
  obtain ⟨payload, pending, cpu2En, sender, isr, mailbox, rt, sent, interrupts, burst, handled,
    replies⟩ := s
  obtain ⟨hshake, hsent⟩ := h
  cases sender with
  | ready => cases hstep
  | posted msg =>
    cases hstep
    obtain ⟨h1, -, h3, h4⟩ := hshake
    exact ⟨⟨h1, rfl, h3, h4⟩, hsent⟩
  | enabled msg =>
    cases hstep
    obtain ⟨h1, h2, h3, h4⟩ := hshake
    cases h2
    refine ⟨?_, hsent⟩
    cases isr <;> simp_all [Handshake, System.holds, Isr.claiming]
  | waiting msg =>
    simp only [System.bigStep] at hstep
    split at hstep
    · cases hstep
    · rename_i hen
      cases hstep
      have hfalse : cpu2En = false := by simpa using hen
      cases hfalse
      refine ⟨?_, hsent⟩
      cases isr <;> simp_all [Handshake, System.holds, Isr.claiming]

/-- A message is claimed from a big core that waits for it. -/
theorem Handshake.waiting {s : System} (h : Handshake s) (hclaim : s.isr.claiming = true) :
    ∃ msg, s.sender = .waiting msg ∧ s.holds msg := by
  unfold Handshake at h
  split at h
  · exact absurd hclaim (by simp [h.2.2])
  · exact absurd hclaim (by simp [h.2.2.2])
  · exact absurd hclaim (by simp [h.2.2.2])
  · rename_i msg hs
    exact ⟨msg, hs, h⟩

/-- Between two claims the ISR may stand anywhere. -/
theorem Handshake.between {s s' : System} (h : Handshake s) (hs : s.isr.claiming = false)
    (hs' : s'.isr.claiming = false) (hsender : s'.sender = s.sender)
    (hpayload : s'.payload = s.payload) (hen : s'.cpu2En = s.cpu2En)
    (hpending : s'.pending = s.pending) : Handshake s' := by
  obtain ⟨payload, pending, cpu2En, sender, isr, mailbox, rt, sent, interrupts, burst, handled,
    replies⟩ := s
  obtain ⟨payload', pending', cpu2En', sender', isr', mailbox', rt', sent', interrupts', burst',
    handled', replies'⟩ := s'
  dsimp only at hs hs' hsender hpayload hen hpending
  subst hsender hpayload hen hpending
  cases sender' with
  | ready => exact ⟨h.1, h.2.1, hs'⟩
  | posted msg => exact ⟨h.1, h.2.1, h.2.2.1, hs'⟩
  | enabled msg => exact ⟨h.1, h.2.1, h.2.2.1, hs'⟩
  | waiting msg =>
    cases isr <;> cases hs <;> cases isr' <;> cases hs' <;> exact h

theorem leave_sent {s : System}
    (h : s.sent = s.interrupts.flatten ++ s.burst ++ s.unclaimed) :
    s.leave.sent = s.leave.interrupts.flatten ++ s.leave.burst ++ s.leave.unclaimed := by
  have hclaims : s.leave.interrupts.flatten ++ s.leave.burst =
      s.interrupts.flatten ++ s.burst := by simp [System.leave]
  rw [hclaims]
  exact h

theorem claimed_isr {s s' : System} {lock : Bool} (hstep : s.isrStep lock = some s')
    (h : Claimed s) : Claimed s' := by
  obtain ⟨payload, pending, cpu2En, sender, isr, mailbox, rt, sent, interrupts, burst, handled,
    replies⟩ := s
  obtain ⟨hshake, hsent⟩ := h
  cases isr with
  | off => cases hstep
  | readPending drain =>
    simp only [System.isrStep, Option.some.injEq] at hstep
    subst hstep
    cases pending with
    | true =>
      refine ⟨?_, hsent⟩
      cases sender with
      | ready => exact absurd hshake.2.1 (by simp)
      | posted msg => exact absurd hshake.2.2.1 (by simp)
      | enabled msg => exact absurd hshake.2.2.1 (by simp)
      | waiting msg => exact hshake.resolve_right (by simp)
    | false => exact ⟨hshake.between rfl rfl rfl rfl rfl rfl, leave_sent hsent⟩
  | readPayload drain =>
    cases hstep
    obtain ⟨msg, hw, hp, hen, hpend⟩ := hshake.waiting rfl
    cases hw
    exact ⟨⟨hp, hen, hpend⟩, hsent⟩
  | clearPayload drain m =>
    cases hstep
    obtain ⟨msg, hw, hm, hen, hpend⟩ := hshake.waiting rfl
    cases hw
    exact ⟨⟨hm, hen, hpend⟩, hsent⟩
  | clearPending drain m =>
    cases hstep
    obtain ⟨msg, hw, hm, hen, -⟩ := hshake.waiting rfl
    cases hw
    exact ⟨⟨hm, hen, rfl⟩, hsent⟩
  | clearEn drain m =>
    cases hstep
    obtain ⟨msg, hw, hm, hen, hpend⟩ := hshake.waiting rfl
    cases hw
    cases hm
    cases hen
    refine ⟨.inr ⟨rfl, hpend⟩, ?_⟩
    simpa [System.unclaimed] using hsent
  | handle drain m =>
    simp only [System.isrStep, Option.some.injEq] at hstep
    subst hstep
    split
    · exact ⟨hshake.between rfl rfl rfl rfl rfl rfl, leave_sent hsent⟩
    · exact ⟨hshake.between rfl rfl rfl rfl rfl rfl, hsent⟩
  | reply drain m =>
    cases hstep
    exact ⟨hshake.between rfl rfl rfl rfl rfl rfl, hsent⟩

theorem claimed_step (s : System) (a : Action) (s' : System) (hstep : step s a = some s')
    (h : Claimed s) : Claimed s' := by
  cases a with
  | send msg =>
    simp only [step] at hstep
    split at hstep
    · rename_i hready
      cases hstep
      obtain ⟨hshake, hsent⟩ := h
      unfold Handshake at hshake
      unfold System.unclaimed at hsent
      rw [hready] at hshake hsent
      refine ⟨⟨rfl, hshake⟩, ?_⟩
      simpa [System.unclaimed] using congrArg (· ++ [msg]) hsent
    · cases hstep
  | big => exact claimed_big hstep h
  | interrupt =>
    simp only [step] at hstep
    split at hstep
    · rename_i hoff
      cases hstep
      exact ⟨h.handshake.between (by simp [hoff, Isr.claiming]) rfl rfl rfl rfl rfl, h.sent⟩
    · cases hstep
  | isr lock => exact claimed_isr hstep h
  | notify r =>
    simp only [step] at hstep
    split at hstep
    · rename_i hoff
      cases hstep
      have hclaim : s.isr.claiming = false := by simp [hoff, Isr.claiming]
      exact ⟨h.handshake.between hclaim hclaim rfl rfl rfl rfl, h.sent⟩
    · cases hstep

/-! ### The accounts -/

/-- The messages of the interrupt under way that are handled. -/
def System.handledNow (s : System) : List UInt32 :=
  match s.isr with
  | .handle _ _ => s.burst.dropLast
  | _ => s.burst

/-- Those that are answered. -/
def System.repliedNow (s : System) : List UInt32 :=
  match s.isr with
  | .handle _ _ => s.burst.dropLast
  | .reply _ _ => s.burst.dropLast
  | _ => s.burst

/-- The drain counter counts the messages of the interrupt. -/
def Drained (burst : List UInt32) : Isr → Prop
  | .off => burst = []
  | .readPending drain => burst.length = drain ∧ drain ≤ 4
  | .readPayload drain => burst.length = drain ∧ drain ≤ 4
  | .clearPayload drain _ => burst.length = drain ∧ drain ≤ 4
  | .clearPending drain _ => burst.length = drain ∧ drain ≤ 4
  | .clearEn drain _ => burst.length = drain ∧ drain ≤ 4
  | .handle drain msg => ∃ before, burst = before ++ [msg] ∧ before.length = drain ∧ drain ≤ 4
  | .reply drain msg => ∃ before, burst = before ++ [msg] ∧ burst.length = drain ∧ drain ≤ 4

/-- The messages the drain limit lets through. -/
def answered (interrupts : List (List UInt32)) : List UInt32 :=
  (interrupts.map (List.take 4)).flatten

/-- What has become of the messages claimed since `s₀`. -/
structure Accounts (s₀ s : System) : Prop where
  drained : Drained s.burst s.isr
  limit : ∀ burst ∈ s.interrupts, burst.length ≤ 5
  handled : s.handled.map Prod.fst = answered s.interrupts ++ s.handledNow
  replies : s.replies = answered s.interrupts ++ s.repliedNow
  runtime : s.runtime = s.handled.foldl (fun rt p => handleMsg rt p.1 p.2) s₀.runtime
  replySeq : s.mailbox.replySeq = s₀.mailbox.replySeq + .ofNat s.replies.length

theorem answered_concat (interrupts : List (List UInt32)) (burst : List UInt32) :
    answered (interrupts ++ [burst]) = answered interrupts ++ burst.take 4 := by
  simp [answered]

/-- The replies fall short of the messages by the interrupts that dropped one. -/
theorem answered_length {interrupts : List (List UInt32)}
    (h : ∀ burst ∈ interrupts, burst.length ≤ 5) :
    (answered interrupts).length + interrupts.countP (·.length = 5) =
      interrupts.flatten.length := by
  induction interrupts with
  | nil => rfl
  | cons burst rest ih =>
      have hburst := h burst List.mem_cons_self
      have hrest := ih fun b hb => h b (List.mem_cons_of_mem _ hb)
      have hcons : answered (burst :: rest) = burst.take 4 ++ answered rest := rfl
      rw [hcons, List.countP_cons, List.length_append, List.length_take, List.flatten_cons,
        List.length_append]
      by_cases h5 : burst.length = 5
      · rw [if_pos (by simpa using h5)]
        omega
      · rw [if_neg (by simpa using h5)]
        omega

theorem accounts_init (payload : UInt32) (m : MailboxRegs) (rt : Runtime) :
    Accounts (.init payload m rt) (.init payload m rt) where
  drained := rfl
  limit := fun _ h => absurd h List.not_mem_nil
  handled := rfl
  replies := rfl
  runtime := rfl
  replySeq := by simp [System.init]

/-- The interrupt returns with at most five messages claimed, of which four are answered. -/
theorem Accounts.leave {s₀ s : System} (h : Accounts s₀ s) (hlimit : s.burst.length ≤ 5)
    (hhandled : s.handledNow = s.burst.take 4) (hreplied : s.repliedNow = s.burst.take 4) :
    Accounts s₀ s.leave where
  drained := rfl
  limit := by
    intro burst hb
    rcases List.mem_append.mp hb with hb | hb
    · exact h.limit burst hb
    · rw [List.mem_singleton.mp hb]
      exact hlimit
  handled := by
    have := h.handled
    rw [hhandled] at this
    simpa [System.leave, System.handledNow, answered_concat] using this
  replies := by
    have := h.replies
    rw [hreplied] at this
    simpa [System.leave, System.repliedNow, answered_concat] using this
  runtime := h.runtime
  replySeq := h.replySeq

theorem accounts_isr {s₀ s s' : System} {lock : Bool} (hstep : s.isrStep lock = some s')
    (h : Accounts s₀ s) : Accounts s₀ s' := by
  obtain ⟨payload, pending, cpu2En, sender, isr, mailbox, rt, sent, interrupts, burst, handled,
    replies⟩ := s
  have hdrained := h.drained
  cases isr with
  | off => cases hstep
  | readPending drain =>
    simp only [System.isrStep, Option.some.injEq] at hstep
    subst hstep
    split
    · exact ⟨hdrained, h.limit, h.handled, h.replies, h.runtime, h.replySeq⟩
    · have hlen : burst.length ≤ 4 := hdrained.1 ▸ hdrained.2
      have htake : burst = burst.take 4 := (List.take_of_length_le hlen).symm
      exact h.leave (Nat.le_succ_of_le hlen) htake htake
  | readPayload drain =>
    cases hstep
    exact ⟨hdrained, h.limit, h.handled, h.replies, h.runtime, h.replySeq⟩
  | clearPayload drain m =>
    cases hstep
    exact ⟨hdrained, h.limit, h.handled, h.replies, h.runtime, h.replySeq⟩
  | clearPending drain m =>
    cases hstep
    exact ⟨hdrained, h.limit, h.handled, h.replies, h.runtime, h.replySeq⟩
  | clearEn drain m =>
    cases hstep
    obtain ⟨hlen, h4⟩ := hdrained
    have hlast : (burst ++ [m]).dropLast = burst := by simp
    refine ⟨⟨burst, rfl, hlen, h4⟩, h.limit, ?_, ?_, h.runtime, h.replySeq⟩
    · simpa [System.handledNow, hlast] using h.handled
    · simpa [System.repliedNow, hlast] using h.replies
  | handle drain m =>
    obtain ⟨before, rfl, hlen, h4⟩ := hdrained
    simp only [System.isrStep, Option.some.injEq] at hstep
    subst hstep
    split
    · -- the fifth message
      have hfour : before.length = 4 := by omega
      have htake : (before ++ [m]).dropLast = (before ++ [m]).take 4 := by simp [hfour]
      exact h.leave (by simp [hfour]) htake htake
    · rename_i hdrain
      refine ⟨⟨before, rfl, by simp [hlen], by omega⟩, h.limit, ?_, ?_, ?_, h.replySeq⟩
      · simpa [System.handledNow] using congrArg (· ++ [m]) h.handled
      · simpa [System.repliedNow] using h.replies
      · simpa using congrArg (handleMsg · m lock) h.runtime
  | reply drain m =>
    obtain ⟨before, rfl, hlen, h4⟩ := hdrained
    cases hstep
    refine ⟨⟨hlen, h4⟩, h.limit, h.handled, ?_, h.runtime, ?_⟩
    · simpa [System.repliedNow] using congrArg (· ++ [m]) h.replies
    · show mailbox.replySeq + 1 = _
      rw [show mailbox.replySeq = _ from h.replySeq, List.length_append, UInt32.ofNat_add,
        UInt32.add_assoc]
      rfl

theorem accounts_step (s₀ s : System) (a : Action) (s' : System) (hstep : step s a = some s')
    (h : Accounts s₀ s) : Accounts s₀ s' := by
  cases a with
  | send msg =>
    simp only [step] at hstep
    split at hstep
    · cases hstep
      exact ⟨h.drained, h.limit, h.handled, h.replies, h.runtime, h.replySeq⟩
    · cases hstep
  | big =>
    simp only [step, System.bigStep] at hstep
    split at hstep
    · cases hstep
    · cases hstep
      exact ⟨h.drained, h.limit, h.handled, h.replies, h.runtime, h.replySeq⟩
    · cases hstep
      exact ⟨h.drained, h.limit, h.handled, h.replies, h.runtime, h.replySeq⟩
    · split at hstep
      · cases hstep
      · cases hstep
        exact ⟨h.drained, h.limit, h.handled, h.replies, h.runtime, h.replySeq⟩
  | interrupt =>
    simp only [step] at hstep
    split at hstep
    · rename_i hoff
      cases hstep
      have hnil : s.burst = [] := by
        have := h.drained
        rwa [hoff] at this
      refine ⟨⟨by rw [hnil]; rfl, by decide⟩, h.limit, ?_, ?_, h.runtime, h.replySeq⟩
      · simpa [System.handledNow, hoff] using h.handled
      · simpa [System.repliedNow, hoff] using h.replies
    · cases hstep
  | isr lock => exact accounts_isr hstep h
  | notify r =>
    simp only [step] at hstep
    split at hstep
    · cases hstep
      exact ⟨h.drained, h.limit, h.handled, h.replies, h.runtime, h.replySeq⟩
    · cases hstep

/-- **What becomes of the messages of the big core.** -/
theorem handleMailboxIrq_accounts (payload : UInt32) (m : MailboxRegs) (rt : Runtime)
    (as : List Action) (s : System) (hrun : run step (.init payload m rt) as = some s) :
    Claimed s ∧ Accounts (.init payload m rt) s ∧
      (s.isr = .off →
        s.replies = answered s.interrupts ∧ s.handled.map Prod.fst = s.replies ∧
          s.mailbox.replySeq = m.replySeq +
            .ofNat (s.interrupts.flatten.length - s.interrupts.countP (·.length = 5))) := by
  have hclaimed : Claimed s := run_preserves claimed_step (claimed_init payload m rt) hrun
  have haccounts : Accounts (.init payload m rt) s :=
    run_preserves (accounts_step _) (accounts_init payload m rt) hrun
  refine ⟨hclaimed, haccounts, fun hoff => ?_⟩
  have hnil : s.burst = [] := by
    have := haccounts.drained
    rwa [hoff] at this
  have hreplies : s.replies = answered s.interrupts := by
    simpa [System.repliedNow, hoff, hnil] using haccounts.replies
  refine ⟨hreplies, ?_, ?_⟩
  · rw [hreplies]
    simpa [System.handledNow, hoff, hnil] using haccounts.handled
  · have hlen := answered_length haccounts.limit
    rw [haccounts.replySeq, hreplies, ← hlen, Nat.add_sub_cancel]
    rfl

/-- A message that is sent, claimed and answered before the next one is sent. -/
def exchange (msg : UInt32) : List Action :=
  [.send msg, .big, .big, .interrupt] ++ .replicate 7 (.isr true) ++ [.big, .isr true]

/-- An echo and a command to pause. -/
theorem handleMailboxIrq_accounts_two :
    ∃ s, run step (.init 0 ⟨0, 0, 0, 0, 0, 0, 7⟩ ⟨false, false, 0, []⟩)
        (exchange 5 ++ exchange 0xF0495001) = some s ∧
      s.replies = answered [[5], [0xF0495001]] ∧ s.mailbox.replySeq = 7 + .ofNat 2 ∧
        s.runtime = ⟨true, false, 0, [5]⟩ :=
  ⟨⟨0, false, false, .ready, .off,
      ⟨0, 0, 0, 0, REPLY_MAGIC, 0xF0495001, 9⟩, ⟨true, false, 0, [5]⟩,
      [5, 0xF0495001], [[5], [0xF0495001]], [], [(5, true), (0xF0495001, true)],
      [5, 0xF0495001]⟩,
    by decide,
    ((handleMailboxIrq_accounts 0 ⟨0, 0, 0, 0, 0, 0, 7⟩ ⟨false, false, 0, []⟩
      (exchange 5 ++ exchange 0xF0495001) _ (by decide)).2.2 rfl).1,
    ((handleMailboxIrq_accounts 0 ⟨0, 0, 0, 0, 0, 0, 7⟩ ⟨false, false, 0, []⟩
      (exchange 5 ++ exchange 0xF0495001) _ (by decide)).2.2 rfl).2.2,
    rfl⟩

/-- The big core sends its next message as soon as the ISR has claimed the one before. -/
def burstOf (first : UInt32) (rest : List UInt32) : List Action :=
  [.send first, .big, .big, .interrupt] ++ .replicate 5 (.isr true) ++
    rest.flatMap (fun msg => [.big, .send msg, .big, .big] ++ .replicate 7 (.isr true)) ++
    [.isr true]

/-- The fifth message of an interrupt, a command to pause, is claimed but neither obeyed nor
answered. -/
theorem fifthMessage_dropped :
    ∃ s, run step (.init 0 ⟨0, 0, 0, 0, 0, 0, 0⟩ ⟨false, true, 0, []⟩)
        (burstOf 1 [2, 3, 4, 0xF0495001]) = some s ∧
      s.isr = .off ∧ s.interrupts = [[1, 2, 3, 4, 0xF0495001]] ∧ s.replies = [1, 2, 3, 4] ∧
        s.mailbox.replySeq = 4 ∧ s.runtime.paused = false :=
  ⟨⟨0, false, false, .waiting 0xF0495001, .off, ⟨0, 0, 0, 0, REPLY_MAGIC, 4, 4⟩,
      ⟨false, true, 0, []⟩, [1, 2, 3, 4, 0xF0495001], [[1, 2, 3, 4, 0xF0495001]], [],
      [(1, true), (2, true), (3, true), (4, true)], [1, 2, 3, 4]⟩,
    by decide, by decide, by decide, by decide, by decide, by decide⟩

end Cvirtos.Ipc.Replies
