import Cvirtos.Ipc.Mailbox
import Cvirtos.Lib.Transition

/-!
# Publishing frames, store by store

The start-up `write`, the calls of `notify`, the replies of the ISR and the panic handler fill in
one mailbox.  Each store may already be visible to the big core when the next one is made, and an
interrupt or a panic may come between any two of them.

* `step` — one action of the small core;
* `Clean` — the actions under which no half-made record passes for one;
* `publication_genuine` — **in every run of such actions a reader sees the arguments of one call
  only**;
* `call_torn`, `panic_torn` — any other action makes a record no call had.
-/

set_option autoImplicit false

namespace Cvirtos.Ipc

open Cvirtos.Lib

/-- The marker of the panic handler. -/
def panicRecord : Record := ⟨0xFFFFFFFF, 0, 0⟩

/-- The mailbox, and where the small core stands in filling it in. -/
structure Publisher where
  mailbox : MailboxRegs
  /-- The stores the main loop has yet to make in the function it is in. -/
  pending : List Store
  /-- Those of the ISR, which come first. -/
  isr : List Store
  /-- The arguments of the calls of `notify` so far, the one under way included. -/
  calls : List Record
  panicked : Bool
  deriving DecidableEq, Repr

inductive Act where
  /-- The main loop calls `notify`. -/
  | call (r : Record)
  /-- A mailbox interrupt answers a message. -/
  | reply (msg : UInt32)
  | panic
  /-- The next store is made. -/
  | store
  deriving DecidableEq, Repr

/-- The main loop is in the start-up `write`. -/
def boot (m : MailboxRegs) : Publisher := ⟨m, write ⟨0, 0, 0⟩, [], [], false⟩

def step (s : Publisher) : Act → Option Publisher
  | .call r =>
    if s.pending = [] ∧ s.isr = [] ∧ s.panicked = false then
      some { s with pending := notify r, calls := s.calls ++ [r] }
    else none
  | .reply msg => if s.isr = [] then some { s with isr := writeReply s.mailbox msg } else none
  | .panic =>
    if s.panicked then none
    else some { s with pending := write panicRecord, isr := [], panicked := true }
  | .store =>
    match s.isr, s.pending with
    | st :: rest, _ => some { s with mailbox := s.mailbox.set st, isr := rest }
    | [], st :: rest => some { s with mailbox := s.mailbox.set st, pending := rest }
    | [], [] => none

/-- The reader's test, and what it then takes for granted. -/
def Genuine (s : Publisher) : Prop :=
  s.mailbox.magic = MAILBOX_MAGIC → 0 < s.mailbox.frameCount → s.mailbox.record ∈ s.calls

instance (s : Publisher) : Decidable (Genuine s) :=
  inferInstanceAs (Decidable (_ → _ → _))

/-- The action leaves nothing between two records that a call did not have: what a record looks
like once its count, or its count and its size, are in place. -/
def Clean (s : Publisher) : Act → Prop
  | .call r =>
    r.frameCount = 0 ∨
      (⟨r.frameCount, s.mailbox.yuvSize, s.mailbox.flags⟩ ∈ s.calls ++ [r] ∧
        ⟨r.frameCount, r.yuvSize, s.mailbox.flags⟩ ∈ s.calls ++ [r])
  | .panic =>
    ⟨panicRecord.frameCount, s.mailbox.yuvSize, s.mailbox.flags⟩ ∈ s.calls ∧
      ⟨panicRecord.frameCount, panicRecord.yuvSize, s.mailbox.flags⟩ ∈ s.calls ∧
        panicRecord ∈ s.calls
  | .reply _ => True
  | .store => True

instance (s : Publisher) : (a : Act) → Decidable (Clean s a)
  | .call _ => inferInstanceAs (Decidable (_ ∨ _))
  | .panic => inferInstanceAs (Decidable (_ ∧ _))
  | .reply _ => inferInstanceAs (Decidable True)
  | .store => inferInstanceAs (Decidable True)

/-! ### Clean runs -/

/-- A mailbox with no frame in it, or with one of the calls' records. -/
def Shown (calls : List Record) (m : MailboxRegs) : Prop :=
  m.frameCount = 0 ∨ m.record ∈ calls

/-- Every mailbox on the way through the stores is such a one. -/
def ShownAlong (calls : List Record) (m : MailboxRegs) : List Store → Prop
  | [] => Shown calls m
  | st :: rest => Shown calls m ∧ ShownAlong calls (m.set st) rest

/-- The stores are those of `write_reply`. -/
def ReplyStores (stores : List Store) : Prop :=
  ∀ st ∈ stores, ∀ m : MailboxRegs, (m.set st).magic = m.magic ∧ (m.set st).record = m.record

theorem Shown.of_record {calls : List Record} {m m' : MailboxRegs} (h : Shown calls m)
    (hr : m'.record = m.record) : Shown calls m' := by
  have hf : m'.frameCount = m.frameCount := congrArg Record.frameCount hr
  rcases h with h | h
  · exact .inl (hf.trans h)
  · exact .inr (hr ▸ h)

theorem Shown.mono {calls : List Record} {m : MailboxRegs} (h : Shown calls m) (r : Record) :
    Shown (calls ++ [r]) m :=
  h.imp_right (List.mem_append_left _)

theorem ShownAlong.head {calls : List Record} {m : MailboxRegs} {stores : List Store}
    (h : ShownAlong calls m stores) : Shown calls m := by
  cases stores with
  | nil => exact h
  | cons st rest => exact h.1

/-- What a store does to the frame half depends on that half only. -/
theorem set_record_congr {m m' : MailboxRegs} (hr : m'.record = m.record) (st : Store) :
    (m'.set st).record = (m.set st).record := by
  obtain ⟨h1, h2, h3⟩ := Record.mk.inj hr
  cases st <;> simp [MailboxRegs.set, MailboxRegs.record, h1, h2, h3]

theorem ShownAlong.of_record {calls : List Record} {m m' : MailboxRegs} {stores : List Store}
    (h : ShownAlong calls m stores) (hr : m'.record = m.record) : ShownAlong calls m' stores := by
  induction stores generalizing m m' with
  | nil => exact Shown.of_record h hr
  | cons st rest ih => exact ⟨h.1.of_record hr, ih h.2 (set_record_congr hr st)⟩

theorem replyStores_writeReply (m : MailboxRegs) (msg : UInt32) :
    ReplyStores (writeReply m msg) := by
  intro st hst m'
  simp only [writeReply, List.mem_cons, List.not_mem_nil, or_false] at hst
  rcases hst with rfl | rfl | rfl <;> exact ⟨rfl, rfl⟩

/-- What holds between any two actions of a clean run. -/
structure PublisherInv (s : Publisher) : Prop where
  shown : ShownAlong s.calls s.mailbox s.pending
  isr : ReplyStores s.isr

/-- Each way through `notify` is shown when its two mixed records are. -/
theorem shownAlong_notify {calls : List Record} {m : MailboxRegs} {r : Record}
    (h : Shown calls m)
    (hclean : r.frameCount = 0 ∨
      (⟨r.frameCount, m.yuvSize, m.flags⟩ ∈ calls ++ [r] ∧
        ⟨r.frameCount, r.yuvSize, m.flags⟩ ∈ calls ++ [r])) :
    ShownAlong (calls ++ [r]) m (notify r) := by
  have hlast : r ∈ calls ++ [r] := by simp
  refine ⟨h.mono r, ?_, ?_, .inr hlast, .inr hlast⟩
  · exact hclean.imp_right And.left
  · exact hclean.imp_right And.right

theorem shownAlong_panic {calls : List Record} {m : MailboxRegs} (h : Shown calls m)
    (h1 : ⟨panicRecord.frameCount, m.yuvSize, m.flags⟩ ∈ calls)
    (h2 : ⟨panicRecord.frameCount, panicRecord.yuvSize, m.flags⟩ ∈ calls)
    (h3 : panicRecord ∈ calls) : ShownAlong calls m (write panicRecord) :=
  ⟨h, h.of_record rfl, .inr h1, .inr h2, .inr h3, .inr h3, .inr h3, .inr h3⟩

theorem publisherInv_boot {m : MailboxRegs} (h : m.frameCount = 0) : PublisherInv (boot m) where
  shown := ⟨.inl h, .inl h, .inl rfl, .inl rfl, .inl rfl, .inl rfl, .inl rfl, .inl rfl⟩
  isr := fun _ hst => absurd hst List.not_mem_nil

theorem publisherInv_step (s : Publisher) (a : Act) (s' : Publisher) (hclean : Clean s a)
    (hstep : step s a = some s') (hinv : PublisherInv s) : PublisherInv s' := by
  obtain ⟨hshown, hisr⟩ := hinv
  cases a with
  | call r =>
    simp only [step] at hstep
    split at hstep
    · cases hstep
      exact ⟨shownAlong_notify hshown.head hclean, hisr⟩
    · cases hstep
  | reply msg =>
    simp only [step] at hstep
    split at hstep
    · cases hstep
      exact ⟨hshown, replyStores_writeReply s.mailbox msg⟩
    · cases hstep
  | panic =>
    obtain ⟨h1, h2, h3⟩ := hclean
    simp only [step] at hstep
    split at hstep
    · cases hstep
    · cases hstep
      exact ⟨shownAlong_panic hshown.head h1 h2 h3, fun _ hst => absurd hst List.not_mem_nil⟩
  | store =>
    simp only [step] at hstep
    split at hstep
    · rename_i st rest hi
      cases hstep
      have hst := hisr st (by simp [hi])
      refine ⟨hshown.of_record (hst s.mailbox).2, fun st' h' => hisr st' ?_⟩
      rw [hi]
      exact List.mem_cons_of_mem _ h'
    · rename_i st rest hi hp
      cases hstep
      rw [hp] at hshown
      exact ⟨hshown.2, hisr⟩
    · cases hstep

/-- **A reader never sees a record no call had.**  A frame count left over from before the start
would pass for one as soon as `magic` is written. -/
theorem publication_genuine (m : MailboxRegs) (as : List Act) (s : Publisher)
    (hm : m.frameCount = 0) (hclean : AllSteps step Clean (boot m) as)
    (hrun : run step (boot m) as = some s) : Genuine s := by
  have hinv : PublisherInv s :=
    run_invariant publisherInv_step (publisherInv_boot hm) hclean hrun
  intro _ hcount
  rcases hinv.shown.head with h | h
  · rw [h] at hcount
    exact absurd hcount (by decide)
  · exact h

/-- Two frames of one size, the first of them numbered 0. -/
theorem publication_genuine_steady :
    ∃ s, run step (boot ⟨0, 0, 0, 0, 0, 0, 0⟩)
        (.replicate 7 .store ++ .call ⟨0, 460800, 7⟩ :: .replicate 4 .store ++
          [.call ⟨1, 460800, 7⟩, .store, .reply 5, .store]) = some s ∧
      Genuine s ∧ s.mailbox.frameCount = 1 :=
  ⟨⟨⟨MAILBOX_MAGIC, 1, 460800, 7, 0, 5, 0⟩,
      [.yuvSize 460800, .flags 7, .magic MAILBOX_MAGIC], [.replySeq 1, .replyMagic REPLY_MAGIC],
      [⟨0, 460800, 7⟩, ⟨1, 460800, 7⟩], false⟩,
    by decide,
    publication_genuine ⟨0, 0, 0, 0, 0, 0, 0⟩
      (.replicate 7 .store ++ .call ⟨0, 460800, 7⟩ :: .replicate 4 .store ++
        [.call ⟨1, 460800, 7⟩, .store, .reply 5, .store]) _ (by decide) (by decide) (by decide),
    rfl⟩

/-- The first frame after the start is seen with the size of the start-up record, and a panic
as frame 4294967295. -/
theorem firstFrame_torn :
    (∃ s, run step (boot ⟨0, 0, 0, 0, 0, 0, 0⟩)
        (.replicate 7 .store ++ [.call ⟨1, 460800, 0x8003⟩, .store]) = some s ∧
      s.mailbox.record = ⟨1, 0, 0⟩ ∧ ¬ Genuine s) ∧
    (∃ s, run step (boot ⟨0, 0, 0, 0, 0, 0, 0⟩)
        (.replicate 7 .store ++ .panic :: .replicate 7 .store) = some s ∧
      s.mailbox.record = ⟨0xFFFFFFFF, 0, 0⟩ ∧ ¬ Genuine s) :=
  ⟨⟨⟨⟨MAILBOX_MAGIC, 1, 0, 0, 0, 0, 0⟩,
      [.yuvSize 460800, .flags 0x8003, .magic MAILBOX_MAGIC], [], [⟨1, 460800, 0x8003⟩], false⟩,
      by decide, by decide, by decide⟩,
    ⟨⟨⟨MAILBOX_MAGIC, 0xFFFFFFFF, 0, 0, 0, 0, 0⟩, [], [], [], true⟩,
      by decide, by decide, by decide⟩⟩

/-! ### Any other action -/

theorem run_store {s : Publisher} (hisr : s.isr = []) (k : Nat) (hk : k ≤ s.pending.length) :
    run step s (.replicate k .store) =
      some { s with mailbox := s.mailbox.setAll (s.pending.take k), pending := s.pending.drop k }
    := by
  induction k generalizing s with
  | zero => rfl
  | succ k ih =>
      obtain ⟨mailbox, pending, isr, calls, panicked⟩ := s
      cases hisr
      cases pending with
      | nil => exact absurd hk (by simp)
      | cons st rest =>
        have hrest : k ≤ rest.length := by simpa using hk
        exact ih (s := ⟨mailbox.set st, rest, [], calls, panicked⟩) rfl hrest

/-- The first stores of a call. -/
theorem run_call {s : Publisher} (r : Record) (hp : s.pending = []) (hi : s.isr = [])
    (hpanic : s.panicked = false) (k : Nat) (hk : k ≤ 4) :
    run step s (.call r :: .replicate k .store) =
      some { s with
        mailbox := s.mailbox.setAll ((notify r).take k), pending := (notify r).drop k,
        calls := s.calls ++ [r] } := by
  have hcall : step s (.call r) =
      some { s with pending := notify r, calls := s.calls ++ [r] } := by
    simp [step, hp, hi, hpanic]
  unfold run
  rw [hcall]
  exact run_store (s := { s with pending := notify r, calls := s.calls ++ [r] }) hi k
    (by simpa [notify] using hk)

/-- The first stores of the panic handler. -/
theorem run_panic {s : Publisher} (hpanic : s.panicked = false) (k : Nat) (hk : k ≤ 7) :
    run step s (.panic :: .replicate k .store) =
      some { s with
        mailbox := s.mailbox.setAll ((write panicRecord).take k),
        pending := (write panicRecord).drop k, isr := [], panicked := true } := by
  have hstep : step s .panic =
      some { s with pending := write panicRecord, isr := [], panicked := true } := by
    simp [step, hpanic]
  unfold run
  rw [hstep]
  exact run_store rfl k (by simpa [write] using hk)

/-- A call that is not clean, in a mailbox that is valid. -/
theorem call_torn {s : Publisher} {r : Record} (hp : s.pending = []) (hi : s.isr = [])
    (hpanic : s.panicked = false) (hmagic : s.mailbox.magic = MAILBOX_MAGIC)
    (hclean : ¬ Clean s (.call r)) :
    ∃ k s', run step s (.call r :: .replicate k .store) = some s' ∧ ¬ Genuine s' := by
  simp only [Clean, not_or, not_and] at hclean
  obtain ⟨hcount, hmixed⟩ := hclean
  have hpos : 0 < r.frameCount := by
    rw [UInt32.lt_iff_toNat_lt]
    have hne : r.frameCount.toNat ≠ 0 := fun h => hcount (UInt32.toNat_inj.mp h)
    exact Nat.pos_of_ne_zero hne
  by_cases h1 : ⟨r.frameCount, s.mailbox.yuvSize, s.mailbox.flags⟩ ∈ s.calls ++ [r]
  · exact ⟨2, _, run_call r hp hi hpanic 2 (by decide), fun hg => hmixed h1 (hg hmagic hpos)⟩
  · exact ⟨1, _, run_call r hp hi hpanic 1 (by decide), fun hg => h1 (hg hmagic hpos)⟩

/-- A panic that is not clean, at any point. -/
theorem panic_torn {s : Publisher} (hpanic : s.panicked = false) (hclean : ¬ Clean s .panic) :
    ∃ k s', run step s (.panic :: .replicate k .store) = some s' ∧ ¬ Genuine s' := by
  have hpos : 0 < panicRecord.frameCount := by decide
  by_cases h1 : ⟨panicRecord.frameCount, s.mailbox.yuvSize, s.mailbox.flags⟩ ∈ s.calls
  · by_cases h2 : ⟨panicRecord.frameCount, panicRecord.yuvSize, s.mailbox.flags⟩ ∈ s.calls
    · exact ⟨4, _, run_panic hpanic 4 (by decide),
        fun hg => hclean ⟨h1, h2, hg rfl hpos⟩⟩
    · exact ⟨3, _, run_panic hpanic 3 (by decide), fun hg => h2 (hg rfl hpos)⟩
  · exact ⟨2, _, run_panic hpanic 2 (by decide), fun hg => h1 (hg rfl hpos)⟩

end Cvirtos.Ipc
