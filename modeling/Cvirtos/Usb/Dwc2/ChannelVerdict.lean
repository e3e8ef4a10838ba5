import Cvirtos.Usb.Dwc2.Channel

/-!
# The verdict of a transfer

The retries of `Channel::xfer` over any machine, with the arms and the halts of the run recorded.
The `NAK` retries are counted by the attempts, the `XACTERR` retries by a budget of their own, and
only the `NAK` branch looks whether the attempts are used up.

* `xfer_record` — recording does not change a run;
* `xferLoop_verdict` — the retries from any attempt on;
* `xfer_verdict_iff` — **a transfer returns a verdict unless the last of its attempts is one more
  `XACTERR` retry**.
-/

set_option autoImplicit false

namespace Cvirtos.Usb.Dwc2

open Cvirtos.Lib

variable {σ : Type}

/-! ### Attempts -/

/-- One attempt: the word the channel halts with, if it can be armed and halts in time. -/
def Machine.attempt (m : Machine σ) (ch : Channel) (t : Transfer) (s : σ) :
    Option HcintSnapshot × σ :=
  if (m.arm ch t s).1 then m.waitHalted ch (m.arm ch t s).2 else (none, (m.arm ch t s).2)

/-- The state after `k` attempts. -/
def Machine.after (m : Machine σ) (ch : Channel) (t : Transfer) (s : σ) : Nat → σ
  | 0 => s
  | k + 1 => (m.attempt ch t (m.after ch t s k)).2

/-- What the attempts come to, one after another. -/
def Machine.answers (m : Machine σ) (ch : Channel) (t : Transfer) (s : σ) (k : Nat) :
    Option HcintSnapshot := (m.attempt ch t (m.after ch t s k)).1

/-- A state with the number of arms and the halts so far. -/
structure Recorded (σ : Type) where
  state : σ
  arms : Nat
  halts : List HcintSnapshot

/-- The machine `m`, recorded. -/
def record (m : Machine σ) : Machine (Recorded σ) where
  arm ch t r := ((m.arm ch t r.state).1, ⟨(m.arm ch t r.state).2, r.arms + 1, r.halts⟩)
  waitHalted ch r :=
    ((m.waitHalted ch r.state).1,
      ⟨(m.waitHalted ch r.state).2, r.arms, r.halts ++ (m.waitHalted ch r.state).1.toList⟩)
  xferSizeLeft ch r := m.xferSizeLeft ch r.state
  write off bytes r := { r with state := m.write off bytes r.state }
  read off len r := ((m.read off len r.state).1, { r with state := (m.read off len r.state).2 })
  clean off len r := { r with state := m.clean off len r.state }
  invalidate off len r := { r with state := m.invalidate off len r.state }

/-- A result without its record. -/
def forget {α : Type} : EStateM.Result Stop (Recorded σ) α → EStateM.Result Stop σ α
  | .ok a r => .ok a r.state
  | .error e r => .error e r.state

/-! ### Words -/

def isXact (st : HcintSnapshot) : Bool := isSet st HCINT.XACTERR

/-- A word that asks for a retry. -/
def Retries (st : HcintSnapshot) : Prop :=
  isSet st HCINT.STALL = false ∧ (isSet st HCINT.XACTERR = true ∨ isSet st HCINT.NAK = true)

instance (st : HcintSnapshot) : Decidable (Retries st) := inferInstanceAs (Decidable (_ ∧ _))

/-- **A verdict**: at most 65 arms and no panic, `Ok` for a word that completes, `Err(Stall)` at the
first `STALL`, and an arm after at most eight `XACTERR` halts. -/
structure IsVerdict (r : EStateM.Result Stop (Recorded σ) HcintSnapshot) : Prop where
  arms : (endState r).arms ≤ 65
  noPanic : ∀ s, r ≠ .error .panic s
  ok : ∀ st s, r = .ok st s → Completes st ∧ s.halts.getLast? = some st
  stall : ∀ front st rest, (endState r).halts = front ++ st :: rest →
    isSet st HCINT.STALL = true → rest = [] ∧ ∃ s, r = .error (.err .stall) s
  passed : ((endState r).halts.take ((endState r).arms - 1)).countP isXact ≤ 8

/-- All 65 attempts halt with a retry, the last with `XACTERR`, and no more than eight of them with
`XACTERR`. -/
def RunsOut (w : Nat → Option HcintSnapshot) : Prop :=
  ∃ front last, (List.range 65).map w = (front ++ [last]).map some ∧
    (∀ st ∈ front, Retries st) ∧ isSet last HCINT.STALL = false ∧
    isSet last HCINT.XACTERR = true ∧ (front ++ [last]).countP isXact ≤ 8

/-! ### Runs of a recorded machine -/

variable {m : Machine σ} {ch : Channel} {t : Transfer}

theorem arm_idle {s : σ} (h : (m.arm ch t s).1 = true) :
    (ch.arm m t).run s = .ok () (m.arm ch t s).2 := by
  have hq : (query (m.arm ch t)).run s = .ok true (m.arm ch t s).2 := by rw [← h]; rfl
  exact run_bind hq

theorem arm_busy {s : σ} (h : (m.arm ch t s).1 = false) :
    (ch.arm m t).run s = .error (.err .timeout) (m.arm ch t s).2 := by
  have hq : (query (m.arm ch t)).run s = .ok false (m.arm ch t s).2 := by rw [← h]; rfl
  exact run_bind hq

theorem waitHalted_some {s : σ} {st : HcintSnapshot} (h : (m.waitHalted ch s).1 = some st) :
    (ch.waitHalted m).run s = .ok st (m.waitHalted ch s).2 := by
  have hq : (query (m.waitHalted ch)).run s = .ok (some st) (m.waitHalted ch s).2 := by
    rw [← h]; rfl
  exact run_bind hq

theorem waitHalted_none {s : σ} (h : (m.waitHalted ch s).1 = none) :
    (ch.waitHalted m).run s = .error (.err .timeout) (m.waitHalted ch s).2 := by
  have hq : (query (m.waitHalted ch)).run s = .ok none (m.waitHalted ch s).2 := by rw [← h]; rfl
  exact run_bind hq

/-- What `xfer` does with the word of an attempt. -/
def Channel.judge (ch : Channel) (m : Machine σ) (t : Transfer) (left xactLeft : Nat)
    (st : HcintSnapshot) : Io σ HcintSnapshot :=
  if isSet st HCINT.STALL then throw (.err .stall)
  else if isSet st HCINT.XACTERR then
    if xactLeft = 0 then throw (.err (.protocol "ch xfer error (XACT)"))
    else ch.xferLoop m t left (xactLeft - 1)
  else if isSet st HCINT.NAK then
    if left = 0 then throw (.err (.protocol "ch xfer NAK exhausted"))
    else ch.xferLoop m t left xactLeft
  else if ¬ isSet st HCINT.XFERCOMPL then throw (.err (.protocol "CHHLTD without XFERCOMPL"))
  else return st

theorem xferLoop_succ (left xactLeft : Nat) :
    ch.xferLoop m t (left + 1) xactLeft =
      (ch.arm m t >>= fun _ => ch.waitHalted m >>= ch.judge m t left xactLeft) := rfl

/-- An attempt that does not halt ends the transfer. -/
theorem xferLoop_timeout (left xactLeft : Nat) {s : σ} (h : (m.attempt ch t s).1 = none) :
    (ch.xferLoop m t (left + 1) xactLeft).run s =
      .error (.err .timeout) (m.attempt ch t s).2 := by
  unfold Machine.attempt at h ⊢
  rw [xferLoop_succ]
  cases hidle : (m.arm ch t s).1 with
  | false =>
    simp only [Bool.false_eq_true, ↓reduceIte]
    exact run_bind_error (arm_busy hidle)
  | true =>
    simp only [hidle, ↓reduceIte] at h ⊢
    exact (run_bind (arm_idle hidle)).trans (run_bind_error (waitHalted_none h))

/-- An attempt that halts is judged by its word. -/
theorem xferLoop_halted (left xactLeft : Nat) {s : σ} {st : HcintSnapshot}
    (h : (m.attempt ch t s).1 = some st) :
    (ch.xferLoop m t (left + 1) xactLeft).run s =
      (ch.judge m t left xactLeft st).run (m.attempt ch t s).2 := by
  unfold Machine.attempt at h ⊢
  rw [xferLoop_succ]
  cases hidle : (m.arm ch t s).1 with
  | false =>
    simp only [hidle, Bool.false_eq_true, ↓reduceIte] at h
    cases h
  | true =>
    simp only [hidle, ↓reduceIte] at h ⊢
    exact (run_bind (arm_idle hidle)).trans (run_bind (waitHalted_some h))

/-- A recorded attempt. -/
theorem attempt_record (m : Machine σ) (ch : Channel) (t : Transfer) (r : Recorded σ) :
    (record m).attempt ch t r =
      ((m.attempt ch t r.state).1,
        ⟨(m.attempt ch t r.state).2, r.arms + 1, r.halts ++ (m.attempt ch t r.state).1.toList⟩) := by
  unfold Machine.attempt record
  dsimp only
  split
  · rfl
  · simp

/-- **Recording does not change a run.** -/
theorem xferLoop_record (left xactLeft : Nat) (r : Recorded σ) :
    (ch.xferLoop m t left xactLeft).run r.state =
      forget ((ch.xferLoop (record m) t left xactLeft).run r) := by
  induction left generalizing xactLeft r with
  | zero => rfl
  | succ left ih =>
      have hrec := attempt_record m ch t r
      cases hst : (m.attempt ch t r.state).1 with
      | none =>
        rw [xferLoop_timeout left xactLeft hst, xferLoop_timeout left xactLeft (by rw [hrec, hst]),
          hrec]
        rfl
      | some st =>
        rw [xferLoop_halted left xactLeft hst,
          xferLoop_halted left xactLeft (by rw [hrec, hst]), hrec]
        unfold Channel.judge
        repeat' split
        all_goals first
          | rfl
          | exact ih _ ⟨_, _, _⟩

theorem xfer_record (m : Machine σ) (ch : Channel) (t : Transfer) (r : Recorded σ) :
    (ch.xfer m t).run r.state = forget ((ch.xfer (record m) t).run r) := xferLoop_record _ _ _

/-! ### Retries -/

theorem stall_last {halts front rest : List HcintSnapshot} {st st' : HcintSnapshot}
    (hretries : ∀ x ∈ halts, Retries x) (h : halts ++ [st] = front ++ st' :: rest)
    (hstall : isSet st' HCINT.STALL = true) : rest = [] ∧ st' = st := by
  rcases List.eq_nil_or_concat rest with rfl | ⟨rest, x, rfl⟩
  · exact ⟨rfl, (List.cons.inj (List.append_inj' h rfl).2).1.symm⟩
  · -- before the last word there are retries only
    rw [List.concat_eq_append, ← List.cons_append, ← List.append_assoc] at h
    have hmem : st' ∈ halts := by
      rw [(List.append_inj' h rfl).1]
      simp
    rw [(hretries st' hmem).1] at hstall
    cases hstall

variable {s : σ} {w : Nat → Option HcintSnapshot} {k left xactLeft : Nat}

/-- The words of a run that uses up its attempts. -/
theorem RunsOut.word (h : RunsOut w) (hk : k < 65) {halts : List HcintSnapshot}
    {st : HcintSnapshot} (hhalts : (List.range k).map w = halts.map some) (hst : w k = some st) :
    Retries st ∧ (halts ++ [st]).countP isXact ≤ 8 ∧ (k = 64 → isXact st = true) := by
  obtain ⟨front, last, hfull, hfront, hstall, hxact, hcount⟩ := h
  have htake : (front ++ [last]).take (k + 1) = halts ++ [st] := by
    apply List.map_injective_iff.mpr fun _ _ => Option.some.inj
    rw [List.map_take, ← hfull, ← List.map_take, List.take_range, Nat.min_eq_left (by omega),
      List.range_succ, List.map_append, List.map_append, hhalts]
    simp [hst]
  have hmem : st ∈ front ++ [last] := by
    have hst : st ∈ (front ++ [last]).take (k + 1) := by
      rw [htake]
      simp
    exact List.mem_of_mem_take hst
  refine ⟨?_, ?_, fun h64 => ?_⟩
  · rcases List.mem_append.mp hmem with hmem | hmem
    · exact hfront st hmem
    · rw [List.mem_singleton.mp hmem]
      exact ⟨hstall, .inl hxact⟩
  · rw [← htake]
    exact Nat.le_trans (List.take_sublist _ _).countP_le hcount
  · have hlen : (front ++ [last]).length = 65 := by
      have := congrArg List.length hfull
      simpa using this.symm
    rw [List.take_of_length_le (by omega)] at htake
    rw [← (List.cons.inj (List.append_inj' htake rfl).2).1]
    exact hxact

/-- The record before attempt `k`: retries only so far. -/
structure RetriedTo (m : Machine σ) (ch : Channel) (t : Transfer) (s : σ) (k xactLeft : Nat)
    (r : Recorded σ) : Prop where
  state : r.state = m.after ch t s k
  arms : r.arms = k
  halts : (List.range k).map (m.answers ch t s) = r.halts.map some
  retries : ∀ st ∈ r.halts, Retries st
  budget : r.halts.countP isXact + xactLeft = 8

theorem RetriedTo.length {r : Recorded σ} (h : RetriedTo m ch t s k xactLeft r) :
    r.halts.length = k := by
  have := congrArg List.length h.halts
  simpa using this.symm

theorem RetriedTo.next {r : Recorded σ} {st : HcintSnapshot} {left' : Nat}
    (h : RetriedTo m ch t s k xactLeft r) (hst : m.answers ch t s k = some st)
    (hretry : Retries st) (hbudget : (r.halts ++ [st]).countP isXact + left' = 8) :
    RetriedTo m ch t s (k + 1) left' ⟨m.after ch t s (k + 1), r.arms + 1, r.halts ++ [st]⟩ where
  state := rfl
  arms := by rw [h.arms]
  halts := by rw [List.range_succ, List.map_append, h.halts]; simp [hst]
  retries x hx := by
    rcases List.mem_append.mp hx with hx | hx
    · exact h.retries x hx
    · rw [List.mem_singleton.mp hx]
      exact hretry
  budget := hbudget

/-- A transfer that ends at attempt `k` with an error of its own. -/
theorem RetriedTo.verdict_error {r r' : Recorded σ} {e : Stop}
    (h : RetriedTo m ch t s k xactLeft r) (hk : k < 65) (he : e ≠ .panic)
    (harms : r'.arms = r.arms + 1)
    (hhalts : r'.halts = r.halts ∨ ∃ st, r'.halts = r.halts ++ [st] ∧
      (isSet st HCINT.STALL = true → e = .err .stall)) :
    IsVerdict (.error e r' : EStateM.Result Stop (Recorded σ) HcintSnapshot) where
  arms := by show r'.arms ≤ 65; rw [harms, h.arms]; omega
  noPanic s hs := by cases hs; exact he rfl
  ok st s hs := by cases hs
  stall front st rest hsplit hstall := by
    change r'.halts = _ at hsplit
    rcases hhalts with hsame | ⟨last, hlast, hwhy⟩
    · rw [hsame] at hsplit
      have hmem : st ∈ r.halts := by rw [hsplit]; simp
      rw [(h.retries st hmem).1] at hstall
      cases hstall
    · rw [hlast] at hsplit
      obtain ⟨hrest, rfl⟩ := stall_last h.retries hsplit hstall
      exact ⟨hrest, r', by rw [hwhy hstall]⟩
  passed := by
    show (r'.halts.take (r'.arms - 1)).countP isXact ≤ 8
    have htake : r'.halts.take (r'.arms - 1) = r.halts := by
      have hlen := h.length
      rw [harms, h.arms, Nat.add_sub_cancel]
      rcases hhalts with hsame | ⟨last, hlast, -⟩
      · rw [hsame, List.take_of_length_le (by omega)]
      · rw [hlast, List.take_left' hlen]
    rw [htake]
    have := h.budget
    omega

/-- A transfer that completes at attempt `k`. -/
theorem RetriedTo.verdict_ok {r : Recorded σ} {st : HcintSnapshot} {s' : σ}
    (h : RetriedTo m ch t s k xactLeft r) (hk : k < 65) (hst : Completes st) :
    IsVerdict (.ok st ⟨s', r.arms + 1, r.halts ++ [st]⟩) where
  arms := by show r.arms + 1 ≤ 65; rw [h.arms]; omega
  noPanic s hs := by cases hs
  ok st' s hs := by
    cases hs
    exact ⟨hst, by simp⟩
  stall front st' rest hsplit hstall := by
    obtain ⟨-, rfl⟩ := stall_last h.retries hsplit hstall
    rw [hst.1] at hstall
    cases hstall
  passed := by
    show ((r.halts ++ [st]).take (r.arms + 1 - 1)).countP isXact ≤ 8
    have := h.budget
    rw [Nat.add_sub_cancel, List.take_left' (h.length.trans h.arms.symm)]
    omega

/-- **The retries from attempt `k` on.**  When no attempt is left, the last one asked for a retry
with `XACTERR`. -/
theorem xferLoop_verdict (hk : k + left = 65) {r : Recorded σ}
    (hr : RetriedTo m ch t s k xactLeft r)
    (hlast : left = 0 → ∃ front last, r.halts = front ++ [last] ∧ isXact last = true) :
    ((∃ r', (ch.xferLoop (record m) t left xactLeft).run r = .error .panic r') ∧
        RunsOut (m.answers ch t s)) ∨
      (IsVerdict ((ch.xferLoop (record m) t left xactLeft).run r) ∧
        ¬ RunsOut (m.answers ch t s)) := by
  induction left generalizing k xactLeft r with
  | zero =>
      obtain ⟨front, last, hsplit, hxact⟩ := hlast rfl
      obtain rfl : k = 65 := hk
      have hmem : last ∈ r.halts := by rw [hsplit]; simp
      refine .inl ⟨⟨r, rfl⟩, front, last, by rw [hr.halts, hsplit], fun st hst => ?_,
        (hr.retries last hmem).1, hxact, ?_⟩
      · exact hr.retries st (by rw [hsplit]; exact List.mem_append_left _ hst)
      · have := hr.budget
        rw [← hsplit]
        omega
  | succ left ih =>
      have hlt : k < 65 := by omega
      have hrec := attempt_record m ch t r
      rw [hr.state] at hrec
      change _ = (m.answers ch t s k, Recorded.mk (m.after ch t s (k + 1)) _
        (_ ++ (m.answers ch t s k).toList)) at hrec
      cases hst : m.answers ch t s k with
      | none =>
        rw [hst] at hrec
        refine .inr ⟨?_, fun hout => ?_⟩
        · rw [xferLoop_timeout left xactLeft (by rw [hrec]), hrec]
          exact hr.verdict_error hlt (by decide) rfl (.inl (by simp))
        · obtain ⟨front, last, hfull, -⟩ := hout
          have hmem : none ∈ (List.range 65).map (m.answers ch t s) :=
            List.mem_map.mpr ⟨k, List.mem_range.mpr hlt, hst⟩
          rw [hfull] at hmem
          simp at hmem
      | some st =>
        rw [hst] at hrec
        have hword (hout : RunsOut (m.answers ch t s)) := hout.word hlt hr.halts hst
        have hbudget := hr.budget
        have hcount : (r.halts ++ [st]).countP isXact =
            r.halts.countP isXact + if isXact st then 1 else 0 := by
          rw [List.countP_append, List.countP_singleton]
        rw [xferLoop_halted left xactLeft (by rw [hrec]), hrec]
        have hverdict (e : Stop) (he : e ≠ .panic)
            (hwhy : isSet st HCINT.STALL = true → e = .err .stall) :
            IsVerdict (.error e ⟨m.after ch t s (k + 1), r.arms + 1, r.halts ++ [st]⟩ :
              EStateM.Result Stop (Recorded σ) HcintSnapshot) :=
          hr.verdict_error hlt he rfl (.inr ⟨st, rfl, hwhy⟩)
        unfold Channel.judge
        by_cases hstall : isSet st HCINT.STALL = true
        · refine .inr ⟨?_, fun hout => absurd hstall (by rw [(hword hout).1.1]; decide)⟩
          rw [if_pos hstall]
          exact hverdict (.err .stall) (by decide) fun _ => rfl
        have hnostall : isSet st HCINT.STALL = false := Bool.eq_false_iff.mpr hstall
        rw [if_neg hstall]
        by_cases hxact : isSet st HCINT.XACTERR = true
        · have hone : (r.halts ++ [st]).countP isXact = r.halts.countP isXact + 1 := by
            rw [hcount, if_pos (show isXact st = true from hxact)]
          rw [if_pos hxact]
          by_cases hzero : xactLeft = 0
          · refine .inr ⟨?_, fun hout => absurd (hword hout).2.1 (by omega)⟩
            rw [if_pos hzero]
            exact hverdict _ (by decide) fun h => absurd h hstall
          · rw [if_neg hzero]
            exact ih (by omega) (hr.next hst ⟨hnostall, .inl hxact⟩ (by omega))
              fun _ => ⟨r.halts, st, rfl, hxact⟩
        have hsame : (r.halts ++ [st]).countP isXact = r.halts.countP isXact := by
          rw [hcount, if_neg (show ¬ isXact st = true from hxact), Nat.add_zero]
        rw [if_neg hxact]
        by_cases hnak : isSet st HCINT.NAK = true
        · rw [if_pos hnak]
          by_cases hzero : left = 0
          · refine .inr ⟨?_, fun hout => hxact ((hword hout).2.2 (by omega))⟩
            rw [if_pos hzero]
            exact hverdict _ (by decide) fun h => absurd h hstall
          · rw [if_neg hzero]
            exact ih (by omega) (hr.next hst ⟨hnostall, .inr hnak⟩ (by omega))
              fun h => absurd h hzero
        have hnoretry : ¬ RunsOut (m.answers ch t s) := fun hout =>
          (hword hout).1.2.elim hxact hnak
        rw [if_neg hnak]
        refine .inr ⟨?_, hnoretry⟩
        by_cases hcompl : isSet st HCINT.XFERCOMPL = true
        · rw [if_neg (not_not.mpr hcompl)]
          exact hr.verdict_ok hlt
            ⟨hnostall, Bool.eq_false_iff.mpr hxact, Bool.eq_false_iff.mpr hnak, hcompl⟩
        · rw [if_pos hcompl]
          exact hverdict _ (by decide) fun h => absurd h hstall

/-- **When a transfer returns a verdict**, on any machine and from any state. -/
theorem xfer_verdict_iff (m : Machine σ) (ch : Channel) (t : Transfer) (s : σ) :
    IsVerdict ((ch.xfer (record m) t).run ⟨s, 0, []⟩) ↔ ¬ RunsOut (m.answers ch t s) := by
  have hstart : RetriedTo m ch t s 0 XACT_RETRIES ⟨s, 0, []⟩ :=
    ⟨rfl, rfl, rfl, fun _ h => absurd h List.not_mem_nil, rfl⟩
  rcases xferLoop_verdict (show 0 + (NAK_RETRIES + 1) = 65 from rfl) hstart nofun with
    ⟨⟨r, hpanic⟩, hout⟩ | ⟨hverdict, hno⟩
  · exact iff_of_false (fun h => h.noPanic r hpanic) (not_not.mpr hout)
  · exact iff_of_true hverdict hno

/-- A machine that halts with the words of a list, one after another, and then not at all. -/
def scripted : Machine (List HcintSnapshot) where
  arm _ _ s := (true, s)
  waitHalted _ s := (s.head?, s.tail)
  xferSizeLeft _ _ := 0
  write _ _ s := s
  read _ _ s := ([], s)
  clean _ _ s := s
  invalidate _ _ s := s

/-- The SETUP packet of a request to the default address. -/
def setupTransfer : Transfer := ⟨0, 0, 64, false, .setup, 8, 0⟩

/-- 64 halts with `NAK`, then one with `XACTERR`. -/
def noisyBus : List HcintSnapshot := List.replicate 64 0x12 ++ [0x82]

set_option maxRecDepth 2000 in
/-- **The panic of a noisy bus.** -/
theorem noisyBus_panics :
    (∃ s, (Channel.control.xfer scripted setupTransfer).run noisyBus = .error .panic s) ∧
    ¬ IsVerdict ((Channel.control.xfer (record scripted) setupTransfer).run ⟨noisyBus, 0, []⟩) :=
  ⟨⟨[], rfl⟩, fun h => h.noPanic ⟨[], 65, noisyBus⟩ rfl⟩

end Cvirtos.Usb.Dwc2
