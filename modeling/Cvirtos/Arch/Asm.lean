import Cvirtos.Lib.Rv64

/-!
# The entry code

`arch/asm.S`: `_start` clears the bss and calls `rust_main`; `_trap_entry` puts the registers of the
interrupted code into a frame on its stack, calls `rust_trap_handler` and takes them out again.

* `trapEntry_transparent` — **what a trap leaves of the interrupted code's state**;
* `interrupted_agrees` — traps anywhere in a run do not show in its result;
* `start_clears` — **`rust_main` is called on a stack and over a clear bss**.
-/

set_option autoImplicit false

namespace Cvirtos.Arch.Asm

open Lib.Rv64
open Lib.Rv64.Reg (zero ra sp gp tp t0 t1 t2 s0 s1 a0 a1 a2 a3 a4 a5 a6 a7 s2 s3 s4 s5 s6 s7 s8 s9
  s10 s11 t3 t4 t5 t6)

/-! ### The trap entry -/

/-- The registers `_trap_entry` saves, each with its offset in the frame. -/
def saves : List (Reg × Nat) :=
  [(ra, 0), (gp, 8), (tp, 16), (t0, 24), (t1, 32), (t2, 40), (s0, 48), (s1, 56), (a0, 64), (a1, 72),
    (a2, 80), (a3, 88), (a4, 96), (a5, 104), (a6, 112), (a7, 120), (s2, 128), (s3, 136), (s4, 144),
    (s5, 152), (s6, 160), (s7, 168), (s8, 176), (s9, 184), (s10, 192), (s11, 200), (t3, 208),
    (t4, 216), (t5, 224), (t6, 232)]

/-- Up to the call. -/
def trapSave : List Instr :=
  [.addi sp sp (-256)] ++ spill sp saves ++
    [.csrr t0 .mepc, .sd t0 240 sp, .csrr t0 .mstatus, .sd t0 248 sp, .csrr a0 .mcause, .mv a1 sp]

/-- Between the call and `mret`. -/
def trapRestore : List Instr :=
  [.mv sp a0, .ld t0 248 sp, .csrw .mstatus t0, .ld t0 240 sp, .csrw .mepc t0] ++
    fill sp saves ++ [.addi sp sp 256]

def trapEntry : List Instr := trapSave ++ [.call] ++ trapRestore ++ [.mret]

/-- The frame of a trap taken in a state: 256 bytes below its stack. -/
def frame (s : State) : Word := s.reg sp - 256#64

def InFrame (frame x : Word) : Prop := (x - frame).toNat < 256

/-- What the entry relies on in the call of `rust_trap_handler` it makes in the state `t`: the call
comes back with the `cur_sp` it is given, and leaves the frame there alone. -/
structure Handled (handler : State → State) (t : State) : Prop where
  returns : (handler t).reg a0 = t.reg a1
  frame : ∀ x, InFrame (t.reg a1) x → (handler t).mem x = t.mem x

theorem saves_slots : Slots 240 saves := ⟨by decide, by decide⟩

theorem saves_nodup : (saves.map Prod.fst).Nodup := by decide

/-- Every register but `zero` and `sp` is saved. -/
theorem saves_cover (r : Reg) (hzero : r ≠ zero) (hsp : r ≠ sp) : r ∈ saves.map Prod.fst := by
  revert r
  decide

theorem trapSave_plain : ∀ instr ∈ trapSave, instr.plain = true := by
  unfold trapSave
  rw [List.forall_mem_append, List.forall_mem_append]
  exact ⟨⟨by decide, spill_plain⟩, by decide⟩

theorem trapRestore_plain : ∀ instr ∈ trapRestore, instr.plain = true := by
  unfold trapRestore
  rw [List.forall_mem_append, List.forall_mem_append]
  exact ⟨⟨by decide, fill_plain⟩, by decide⟩

/-- The memory `m` holds the state `s` in the frame at `base`. -/
structure Saved (base : Word) (s : State) (m : Word → UInt8) : Prop where
  reg : ∀ x ∈ saves, loadWord m (base + .ofNat 64 x.2) = s.reg x.1
  mepc : loadWord m (base + .ofNat 64 240) = s.csr .mepc
  mstatus : loadWord m (base + .ofNat 64 248) = s.csr .mstatus

/-- `t` is the state in which `rust_trap_handler` is called for a trap taken in `s`. -/
structure Entered (s t : State) : Prop where
  saved : Saved (frame s) s t.mem
  mcause : t.reg a0 = s.csr .mcause
  cur_sp : t.reg a1 = frame s
  csr : t.csr = s.csr
  outside : ∀ x, ¬ InFrame (frame s) x → t.mem x = s.mem x

/-- A store into the frame. -/
theorem storeWord_frame (m : Word → UInt8) {base x : Word} {off : Nat} (v : Word)
    (hoff : off + 8 ≤ 256) (hx : ¬ InFrame base x) :
    storeWord m (base + .ofNat 64 off) v x = m x := by
  refine storeWord_outside m v ?_
  have hfar : 256 ≤ (x - base).toNat := Nat.le_of_not_lt hx
  have hdist : x - (base + .ofNat 64 off) = (x - base) - .ofNat 64 off := by bv_omega
  rw [hdist]
  bv_omega

theorem applyAll_trapSave (s : State) :
    applyAll trapSave s =
      applyAll [.csrr t0 .mepc, .sd t0 240 sp, .csrr t0 .mstatus, .sd t0 248 sp, .csrr a0 .mcause,
        .mv a1 sp] (applyAll (spill sp saves) (s.setReg sp (frame s))) := by
  have himm : BitVec.ofInt 64 (-256) = -(256#64) := by decide
  have hsp : applyAll [.addi sp sp (-256)] s = s.setReg sp (frame s) := by
    change s.setReg sp (s.reg sp + BitVec.ofInt 64 (-256)) = _
    rw [himm, ← BitVec.sub_eq_add_neg]
    rfl
  rw [trapSave, applyAll_append, applyAll_append, hsp]

theorem trapSave_spec (s : State) : Entered s (applyAll trapSave s) := by
  have hmem : ∀ x ∈ saves, loadWord (applyAll (spill sp saves) (s.setReg sp (frame s))).mem
      (frame s + .ofNat 64 x.2) = s.reg x.1 := by
    intro x hx
    have hsp : x.1 ≠ sp := fun h => absurd (List.mem_map_of_mem (f := Prod.fst) hx) (by
      rw [h]
      decide)
    exact (loadWord_spill saves_slots (by decide) hx).trans (reg_setReg_ne s hsp)
  have hout : ∀ x, 240 ≤ (x - frame s).toNat →
      (applyAll (spill sp saves) (s.setReg sp (frame s))).mem x = s.mem x := fun x hx =>
    spill_outside (s := s.setReg sp (frame s)) saves_slots (by decide) hx
  rw [applyAll_trapSave, applyAll_spill]
  generalize (applyAll (spill sp saves) (s.setReg sp (frame s))).mem = m at hmem hout
  refine ⟨⟨fun x hx => ?_, ?_, ?_⟩, rfl, rfl, rfl, fun x hx => ?_⟩
  · have hin := saves_slots.inside x hx
    refine (loadWord_slot _ _ (by omega) (by omega) (.inl (by omega))).trans ?_
    exact (loadWord_slot _ _ (by omega) (by omega) (.inl (by omega))).trans (hmem x hx)
  · refine (loadWord_slot _ _ (by omega) (by omega) (.inl (by omega))).trans ?_
    exact loadWord_storeWord m _ _
  · exact loadWord_storeWord _ _ _
  · refine (storeWord_frame _ _ (by omega) hx).trans ((storeWord_frame _ _ (by omega) hx).trans ?_)
    exact hout x (by unfold InFrame at hx; omega)

/-- `t` is the state `_trap_entry` restores from what `rust_trap_handler` leaves in `u`. -/
structure Restored (s u t : State) : Prop where
  regs : ∀ r, t.reg r = s.reg r
  mepc : t.csr .mepc = s.csr .mepc
  mstatus : t.csr .mstatus = s.csr .mstatus
  others : ∀ c, c ≠ .mepc → c ≠ .mstatus → t.csr c = u.csr c
  mem : t.mem = u.mem

theorem trapRestore_spec {s u : State} (hsp : u.reg a0 = frame s)
    (hsaved : Saved (frame s) s u.mem) : Restored s u (applyAll trapRestore u) := by
  have happly : applyAll trapRestore u = applyAll [.addi sp sp 256] (applyAll (fill sp saves)
      (applyAll [.mv sp a0, .ld t0 248 sp, .csrw .mstatus t0, .ld t0 240 sp, .csrw .mepc t0] u)) := by
    rw [trapRestore, applyAll_append, applyAll_append]
  generalize hfirst : applyAll [.mv sp a0, .ld t0 248 sp, .csrw .mstatus t0, .ld t0 240 sp,
    .csrw .mepc t0] u = v at happly
  have hvsp : v.reg sp = frame s := by
    rw [← hsp, ← hfirst]
    rfl
  have hvmem : v.mem = u.mem := by
    rw [← hfirst]
    rfl
  have hvcsr : v.csr = ((u.setCsr .mstatus (loadWord u.mem (u.reg a0 + .ofNat 64 248))).setCsr .mepc
      (loadWord u.mem (u.reg a0 + .ofNat 64 240))).csr := by
    rw [← hfirst]
    rfl
  have hregs : ∀ r, r ≠ sp → (applyAll (fill sp saves) v).reg r = s.reg r := by
    intro r hr
    by_cases hzero : r = zero
    · rw [hzero]
      rfl
    · obtain ⟨x, hx, rfl⟩ := List.mem_map.mp (saves_cover r hzero hr)
      rw [reg_fill saves_nodup (by decide) (by decide) hx, hvsp, hvmem]
      exact hsaved.reg x hx
  have hlast : (applyAll (fill sp saves) v).reg sp = frame s :=
    (reg_fill_other (by decide)).trans hvsp
  rw [happly]
  refine ⟨fun r => ?_, ?_, ?_, fun c hmepc hmstatus => ?_, ?_⟩
  · change ((applyAll (fill sp saves) v).setReg sp _).reg r = _
    by_cases hr : r = sp
    · rw [hr, reg_setReg_self _ _ (by decide), hlast, frame]
      bv_omega
    · rw [reg_setReg_ne _ hr]
      exact hregs r hr
  · change (applyAll (fill sp saves) v).csr .mepc = _
    rw [applyAll_fill, hvcsr, hsp]
    exact hsaved.mepc
  · change (applyAll (fill sp saves) v).csr .mstatus = _
    rw [applyAll_fill, hvcsr, hsp]
    exact hsaved.mstatus
  · change (applyAll (fill sp saves) v).csr c = _
    rw [applyAll_fill, hvcsr]
    exact (if_neg hmepc).trans (if_neg hmstatus)
  · change (applyAll (fill sp saves) v).mem = _
    rw [applyAll_fill, hvmem]

/-- A trap out of code at `addr`, up to the `mret` that goes back to it. -/
def trap (env : Env) (cause addr : Word) (s : State) : State :=
  env.run trapEntry trapEntry.length (takeTrap cause addr s)

/-- The state in which `rust_trap_handler` is called. -/
def entered (env : Env) (cause addr : Word) (s : State) : State :=
  ((applyAll trapSave (takeTrap cause addr s)).jump (.listing trapSave.length)).setReg ra
    (env.link trapSave.length)

/-- The call itself only changes `ra` and the program counter. -/
theorem Entered.call {s t : State} (h : Entered s t) (pc : Pc) (link : Word) :
    Entered s ((t.jump pc).setReg ra link) := by
  refine ⟨?_, ?_, ?_, h.csr, ?_⟩
  · rw [mem_setReg, mem_jump]
    exact h.saved
  · rw [reg_setReg_ne _ (by decide), reg_jump]
    exact h.mcause
  · rw [reg_setReg_ne _ (by decide), reg_jump]
    exact h.cur_sp
  · rw [mem_setReg, mem_jump]
    exact h.outside

theorem entered_spec (env : Env) (cause addr : Word) (s : State) :
    Entered (takeTrap cause addr s) (entered env cause addr s) :=
  (trapSave_spec (takeTrap cause addr s)).call _ _

theorem frame_takeTrap (cause addr : Word) (s : State) : frame (takeTrap cause addr s) = frame s :=
  congrArg (· - 256#64) (reg_takeTrap cause addr s sp)

/-- The listing straight through: save, call, restore, return. -/
theorem trap_eq (env : Env) (cause addr : Word) (s : State) :
    let u := applyAll trapRestore (env.callee (entered env cause addr s))
    trap env cause addr s =
      (u.setCsr .mstatus (statusMret (u.csr .mstatus))).jump (.code (u.csr .mepc)) := by
  intro u
  have hlen : trapEntry.length = trapSave.length + (1 + (trapRestore.length + 1)) := rfl
  have hcall : trapEntry[trapSave.length]? = some .call := rfl
  have hmret : trapEntry[trapSave.length + 1 + trapRestore.length]? = some .mret := rfl
  have hsave : env.run trapEntry trapSave.length (takeTrap cause addr s) =
      (applyAll trapSave (takeTrap cause addr s)).jump (.listing trapSave.length) := by
    have hprog : trapEntry = [] ++ trapSave ++ ([.call] ++ trapRestore ++ [.mret]) := by
      simp only [trapEntry, List.nil_append, List.append_assoc]
    rw [hprog, run_plain env [] trapSave _ trapSave_plain rfl, List.length_nil, Nat.zero_add]
  have hcallee : env.step trapEntry
      ((applyAll trapSave (takeTrap cause addr s)).jump (.listing trapSave.length)) =
      (env.callee (entered env cause addr s)).jump (.listing (trapSave.length + 1)) :=
    step_at rfl hcall
  have hrestore : env.run trapEntry trapRestore.length
      ((env.callee (entered env cause addr s)).jump (.listing (trapSave.length + 1))) =
      u.jump (.listing (trapSave.length + 1 + trapRestore.length)) := by
    have hrun := run_plain env (trapSave ++ [.call]) trapRestore [.mret] trapRestore_plain
      (s := (env.callee (entered env cause addr s)).jump (.listing (trapSave.length + 1))) rfl
    rwa [applyAll_pc, State.jump_jump] at hrun
  rw [trap, hlen, run_add, hsave, run_add, run_one, hcallee, run_add, hrestore, run_one]
  exact step_at rfl hmret

/-- What `rust_trap_handler` is called with: `mcause`, the frame, and the interrupted state in it. -/
theorem entered_frame (env : Env) (cause addr : Word) (s : State) :
    (entered env cause addr s).reg a0 = cause ∧ (entered env cause addr s).reg a1 = frame s ∧
      (∀ x, ¬ InFrame (frame s) x → (entered env cause addr s).mem x = s.mem x) ∧
      Saved (frame s) (takeTrap cause addr s) (entered env cause addr s).mem := by
  obtain ⟨hsaved, hcause, hsp, -, hout⟩ := entered_spec env cause addr s
  rw [frame_takeTrap] at hsaved hsp hout
  rw [mcause_takeTrap] at hcause
  rw [mem_takeTrap] at hout
  exact ⟨hcause, hsp, hout, hsaved⟩

/-- Once the call is back, what was saved is restored. -/
theorem trap_restored {env : Env} {cause addr : Word} {s t : State}
    (ht : entered env cause addr s = t) (henv : Handled env.callee t) :
    ∃ u, Restored (takeTrap cause addr s) (env.callee t) u ∧
      trap env cause addr s =
        (u.setCsr .mstatus (statusMret (u.csr .mstatus))).jump (.code (u.csr .mepc)) := by
  obtain ⟨-, hsp, -, hsaved⟩ := entered_frame env cause addr s
  have heq := trap_eq env cause addr s
  rw [ht] at hsp hsaved heq
  -- the frame still holds the interrupted state when the handler is back
  have hslot : ∀ off, off + 8 ≤ 256 → loadWord (env.callee t).mem (frame s + .ofNat 64 off) =
      loadWord t.mem (frame s + .ofNat 64 off) := by
    intro off hoff
    refine loadWord_congr fun x hx => henv.frame x ?_
    rw [hsp, InFrame]
    bv_omega
  have hback : Saved (frame s) (takeTrap cause addr s) (env.callee t).mem := by
    refine ⟨fun x hx => ?_, (hslot 240 (by omega)).trans hsaved.mepc,
      (hslot 248 (by omega)).trans hsaved.mstatus⟩
    have hin := saves_slots.inside x hx
    exact (hslot x.2 (by omega)).trans (hsaved.reg x hx)
  refine ⟨_, trapRestore_spec (henv.returns.trans ?_) ?_, heq⟩
  · rw [hsp, frame_takeTrap]
  · rwa [frame_takeTrap]

/-- The memory, the place and the registers that the interrupted code goes on with. -/
theorem trap_resumed {env : Env} {cause addr : Word} {s t : State}
    (ht : entered env cause addr s = t) (henv : Handled env.callee t) :
    (trap env cause addr s).mem = (env.callee t).mem ∧ (trap env cause addr s).pc = .code addr ∧
      ∀ r, (trap env cause addr s).reg r = s.reg r := by
  obtain ⟨u, ⟨hregs, hmepc, -, -, hmem⟩, heq⟩ := trap_restored ht henv
  rw [mepc_takeTrap] at hmepc
  rw [heq]
  refine ⟨?_, ?_, fun r => ?_⟩
  · rw [mem_jump, mem_setCsr, hmem]
  · rw [State.jump_pc, hmepc]
  · rw [reg_jump, reg_setCsr, hregs, reg_takeTrap]

/-- **A trap, seen from the interrupted code.**  `rust_trap_handler` is called with `mcause` and the
frame; once that call is back, the memory is what it leaves, and every register, the program counter
and `MIE` are as they were. -/
theorem trapEntry_transparent {env : Env} {cause addr : Word} {s t : State}
    (ht : entered env cause addr s = t) (henv : Handled env.callee t) :
    t.reg a0 = cause ∧ t.reg a1 = frame s ∧
      (∀ x, ¬ InFrame (frame s) x → t.mem x = s.mem x) ∧
      (trap env cause addr s).mem = (env.callee t).mem ∧
      (trap env cause addr s).pc = .code addr ∧
      (∀ r, (trap env cause addr s).reg r = s.reg r) ∧
      (trap env cause addr s).csr .mstatus = statusMret (statusTrap (s.csr .mstatus)) ∧
      ((trap env cause addr s).csr .mstatus).getLsbD 3 = (s.csr .mstatus).getLsbD 3 ∧
      (trap env cause addr s).csr .mie = (env.callee t).csr .mie := by
  obtain ⟨hcause, hsp, hout, -⟩ := entered_frame env cause addr s
  rw [ht] at hcause hsp hout
  obtain ⟨hmem, hpc, hregs⟩ := trap_resumed ht henv
  obtain ⟨u, ⟨-, -, hmstatus, hothers, -⟩, heq⟩ := trap_restored ht henv
  rw [mstatus_takeTrap] at hmstatus
  have hstatus : (trap env cause addr s).csr .mstatus = statusMret (statusTrap (s.csr .mstatus)) := by
    rw [heq, csr_jump, csr_setCsr_self, hmstatus]
  have hmie : ((trap env cause addr s).csr .mstatus).getLsbD 3 = (s.csr .mstatus).getLsbD 3 := by
    rw [hstatus, statusMret_mie]
  refine ⟨hcause, hsp, hout, hmem, hpc, hregs, hstatus, hmie, ?_⟩
  rw [heq, csr_jump, csr_setCsr_ne _ _ (by decide), hothers .mie (by decide) (by decide)]

/-- A handler with nothing to do: it returns `cur_sp`. -/
def idle : Env := { callee := fun s => s.setReg a0 (s.reg a1), link := fun _ => 0 }

theorem idle_handled (t : State) : Handled idle.callee t :=
  ⟨reg_setReg_self t _ (by decide), fun _ _ => rfl⟩

/-- `mcause` of the machine timer interrupt. -/
def MACHINE_TIMER : Word := 0x8000000000000007#64

/-- Code in the image, its registers all different. -/
def inCode : State :=
  { regs := fun r => .ofNat 64 (0x8FE40000 + r.val), csr := fun _ => 8, mem := fun _ => 0xA5
    pc := .code 0x8FE00100#64 }

theorem trapEntry_idle :
    (trap idle MACHINE_TIMER 0x8FE00100 inCode).pc = .code 0x8FE00100 ∧
      (trap idle MACHINE_TIMER 0x8FE00100 inCode).reg s11 = 0x8FE4001B ∧
      ((trap idle MACHINE_TIMER 0x8FE00100 inCode).csr .mstatus).getLsbD 3 = true := by
  obtain ⟨-, -, -, -, hpc, hregs, -, hmie, -⟩ :=
    @trapEntry_transparent idle MACHINE_TIMER 0x8FE00100 inCode _ rfl (idle_handled _)
  exact ⟨hpc, (hregs s11).trans (by decide), hmie.trans (by decide)⟩

/-! ### Interrupted code -/

/-- Two states that the code at hand cannot tell apart, when it does not use `hidden`. -/
structure Agree (hidden : Word → Prop) (s t : State) : Prop where
  regs : ∀ r, s.reg r = t.reg r
  pc : s.pc = t.pc
  mem : ∀ x, ¬ hidden x → s.mem x = t.mem x

/-- A step of the code, or a trap with its cause. -/
def interruptedStep (env : Env) (code : State → State) (s : State) : Option Word → State
  | none => code s
  | some cause =>
    match s.pc with
    | .code addr => trap env cause addr s
    | .listing _ => s

/-- The trap is handled, and what its handler writes is hidden. -/
structure Unseen (env : Env) (hidden : Word → Prop) (cause addr : Word) (s : State) : Prop where
  handled : Handled env.callee (entered env cause addr s)
  writes : ∀ x, ¬ hidden x →
    (env.callee (entered env cause addr s)).mem x = (entered env cause addr s).mem x

/-- A trap changes nothing but what is hidden. -/
theorem trap_agrees {env : Env} {hidden : Word → Prop} {s t : State} {cause addr : Word}
    (henv : Unseen env hidden cause addr s) (hpc : s.pc = .code addr)
    (hframe : ∀ x, InFrame (frame t) x → hidden x) (h : Agree hidden s t) :
    Agree hidden (trap env cause addr s) t := by
  obtain ⟨-, -, hout, -⟩ := entered_frame env cause addr s
  obtain ⟨hmem, haddr, hregs⟩ := trap_resumed rfl henv.handled
  refine ⟨fun r => (hregs r).trans (h.regs r), ?_, fun x hx => ?_⟩
  · rw [haddr, ← hpc, h.pc]
  · have hsp : frame s = frame t := by
      unfold frame
      rw [h.regs]
    rw [hmem, henv.writes x hx, hout x (fun hin => hx (hframe x (hsp ▸ hin)))]
    exact h.mem x hx

/-- **Traps do not show.**  Code that uses neither the handler's memory nor what lies below its
stack gets to the same registers, place and memory, wherever in its run traps are taken, if the calls
of the handler come back that are made for these causes at the places of the run. -/
theorem interrupted_agrees {env : Env} {hidden : Word → Prop} {code : State → State}
    (hcode : ∀ s t, Agree hidden s t → Agree hidden (code s) (code t)) {s : State}
    (hframe : ∀ n x, InFrame (frame (code^[n] s)) x → hidden x) (events : List (Option Word))
    (henv : ∀ cause, some cause ∈ events → ∀ n u addr, Agree hidden u (code^[n] s) →
      u.pc = .code addr → Unseen env hidden cause addr u) :
    Agree hidden (events.foldl (interruptedStep env code) s) (code^[events.count none] s) := by
  have hrun : ∀ (rest : List (Option Word)), (∀ e ∈ rest, e ∈ events) → ∀ u n,
      Agree hidden u (code^[n] s) →
        Agree hidden (rest.foldl (interruptedStep env code) u) (code^[n + rest.count none] s) := by
    intro rest
    induction rest with
    | nil => exact fun _ u n h => h
    | cons event rest ih =>
        intro hmem u n h
        have hrest : ∀ e ∈ rest, e ∈ events := fun e he => hmem e (List.mem_cons_of_mem _ he)
        cases event with
        | none =>
          rw [List.count_cons_self, Nat.add_comm _ 1, ← Nat.add_assoc]
          refine ih hrest (code u) (n + 1) ?_
          rw [Function.iterate_succ_apply']
          exact hcode u _ h
        | some cause =>
          rw [List.count_cons_of_ne (by simp)]
          refine ih hrest _ n ?_
          change Agree hidden (match u.pc with
            | .code addr => trap env cause addr u
            | .listing _ => u) _
          cases hpc : u.pc with
          | code addr =>
            have hunseen := henv cause (hmem _ (List.mem_cons_self ..)) n u addr h hpc
            exact trap_agrees hunseen hpc (hframe n) h
          | listing i => exact h
  have hall := hrun events (fun _ he => he) s 0 ⟨fun _ => rfl, rfl, fun _ _ => rfl⟩
  rwa [Nat.zero_add] at hall

theorem interrupted_counting :
    ([none, some MACHINE_TIMER, none, some MACHINE_TIMER].foldl
      (interruptedStep idle fun s => s.setReg a0 (s.reg a0 + 1)) inCode).reg a0 = 0x8FE4000C := by
  have hcode : ∀ s t, Agree (InFrame (frame inCode)) s t →
      Agree (InFrame (frame inCode)) (s.setReg a0 (s.reg a0 + 1)) (t.setReg a0 (t.reg a0 + 1)) := by
    intro s t h
    refine ⟨fun r => ?_, h.pc, h.mem⟩
    rw [reg_setReg, reg_setReg, h.regs, h.regs]
  have hsp : ∀ n, ((fun s : State => s.setReg a0 (s.reg a0 + 1))^[n] inCode).reg sp =
      inCode.reg sp := by
    intro n
    induction n with
    | zero => rfl
    | succ n ih =>
        rw [Function.iterate_succ_apply', reg_setReg_ne _ (by decide)]
        exact ih
  have hframe : ∀ n x, InFrame (frame ((fun s : State => s.setReg a0 (s.reg a0 + 1))^[n] inCode)) x →
      InFrame (frame inCode) x := by
    intro n x hx
    rwa [frame, hsp n] at hx
  have hall := interrupted_agrees hcode hframe
    [none, some MACHINE_TIMER, none, some MACHINE_TIMER]
    fun _ _ _ _ _ _ _ => ⟨idle_handled _, fun _ _ => rfl⟩
  exact (hall.regs a0).trans (by decide)

/-! ### The start -/

/-- `_start`, with what the linker script says of the stack and the bss. -/
def start (stackTop bssStart bssEnd : Word) : List Instr :=
  [.csrw .mie zero,
    .la sp stackTop,
    .la t0 bssStart,
    .la t1 bssEnd,
    .bgeu t0 t1 8,
    .sd zero 0 t0,
    .addi t0 t0 8,
    .j 4,
    .call,
    .wfi,
    .j 9]

/-- `m` with the doublewords of `[lo, hi)` zero. -/
def cleared (m : Word → UInt8) (lo hi : Word) : Word → UInt8 := fun x =>
  if (x - lo).toNat < 8 * ((hi.toNat - lo.toNat + 7) / 8) then 0 else m x

theorem cleared_done (m : Word → UInt8) {lo hi : Word} (h : hi.toNat ≤ lo.toNat) :
    cleared m lo hi = m := by
  funext x
  unfold cleared
  rw [Nat.sub_eq_zero_of_le h, if_neg (by omega)]

theorem cleared_next (m : Word → UInt8) {lo hi : Word} (h : lo.toNat < hi.toNat)
    (hhi : hi.toNat + 8 ≤ 2 ^ 64) :
    cleared (storeWord m lo 0) (lo + 8#64) hi = cleared m lo hi := by
  have hlo : (lo + 8#64).toNat = lo.toNat + 8 := by bv_omega
  have hcount : (hi.toNat - lo.toNat + 7) / 8 = (hi.toNat - (lo.toNat + 8) + 7) / 8 + 1 := by omega
  have hfit : 8 * ((hi.toNat - (lo.toNat + 8) + 7) / 8) + 8 ≤ 2 ^ 64 := by omega
  funext x
  unfold cleared
  rw [storeWord_zero, hlo, hcount]
  generalize (hi.toNat - (lo.toNat + 8) + 7) / 8 = k at hfit
  by_cases hin : (x - lo).toNat < 8
  · have hdist : 2 ^ 64 ≤ (x - (lo + 8#64)).toNat + 8 := by bv_omega
    rw [if_neg (by omega), if_pos hin, if_pos (by omega)]
  · have hdist : (x - (lo + 8#64)).toNat + 8 = (x - lo).toNat := by bv_omega
    have hiff : (x - (lo + 8#64)).toNat < 8 * k ↔ (x - lo).toNat < 8 * (k + 1) := by omega
    rw [if_neg hin, if_congr hiff rfl rfl]

section Start

variable (env : Env) (stackTop bssStart bssEnd : Word)

/-- One turn of the loop that clears the bss. -/
theorem start_turn {s : State} {lo : Word} (hpc : s.pc = .listing 4) (hlo : s.reg t0 = lo)
    (hlt : lo.toNat < (s.reg t1).toNat) :
    env.run (start stackTop bssStart bssEnd) 4 s =
      (({ s with mem := storeWord s.mem lo 0 }).setReg t0 (lo + 8#64)).jump (.listing 4) := by
  have hbgeu : (start stackTop bssStart bssEnd)[4]? = some (.bgeu t0 t1 8) := rfl
  have hj : (start stackTop bssStart bssEnd)[7]? = some (.j 4) := rfl
  have htest : env.step (start stackTop bssStart bssEnd) s = s.jump (.listing 5) := by
    rw [step_at hpc hbgeu, Env.exec, hlo, if_neg (Nat.not_le_of_lt hlt)]
  have hbody : env.run (start stackTop bssStart bssEnd) 2 (s.jump (.listing 5)) =
      (applyAll [.sd zero 0 t0, .addi t0 t0 8] s).jump (.listing 7) := by
    have hrun := run_plain env ((start stackTop bssStart bssEnd).take 5)
      [.sd zero 0 t0, .addi t0 t0 8] ((start stackTop bssStart bssEnd).drop 7)
      (s := s.jump (.listing 5)) (by decide) rfl
    rwa [applyAll_pc, State.jump_jump] at hrun
  have hback : env.step (start stackTop bssStart bssEnd)
      ((applyAll [.sd zero 0 t0, .addi t0 t0 8] s).jump (.listing 7)) =
      (applyAll [.sd zero 0 t0, .addi t0 t0 8] s).jump (.listing 4) := step_at rfl hj
  have haddr : s.reg t0 + BitVec.ofNat 64 0 = lo := by rw [hlo, BitVec.add_zero]
  have himm : BitVec.ofInt 64 8 = 8#64 := by decide
  change env.run _ (1 + (2 + 1)) s = _
  rw [run_add, run_one, htest, run_add, hbody, run_one, hback]
  change (({ s with mem := storeWord s.mem (s.reg t0 + BitVec.ofNat 64 0) (s.reg zero) }).setReg t0
    (s.reg t0 + BitVec.ofInt 64 8)).jump _ = _
  rw [haddr, himm, hlo]
  rfl

/-- The loop, from its test to the call. -/
theorem start_loop {s : State} {lo : Word} (hpc : s.pc = .listing 4) (hlo : s.reg t0 = lo)
    (hhi : s.reg t1 = bssEnd) (hend : bssEnd.toNat + 8 ≤ 2 ^ 64) :
    ∃ n t, env.run (start stackTop bssStart bssEnd) n s = t ∧ t.pc = .listing 8 ∧
      t.reg sp = s.reg sp ∧ t.csr = s.csr ∧ t.mem = cleared s.mem lo bssEnd := by
  have hbgeu : (start stackTop bssStart bssEnd)[4]? = some (.bgeu t0 t1 8) := rfl
  induction hk : bssEnd.toNat - lo.toNat using Nat.strong_induction_on generalizing s lo with
  | _ k ih =>
      by_cases hle : bssEnd.toNat ≤ lo.toNat
      · refine ⟨1, s.jump (.listing 8), ?_, rfl, rfl, rfl, (cleared_done s.mem hle).symm⟩
        rw [run_one, step_at hpc hbgeu, Env.exec, hlo, hhi, if_pos hle]
      · have hlt : lo.toNat < bssEnd.toNat := Nat.lt_of_not_le hle
        have hturn := start_turn env stackTop bssStart bssEnd hpc hlo (by rw [hhi]; exact hlt)
        have hnext : (lo + 8#64).toNat = lo.toNat + 8 := by bv_omega
        generalize hu : (({ s with mem := storeWord s.mem lo 0 }).setReg t0 (lo + 8#64)).jump
          (.listing 4) = u at hturn
        have hulo : u.reg t0 = lo + 8#64 := by
          rw [← hu, reg_jump, reg_setReg_self _ _ (by decide)]
        have huhi : u.reg t1 = bssEnd := by
          rw [← hu, reg_jump, reg_setReg_ne _ (by decide)]
          exact hhi
        have husp : u.reg sp = s.reg sp := by
          rw [← hu, reg_jump, reg_setReg_ne _ (by decide)]
          rfl
        have hupc : u.pc = .listing 4 := by rw [← hu, State.jump_pc]
        have humem : u.mem = storeWord s.mem lo 0 := by rw [← hu, mem_jump, mem_setReg]
        have hucsr : u.csr = s.csr := by
          rw [← hu]
          rfl
        obtain ⟨n, t, hrun, htpc, htsp, htcsr, htmem⟩ :=
          ih (bssEnd.toNat - (lo + 8#64).toNat) (by omega) hupc hulo huhi rfl
        refine ⟨4 + n, t, ?_, htpc, htsp.trans husp, htcsr.trans hucsr, ?_⟩
        · rw [run_add, hturn, hrun]
        · rw [htmem, humem, cleared_next s.mem hlt hend]

/-- **The start.**  `rust_main` is called on the linker's stack, with no interrupt enabled and the
bss clear, the rest of the memory as it was; if it came back, the hart would stay in the `wfi` loop. -/
theorem start_clears {s : State} (hpc : s.pc = .listing 0) (hend : bssEnd.toNat + 8 ≤ 2 ^ 64) :
    ∃ n t, env.run (start stackTop bssStart bssEnd) n s = t ∧ t.pc = .listing 8 ∧
      t.reg sp = stackTop ∧ t.csr .mie = 0 ∧ t.mem = cleared s.mem bssStart bssEnd ∧
      ∀ m, ∃ i, (i = 9 ∨ i = 10) ∧
        env.run (start stackTop bssStart bssEnd) (n + 1 + m) s =
          (env.callee (t.setReg ra (env.link 8))).jump (.listing i) := by
  have hcall : (start stackTop bssStart bssEnd)[8]? = some .call := rfl
  have hwfi : (start stackTop bssStart bssEnd)[9]? = some .wfi := rfl
  have hj : (start stackTop bssStart bssEnd)[10]? = some (.j 9) := rfl
  have hinit : env.run (start stackTop bssStart bssEnd) 4 s =
      (applyAll [.csrw .mie zero, .la sp stackTop, .la t0 bssStart, .la t1 bssEnd] s).jump
        (.listing 4) :=
    run_plain env [] [.csrw .mie zero, .la sp stackTop, .la t0 bssStart, .la t1 bssEnd]
      ((start stackTop bssStart bssEnd).drop 4) (by simp [Instr.plain]) hpc
  generalize hu : (applyAll [.csrw .mie zero, .la sp stackTop, .la t0 bssStart, .la t1 bssEnd]
    s).jump (.listing 4) = u at hinit
  have hu' : ((((s.setCsr .mie 0).setReg sp stackTop).setReg t0 bssStart).setReg t1 bssEnd).jump
      (.listing 4) = u := hu
  have hlo : u.reg t0 = bssStart := by
    rw [← hu', reg_jump, reg_setReg_ne _ (by decide), reg_setReg_self _ _ (by decide)]
  have hhi : u.reg t1 = bssEnd := by rw [← hu', reg_jump, reg_setReg_self _ _ (by decide)]
  obtain ⟨n, t, hrun, htpc, htsp, htcsr, htmem⟩ := start_loop env stackTop bssStart bssEnd
    (s := u) (by rw [← hu', State.jump_pc]) hlo hhi hend
  have husp : u.reg sp = stackTop := by
    rw [← hu', reg_jump, reg_setReg_ne _ (by decide), reg_setReg_ne _ (by decide),
      reg_setReg_self _ _ (by decide)]
  have humem : u.mem = s.mem := by rw [← hu', mem_jump, mem_setReg, mem_setReg, mem_setReg, mem_setCsr]
  have humie : u.csr .mie = 0 := by
    rw [← hu']
    exact csr_setCsr_self s .mie 0
  have hback : ∀ m, ∃ i, (i = 9 ∨ i = 10) ∧
      env.run (start stackTop bssStart bssEnd) m
        ((env.callee (t.setReg ra (env.link 8))).jump (.listing 9)) =
        (env.callee (t.setReg ra (env.link 8))).jump (.listing i) := by
    intro m
    induction m with
    | zero => exact ⟨9, .inl rfl, rfl⟩
    | succ m ih =>
        obtain ⟨i, hi, hm⟩ := ih
        rw [run_add, hm, run_one]
        rcases hi with rfl | rfl
        · exact ⟨10, .inr rfl, step_at rfl hwfi⟩
        · exact ⟨9, .inl rfl, step_at rfl hj⟩
  refine ⟨4 + n, t, ?_, htpc, htsp.trans husp, (congrFun htcsr .mie).trans humie, ?_, fun m => ?_⟩
  · rw [run_add, hinit, hrun]
  · rw [htmem, humem]
  · obtain ⟨i, hi, hm⟩ := hback m
    refine ⟨i, hi, ?_⟩
    rw [Nat.add_assoc, Nat.add_assoc, run_add, hinit, run_add, hrun, run_add, run_one,
      step_at htpc hcall]
    exact hm

end Start

theorem start_image :
    ∃ n, (idle.run (start 0x8FE60000 0x8FE40000 0x8FE50000) n (inCode.jump (.listing 0))).mem
      0x8FE4FFFF = 0 := by
  obtain ⟨n, t, hrun, -, -, -, hmem, -⟩ := start_clears idle 0x8FE60000 0x8FE40000 0x8FE50000
    (s := inCode.jump (.listing 0)) rfl (by decide)
  refine ⟨n, ?_⟩
  rw [hrun, hmem]
  decide

end Cvirtos.Arch.Asm
