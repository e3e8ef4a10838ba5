import Cvirtos.Lib.LittleEndian
import Mathlib.Data.List.Nodup

/-!
# A fragment of RV64

Integer registers, four control and status registers, a byte-addressed memory and listings of the
instructions that entry code is made of.  What a listing calls is a parameter.

* `loadWord_storeWord`, `loadWord_apart` — a doubleword reads back, and others are left alone;
* `run_plain` — a block that does not branch, run at once;
* `spill`, `loadWord_spill` — **registers put into a frame are found in it**;
* `fill`, `reg_fill` — registers taken out of a frame;
* `takeTrap`, `statusMret_statusTrap` — a trap and the return from it.
-/

set_option autoImplicit false

namespace Cvirtos.Lib.Rv64

abbrev Word := BitVec 64

abbrev Reg := Fin 32

namespace Reg

def zero : Reg := 0
def ra : Reg := 1
def sp : Reg := 2
def gp : Reg := 3
def tp : Reg := 4
def t0 : Reg := 5
def t1 : Reg := 6
def t2 : Reg := 7
def s0 : Reg := 8
def s1 : Reg := 9
def a0 : Reg := 10
def a1 : Reg := 11
def a2 : Reg := 12
def a3 : Reg := 13
def a4 : Reg := 14
def a5 : Reg := 15
def a6 : Reg := 16
def a7 : Reg := 17
def s2 : Reg := 18
def s3 : Reg := 19
def s4 : Reg := 20
def s5 : Reg := 21
def s6 : Reg := 22
def s7 : Reg := 23
def s8 : Reg := 24
def s9 : Reg := 25
def s10 : Reg := 26
def s11 : Reg := 27
def t3 : Reg := 28
def t4 : Reg := 29
def t5 : Reg := 30
def t6 : Reg := 31

end Reg

inductive Csr where
  | mie
  | mstatus
  | mepc
  | mcause
  deriving DecidableEq, Repr

/-- Where the hart is: at an instruction of the listing, or in other code. -/
inductive Pc where
  | listing (i : Nat)
  | code (addr : Word)
  deriving DecidableEq, Repr

structure State where
  regs : Reg → Word
  csr : Csr → Word
  mem : Word → UInt8
  pc : Pc

namespace State

/-- `x0` reads as zero. -/
def reg (s : State) (r : Reg) : Word := if r = Reg.zero then 0 else s.regs r

/-- A write to `x0` is lost. -/
def setReg (s : State) (r : Reg) (v : Word) : State :=
  { s with regs := fun q => if q = r then v else s.regs q }

def setCsr (s : State) (c : Csr) (v : Word) : State :=
  { s with csr := fun d => if d = c then v else s.csr d }

def jump (s : State) (pc : Pc) : State := { s with pc := pc }

@[simp] theorem jump_pc (s : State) (pc : Pc) : (s.jump pc).pc = pc := rfl

@[simp] theorem jump_jump (s : State) (pc pc' : Pc) : (s.jump pc).jump pc' = s.jump pc' := rfl

end State

theorem reg_setReg (s : State) (r q : Reg) (v : Word) :
    (s.setReg r v).reg q = if q = Reg.zero then 0 else if q = r then v else s.reg q := by
  unfold State.reg State.setReg
  split <;> rfl

theorem reg_setReg_self (s : State) {r : Reg} (v : Word) (h : r ≠ Reg.zero) :
    (s.setReg r v).reg r = v := by
  rw [reg_setReg, if_neg h, if_pos rfl]

theorem reg_setReg_ne (s : State) {r q : Reg} {v : Word} (h : q ≠ r) :
    (s.setReg r v).reg q = s.reg q := by
  rw [reg_setReg, if_neg h]
  split
  · rename_i hzero
    rw [State.reg, if_pos hzero]
  · rfl

@[simp] theorem csr_setCsr_self (s : State) (c : Csr) (v : Word) : (s.setCsr c v).csr c = v :=
  if_pos rfl

theorem csr_setCsr_ne (s : State) {c d : Csr} (v : Word) (h : d ≠ c) :
    (s.setCsr c v).csr d = s.csr d := if_neg h

@[simp] theorem reg_setCsr (s : State) (c : Csr) (v : Word) (r : Reg) :
    (s.setCsr c v).reg r = s.reg r := rfl

@[simp] theorem mem_setCsr (s : State) (c : Csr) (v : Word) : (s.setCsr c v).mem = s.mem := rfl

@[simp] theorem csr_jump (s : State) (pc : Pc) : (s.jump pc).csr = s.csr := rfl

@[simp] theorem reg_jump (s : State) (pc : Pc) (r : Reg) : (s.jump pc).reg r = s.reg r := rfl

@[simp] theorem mem_jump (s : State) (pc : Pc) : (s.jump pc).mem = s.mem := rfl

@[simp] theorem mem_setReg (s : State) (r : Reg) (v : Word) : (s.setReg r v).mem = s.mem := rfl

/-! ### Doublewords -/

/-- The doubleword at `a`, the lowest byte first. -/
def loadWord (mem : Word → UInt8) (a : Word) : Word :=
  .ofNat 64 (littleEndian ((List.range 8).map fun i => mem (a + .ofNat 64 i)))

def storeWord (mem : Word → UInt8) (a v : Word) : Word → UInt8 := fun x =>
  (leBytes 8 v.toNat)[(x - a).toNat]?.getD (mem x)

/-- An address outside the doubleword. -/
theorem storeWord_outside (mem : Word → UInt8) {a x : Word} (v : Word) (h : 8 ≤ (x - a).toNat) :
    storeWord mem a v x = mem x := by
  unfold storeWord
  rw [List.getElem?_eq_none (by rw [length_leBytes]; exact h)]
  rfl

theorem storeWord_inside (mem : Word → UInt8) {a x : Word} (v : Word) (h : (x - a).toNat < 8) :
    (leBytes 8 v.toNat)[(x - a).toNat]? = some (storeWord mem a v x) := by
  have hlen : (x - a).toNat < (leBytes 8 v.toNat).length := by rw [length_leBytes]; exact h
  unfold storeWord
  rw [List.getElem?_eq_getElem hlen]
  rfl

theorem storeWord_zero (mem : Word → UInt8) (a x : Word) :
    storeWord mem a 0 x = if (x - a).toNat < 8 then 0 else mem x := by
  have hbytes : leBytes 8 (0 : Word).toNat = List.replicate 8 0 := by decide
  split
  · rename_i h
    have hin := storeWord_inside mem 0 h
    rw [hbytes, List.getElem?_replicate, if_pos h] at hin
    exact (Option.some.inj hin).symm
  · rename_i h
    exact storeWord_outside mem 0 (Nat.le_of_not_lt h)

theorem toNat_offset (a : Word) {i : Nat} (h : i < 2 ^ 64) : (a + .ofNat 64 i - a).toNat = i := by
  rw [BitVec.add_comm, BitVec.add_sub_cancel]
  exact Nat.mod_eq_of_lt h

/-- **A doubleword reads back.** -/
theorem loadWord_storeWord (mem : Word → UInt8) (a v : Word) :
    loadWord (storeWord mem a v) a = v := by
  have hbytes : (List.range 8).map (fun i => storeWord mem a v (a + .ofNat 64 i)) =
      leBytes 8 v.toNat := by
    refine List.ext_getElem? fun i => ?_
    by_cases hi : i < 8
    · have hoff := toNat_offset a (i := i) (by omega)
      have hin := storeWord_inside mem (a := a) (x := a + .ofNat 64 i) v (by omega)
      rw [hoff] at hin
      rw [hin]
      simp [hi]
    · rw [List.getElem?_eq_none (by simpa using hi),
        List.getElem?_eq_none (by rw [length_leBytes]; omega)]
  unfold loadWord
  rw [hbytes, littleEndian_leBytes v.isLt, BitVec.ofNat_toNat, BitVec.setWidth_eq]

/-- Memories that agree on a doubleword. -/
theorem loadWord_congr {mem mem' : Word → UInt8} {a : Word}
    (h : ∀ x, (x - a).toNat < 8 → mem' x = mem x) : loadWord mem' a = loadWord mem a := by
  unfold loadWord
  congr 2
  refine List.map_congr_left fun i hi => h _ ?_
  have hi := List.mem_range.mp hi
  rw [toNat_offset a (by omega)]
  exact hi

/-- A doubleword eight bytes away at least, in both directions around. -/
theorem loadWord_apart (mem : Word → UInt8) {a b : Word} (v : Word) (hlow : 8 ≤ (b - a).toNat)
    (hhigh : (b - a).toNat + 8 ≤ 2 ^ 64) : loadWord (storeWord mem a v) b = loadWord mem b := by
  refine loadWord_congr fun x hx => storeWord_outside mem v ?_
  have hsum : x - a = (x - b) + (b - a) := by bv_omega
  rw [hsum, BitVec.toNat_add, Nat.mod_eq_of_lt (by omega)]
  omega

/-- Two slots of one frame that do not overlap. -/
theorem loadWord_slot (mem : Word → UInt8) {base : Word} {off off' : Nat} (v : Word)
    (hoff : off < 2 ^ 63) (hoff' : off' < 2 ^ 63) (h : off + 8 ≤ off' ∨ off' + 8 ≤ off) :
    loadWord (storeWord mem (base + .ofNat 64 off') v) (base + .ofNat 64 off) =
      loadWord mem (base + .ofNat 64 off) := by
  have hdist : (base + .ofNat 64 off - (base + .ofNat 64 off')).toNat =
      (2 ^ 64 - off' + off) % 2 ^ 64 := by
    have hcancel : base + .ofNat 64 off - (base + .ofNat 64 off') =
        .ofNat 64 off - .ofNat 64 off' := by bv_omega
    rw [hcancel, BitVec.toNat_sub, BitVec.toNat_ofNat, BitVec.toNat_ofNat,
      Nat.mod_eq_of_lt (a := off) (by omega), Nat.mod_eq_of_lt (a := off') (by omega)]
  refine loadWord_apart mem v ?_ ?_ <;>
    · rw [hdist]
      omega

/-! ### Listings -/

inductive Instr where
  | addi (rd rs : Reg) (imm : Int)
  | la (rd : Reg) (addr : Word)
  | mv (rd rs : Reg)
  | sd (rs : Reg) (off : Nat) (base : Reg)
  | ld (rd : Reg) (off : Nat) (base : Reg)
  | csrr (rd : Reg) (csr : Csr)
  | csrw (csr : Csr) (rs : Reg)
  | bgeu (rs rt : Reg) (target : Nat)
  | j (target : Nat)
  | call
  | wfi
  | mret
  deriving DecidableEq, Repr

/-- The instructions that only compute, load and store. -/
def Instr.plain : Instr → Bool
  | .bgeu .. | .j _ | .call | .wfi | .mret => false
  | _ => true

/-- What a plain instruction does. -/
def Instr.apply (s : State) : Instr → State
  | .addi rd rs imm => s.setReg rd (s.reg rs + .ofInt 64 imm)
  | .la rd addr => s.setReg rd addr
  | .mv rd rs => s.setReg rd (s.reg rs)
  | .sd rs off base => { s with mem := storeWord s.mem (s.reg base + .ofNat 64 off) (s.reg rs) }
  | .ld rd off base => s.setReg rd (loadWord s.mem (s.reg base + .ofNat 64 off))
  | .csrr rd csr => s.setReg rd (s.csr csr)
  | .csrw csr rs => s.setCsr csr (s.reg rs)
  | _ => s

/-- What a listing calls, and the return addresses its calls leave in `ra`. -/
structure Env where
  callee : State → State
  link : Nat → Word

/-- `MIE`, `MPIE` and `MPP` of `mstatus`. -/
def STATUS_STACK : Word := 0x1888#64

/-- A trap to M mode puts `MIE` into `MPIE` and clears it. -/
def statusTrap (v : Word) : Word :=
  (v &&& ~~~STATUS_STACK) ||| (if v.getLsbD 3 then 0x80#64 else 0#64) ||| 0x1800#64

/-- `mret` takes `MIE` back out of `MPIE`. -/
def statusMret (v : Word) : Word :=
  (v &&& ~~~STATUS_STACK) ||| (if v.getLsbD 7 then 0x08#64 else 0#64) ||| 0x80#64

/-- **What a trap and its `mret` leave of `mstatus`**: `MIE` as it was, `MPIE` set, `MPP` cleared. -/
theorem statusMret_statusTrap (v : Word) :
    statusMret (statusTrap v) =
      (v &&& ~~~STATUS_STACK) ||| (if v.getLsbD 3 then 0x08#64 else 0#64) ||| 0x80#64 := by
  have hgiven : ((if v.getLsbD 3 then 0x80#64 else 0#64) ||| 0x1800#64) &&& ~~~STATUS_STACK = 0#64 := by
    split <;> decide
  have hkept : statusTrap v &&& ~~~STATUS_STACK = v &&& ~~~STATUS_STACK := by
    rw [statusTrap, BitVec.or_assoc, BitVec.and_or_distrib_right, hgiven, BitVec.and_assoc,
      BitVec.and_self, BitVec.or_zero]
  have hmpie : (statusTrap v).getLsbD 7 = v.getLsbD 3 := by
    rw [statusTrap, BitVec.getLsbD_or, BitVec.getLsbD_or, BitVec.getLsbD_and]
    cases v.getLsbD 3 <;> simp [STATUS_STACK]
  rw [statusMret, hkept, hmpie]

theorem statusMret_mie (v : Word) : (statusMret (statusTrap v)).getLsbD 3 = v.getLsbD 3 := by
  rw [statusMret_statusTrap, BitVec.getLsbD_or, BitVec.getLsbD_or, BitVec.getLsbD_and]
  cases v.getLsbD 3 <;> simp [STATUS_STACK]

/-- A trap out of code at `addr`, in direct mode. -/
def takeTrap (cause addr : Word) (s : State) : State :=
  (((s.setCsr .mepc addr).setCsr .mcause cause).setCsr .mstatus (statusTrap (s.csr .mstatus))).jump
    (.listing 0)

@[simp] theorem reg_takeTrap (cause addr : Word) (s : State) (r : Reg) :
    (takeTrap cause addr s).reg r = s.reg r := rfl

@[simp] theorem mem_takeTrap (cause addr : Word) (s : State) : (takeTrap cause addr s).mem = s.mem :=
  rfl

@[simp] theorem mcause_takeTrap (cause addr : Word) (s : State) :
    (takeTrap cause addr s).csr .mcause = cause := rfl

@[simp] theorem mepc_takeTrap (cause addr : Word) (s : State) :
    (takeTrap cause addr s).csr .mepc = addr := rfl

@[simp] theorem mstatus_takeTrap (cause addr : Word) (s : State) :
    (takeTrap cause addr s).csr .mstatus = statusTrap (s.csr .mstatus) := rfl

def Env.exec (env : Env) (i : Nat) (s : State) : Instr → State
  | .bgeu rs rt target =>
    s.jump (.listing (if (s.reg rt).toNat ≤ (s.reg rs).toNat then target else i + 1))
  | .j target => s.jump (.listing target)
  | .call => (env.callee (s.setReg Reg.ra (env.link i))).jump (.listing (i + 1))
  | .wfi => s.jump (.listing (i + 1))
  | .mret => (s.setCsr .mstatus (statusMret (s.csr .mstatus))).jump (.code (s.csr .mepc))
  | instr => (instr.apply s).jump (.listing (i + 1))

/-- One instruction of the listing. -/
def Env.step (env : Env) (prog : List Instr) (s : State) : State :=
  match s.pc with
  | .listing i =>
    match prog[i]? with
    | some instr => env.exec i s instr
    | none => s
  | .code _ => s

def Env.run (env : Env) (prog : List Instr) : Nat → State → State
  | 0, s => s
  | n + 1, s => env.run prog n (env.step prog s)

/-- The plain instructions of a block, one after another. -/
def applyAll (blk : List Instr) (s : State) : State := blk.foldl Instr.apply s

@[simp] theorem applyAll_nil (s : State) : applyAll [] s = s := rfl

@[simp] theorem applyAll_cons (instr : Instr) (blk : List Instr) (s : State) :
    applyAll (instr :: blk) s = applyAll blk (instr.apply s) := rfl

theorem applyAll_append (blk blk' : List Instr) (s : State) :
    applyAll (blk ++ blk') s = applyAll blk' (applyAll blk s) := List.foldl_append

section Runs

variable {env : Env} {prog : List Instr} {s : State}

theorem run_add (env : Env) (prog : List Instr) (m n : Nat) (s : State) :
    env.run prog (m + n) s = env.run prog n (env.run prog m s) := by
  induction m generalizing s with
  | zero => rw [Nat.zero_add]; rfl
  | succ m ih =>
      rw [Nat.add_right_comm]
      exact ih (env.step prog s)

theorem run_one (env : Env) (prog : List Instr) (s : State) : env.run prog 1 s = env.step prog s :=
  rfl

theorem step_at {i : Nat} {instr : Instr} (hpc : s.pc = .listing i) (hi : prog[i]? = some instr) :
    env.step prog s = env.exec i s instr := by
  unfold Env.step
  rw [hpc]
  simp only [hi]

theorem exec_plain (env : Env) (i : Nat) (s : State) {instr : Instr} (h : instr.plain = true) :
    env.exec i s instr = (instr.apply s).jump (.listing (i + 1)) := by
  cases instr <;> first | rfl | cases h

/-- A plain instruction neither looks at the program counter nor moves it. -/
theorem apply_pc (s : State) (pc : Pc) (instr : Instr) :
    instr.apply (s.jump pc) = (instr.apply s).jump pc := by
  cases instr <;> rfl

theorem applyAll_pc (s : State) (pc : Pc) (blk : List Instr) :
    applyAll blk (s.jump pc) = (applyAll blk s).jump pc := by
  induction blk generalizing s with
  | nil => rfl
  | cons instr blk ih =>
      rw [applyAll_cons, applyAll_cons, apply_pc]
      exact ih _

/-- **A block that does not branch, run at once.** -/
theorem run_plain (env : Env) (pre blk post : List Instr) {s : State}
    (hblk : ∀ instr ∈ blk, instr.plain = true) (hpc : s.pc = .listing pre.length) :
    env.run (pre ++ blk ++ post) blk.length s =
      (applyAll blk s).jump (.listing (pre.length + blk.length)) := by
  induction blk generalizing pre s with
  | nil => rw [List.length_nil, Nat.add_zero, ← hpc]; rfl
  | cons instr blk ih =>
      obtain ⟨hplain, hblk⟩ := List.forall_mem_cons.mp hblk
      have hsplit : pre ++ instr :: blk ++ post = (pre ++ [instr]) ++ blk ++ post := by simp
      have hat : ((pre ++ [instr]) ++ blk ++ post)[pre.length]? = some instr := by simp
      have hstep : env.step ((pre ++ [instr]) ++ blk ++ post) s =
          (instr.apply s).jump (.listing (pre.length + 1)) :=
        (step_at hpc hat).trans (exec_plain env pre.length s hplain)
      have hnext := ih (pre ++ [instr]) hblk
        (s := env.step ((pre ++ [instr]) ++ blk ++ post) s) (by rw [hstep]; simp)
      rw [hsplit, List.length_cons, Nat.add_comm blk.length 1, run_add]
      refine hnext.trans ?_
      rw [hstep, applyAll_cons, applyAll_pc, State.jump_jump, List.length_append,
        List.length_singleton, Nat.add_assoc]

end Runs

/-! ### Frames -/

/-- Stores of registers into the frame at `base`. -/
def spill (base : Reg) (saves : List (Reg × Nat)) : List Instr :=
  saves.map fun (r, off) => .sd r off base

/-- Loads of registers out of the frame at `base`. -/
def fill (base : Reg) (loads : List (Reg × Nat)) : List Instr :=
  loads.map fun (r, off) => .ld r off base

/-- The slots follow one another, within `size` bytes. -/
structure Slots (size : Nat) (saves : List (Reg × Nat)) : Prop where
  apart : saves.Pairwise fun x y => x.2 + 8 ≤ y.2
  inside : ∀ x ∈ saves, x.2 + 8 ≤ size

theorem Slots.tail {size : Nat} {x : Reg × Nat} {saves : List (Reg × Nat)}
    (h : Slots size (x :: saves)) : Slots size saves :=
  ⟨(List.pairwise_cons.mp h.apart).2, (List.forall_mem_cons.mp h.inside).2⟩

theorem spill_plain {base : Reg} {saves : List (Reg × Nat)} :
    ∀ instr ∈ spill base saves, instr.plain = true := by
  intro instr hinstr
  obtain ⟨x, -, rfl⟩ := List.mem_map.mp hinstr
  rfl

theorem fill_plain {base : Reg} {loads : List (Reg × Nat)} :
    ∀ instr ∈ fill base loads, instr.plain = true := by
  intro instr hinstr
  obtain ⟨x, -, rfl⟩ := List.mem_map.mp hinstr
  rfl

/-- A spill changes the memory only. -/
theorem applyAll_spill (base : Reg) (saves : List (Reg × Nat)) (s : State) :
    applyAll (spill base saves) s = { s with mem := (applyAll (spill base saves) s).mem } := by
  induction saves generalizing s with
  | nil => rfl
  | cons x saves ih => exact ih _

/-- A spill leaves alone what is not in the frame. -/
theorem spill_outside {base : Reg} {size : Nat} {saves : List (Reg × Nat)} {s : State} {x : Word}
    (hslots : Slots size saves) (hsize : size ≤ 2 ^ 63) (hx : size ≤ (x - s.reg base).toNat) :
    (applyAll (spill base saves) s).mem x = s.mem x := by
  induction saves generalizing s with
  | nil => rfl
  | cons y saves ih =>
      have hin := (List.forall_mem_cons.mp hslots.inside).1
      refine (ih hslots.tail (s := (Instr.sd y.1 y.2 base).apply s) hx).trans
        (storeWord_outside s.mem _ ?_)
      have hdist : x - (s.reg base + .ofNat 64 y.2) = (x - s.reg base) - .ofNat 64 y.2 := by bv_omega
      rw [hdist]
      bv_omega

/-- Slots that lie before the frame's later stores keep what they hold. -/
theorem loadWord_spill_before {base : Reg} {size off : Nat} {saves : List (Reg × Nat)} {s : State}
    (hslots : Slots size saves) (hsize : size ≤ 2 ^ 63) (hbefore : ∀ x ∈ saves, off + 8 ≤ x.2) :
    loadWord (applyAll (spill base saves) s).mem (s.reg base + .ofNat 64 off) =
      loadWord s.mem (s.reg base + .ofNat 64 off) := by
  induction saves generalizing s with
  | nil => rfl
  | cons y saves ih =>
      obtain ⟨hy, hbefore⟩ := List.forall_mem_cons.mp hbefore
      have hin := (List.forall_mem_cons.mp hslots.inside).1
      refine (ih hslots.tail (s := (Instr.sd y.1 y.2 base).apply s) hbefore).trans ?_
      exact loadWord_slot s.mem _ (by omega) (by omega) (.inl hy)

/-- **Registers put into a frame are found in it.** -/
theorem loadWord_spill {base : Reg} {size : Nat} {saves : List (Reg × Nat)} {s : State}
    (hslots : Slots size saves) (hsize : size ≤ 2 ^ 63) {x : Reg × Nat} (hx : x ∈ saves) :
    loadWord (applyAll (spill base saves) s).mem (s.reg base + .ofNat 64 x.2) = s.reg x.1 := by
  induction saves generalizing s with
  | nil => cases hx
  | cons y saves ih =>
      rcases List.mem_cons.mp hx with rfl | hx
      · have hlater : loadWord (applyAll (spill base saves) ((Instr.sd x.1 x.2 base).apply s)).mem
            (s.reg base + .ofNat 64 x.2) =
            loadWord (storeWord s.mem (s.reg base + .ofNat 64 x.2) (s.reg x.1))
              (s.reg base + .ofNat 64 x.2) :=
          loadWord_spill_before hslots.tail hsize (List.pairwise_cons.mp hslots.apart).1
        exact hlater.trans (loadWord_storeWord s.mem _ _)
      · exact ih hslots.tail (s := (Instr.sd y.1 y.2 base).apply s) hx

/-- A fill changes registers only. -/
theorem applyAll_fill (base : Reg) (loads : List (Reg × Nat)) (s : State) :
    applyAll (fill base loads) s = { s with regs := (applyAll (fill base loads) s).regs } := by
  induction loads generalizing s with
  | nil => rfl
  | cons x loads ih => exact ih _

/-- A register the fill has no load for. -/
theorem reg_fill_other {base : Reg} {loads : List (Reg × Nat)} {s : State} {r : Reg}
    (hr : ∀ x ∈ loads, x.1 ≠ r) : (applyAll (fill base loads) s).reg r = s.reg r := by
  induction loads generalizing s with
  | nil => rfl
  | cons x loads ih =>
      obtain ⟨hx, hr⟩ := List.forall_mem_cons.mp hr
      exact (ih hr (s := (Instr.ld x.1 x.2 base).apply s)).trans (reg_setReg_ne s (Ne.symm hx))

/-- **A register taken out of a frame** that the fill does not move. -/
theorem reg_fill {base : Reg} {loads : List (Reg × Nat)} {s : State}
    (hnodup : (loads.map Prod.fst).Nodup) (hbase : base ∉ loads.map Prod.fst)
    (hzero : Reg.zero ∉ loads.map Prod.fst) {x : Reg × Nat} (hx : x ∈ loads) :
    (applyAll (fill base loads) s).reg x.1 = loadWord s.mem (s.reg base + .ofNat 64 x.2) := by
  induction loads generalizing s with
  | nil => cases hx
  | cons y loads ih =>
      rw [List.map_cons, List.nodup_cons] at hnodup
      rw [List.map_cons, List.mem_cons, not_or] at hbase hzero
      have hkept : (s.setReg y.1 (loadWord s.mem (s.reg base + .ofNat 64 y.2))).reg base =
          s.reg base := reg_setReg_ne s hbase.1
      rcases List.mem_cons.mp hx with rfl | hx
      · refine (reg_fill_other (s := (Instr.ld x.1 x.2 base).apply s) fun z hz he => ?_).trans ?_
        · exact hnodup.1 (List.mem_map.mpr ⟨z, hz, he⟩)
        · exact reg_setReg_self s _ (Ne.symm hzero.1)
      · refine (ih hnodup.2 hbase.2 hzero.2 (s := (Instr.ld y.1 y.2 base).apply s) hx).trans ?_
        change loadWord s.mem ((s.setReg y.1 _).reg base + _) = _
        rw [hkept]

end Cvirtos.Lib.Rv64
