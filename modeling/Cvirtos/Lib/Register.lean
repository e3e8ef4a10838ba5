import Mathlib.Algebra.Order.Ring.Nat

/-!
# Register fields and programs over one register

A memory-mapped register of `w` bits, the fields it is divided into, and the programs that read and
write it while the hardware changes it on its own.

* `Field`, `FieldValue` — a field, and new values for some of the bits of a register;
* `Field.read_val_self`, `Field.read_val_other` — what a field reads of the values given to fields;
* `FieldValue.modify` — the read-modify-write `(old & !mask) | value`;
* `getLsbD_modify` — **a bit of the mask is given its new value, every other bit is kept**;
* `Prog`, `Prog.run` — a program over the register, and its run over any `Hardware`;
* `run_bind` — the run of one program after another.
-/

set_option autoImplicit false

namespace Cvirtos.Lib

variable {w : Nat}

/-- A field: its mask before the shift, and where it starts. -/
structure Field (w : Nat) where
  mask : BitVec w
  shift : Nat
  deriving DecidableEq, Repr

/-- `OFFSET(offset) NUMBITS(numbits)`. -/
def Field.bits (offset numbits : Nat) : Field w := ⟨BitVec.ofNat w (2 ^ numbits - 1), offset⟩

/-- New values for the bits of `mask`; no other bit of `value` is set. -/
structure FieldValue (w : Nat) where
  mask : BitVec w
  value : BitVec w
  within : ∀ i, value.getLsbD i = true → mask.getLsbD i = true

namespace Field

/-- `Field::val`. -/
def val (f : Field w) (v : BitVec w) : FieldValue w where
  mask := f.mask <<< f.shift
  value := (v &&& f.mask) <<< f.shift
  within i h := by
    simp only [BitVec.getLsbD_shiftLeft, BitVec.getLsbD_and, Bool.and_eq_true] at h ⊢
    exact ⟨h.1, h.2.2⟩

/-- `is_set` of the field: any bit of it. -/
def isSet (f : Field w) (reg : BitVec w) : Bool := reg &&& f.mask <<< f.shift ≠ 0

/-- `read` of the field. -/
def read (f : Field w) (reg : BitVec w) : BitVec w := (reg &&& f.mask <<< f.shift) >>> f.shift

/-- A field of one bit. -/
theorem isSet_bits_one {i : Nat} (hi : i < w) (reg : BitVec w) :
    (bits i 1 : Field w).isSet reg = reg.getLsbD i := by
  have hmask : (bits i 1 : Field w).mask <<< (bits i 1 : Field w).shift = BitVec.twoPow w i := by
    rw [BitVec.twoPow_eq]
    rfl
  unfold isSet
  rw [hmask, BitVec.and_twoPow]
  cases hreg : reg.getLsbD i
  · simp
  · have hne : BitVec.twoPow w i ≠ 0 := by
      intro h0
      have hbit : (BitVec.twoPow w i).getLsbD i = true := by simp [hi]
      rw [h0] at hbit
      simp at hbit
    simpa using hne

theorem read_or (f : Field w) (a b : BitVec w) : f.read (a ||| b) = f.read a ||| f.read b := by
  unfold read
  rw [BitVec.and_or_distrib_right, BitVec.ushiftRight_or_distrib]

/-- **A field reads back the value it was given**, as far as it fits, if the field is within the
register. -/
theorem read_val_self {f : Field w} (hfit : (f.mask <<< f.shift) >>> f.shift = f.mask)
    (v : BitVec w) : f.read (f.val v).value = v &&& f.mask := by
  change (((v &&& f.mask) <<< f.shift) &&& f.mask <<< f.shift) >>> f.shift = _
  rw [← BitVec.shiftLeft_and_distrib, BitVec.and_assoc, BitVec.and_self]
  refine BitVec.eq_of_getLsbD_eq fun i hi => ?_
  rw [BitVec.getLsbD_ushiftRight, BitVec.getLsbD_shiftLeft, Nat.add_sub_cancel_left,
    BitVec.getLsbD_and]
  cases hmask : f.mask.getLsbD i with
  | false => simp only [Bool.and_false]
  | true =>
    -- the shift does not lose the bit
    rw [← hfit, BitVec.getLsbD_ushiftRight, BitVec.getLsbD_shiftLeft, Bool.and_eq_true,
      Bool.and_eq_true] at hmask
    simp only [hmask.1.1, hmask.1.2, Bool.and_true, Bool.true_and]

/-- A field does not read what another one is given. -/
theorem read_val_other {f g : Field w} (hdisj : f.mask <<< f.shift &&& g.mask <<< g.shift = 0#w)
    (v : BitVec w) : f.read (g.val v).value = 0#w := by
  refine BitVec.eq_of_getLsbD_eq fun i hi => ?_
  have hbit := congrArg (·.getLsbD (f.shift + i)) hdisj
  simp only [BitVec.getLsbD_and, BitVec.getLsbD_zero, Bool.and_eq_false_imp] at hbit
  unfold read
  rw [BitVec.getLsbD_ushiftRight, BitVec.getLsbD_and, BitVec.getLsbD_zero, Bool.and_eq_false_imp]
  intro hvalue
  rw [← Bool.not_eq_true]
  intro hmask
  have hother := (g.val v).within _ hvalue
  rw [show (g.val v).mask = g.mask <<< g.shift from rfl, hbit hmask] at hother
  cases hother

end Field

namespace FieldValue

/-- The sum of two field values. -/
def add (l r : FieldValue w) : FieldValue w where
  mask := l.mask ||| r.mask
  value := l.value ||| r.value
  within i h := by
    simp only [BitVec.getLsbD_or, Bool.or_eq_true] at h ⊢
    exact h.imp (l.within i) (r.within i)

instance : Add (FieldValue w) := ⟨add⟩

/-- What a read-modify-write makes of the value it reads. -/
def modify (fv : FieldValue w) (old : BitVec w) : BitVec w := (old &&& ~~~fv.mask) ||| fv.value

@[simp]
theorem mask_add (l r : FieldValue w) : (l + r).mask = l.mask ||| r.mask := rfl

@[simp]
theorem value_add (l r : FieldValue w) : (l + r).value = l.value ||| r.value := rfl

@[simp]
theorem mask_val (f : Field w) (v : BitVec w) : (f.val v).mask = f.mask <<< f.shift := rfl

@[simp]
theorem value_val (f : Field w) (v : BitVec w) :
    (f.val v).value = (v &&& f.mask) <<< f.shift := rfl

/-- **Bit by bit: the mask's bits are given their new values, the others are kept.** -/
theorem getLsbD_modify (fv : FieldValue w) (old : BitVec w) (i : Nat) :
    (fv.modify old).getLsbD i = if fv.mask.getLsbD i then fv.value.getLsbD i else old.getLsbD i := by
  have hw := fv.within i
  unfold modify
  by_cases hi : i < w
  · simp only [BitVec.getLsbD_or, BitVec.getLsbD_and, BitVec.getLsbD_not, hi, decide_true,
      Bool.true_and]
    cases hm : fv.mask.getLsbD i
    · have hv : fv.value.getLsbD i = false := by
        cases hv : fv.value.getLsbD i
        · rfl
        · rw [hw hv] at hm
          cases hm
      simp [hv]
    · simp
  · simp [BitVec.getLsbD_of_ge _ i (Nat.le_of_not_lt hi)]

/-- A bit outside the mask keeps its value. -/
theorem modify_kept (fv : FieldValue w) {i : Nat} (hi : fv.mask.getLsbD i = false)
    (old : BitVec w) : (fv.modify old).getLsbD i = old.getLsbD i := by
  rw [getLsbD_modify, hi, if_neg Bool.false_ne_true]

/-- A bit of the mask is given its new value. -/
theorem modify_given (fv : FieldValue w) {i : Nat} (hi : fv.mask.getLsbD i = true)
    (old : BitVec w) : (fv.modify old).getLsbD i = fv.value.getLsbD i := by
  rw [getLsbD_modify, hi, if_pos rfl]

end FieldValue

/-! ## Programs -/

/-- A program over the register: what it does next depends on what it reads. -/
inductive Prog (w : Nat) (α : Type) where
  | ret (a : α)
  | read (next : BitVec w → Prog w α)
  | write (v : BitVec w) (next : Prog w α)

/-- The hardware behind a register that answers a write with `effect`, with states `σ`. -/
structure Hardware (effect : BitVec w → BitVec w → BitVec w) (σ : Type) where
  value : σ → BitVec w
  /-- What the hardware does on its own before the next access. -/
  tick : σ → σ
  /-- A write. -/
  store : σ → BitVec w → σ
  value_store : ∀ s v, value (store s v) = effect (value s) v

/-- A write of a run: the value written, and the register before and after it. -/
structure Write (w : Nat) where
  written : BitVec w
  before : BitVec w
  after : BitVec w
  deriving DecidableEq, Repr

/-- What a run leaves. -/
structure RunResult (w : Nat) (σ α : Type) where
  answer : α
  state : σ
  writes : List (Write w)

namespace Prog

variable {σ α β : Type} {effect : BitVec w → BitVec w → BitVec w}

def bind : Prog w α → (α → Prog w β) → Prog w β
  | .ret a, f => f a
  | .read next, f => .read fun v => (next v).bind f
  | .write v next, f => .write v (next.bind f)

instance : Monad (Prog w) where
  pure := .ret
  bind := bind

/-- One read. -/
def get : Prog w (BitVec w) := .read .ret

/-- One write. -/
def set (v : BitVec w) : Prog w Unit := .write v (.ret ())

/-- `modify`: a read, and a write of what the field values make of it. -/
def modify (fv : FieldValue w) : Prog w Unit := do
  let old ← get
  set (fv.modify old)

/-- `is_set`: a read. -/
def isSet (f : Field w) : Prog w Bool := do
  let reg ← get
  return f.isSet reg

/-- The run of a program. -/
def run (hw : Hardware effect σ) : Prog w α → σ → RunResult w σ α
  | .ret a, s => ⟨a, s, []⟩
  | .read next, s => (next (hw.value (hw.tick s))).run hw (hw.tick s)
  | .write v next, s =>
    let s' := hw.store (hw.tick s) v
    let r := next.run hw s'
    ⟨r.answer, r.state, ⟨v, hw.value (hw.tick s), hw.value s'⟩ :: r.writes⟩

section

variable (hw : Hardware effect σ) (s : σ)

@[simp]
theorem run_pure (a : α) : run hw (pure a) s = ⟨a, s, []⟩ := rfl

@[simp]
theorem run_get : run hw get s = ⟨hw.value (hw.tick s), hw.tick s, []⟩ := rfl

@[simp]
theorem run_set (v : BitVec w) :
    run hw (set v) s =
      let s' := hw.store (hw.tick s) v
      ⟨(), s', [⟨v, hw.value (hw.tick s), hw.value s'⟩]⟩ := rfl

/-- **The run of one program after another.** -/
@[simp]
theorem run_bind (p : Prog w α) (f : α → Prog w β) :
    run hw (p >>= f) s =
      let r := run hw p s
      let r' := run hw (f r.answer) r.state
      ⟨r'.answer, r'.state, r.writes ++ r'.writes⟩ := by
  change run hw (p.bind f) s = _
  induction p generalizing s with
  | ret a => rfl
  | read next ih => exact ih _ _
  | write v next ih =>
      simp only [bind, run]
      rw [ih]
      rfl

/-- Every write of a run is answered by the register's `effect`. -/
theorem after_eq (p : Prog w α) : ∀ wr ∈ (run hw p s).writes, wr.after = effect wr.before wr.written := by
  induction p generalizing s with
  | ret a => exact fun wr hwr => nomatch hwr
  | read next ih => exact ih _ _
  | write v next ih =>
      intro wr hwr
      rcases List.mem_cons.mp hwr with rfl | hwr
      · exact hw.value_store (hw.tick s) v
      · exact ih _ wr hwr

/-- **The run of a modify**: the hardware moves once before the read and once before the write. -/
@[simp]
theorem run_modify (fv : FieldValue w) :
    run hw (modify fv) s =
      let v := fv.modify (hw.value (hw.tick s))
      let s' := hw.store (hw.tick (hw.tick s)) v
      ⟨(), s', [⟨v, hw.value (hw.tick (hw.tick s)), hw.value s'⟩]⟩ := rfl

@[simp]
theorem run_isSet (f : Field w) :
    run hw (isSet f) s = ⟨f.isSet (hw.value (hw.tick s)), hw.tick s, []⟩ := rfl

end

end Prog

end Cvirtos.Lib
