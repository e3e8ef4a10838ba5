import Mathlib.Algebra.Order.Ring.Nat
import Mathlib.Data.List.Basic

/-!
# Byte-addressed memory

A memory is a total map from offsets to cells.  `store` overwrites a contiguous run of cells
with a list, `load` reads a contiguous run back.

* `store_cons` — a store, one cell at a time.
* `load_store_self` — a run just written reads back as written.
* `load_store_disjoint` — a store outside a run leaves the run's contents alone.
* `load_store_append` — appending to a run by a store extends what the run reads as.
* `AgreeOutside` — two memories that differ on one interval only; it composes
  (`AgreeOutside.trans`) and is what a store into the interval leaves (`agreeOutside_store`).
-/

set_option autoImplicit false

namespace Cvirtos.Lib

variable {α : Type}

/-- A memory of `α` cells. -/
abbrev Memory (α : Type) := Nat → α

/-- Overwrite the cells from `off` on with `xs`. -/
def store (m : Memory α) (off : Nat) (xs : List α) : Memory α := fun a =>
  if h : off ≤ a ∧ a < off + xs.length then xs[a - off] else m a

/-- Read `len` cells from `off` on. -/
def load (m : Memory α) (off : Nat) : Nat → List α
  | 0 => []
  | len + 1 => m off :: load m (off + 1) len

@[simp] theorem load_length (m : Memory α) (off len : Nat) : (load m off len).length = len := by
  induction len generalizing off with
  | zero => rfl
  | succ len ih => simp [load, ih]

theorem load_getElem? (m : Memory α) (off len i : Nat) (hi : i < len) :
    (load m off len)[i]? = some (m (off + i)) := by
  induction len generalizing off i with
  | zero => omega
  | succ len ih =>
    cases i with
    | zero => rfl
    | succ i =>
      rw [load, List.getElem?_cons_succ, ih (off + 1) i (by omega)]
      congr 2
      omega

/-- Two memories that agree on a run read the same list there. -/
theorem load_congr {m m' : Memory α} {off len : Nat}
    (h : ∀ a, off ≤ a → a < off + len → m' a = m a) : load m' off len = load m off len := by
  induction len generalizing off with
  | zero => rfl
  | succ len ih =>
    rw [load, load, h off (Nat.le_refl _) (by omega)]
    rw [ih fun a h1 h2 => h a (by omega) (by omega)]

theorem load_append (m : Memory α) (off n k : Nat) :
    load m off (n + k) = load m off n ++ load m (off + n) k := by
  induction n generalizing off with
  | zero => simp [load]
  | succ n ih =>
    rw [Nat.add_right_comm, load, load, ih, List.cons_append]
    congr 3
    omega

theorem store_outside (m : Memory α) {off a : Nat} {xs : List α}
    (h : a < off ∨ off + xs.length ≤ a) : store m off xs a = m a := by
  unfold store
  rw [dif_neg (by omega)]

@[simp] theorem store_nil (m : Memory α) (off : Nat) : store m off [] = m := by
  funext a
  exact dif_neg fun h => Nat.not_lt_of_le h.1 h.2

/-- A store is a store of its first cell, then of the rest. -/
theorem store_cons (m : Memory α) (off : Nat) (x : α) (xs : List α) :
    store m off (x :: xs) = store (fun a => if a = off then x else m a) (off + 1) xs := by
  funext a
  unfold store
  by_cases hin : off + 1 ≤ a ∧ a < off + 1 + xs.length
  · have hidx : a - off = a - (off + 1) + 1 := by omega
    rw [dif_pos hin, dif_pos (by rw [List.length_cons]; omega)]
    simp only [hidx, List.getElem_cons_succ]
  · rw [dif_neg hin]
    by_cases heq : a = off
    · subst heq
      rw [dif_pos (by rw [List.length_cons]; omega)]
      simp
    · rw [dif_neg (by rw [List.length_cons]; omega)]
      exact (if_neg heq).symm

/-- A run just written reads back as written. -/
theorem load_store_self (m : Memory α) (off : Nat) (xs : List α) :
    load (store m off xs) off xs.length = xs := by
  apply List.ext_getElem?
  intro i
  by_cases hi : i < xs.length
  · rw [load_getElem? _ _ _ _ hi, List.getElem?_eq_getElem hi]
    unfold store
    rw [dif_pos (by omega)]
    simp
  · rw [List.getElem?_eq_none (by simp; omega), List.getElem?_eq_none (by omega)]

/-- A store outside a run leaves the run's contents alone. -/
theorem load_store_disjoint (m : Memory α) {off off' len : Nat} {xs : List α}
    (h : off + len ≤ off' ∨ off' + xs.length ≤ off) :
    load (store m off' xs) off len = load m off len :=
  load_congr fun a _ _ => store_outside m (by omega)

/-- **Appending by a store extends what the run reads as.** -/
theorem load_store_append (m : Memory α) (off n : Nat) (xs : List α) :
    load (store m (off + n) xs) off (n + xs.length) = load m off n ++ xs := by
  rw [load_append, load_store_self, load_store_disjoint m (Or.inl (Nat.le_refl _))]

/-- `m'` differs from `m` inside `[lo, hi)` at most. -/
def AgreeOutside (lo hi : Nat) (m m' : Memory α) : Prop :=
  ∀ a, a < lo ∨ hi ≤ a → m' a = m a

theorem AgreeOutside.refl (lo hi : Nat) (m : Memory α) : AgreeOutside lo hi m m :=
  fun _ _ => rfl

theorem AgreeOutside.trans {lo hi : Nat} {m m' m'' : Memory α} (h : AgreeOutside lo hi m m')
    (h' : AgreeOutside lo hi m' m'') : AgreeOutside lo hi m m'' :=
  fun a ha => (h' a ha).trans (h a ha)

theorem agreeOutside_store (m : Memory α) {lo hi off : Nat} {xs : List α} (h1 : lo ≤ off)
    (h2 : off + xs.length ≤ hi) : AgreeOutside lo hi m (store m off xs) :=
  fun _ ha => store_outside m (by omega)

theorem AgreeOutside.load {lo hi off len : Nat} {m m' : Memory α} (h : AgreeOutside lo hi m m')
    (hd : off + len ≤ lo ∨ hi ≤ off) : load m' off len = load m off len :=
  load_congr fun a _ _ => h a (by omega)

end Cvirtos.Lib
