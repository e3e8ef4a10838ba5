import Cvirtos.Lib.Memory

/-!
# A write-back cache

A cache of lines of `n` cells in front of a memory that others access directly.  The CPU reads and
writes its own view, and a line is dirty while the memory lacks what the CPU wrote there.  A line
that is not dirty may still be out of date: nothing tells the cache what others write.

* `Holds` — a cell the CPU has written: what the memory has, or will have once the line is written
  back;
* `Holds.evict`, `Holds.writeBack`, `Holds.drop`, `Holds.receive` — what it outlives.
-/

set_option autoImplicit false

namespace Cvirtos.Lib

variable {α : Type}

structure WriteBack (α : Type) where
  /-- What others read and write. -/
  mem : Memory α
  /-- What the CPU reads and writes. -/
  view : Memory α
  dirty : Nat → Bool

namespace WriteBack

variable (n : Nat) (c : WriteBack α)

/-- The CPU writes a cell. -/
def write (a : Nat) (x : α) : WriteBack α where
  mem := c.mem
  view b := if b = a then x else c.view b
  dirty line := if line = a / n then true else c.dirty line

/-- A line is written back, if it is dirty. -/
def writeBack (line : Nat) : WriteBack α where
  mem a := if a / n = line ∧ c.dirty line then c.view a else c.mem a
  view := c.view
  dirty l := if l = line then false else c.dirty l

/-- A line is thrown away, and read from memory when it is needed again. -/
def drop (line : Nat) : WriteBack α where
  mem := c.mem
  view a := if a / n = line then c.mem a else c.view a
  dirty l := if l = line then false else c.dirty l

/-- A line makes room for another. -/
def evict (line : Nat) : WriteBack α := (c.writeBack n line).drop n line

/-- Someone else writes a cell of the memory. -/
def receive (a : Nat) (x : α) : WriteBack α where
  mem b := if b = a then x else c.mem b
  view := c.view
  dirty := c.dirty

/-- The CPU has `x` in the cell `a`, and so has the memory, at the latest once the line is written
back. -/
structure Holds (a : Nat) (x : α) : Prop where
  view : c.view a = x
  mem : c.dirty (a / n) = false → c.mem a = x

variable {n c} {a : Nat} {x : α}

theorem dirty_write {line b : Nat} {y : α} (h : (c.write n b y).dirty line = true) :
    line = b / n ∨ c.dirty line = true := by
  change (if line = b / n then true else c.dirty line) = true at h
  split at h
  · rename_i heq
    exact Or.inl heq
  · exact Or.inr h

theorem dirty_writeBack {line l : Nat} (h : (c.writeBack n line).dirty l = true) :
    l ≠ line ∧ c.dirty l = true := by
  change (if l = line then false else c.dirty l) = true at h
  split at h
  · cases h
  · rename_i hne
    exact ⟨hne, h⟩

theorem dirty_drop {line l : Nat} (h : (c.drop n line).dirty l = true) :
    l ≠ line ∧ c.dirty l = true := by
  change (if l = line then false else c.dirty l) = true at h
  split at h
  · cases h
  · rename_i hne
    exact ⟨hne, h⟩

theorem dirty_evict {line l : Nat} (h : (c.evict n line).dirty l = true) : c.dirty l = true :=
  (dirty_writeBack (dirty_drop h).2).2

/-- Writing back changes the memory in dirty lines only. -/
theorem mem_writeBack {line : Nat} (h : c.dirty (a / n) = false) :
    (c.writeBack n line).mem a = c.mem a := by
  change (if a / n = line ∧ c.dirty line then c.view a else c.mem a) = c.mem a
  refine if_neg fun hline => ?_
  rw [← hline.1, h] at hline
  exact Bool.false_ne_true hline.2

theorem mem_evict {line : Nat} (h : c.dirty (a / n) = false) :
    (c.evict n line).mem a = c.mem a := mem_writeBack h

theorem mem_receive {b : Nat} {y : α} (h : a ≠ b) : (c.receive b y).mem a = c.mem a := if_neg h

theorem holds_write : (c.write n a x).Holds n a x := by
  refine ⟨if_pos rfl, fun hclean => ?_⟩
  change (if a / n = a / n then true else c.dirty (a / n)) = false at hclean
  rw [if_pos rfl] at hclean
  cases hclean

theorem Holds.write {b : Nat} {y : α} (h : c.Holds n a x) (hne : a ≠ b) :
    (c.write n b y).Holds n a x := by
  refine ⟨(if_neg hne).trans h.view, fun hclean => h.mem ?_⟩
  change (if a / n = b / n then true else c.dirty (a / n)) = false at hclean
  split at hclean
  · cases hclean
  · exact hclean

theorem Holds.writeBack {line : Nat} (h : c.Holds n a x) : (c.writeBack n line).Holds n a x := by
  refine ⟨h.view, fun hclean => ?_⟩
  change (if a / n = line then false else c.dirty (a / n)) = false at hclean
  change (if a / n = line ∧ c.dirty line then c.view a else c.mem a) = x
  split
  · exact h.view
  · rename_i hkept
    split at hclean
    · rename_i hline
      rw [← hline] at hkept
      exact h.mem (Bool.eq_false_iff.mpr fun hdirty => hkept ⟨rfl, hdirty⟩)
    · exact h.mem hclean

/-- A line that is thrown away while it is not dirty loses nothing. -/
theorem Holds.drop {line : Nat} (hclean : c.dirty line = false) (h : c.Holds n a x) :
    (c.drop n line).Holds n a x := by
  have hmem : a / n = line ∨ c.dirty (a / n) = false → c.mem a = x := by
    rintro (hline | hclean)
    · exact h.mem (by rw [hline]; exact hclean)
    · exact h.mem hclean
  constructor
  · change (if a / n = line then c.mem a else c.view a) = x
    split
    · rename_i hline
      exact hmem (Or.inl hline)
    · exact h.view
  · intro hdirty
    change (if a / n = line then false else c.dirty (a / n)) = false at hdirty
    split at hdirty
    · rename_i hline
      exact hmem (Or.inl hline)
    · exact hmem (Or.inr hdirty)

/-- **An eviction loses nothing.** -/
theorem Holds.evict {line : Nat} (h : c.Holds n a x) : (c.evict n line).Holds n a x :=
  Holds.drop (if_pos rfl) h.writeBack

theorem Holds.receive {b : Nat} {y : α} (h : c.Holds n a x) (hne : a ≠ b) :
    (c.receive b y).Holds n a x :=
  ⟨h.view, fun hclean => (if_neg hne).trans (h.mem hclean)⟩

end WriteBack

end Cvirtos.Lib
