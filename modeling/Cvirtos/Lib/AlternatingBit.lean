import Mathlib.Data.List.Basic

/-!
# The alternating bit

A receiver that takes a frame when its bit is the expected one, and otherwise takes it for a
repetition of the last.

* `run_arrivals` — **a sender that repeats every frame until it has arrived, and alternates its bit,
  delivers its items once each and in order**.
-/

set_option autoImplicit false

namespace Cvirtos.Lib

variable {α : Type}

/-- The bit a receiver expects, and what it has taken. -/
structure Receiver (α : Type) where
  expected : Bool
  taken : List α
  deriving DecidableEq, Repr

namespace Receiver

/-- A frame arrives. -/
def receive (r : Receiver α) (f : Bool × α) : Receiver α :=
  if f.1 = r.expected then ⟨!r.expected, r.taken ++ [f.2]⟩ else r

def run (r : Receiver α) (fs : List (Bool × α)) : Receiver α := fs.foldl receive r

/-- A frame that has been taken is a repetition from then on. -/
theorem run_replicate (taken : List α) (bit : Bool) (x : α) (n : Nat) :
    run ⟨!bit, taken⟩ (List.replicate n (bit, x)) = ⟨!bit, taken⟩ := by
  induction n with
  | zero => rfl
  | succ n ih =>
      have hrepeat : receive ⟨!bit, taken⟩ (bit, x) = ⟨!bit, taken⟩ :=
        if_neg (show ¬ bit = !bit by cases bit <;> decide)
      rw [List.replicate_succ, run, List.foldl_cons, hrepeat]
      exact ih

end Receiver

/-- What arrives of a list of items, each sent again as often as its number says. -/
def arrivals : Bool → List (α × Nat) → List (Bool × α)
  | _, [] => []
  | bit, (x, again) :: xs => List.replicate (again + 1) (bit, x) ++ arrivals (!bit) xs

theorem arrivals_cons (bit : Bool) (x : α) (again : Nat) (xs : List (α × Nat)) :
    arrivals bit ((x, again) :: xs) =
      List.replicate (again + 1) (bit, x) ++ arrivals (!bit) xs := rfl

/-- **Every item is taken once, in order.** -/
theorem run_arrivals (bit : Bool) (taken : List α) (xs : List (α × Nat)) :
    (Receiver.run ⟨bit, taken⟩ (arrivals bit xs)).taken = taken ++ xs.map Prod.fst := by
  induction xs generalizing bit taken with
  | nil => exact (List.append_nil taken).symm
  | cons x xs ih =>
      obtain ⟨x, again⟩ := x
      have hfirst : Receiver.receive ⟨bit, taken⟩ (bit, x) = ⟨!bit, taken ++ [x]⟩ := if_pos rfl
      rw [arrivals_cons, Receiver.run, List.foldl_append, List.replicate_succ, List.foldl_cons, hfirst]
      change (Receiver.run (Receiver.run _ _) _).taken = _
      rw [Receiver.run_replicate, ih, List.append_assoc]
      rfl

end Cvirtos.Lib
