import Mathlib.Data.List.Basic

/-!
# Length-prefixed records

A stream of bytes in which each record begins with its own length, read from the front for as long
as what is left begins with a whole record of more than `least` bytes.

* `records_append` — a record in front of a stream is its first record;
* `records_flatten_append` — so are any number of records.
-/

set_option autoImplicit false

namespace Cvirtos.Lib

variable {least : Nat}

/-- The records of a stream. -/
def records (least : Nat) (xs : List UInt8) : List (List UInt8) :=
  match xs with
  | [] => []
  | b :: bs =>
    if b.toNat ≤ least ∨ bs.length + 1 < b.toNat then []
    else (b :: bs).take b.toNat :: records least ((b :: bs).drop b.toNat)
termination_by xs.length
decreasing_by
  simp only [List.length_drop, List.length_cons]
  omega

/-- A record: its first byte is its length. -/
structure IsRecord (least : Nat) (x : List UInt8) : Prop where
  length : (x.headD 0).toNat = x.length
  more : least < x.length

/-- **A record in front of a stream is its first record.** -/
theorem records_append {x : List UInt8} (hx : IsRecord least x) (rest : List UInt8) :
    records least (x ++ rest) = x :: records least rest := by
  cases x with
  | nil => exact absurd hx.more (Nat.not_lt_zero _)
  | cons b bs =>
      have hlen : b.toNat = bs.length + 1 := hx.length
      have hmore : least < bs.length + 1 := hx.more
      have hfit : ¬ (b.toNat ≤ least ∨ (bs ++ rest).length + 1 < b.toNat) := by
        rw [List.length_append]
        omega
      have htake : (b :: (bs ++ rest)).take b.toNat = b :: bs := by
        rw [hlen, List.take_succ_cons, List.take_left]
      have hdrop : (b :: (bs ++ rest)).drop b.toNat = rest := by
        rw [hlen, List.drop_succ_cons, List.drop_left]
      rw [List.cons_append, records, if_neg hfit, htake, hdrop]

/-- **Records in front of a stream are its first records.** -/
theorem records_flatten_append {xs : List (List UInt8)} (hxs : ∀ x ∈ xs, IsRecord least x)
    (rest : List UInt8) : records least (xs.flatten ++ rest) = xs ++ records least rest := by
  induction xs with
  | nil => rfl
  | cons x xs ih =>
      obtain ⟨hx, hxs⟩ := List.forall_mem_cons.mp hxs
      rw [List.flatten_cons, List.append_assoc, records_append hx, ih hxs, List.cons_append]

theorem records_cons_short {b : UInt8} {bs : List UInt8}
    (h : b.toNat ≤ least ∨ bs.length + 1 < b.toNat) : records least (b :: bs) = [] := by
  rw [records, if_pos h]

end Cvirtos.Lib
