import Cvirtos.Lib.Index

/-!
# Little-endian numbers

* `littleEndian_concat` — one more byte at the end;
* `littleEndian_lt` — what a number of bytes can hold;
* `littleEndian_leBytes` — a number through its bytes;
* `field_overwrite` — a number put into a buffer.
-/

set_option autoImplicit false

namespace Cvirtos.Lib

/-- The number that the bytes stand for, the lowest byte first. -/
def littleEndian (bs : List UInt8) : Nat := bs.foldr (fun b n => b.toNat + 256 * n) 0

@[simp]
theorem littleEndian_nil : littleEndian [] = 0 := rfl

@[simp]
theorem littleEndian_cons (b : UInt8) (bs : List UInt8) :
    littleEndian (b :: bs) = b.toNat + 256 * littleEndian bs := rfl

theorem littleEndian_concat (bs : List UInt8) (b : UInt8) :
    littleEndian (bs ++ [b]) = littleEndian bs + 256 ^ bs.length * b.toNat := by
  induction bs with
  | nil => simp
  | cons c bs ih =>
      simp only [List.cons_append, littleEndian_cons, ih, List.length_cons, Nat.pow_succ]
      rw [Nat.mul_add, Nat.mul_comm _ 256, Nat.mul_assoc, Nat.add_assoc]

theorem littleEndian_lt (bs : List UInt8) : littleEndian bs < 256 ^ bs.length := by
  induction bs with
  | nil => simp
  | cons b bs ih =>
      have hb := b.toNat_lt
      simp only [littleEndian_cons, List.length_cons, Nat.pow_succ]
      omega

/-- The low `count` bytes of `n`, the lowest first. -/
def leBytes : (count n : Nat) → List UInt8
  | 0, _ => []
  | count + 1, n => .ofNat n :: leBytes count (n / 256)

@[simp]
theorem length_leBytes (count n : Nat) : (leBytes count n).length = count := by
  induction count generalizing n with
  | zero => rfl
  | succ count ih => simp [leBytes, ih]

theorem littleEndian_leBytes {count n : Nat} (h : n < 256 ^ count) :
    littleEndian (leBytes count n) = n := by
  induction count generalizing n with
  | zero => simp at h; simp [leBytes, h]
  | succ count ih =>
      have hlow : (UInt8.ofNat n).toNat = n % 256 := by simp
      have hhigh : n / 256 < 256 ^ count := by
        rw [Nat.pow_succ] at h
        exact Nat.div_lt_of_lt_mul (by rw [Nat.mul_comm]; exact h)
      simp only [leBytes, littleEndian_cons, hlow, ih hhigh]
      omega

section Buffers

variable {size : Nat} {buf : Vector UInt8 size} {bs : List UInt8} {off : Nat}

/-- `buf` with `bs` in it, from `off` on. -/
def overwrite (buf : Vector UInt8 size) (off : Nat) (bs : List UInt8) : Vector UInt8 size :=
  .ofFn fun i => if off ≤ i.val then (bs[i.val - off]?).getD buf[i] else buf[i]

theorem overwrite_outside {i : Nat} (hi : i < size) (h : i < off ∨ off + bs.length ≤ i) :
    (overwrite buf off bs)[i] = buf[i] := by
  simp only [overwrite, Vector.getElem_ofFn]
  split
  · rw [List.getElem?_eq_none (by omega)]
    rfl
  · rfl

theorem overwrite_inside {k : Nat} (hk : k < bs.length) (h : off + k < size) :
    (overwrite buf off bs)[off + k] = bs[k] := by
  simp [overwrite, hk]

/-- The number in the `count` bytes of `buf` from `off` on. -/
def field (buf : Vector UInt8 size) (off count : Nat) : Nat :=
  littleEndian ((buf.toList.drop off).take count)

theorem field_lt (buf : Vector UInt8 size) (off count : Nat) :
    field buf off count < 256 ^ count := by
  have h := littleEndian_lt ((buf.toList.drop off).take count)
  refine Nat.lt_of_lt_of_le h (Nat.pow_le_pow_right (by omega) ?_)
  simp

theorem field_overwrite {count n : Nat} (hoff : off + count ≤ size) (hn : n < 256 ^ count) :
    field (overwrite buf off (leBytes count n)) off count = n := by
  have hbytes : ((overwrite buf off (leBytes count n)).toList.drop off).take count =
      leBytes count n := by
    apply List.ext_getElem
    · simp
      omega
    · intro k hk hk'
      rw [length_leBytes] at hk'
      simp only [List.getElem_take, List.getElem_drop, Vector.getElem_toList]
      exact overwrite_inside _ (by omega)
  rw [field, hbytes, littleEndian_leBytes hn]

end Buffers

end Cvirtos.Lib
