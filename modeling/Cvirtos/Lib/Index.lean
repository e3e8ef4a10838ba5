import Mathlib.Algebra.Order.Ring.Nat

/-!
# Indices in bounds by their type

An index of type `Fin n` is inside a vector of length `n`, so reading a vector there carries no
proof; a literal is such an index once its length is known not to be zero.
-/

set_option autoImplicit false

namespace Cvirtos.Lib

variable {α : Type} {n : Nat}

instance vectorFin : GetElem (Vector α n) (Fin n) α fun _ _ => True where
  getElem v i _ := v.get i

@[simp] theorem getElem_fin (v : Vector α n) (i : Fin n) : v[i] = v[i.1] := rfl

@[simp] theorem get_eq_getElem (v : Vector α n) (i : Fin n) : v.get i = v[i.1] := rfl

instance three_neZero : NeZero 3 := ⟨by decide⟩

instance four_neZero : NeZero 4 := ⟨by decide⟩

instance sixtyFour_neZero : NeZero 64 := ⟨by decide⟩

end Cvirtos.Lib
