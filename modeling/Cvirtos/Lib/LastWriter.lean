import Mathlib.Data.List.Induction

/-!
# The last writer of a fold

A fold over a list whose selected elements overwrite what is of interest and whose other elements
leave it alone: afterwards it is what the last selected element wrote.
-/

set_option autoImplicit false

namespace Cvirtos.Lib

variable {σ β : Type}

/-- The last element of `l` that `sel` selects. -/
def lastSelected (sel : β → Bool) (l : List β) : Option β := (l.filter sel).getLast?

theorem lastSelected_concat (sel : β → Bool) (l : List β) (b : β) :
    lastSelected sel (l ++ [b]) = if sel b then some b else lastSelected sel l := by
  unfold lastSelected
  rw [List.filter_append]
  cases h : sel b <;> simp [h]

theorem lastSelected_some {sel : β → Bool} {l : List β} {b : β} (h : lastSelected sel l = some b) :
    b ∈ l ∧ sel b = true := List.mem_filter.mp (List.mem_of_getLast? h)

/-- A last selected element that a stricter selection selects is the last for that too. -/
theorem lastSelected_and {sel sel' : β → Bool} {l : List β} {b : β}
    (h : lastSelected sel l = some b) (hb : sel' b = true) :
    lastSelected (fun b => sel b && sel' b) l = some b := by
  induction l using List.reverseRecOn with
  | nil => cases h
  | append_singleton l a ih =>
      rw [lastSelected_concat] at h ⊢
      cases ha : sel a with
      | true =>
        rw [ha] at h
        cases h
        rw [hb]
        rfl
      | false =>
        rw [ha] at h
        exact ih h

/-- **The last writer wins.** -/
theorem foldl_lastSelected {f : σ → β → σ} {sel : β → Bool} {R : Option β → σ → Prop}
    (hset : ∀ s b, sel b = true → R (some b) (f s b))
    (hkeep : ∀ s b o, sel b = false → R o s → R o (f s b)) {s : σ} (h : R none s) (l : List β) :
    R (lastSelected sel l) (l.foldl f s) := by
  induction l using List.reverseRecOn with
  | nil => exact h
  | append_singleton l b ih =>
      rw [lastSelected_concat, List.foldl_append]
      cases hb : sel b with
      | true => exact hset _ b hb
      | false => exact hkeep _ b _ hb ih

end Cvirtos.Lib
