import Mathlib.Data.List.Induction
import Mathlib.Order.Lattice

/-!
# The first maximum of a list

A pass that keeps the best element so far and replaces it only by a strictly better one.

* `firstMax_eq_some` — **what it keeps is the first element of the largest rank**;
* `firstMax_eq_none` — it keeps nothing only of an empty list;
* `FirstMax.mem_iff` — when the first maximum is one of a class of equal rank.
-/

set_option autoImplicit false

namespace Cvirtos.Lib

variable {α β : Type} [LinearOrder β]

/-- One turn of the pass. -/
def better (rank : α → β) (best : Option α) (x : α) : Option α :=
  match best with
  | none => some x
  | some b => if rank b < rank x then some x else some b

def firstMax (rank : α → β) (xs : List α) : Option α := xs.foldl (better rank) none

/-- `m` comes first among the elements of the largest rank. -/
def FirstMax (rank : α → β) (xs : List α) (m : α) : Prop :=
  ∃ before after, xs = before ++ m :: after ∧ (∀ x ∈ before, rank x < rank m) ∧
    ∀ x ∈ after, rank x ≤ rank m

variable {rank : α → β}

@[simp] theorem firstMax_nil : firstMax rank [] = none := rfl

theorem firstMax_concat (xs : List α) (x : α) :
    firstMax rank (xs ++ [x]) = better rank (firstMax rank xs) x := by
  simp [firstMax]

theorem better_some (b x : α) :
    better rank (some b) x = if rank b < rank x then some x else some b := rfl

theorem FirstMax.mem {xs : List α} {m : α} (h : FirstMax rank xs m) : m ∈ xs := by
  obtain ⟨before, after, rfl, -, -⟩ := h
  simp

theorem FirstMax.le {xs : List α} {m : α} (h : FirstMax rank xs m) : ∀ x ∈ xs, rank x ≤ rank m := by
  obtain ⟨before, after, rfl, hbefore, hafter⟩ := h
  intro x hx
  rcases List.mem_append.mp hx with hx | hx
  · exact le_of_lt (hbefore x hx)
  · rcases List.mem_cons.mp hx with rfl | hx
    · exact le_refl _
    · exact hafter x hx

theorem FirstMax.unique {xs : List α} {m m' : α} (h : FirstMax rank xs m)
    (h' : FirstMax rank xs m') : m = m' := by
  obtain ⟨before, after, rfl, hbefore, hafter⟩ := h
  obtain ⟨before', after', hsplit, hbefore', hafter'⟩ := h'
  rcases List.append_eq_append_iff.mp hsplit with ⟨gap, rfl, hgap⟩ | ⟨gap, rfl, hgap⟩
  · cases gap with
    | nil => exact (List.cons.inj hgap).1
    | cons c gap =>
      obtain ⟨rfl, rfl⟩ := List.cons.inj hgap
      exact absurd (hbefore' m (by simp)) (not_lt_of_ge (hafter m' (by simp)))
  · cases gap with
    | nil => exact (List.cons.inj hgap).1.symm
    | cons c gap =>
      obtain ⟨rfl, rfl⟩ := List.cons.inj hgap
      exact absurd (hbefore m' (by simp)) (not_lt_of_ge (hafter' m (by simp)))

/-- **The first maximum is of a class of equal rank** exactly when the first element of the class
outranks what stands before it and is outranked by nothing behind it. -/
theorem FirstMax.mem_iff {xs : List α} {m : α} (h : FirstMax rank xs m) {D : α → Prop}
    (hsame : ∀ x ∈ xs, ∀ y ∈ xs, D x → D y → rank x = rank y) :
    D m ↔ ∃ before d after, xs = before ++ d :: after ∧ D d ∧
      (∀ x ∈ before, ¬ D x ∧ rank x < rank d) ∧ ∀ x ∈ after, ¬ D x → rank x ≤ rank d := by
  constructor
  · intro hm
    have hmem := h.mem
    obtain ⟨before, after, rfl, hbefore, hafter⟩ := h
    refine ⟨before, m, after, rfl, hm, fun x hx => ⟨fun hD => ?_, hbefore x hx⟩,
      fun x hx _ => hafter x hx⟩
    have heq := hsame x (List.mem_append_left _ hx) m hmem hD hm
    exact absurd (hbefore x hx) (by rw [heq]; exact lt_irrefl _)
  · rintro ⟨before, d, after, rfl, hd, hbefore, hafter⟩
    have hfirst : FirstMax rank (before ++ d :: after) d := by
      refine ⟨before, after, rfl, fun x hx => (hbefore x hx).2, fun x hx => ?_⟩
      by_cases hD : D x
      · exact le_of_eq (hsame x (by simp [hx]) d (by simp) hD hd)
      · exact hafter x hx hD
    rw [h.unique hfirst]
    exact hd

theorem firstMax_eq_none {xs : List α} : firstMax rank xs = none ↔ xs = [] := by
  constructor
  · intro h
    rcases List.eq_nil_or_concat xs with rfl | ⟨xs, x, rfl⟩
    · rfl
    · rw [List.concat_eq_append, firstMax_concat] at h
      cases hb : firstMax rank xs with
      | none => rw [hb] at h; cases h
      | some b =>
        rw [hb, better_some] at h
        split at h <;> cases h
  · rintro rfl
    rfl

/-- What the pass keeps is the first maximum. -/
theorem FirstMax.of_kept {xs : List α} {m : α} (h : firstMax rank xs = some m) :
    FirstMax rank xs m := by
  induction xs using List.reverseRecOn generalizing m with
  | nil => cases h
  | append_singleton xs x ih =>
      rw [firstMax_concat] at h
      cases hb : firstMax rank xs with
      | none =>
        rw [hb] at h
        cases h
        rw [firstMax_eq_none.mp hb]
        exact ⟨[], [], rfl, by simp, by simp⟩
      | some b =>
        have hfirst := ih hb
        rw [hb, better_some] at h
        split at h
        · rename_i hlt
          cases h
          exact ⟨xs, [], rfl, fun y hy => lt_of_le_of_lt (hfirst.le y hy) hlt, by simp⟩
        · rename_i hge
          cases h
          obtain ⟨before, after, rfl, hbefore, hafter⟩ := hfirst
          refine ⟨before, after ++ [x], by simp, hbefore, fun y hy => ?_⟩
          rcases List.mem_append.mp hy with hy | hy
          · exact hafter y hy
          · rw [List.mem_singleton.mp hy]
            exact le_of_not_gt hge

/-- **The pass keeps the first maximum.** -/
theorem firstMax_eq_some {xs : List α} {m : α} :
    firstMax rank xs = some m ↔ FirstMax rank xs m := by
  constructor
  · exact FirstMax.of_kept
  · intro hm
    cases hkept : firstMax rank xs with
    | none =>
      rw [firstMax_eq_none.mp hkept] at hm
      exact absurd hm.mem List.not_mem_nil
    | some m' => rw [hm.unique (.of_kept hkept)]

theorem firstMax_map {γ : Type} (g : γ → α) (xs : List γ) :
    firstMax rank (xs.map g) = (firstMax (rank ∘ g) xs).map g := by
  induction xs using List.reverseRecOn with
  | nil => rfl
  | append_singleton xs x ih =>
      rw [List.map_append, List.map_singleton, firstMax_concat, firstMax_concat, ih]
      cases firstMax (rank ∘ g) xs with
      | none => rfl
      | some b =>
        rw [Option.map_some, better_some, better_some, Function.comp, Function.comp]
        split <;> rfl

end Cvirtos.Lib
