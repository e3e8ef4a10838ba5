import Mathlib.Data.List.Induction

/-!
# Places in a list with parts left out

`f` keeps some elements of a list and leaves the others out; the place of an element among those kept
is the number of elements kept before it.

* `mem_of_between` — an element at a place inside a segment is one of the segment;
* `between_of_mem` — an element of a segment whose ends are kept is at a place inside it;
* `getLast_kept` — the last element kept is not before any other.
-/

set_option autoImplicit false

namespace Cvirtos.Lib

variable {α β : Type} {f : α → Option β} {pre span post before after : List α} {u : α}

theorem filterMap_length_le {xs ys : List α} (h : xs <+: ys) :
    (xs.filterMap f).length ≤ (ys.filterMap f).length := (h.filterMap f).length_le

/-- **A place inside a segment.** -/
theorem mem_of_between (h : pre ++ span ++ post = before ++ u :: after)
    (hlow : (pre.filterMap f).length < (before.filterMap f).length)
    (hhigh : (before.filterMap f).length < ((pre ++ span).filterMap f).length) : u ∈ span := by
  have hbefore : before <+: pre ++ span ++ post := ⟨u :: after, h.symm⟩
  have hpre : pre <+: before := by
    rcases List.prefix_or_prefix_of_prefix ⟨span ++ post, (List.append_assoc ..).symm⟩ hbefore with
      hle | hle
    · exact hle
    · have := filterMap_length_le (f := f) hle
      omega
  have hspan : before <+: pre ++ span := by
    rcases List.prefix_or_prefix_of_prefix ⟨post, rfl⟩ hbefore with hle | hle
    · have := filterMap_length_le (f := f) hle
      omega
    · exact hle
  obtain ⟨s, rfl⟩ := hpre
  obtain ⟨t, ht⟩ := hspan
  rw [List.append_assoc, List.append_cancel_left_eq] at ht
  subst ht
  cases t with
  | nil =>
      rw [List.append_nil] at hhigh
      omega
  | cons v t =>
      have hv : v = u := by
        simp only [List.append_assoc, List.append_cancel_left_eq, List.cons_append,
          List.cons.injEq] at h
        exact h.1
      rw [← hv]
      simp

/-- **An element left out, between the ends of a segment.** -/
theorem between_of_mem {first last : α} {rest rest' : List α} (hu : u ∈ span) (hout : f u = none)
    (hfirst : span = first :: rest) (hlast : span = rest' ++ [last])
    (hkeep : (f first).isSome) (hkeep' : (f last).isSome) (pre post : List α) :
    ∃ before after, pre ++ span ++ post = before ++ u :: after ∧
      (pre.filterMap f).length < (before.filterMap f).length ∧
      (before.filterMap f).length < ((pre ++ span).filterMap f).length := by
  obtain ⟨s, t, hst⟩ := List.append_of_mem hu
  refine ⟨pre ++ s, t ++ post, by simp [hst], ?_, ?_⟩
  · cases s with
    | nil =>
        rw [hfirst, List.nil_append, List.cons.injEq] at hst
        rw [hst.1, hout] at hkeep
        cases hkeep
    | cons v s =>
        rw [hfirst, List.cons_append, List.cons.injEq] at hst
        obtain ⟨b, hb⟩ := Option.isSome_iff_exists.mp hkeep
        simp [← hst.1, hb]
  · rcases List.eq_nil_or_concat t with rfl | ⟨t, v, rfl⟩
    · rw [hlast] at hst
      obtain ⟨-, hv⟩ := List.append_inj' hst rfl
      rw [List.cons.injEq] at hv
      rw [hv.1, hout] at hkeep'
      cases hkeep'
    · rw [List.concat_eq_append] at hst
      have hv : last = v := by
        have hend := hlast.symm.trans hst
        rw [← List.cons_append, ← List.append_assoc] at hend
        exact List.singleton_inj.mp (List.append_inj' hend rfl).2
      obtain ⟨b, hb⟩ := Option.isSome_iff_exists.mp hkeep'
      rw [hst]
      simp [hout, ← hv, hb]

/-- The last element kept is not before any other. -/
theorem getLast_kept {xs : List α} {j : Nat} {x : α} {y : β} (hx : xs[j]? = some x)
    (hy : f x = some y) :
    ∃ m z b, j ≤ m ∧ xs[m]? = some z ∧ f z = some b ∧ (xs.filterMap f).getLast? = some b := by
  induction xs using List.reverseRecOn with
  | nil => simp at hx
  | append_singleton xs z ih =>
      have hlast : (xs ++ [z])[xs.length]? = some z := by simp
      have hj : j ≤ xs.length := by
        have := (List.getElem?_eq_some_iff.mp hx).1
        rw [List.length_append, List.length_singleton] at this
        omega
      cases hz : f z with
      | some b => exact ⟨xs.length, z, b, hj, hlast, hz, by simp [hz]⟩
      | none =>
          have hlt : j < xs.length := by
            refine Nat.lt_of_le_of_ne hj fun he => ?_
            rw [he, hlast] at hx
            rw [← Option.some.inj hx, hz] at hy
            cases hy
          rw [List.getElem?_append_left hlt] at hx
          obtain ⟨m, v, b, hle, hv, hb, hget⟩ := ih hx
          refine ⟨m, v, b, hle, ?_, hb, ?_⟩
          · rw [List.getElem?_append_left (List.getElem?_eq_some_iff.mp hv).1]
            exact hv
          · simpa [hz] using hget

end Cvirtos.Lib
