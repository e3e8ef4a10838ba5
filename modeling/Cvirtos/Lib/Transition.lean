/-!
# Runs of a transition system

A system whose actions are taken one at a time, in any order a schedule chooses.

* `run` — the state a schedule leads to;
* `AllSteps` — every step the schedule takes meets a condition on its action and the state before;
* `run_invariant` — **what every such step keeps holds in every state reached**.
-/

set_option autoImplicit false

namespace Cvirtos.Lib

variable {S A : Type}

/-- The state a schedule leads to, when each of its actions is possible. -/
def run (step : S → A → Option S) (s : S) : List A → Option S
  | [] => some s
  | a :: as =>
    match step s a with
    | none => none
    | some s' => run step s' as

/-- Every step of the schedule meets the condition. -/
def AllSteps (step : S → A → Option S) (ok : S → A → Prop) (s : S) : List A → Prop
  | [] => True
  | a :: as => ok s a ∧ ∀ s' ∈ step s a, AllSteps step ok s' as

instance AllSteps.decidable {step : S → A → Option S} {ok : S → A → Prop}
    [hok : ∀ s a, Decidable (ok s a)] (s : S) : (as : List A) → Decidable (AllSteps step ok s as)
  | [] => inferInstanceAs (Decidable True)
  | a :: as =>
    have (s' : S) : Decidable (AllSteps step ok s' as) := AllSteps.decidable s' as
    inferInstanceAs (Decidable (ok s a ∧ ∀ s' ∈ step s a, AllSteps step ok s' as))

/-- A condition on the actions alone. -/
theorem allSteps_of_forall {step : S → A → Option S} {p : A → Prop} {s : S} {as : List A}
    (h : ∀ a ∈ as, p a) : AllSteps step (fun _ a => p a) s as := by
  induction as generalizing s with
  | nil => trivial
  | cons a as ih =>
      obtain ⟨ha, has⟩ := List.forall_mem_cons.mp h
      exact ⟨ha, fun s' _ => ih has⟩

theorem allSteps_and {step : S → A → Option S} {ok ok' : S → A → Prop} {s : S} {as : List A}
    (h : AllSteps step ok s as) (h' : AllSteps step ok' s as) :
    AllSteps step (fun s a => ok s a ∧ ok' s a) s as := by
  induction as generalizing s with
  | nil => trivial
  | cons a as ih => exact ⟨⟨h.1, h'.1⟩, fun s' hs => ih (h.2 s' hs) (h'.2 s' hs)⟩

/-- Two conditions that agree on the actions of a schedule. -/
theorem allSteps_congr {step : S → A → Option S} {ok ok' : S → A → Prop} {p : A → Prop} {s : S}
    {as : List A} (h : ∀ s a, p a → (ok s a ↔ ok' s a)) (has : ∀ a ∈ as, p a) :
    AllSteps step ok s as ↔ AllSteps step ok' s as := by
  induction as generalizing s with
  | nil => exact Iff.rfl
  | cons a as ih =>
      obtain ⟨ha, hrest⟩ := List.forall_mem_cons.mp has
      unfold AllSteps
      rw [h s a ha]
      exact and_congr_right fun _ => forall₂_congr fun _ _ => ih hrest

/-- **The invariant rule of a run.** -/
theorem run_invariant {step : S → A → Option S} {ok : S → A → Prop} {Inv : S → Prop}
    (hstep : ∀ s a s', ok s a → step s a = some s' → Inv s → Inv s') {s s' : S} {as : List A}
    (h0 : Inv s) (hall : AllSteps step ok s as) (hrun : run step s as = some s') : Inv s' := by
  induction as generalizing s with
  | nil =>
      cases hrun
      exact h0
  | cons a as ih =>
      obtain ⟨hok, hrest⟩ := hall
      unfold run at hrun
      split at hrun
      · cases hrun
      · rename_i s₁ hs
        exact ih (hstep s a s₁ hok hs h0) (hrest s₁ hs) hrun

/-- A schedule all of whose actions are possible wherever the invariant holds leads somewhere. -/
theorem run_total {step : S → A → Option S} {ok : S → A → Prop} {Inv : S → Prop}
    (hstep : ∀ s a, ok s a → Inv s → ∃ s', step s a = some s' ∧ Inv s') {s : S} {as : List A}
    (h0 : Inv s) (hall : AllSteps step ok s as) : ∃ s', run step s as = some s' ∧ Inv s' := by
  induction as generalizing s with
  | nil => exact ⟨s, rfl, h0⟩
  | cons a as ih =>
      obtain ⟨hok, hrest⟩ := hall
      obtain ⟨s₁, hs, hinv⟩ := hstep s a hok h0
      obtain ⟨s', hrun, hinv'⟩ := ih hinv (hrest s₁ hs)
      refine ⟨s', ?_, hinv'⟩
      unfold run
      rw [hs]
      exact hrun

theorem allSteps_true {step : S → A → Option S} (s : S) (as : List A) :
    AllSteps step (fun _ _ => True) s as := by
  induction as generalizing s with
  | nil => trivial
  | cons a as ih => exact ⟨trivial, fun s' _ => ih s'⟩

/-- What every step keeps holds in every state reached. -/
theorem run_preserves {step : S → A → Option S} {Inv : S → Prop}
    (hstep : ∀ s a s', step s a = some s' → Inv s → Inv s') {s s' : S} {as : List A}
    (h0 : Inv s) (hrun : run step s as = some s') : Inv s' :=
  run_invariant (fun s a s' _ => hstep s a s') h0 (allSteps_true s as) hrun

end Cvirtos.Lib
