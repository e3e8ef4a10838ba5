/-!
# Loops that may fail

`forRange n f` runs `f 0`, `f 1`, …, `f (n - 1)` and stops at the first failure.

* `forRange_ok` — the invariant rule: a body that keeps `P` never fails and leaves `P n`.
* `forRange_eq` — the same for a body whose states are known in advance.
* `forRange_error` — a loop fails as its body does at the first failing index.
* `mapM_ok_iff` — a loop over a list succeeds when it does on every element.
* `Succeeds` — a computation that does not fail, with its rules.
* `foldl_finRange` — the invariant rule of a loop that cannot fail.
-/

set_option autoImplicit false

namespace Cvirtos.Lib

variable {ε σ : Type}

/-- `for j in 0..n`. -/
def forRange (n : Nat) (f : Nat → σ → Except ε σ) (s : σ) : Except ε σ :=
  match n with
  | 0 => .ok s
  | n + 1 => (forRange n f s).bind (f n)

@[simp] theorem forRange_zero (f : Nat → σ → Except ε σ) (s : σ) : forRange 0 f s = .ok s := rfl

theorem forRange_succ (n : Nat) (f : Nat → σ → Except ε σ) (s : σ) :
    forRange (n + 1) f s = (forRange n f s).bind (f n) := rfl

/-- **The invariant rule.** -/
theorem forRange_ok {n : Nat} {f : Nat → σ → Except ε σ} {s : σ} (P : Nat → σ → Prop)
    (h0 : P 0 s) (hstep : ∀ j, j < n → ∀ s, P j s → ∃ s', f j s = .ok s' ∧ P (j + 1) s') :
    ∃ s', forRange n f s = .ok s' ∧ P n s' := by
  induction n with
  | zero => exact ⟨s, rfl, h0⟩
  | succ n ih =>
      obtain ⟨s₁, h₁, hp⟩ := ih fun j hj => hstep j (Nat.lt_succ_of_lt hj)
      obtain ⟨s₂, h₂, hp'⟩ := hstep n (Nat.lt_succ_self n) s₁ hp
      refine ⟨s₂, ?_, hp'⟩
      rw [forRange_succ, h₁]
      exact h₂

/-- **The loop whose states are known**: from `g 0` through `g 1`, … to `g n`. -/
theorem forRange_eq {n : Nat} {f : Nat → σ → Except ε σ} (g : Nat → σ)
    (hstep : ∀ j, j < n → f j (g j) = .ok (g (j + 1))) : forRange n f (g 0) = .ok (g n) := by
  obtain ⟨s, hs, rfl⟩ := forRange_ok (fun j s => s = g j) rfl fun j hj s (hp : s = g j) =>
    ⟨g (j + 1), hp ▸ hstep j hj, rfl⟩
  exact hs

/-- **The failure rule.** -/
theorem forRange_error {n k : Nat} {f : Nat → σ → Except ε σ} {s s' : σ} {e : ε} (hk : k < n)
    (hpre : forRange k f s = .ok s') (he : f k s' = .error e) : forRange n f s = .error e := by
  obtain ⟨d, rfl⟩ : ∃ d, n = k + 1 + d := ⟨n - (k + 1), by omega⟩
  clear hk
  induction d with
  | zero =>
      rw [Nat.add_zero, forRange_succ, hpre]
      exact he
  | succ d ih =>
      rw [← Nat.add_assoc, forRange_succ, ih]
      rfl

/-- **A loop over a list** succeeds exactly when it does on every element. -/
theorem mapM_ok_iff {α β : Type} (f : α → Except ε β) (l : List α) :
    (∃ ys, l.mapM f = .ok ys) ↔ ∀ x ∈ l, ∃ y, f x = .ok y := by
  induction l with
  | nil =>
      constructor
      · intro _ x hx
        cases hx
      · intro _
        exact ⟨[], rfl⟩
  | cons x l ih =>
      rw [List.mapM_cons, List.forall_mem_cons, ← ih]
      cases hf : f x with
      | error e =>
          constructor
          · rintro ⟨ys, h⟩
            cases h
          · rintro ⟨⟨y, h⟩, -⟩
            cases h
      | ok y =>
          cases hl : l.mapM f with
          | error e =>
              constructor
              · rintro ⟨ys, h⟩
                simp only [bind, Except.bind] at h
                cases h
              · rintro ⟨-, ys, h⟩
                cases h
          | ok ys =>
              refine ⟨fun _ => ⟨⟨y, rfl⟩, ys, rfl⟩, fun _ => ⟨y :: ys, ?_⟩⟩
              simp only [bind, Except.bind]
              rfl

/-- A computation that does not fail. -/
def Succeeds {α : Type} (x : Except ε α) : Prop := ∃ a, x = .ok a

theorem Succeeds.pure {α : Type} (a : α) : Succeeds (pure a : Except ε α) := ⟨a, rfl⟩

theorem Succeeds.bind {α β : Type} {x : Except ε α} {f : α → Except ε β} (hx : Succeeds x)
    (hf : ∀ a, Succeeds (f a)) : Succeeds (x >>= f) := by
  obtain ⟨a, rfl⟩ := hx
  exact hf a

theorem Succeeds.ite {α : Type} {c : Prop} [Decidable c] {x y : Except ε α}
    (hx : c → Succeeds x) (hy : ¬ c → Succeeds y) : Succeeds (if c then x else y) := by
  split
  · exact hx ‹_›
  · exact hy ‹_›

theorem Succeeds.map {α β : Type} {x : Except ε α} (hx : Succeeds x) (f : α → β) :
    Succeeds (x.map f) := by
  obtain ⟨a, rfl⟩ := hx
  exact ⟨f a, rfl⟩

theorem ok_of_map {α β : Type} {x : Except ε α} {f : α → β} {b : β} (h : x.map f = .ok b) :
    ∃ a, x = .ok a ∧ f a = b := by
  cases x with
  | error e => cases h
  | ok a => exact ⟨a, rfl, Except.ok.inj h⟩

theorem Succeeds.forRange {n : Nat} {f : Nat → σ → Except ε σ} (hf : ∀ j s, Succeeds (f j s))
    (s : σ) : Succeeds (forRange n f s) := by
  induction n with
  | zero => exact .pure s
  | succ n ih => exact ih.bind (hf n)

theorem Succeeds.foldlM {α : Type} {f : σ → α → Except ε σ} {l : List α}
    (hf : ∀ x ∈ l, ∀ s, Succeeds (f s x)) (s : σ) : Succeeds (l.foldlM f s) := by
  induction l generalizing s with
  | nil => exact .pure s
  | cons x l ih =>
      rw [List.foldlM_cons]
      exact (hf x List.mem_cons_self s).bind (ih fun y hy => hf y (List.mem_cons_of_mem x hy))

/-- **The invariant rule of a loop that cannot fail.** -/
theorem foldl_finRange {n : Nat} {f : σ → Fin n → σ} {s : σ} (P : Nat → σ → Prop) (h0 : P 0 s)
    (hstep : ∀ (i : Fin n) (s : σ), P i s → P (i + 1) (f s i)) :
    P n ((List.finRange n).foldl f s) := by
  induction n with
  | zero => exact h0
  | succ n ih =>
      rw [List.finRange_succ_last, List.foldl_append, List.foldl_map]
      exact hstep (Fin.last n) _ (ih fun i s hp => hstep i.castSucc s hp)

end Cvirtos.Lib
