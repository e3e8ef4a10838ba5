/-!
# Pre- and postconditions of programs with a state and errors

`Triple P x Q E`: from a state in `P`, the program `x` ends with `Q` of its value or with `E` of its
error.

* `triple_bind`, `triple_throw`, `triple_ite`, `triple_fact` — the rules;
* `triple_weaken` — the rule of consequence (`triple_pre`, `triple_post`, `triple_error`);
* `run_bind`, `run_bind_error` — a run, part by part;
* `Triple.ok`, `run_bind_ok` — what a run that returned has gone through;
* `ReturnsIff`, `returnsIff_bind` — runs that return on one condition;
* `attempt`, `triple_attempt`, `triple_attempt_never` — a program whose error is looked at;
* `mapError`, `triple_mapError` — a program whose error is wrapped;
* `forCount`, `triple_forCount` — a counting loop and its invariant.
-/

set_option autoImplicit false

namespace Cvirtos.Lib

variable {ε ε' S α β : Type}

/-- From `P`, `x` ends with `Q` of its value or with `E` of its error. -/
def Triple (P : S → Prop) (x : EStateM ε S α) (Q : α → S → Prop) (E : ε → S → Prop) : Prop :=
  ∀ s, P s →
    match x.run s with
    | .ok a s' => Q a s'
    | .error e s' => E e s'

/-- The state a program ends in. -/
def endState : EStateM.Result ε S α → S
  | .ok _ s => s
  | .error _ s => s

/-- The value a program returns, if it does. -/
def value? : EStateM.Result ε S α → Option α
  | .ok a _ => some a
  | .error _ _ => none

theorem eq_ok_of_value {r : EStateM.Result ε S α} {a : α} (h : value? r = some a) :
    r = .ok a (endState r) := by
  cases r with
  | ok b s => rw [← Option.some.inj h]; rfl
  | error e s => cases h

/-- `x`, with its error as a value. -/
def attempt (x : EStateM ε S α) : EStateM ε' S (Except ε α) := fun s =>
  match x.run s with
  | .ok a s' => .ok (.ok a) s'
  | .error e s' => .ok (.error e) s'

theorem attempt_run (x : EStateM ε S α) (s : S) :
    (attempt x : EStateM ε' S (Except ε α)).run s =
      match x.run s with
      | .ok a s' => .ok (.ok a) s'
      | .error e s' => .ok (.error e) s' := rfl

/-- `x`, with its error wrapped. -/
def mapError (f : ε → ε') (x : EStateM ε S α) : EStateM ε' S α := fun s =>
  match x.run s with
  | .ok a s' => .ok a s'
  | .error e s' => .error (f e) s'

theorem mapError_run (f : ε → ε') (x : EStateM ε S α) (s : S) :
    (mapError f x).run s =
      match x.run s with
      | .ok a s' => .ok a s'
      | .error e s' => .error (f e) s' := rfl

/-- `for j in lo..lo + n`. -/
def forCount (lo : Nat) : Nat → (Nat → EStateM ε S Unit) → EStateM ε S Unit
  | 0, _ => pure ()
  | n + 1, body => do
    body lo
    forCount (lo + 1) n body

section Rules

variable {P P' : S → Prop} {Q Q' : α → S → Prop} {R : β → S → Prop} {E E' : ε → S → Prop}
  {x : EStateM ε S α}

theorem triple_pure {a : α} (h : ∀ s, P s → Q a s) : Triple P (pure a) Q E := h

theorem triple_throw {e : ε} (h : ∀ s, P s → E e s) : Triple P (throw e : EStateM ε S α) Q E := h

/-- **The rule of composition.** -/
theorem triple_bind {f : α → EStateM ε S β} (hx : Triple P x Q E)
    (hf : ∀ a, Triple (Q a) (f a) R E) : Triple P (x >>= f) R E := by
  intro s hs
  have h := hx s hs
  show match EStateM.bind x f s with | .ok a s' => R a s' | .error e s' => E e s'
  unfold EStateM.bind
  unfold EStateM.run at h
  cases hr : x s with
  | ok a s' =>
      rw [hr] at h
      exact hf a s' h
  | error e s' =>
      rw [hr] at h
      exact h

/-- **The rule of consequence.** -/
theorem triple_weaken (hx : Triple P x Q E) (hP : ∀ s, P' s → P s) (hQ : ∀ a s, Q a s → Q' a s)
    (hE : ∀ e s, E e s → E' e s) : Triple P' x Q' E' := by
  intro s hs
  have h := hx s (hP s hs)
  cases hr : x.run s with
  | ok a s' =>
      rw [hr] at h
      exact hQ a s' h
  | error e s' =>
      rw [hr] at h
      exact hE e s' h

theorem triple_pre (hx : Triple P x Q E) (hP : ∀ s, P' s → P s) : Triple P' x Q E :=
  triple_weaken hx hP (fun _ _ h => h) fun _ _ h => h

theorem triple_post (hx : Triple P x Q E) (hQ : ∀ a s, Q a s → Q' a s) : Triple P x Q' E :=
  triple_weaken hx (fun _ h => h) hQ fun _ _ h => h

theorem triple_error (hx : Triple P x Q E) (hE : ∀ e s, E e s → E' e s) : Triple P x Q E' :=
  triple_weaken hx (fun _ h => h) (fun _ _ h => h) hE

/-- What holds of a run that returned. -/
theorem Triple.ok {s s' : S} {a : α} (hx : Triple P x Q E) (hs : P s) (hrun : x.run s = .ok a s') :
    Q a s' := by
  have h := hx s hs
  rw [hrun] at h
  exact h

/-- The run of a composition, once its first part has returned. -/
theorem run_bind {f : α → EStateM ε S β} {s t : S} {a : α} (h : x.run s = .ok a t) :
    (x >>= f).run s = (f a).run t := by
  change EStateM.bind x f s = _
  unfold EStateM.bind
  change (match x.run s with | .ok a s => f a s | .error e s => .error e s) = _
  rw [h]
  rfl

theorem run_bind_error {f : α → EStateM ε S β} {s t : S} {e : ε} (h : x.run s = .error e t) :
    (x >>= f).run s = .error e t := by
  change EStateM.bind x f s = _
  unfold EStateM.bind
  change (match x.run s with | .ok a s => f a s | .error e s => .error e s) = _
  rw [h]

/-- A composition that returned: so did its parts. -/
theorem run_bind_ok {f : α → EStateM ε S β} {s s' : S} {b : β}
    (h : (x >>= f).run s = .ok b s') :
    ∃ a t, x.run s = .ok a t ∧ (f a).run t = .ok b s' := by
  change EStateM.bind x f s = _ at h
  unfold EStateM.bind at h
  cases hr : x s with
  | ok a t =>
      rw [hr] at h
      exact ⟨a, t, hr, h⟩
  | error e t =>
      rw [hr] at h
      cases h

/-- From `s`, `x` returns `a` in the state `s'` when `c` holds, and does not return otherwise. -/
def ReturnsIff (c : Prop) (x : EStateM ε S α) (s : S) (a : α) (s' : S) : Prop :=
  (c → x.run s = .ok a s') ∧ (¬ c → ∃ e t, x.run s = .error e t)

theorem returnsIff_pure {c : Prop} (hc : c) (a : α) (s : S) :
    ReturnsIff c (pure a : EStateM ε S α) s a s := ⟨fun _ => rfl, fun h => absurd hc h⟩

/-- A composition returns when both of its parts do. -/
theorem returnsIff_bind {c c' : Prop} {f : α → EStateM ε S β} {s t s' : S} {a : α} {b : β}
    (hx : ReturnsIff c x s a t) (hf : ReturnsIff c' (f a) t b s') :
    ReturnsIff (c ∧ c') (x >>= f) s b s' := by
  refine ⟨fun h => (run_bind (hx.1 h.1)).trans (hf.1 h.2), fun h => ?_⟩
  by_cases hc : c
  · obtain ⟨e, u, hrun⟩ := hf.2 fun hc' => h ⟨hc, hc'⟩
    exact ⟨e, u, (run_bind (hx.1 hc)).trans hrun⟩
  · obtain ⟨e, u, hrun⟩ := hx.2 hc
    exact ⟨e, u, run_bind_error hrun⟩

theorem returnsIff_after {c : Prop} {f : α → EStateM ε S β} {s t s' : S} {a : α} {b : β}
    (hx : x.run s = .ok a t) (hf : ReturnsIff c (f a) t b s') : ReturnsIff c (x >>= f) s b s' := by
  unfold ReturnsIff
  rw [run_bind hx]
  exact hf

theorem returnsIff_map {c : Prop} {f : α → β} {s s' : S} {a : α} (hx : ReturnsIff c x s a s') :
    ReturnsIff c (x >>= fun a => pure (f a)) s (f a) s' := by
  refine ⟨fun hc => run_bind (hx.1 hc), fun hc => ?_⟩
  obtain ⟨e, t, hrun⟩ := hx.2 hc
  exact ⟨e, t, run_bind_error hrun⟩

/-- The same under another form of the condition. -/
theorem ReturnsIff.congr {c c' : Prop} {s s' : S} {a : α} (h : ReturnsIff c x s a s')
    (hc : c ↔ c') : ReturnsIff c' x s a s' :=
  ⟨fun h' => h.1 (hc.mpr h'), fun h' => h.2 fun h'' => h' (hc.mp h'')⟩

theorem ReturnsIff.of_ok {c : Prop} {s s' t : S} {a b : α} (h : ReturnsIff c x s a s')
    (hrun : x.run s = .ok b t) : c := by
  refine Classical.byContradiction fun hc => ?_
  obtain ⟨e, u, herror⟩ := h.2 hc
  rw [hrun] at herror
  cases herror

/-- No error at all. -/
def Never (_ : ε) (_ : S) : Prop := False

/-- What holds however the program ends holds at its end. -/
theorem triple_endState {I J : S → Prop} {s : S} (hx : Triple I x (fun _ => J) (fun _ => J))
    (hs : I s) : J (endState (x.run s)) := by
  have h := hx s hs
  cases hr : x.run s with
  | ok a s' =>
      rw [hr] at h
      exact h
  | error e s' =>
      rw [hr] at h
      exact h

/-- A fact known before the program is run. -/
theorem triple_fact {c : Prop} (hx : c → Triple P x Q E) : Triple (fun s => c ∧ P s) x Q E :=
  fun s hs => hx hs.1 s hs.2

theorem triple_ite {c : Prop} [Decidable c] {y : EStateM ε S α}
    (hx : c → Triple P x Q E) (hy : ¬ c → Triple P y Q E) :
    Triple P (if c then x else y) Q E := by
  split
  · rename_i hc
    exact hx hc
  · rename_i hc
    exact hy hc

theorem triple_attempt {T : ε' → S → Prop} (hx : Triple P x Q E) :
    Triple P (attempt x : EStateM ε' S (Except ε α))
      (fun r s => match r with | .ok a => Q a s | .error e => E e s) T := by
  intro s hs
  have h := hx s hs
  rw [attempt_run]
  cases hr : x.run s with
  | ok a s' =>
      rw [hr] at h
      exact h
  | error e s' =>
      rw [hr] at h
      exact h

/-- What holds after `x` however it ends also holds if the error is caught. -/
theorem triple_attempt_both {R : S → Prop} {T : ε' → S → Prop}
    (hx : Triple P x (fun _ => R) (fun _ => R)) :
    Triple P (attempt x : EStateM ε' S (Except ε α)) (fun _ => R) T := by
  intro s hs
  have h := triple_attempt (T := T) hx s hs
  rw [attempt_run] at h ⊢
  cases hr : x.run s with
  | ok a s' =>
      rw [hr] at h
      exact h
  | error e s' =>
      rw [hr] at h
      exact h

/-- An attempt of a program that never fails. -/
theorem triple_attempt_never {R : β → S → Prop} {T : ε' → S → Prop}
    {f : Except ε α → EStateM ε' S β} (hx : Triple P x Q Never)
    (hf : ∀ a, Triple (Q a) (f (.ok a)) R T) : Triple P (attempt x >>= f) R T := by
  refine triple_bind (triple_attempt hx) fun r => ?_
  cases r with
  | ok a => exact hf a
  | error e => exact fun s hs => hs.elim

theorem triple_mapError {f : ε → ε'} {T : ε' → S → Prop} (hx : Triple P x Q E)
    (hE : ∀ e s, E e s → T (f e) s) : Triple P (mapError f x) Q T := by
  intro s hs
  have h := hx s hs
  rw [mapError_run]
  cases hr : x.run s with
  | ok a s' =>
      rw [hr] at h
      exact h
  | error e s' =>
      rw [hr] at h
      exact hE e s' h

/-- **The invariant rule of a counting loop.** -/
theorem triple_forCount {body : Nat → EStateM ε S Unit}
    (hbody : ∀ j, Triple P (body j) (fun _ => P) E) (lo n : Nat) :
    Triple P (forCount lo n body) (fun _ => P) E := by
  induction n generalizing lo with
  | zero => exact triple_pure fun _ h => h
  | succ n ih => exact triple_bind (hbody lo) fun _ => ih (lo + 1)

end Rules

end Cvirtos.Lib
