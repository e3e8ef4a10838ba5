import Cvirtos.Lib.Triple

/-!
# Programs that stop for want of fuel

* `Agrees out x y` — `y` does what `x` does, unless `x` stops with the error `out`;
* `agrees_bind`, `agrees_forCount` — the rules, for a program with parts that agree.
-/

set_option autoImplicit false

namespace Cvirtos.Lib

variable {ε S α β : Type}

/-- `y` does what `x` does, unless `x` stops with the error `out`. -/
def Agrees (out : ε) (x y : EStateM ε S α) : Prop :=
  ∀ s, (∃ s', x.run s = .error out s') ∨ y.run s = x.run s

theorem agrees_refl (out : ε) (x : EStateM ε S α) : Agrees out x x := fun _ => Or.inr rfl

theorem agrees_bind {out : ε} {x y : EStateM ε S α} {f g : α → EStateM ε S β}
    (hx : Agrees out x y) (hf : ∀ a, Agrees out (f a) (g a)) :
    Agrees out (x >>= f) (y >>= g) := by
  intro s
  show (∃ s', EStateM.bind x f s = .error out s') ∨ EStateM.bind y g s = EStateM.bind x f s
  unfold EStateM.bind
  rcases hx s with ⟨s', h⟩ | h
  · left
    unfold EStateM.run at h
    exact ⟨s', by rw [h]⟩
  · unfold EStateM.run at h
    rw [h]
    cases x s with
    | ok a s' => exact hf a s'
    | error e s' => exact Or.inr rfl

theorem agrees_forCount {out : ε} {body body' : Nat → EStateM ε S Unit}
    (hbody : ∀ j, Agrees out (body j) (body' j)) (lo n : Nat) :
    Agrees out (forCount lo n body) (forCount lo n body') := by
  induction n generalizing lo with
  | zero => exact agrees_refl out _
  | succ n ih => exact agrees_bind (hbody lo) fun _ => ih (lo + 1)

end Cvirtos.Lib
