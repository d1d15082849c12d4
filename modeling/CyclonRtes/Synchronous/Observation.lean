import CyclonRtes.Synchronous.Run

/-!
# Observing a machine after a reset

`Indistinguishable` compares two states of a machine by what an observer sees of the runs that start
in them: no common input sequence leads to different outputs.  A relation that every step keeps and
that implies equal outputs proves it (`indistinguishable_of_relation`).

`Held` says that a signal is active in a window of cycles, such as a reset.  What the first of these
cycles establishes and the others keep holds at the end of the window (`Held.run`).
-/

namespace Synchronous

variable {σ ι ο : Type*} {step : σ → ι → σ}

/-- No common input sequence that satisfies `A` leads from the two states to different outputs. -/
def Indistinguishable (step : σ → ι → σ) (out : σ → ι → ο) (A : (ℕ → ι) → Prop) (s s' : σ) : Prop :=
  ∀ x, A x → ∀ t, out (run step s x t) (x t) = out (run step s' x t) (x t)

/-- States that are related by a relation that every step keeps, and that implies equal outputs,
cannot be told apart. -/
theorem indistinguishable_of_relation {out : σ → ι → ο} {A : (ℕ → ι) → Prop} {R : σ → σ → Prop}
    {s s' : σ} (h0 : R s s') (hstep : ∀ s s' x, R s s' → R (step s x) (step s' x))
    (hout : ∀ s s' x, R s s' → out s x = out s' x) : Indistinguishable step out A s s' := by
  intro x _ t
  have hrel : R (run step s x t) (run step s' x t) := by
    induction t with
    | zero => exact h0
    | succ t ih => exact hstep _ _ (x t) ih
  exact hout _ _ (x t) hrel

/-- The condition `P` holds of the inputs in the cycles from `a` up to cycle `c`, and there is at
least one of them. -/
structure Held (P : ι → Prop) (i : ℕ → ι) (a c : ℕ) : Prop where
  lt : a < c
  active : ∀ t, a ≤ t → t < c → P (i t)

/-- A window of one cycle. -/
lemma held_single {P : ι → Prop} {i : ℕ → ι} {a : ℕ} (h : P (i a)) : Held P i a (a + 1) := by
  refine ⟨Nat.lt_succ_self a, fun t hat ht => ?_⟩
  obtain rfl := Nat.le_antisymm (Nat.le_of_lt_succ ht) hat
  exact h

/-- What the first cycle of a window establishes, and the others keep, holds at its end. -/
theorem Held.run {P : ι → Prop} {i : ℕ → ι} {a c : ℕ} (h : Held P i a c) {Q : σ → Prop} {s : σ}
    (hfirst : ∀ x, P x → Q (step (run step s i a) x))
    (hstep : ∀ s x, P x → Q s → Q (step s x)) : Q (run step s i c) := by
  have hall : ∀ t, a < t → t ≤ c → Q (Synchronous.run step s i t) := by
    intro t hat
    induction t, hat using Nat.le_induction with
    | base => exact fun hc => hfirst _ (h.active a (Nat.le_refl a) hc)
    | succ t hat ih =>
      exact fun hc => hstep _ _ (h.active t (Nat.le_of_lt hat) hc) (ih (Nat.le_of_lt hc))
  exact hall c h.lt (Nat.le_refl c)

end Synchronous
