import Mathlib.Data.Nat.Init
import Mathlib.Data.Nat.Notation
import Mathlib.Tactic.TypeStar
import Mathlib.Logic.Basic

/-!
# Runs of synchronous machines

A synchronous machine is its clock-edge function `step : σ → ι → σ`: from the state of one
cycle and the inputs of that cycle it computes the state of the next cycle.  `run step s i t` is
the state in cycle `t` of the run that starts in `s` and receives the input `i t` in cycle `t`.

The file proves the rules by which the developments over it reason about runs of any length: the
invariant rule (`run_invariant`), the rule for invariants that hold up to a stopping event
(`run_until`), the two-run rule (`run_simulation_until`) and the rule for machines that are made up
of several ones (`run_part`).
-/

namespace Synchronous

variable {σ τ ι κ : Type*}

/-- The state in cycle `t` of the run of `step` from `s` under the input sequence `i`. -/
def run (step : σ → ι → σ) (s : σ) (i : ℕ → ι) : ℕ → σ
  | 0 => s
  | t + 1 => step (run step s i t) (i t)

variable {step : σ → ι → σ} {s : σ} {i : ℕ → ι}

@[simp] lemma run_zero : run step s i 0 = s := rfl

/-- Each clock edge applies the step function to the state and the input of the cycle. -/
lemma run_succ (t : ℕ) : run step s i (t + 1) = step (run step s i t) (i t) := rfl

/-- A run can be cut at any cycle: its tail is the run from the state reached there. -/
lemma run_add (t u : ℕ) :
    run step s i (t + u) = run step (run step s i t) (fun k => i (t + k)) u := by
  induction u with
  | zero => rfl
  | succ u ih => rw [← Nat.add_assoc, run_succ, run_succ, ih]

/-- The state in cycle `t` depends on the inputs of the cycles before. -/
lemma run_congr {i' : ℕ → ι} {t : ℕ} (h : ∀ u < t, i u = i' u) :
    run step s i t = run step s i' t := by
  induction t with
  | zero => rfl
  | succ t ih =>
    rw [run_succ, run_succ, ih fun u hu => h u (Nat.lt_succ_of_lt hu), h t (Nat.lt_succ_self t)]

/-- The input sequence that follows `i` in the cycles before cycle `w` and then `j` from its
beginning. -/
def splice (i j : ℕ → ι) (w t : ℕ) : ι := if t < w then i t else j (t - w)

/-- Before the splice the inputs are the first ones. -/
lemma splice_of_lt {j : ℕ → ι} {w t : ℕ} (h : t < w) : splice i j w t = i t := if_pos h

/-- After the splice the inputs are the second ones. -/
lemma splice_add (i j : ℕ → ι) (w t : ℕ) : splice i j w (w + t) = j t := by
  unfold splice
  rw [if_neg (Nat.not_lt.mpr (Nat.le_add_right w t)), Nat.add_sub_cancel_left]

/-- After the splice the run is that of the second inputs from the state reached by the first. -/
lemma run_splice (s : σ) (i j : ℕ → ι) (w t : ℕ) :
    run step s (splice i j w) (w + t) = run step (run step s i w) j t := by
  have hprefix : run step s (splice i j w) w = run step s i w :=
    run_congr fun u hu => splice_of_lt hu
  rw [run_add, hprefix]
  simp only [splice_add]

/-- The invariant rule: what holds at the start and is kept by every step on an admitted input
holds in every cycle of a run whose inputs are admitted. -/
theorem run_invariant {P : σ → Prop} {A : ι → Prop} (h0 : P s)
    (hstep : ∀ s x, A x → P s → P (step s x)) (hi : ∀ t, A (i t)) (t : ℕ) :
    P (run step s i t) := by
  induction t with
  | zero => exact h0
  | succ t ih => exact hstep _ _ (hi t) ih

/-- What no step of a window changes is at its end as it was at its beginning. -/
lemma run_kept {α : Type*} {f : σ → α} {a c : ℕ} (hac : a ≤ c)
    (h : ∀ u, a ≤ u → u < c → f (run step s i (u + 1)) = f (run step s i u)) :
    f (run step s i c) = f (run step s i a) := by
  induction c, hac using Nat.le_induction with
  | base => rfl
  | succ c hac ih =>
    rw [h c hac (Nat.lt_succ_self c), ih fun u hau huc => h u hau (Nat.lt_succ_of_lt huc)]

/-- An invariant `P` kept by every step taken before the stopping event `Q` holds in every cycle up
to and including the first one in which the event occurs. -/
theorem run_until {P Q : ℕ → Prop} (h0 : P 0) (hstep : ∀ t, ¬ Q t → P t → P (t + 1)) {t : ℕ}
    (ht : ∀ u < t, ¬ Q u) : P t := by
  induction t with
  | zero => exact h0
  | succ t ih =>
    exact hstep t (ht t (Nat.lt_succ_self t)) (ih fun u hu => ht u (Nat.lt_succ_of_lt hu))

/-- The two-run rule: a relation that holds at the start of two runs, and is kept by every pair of
steps taken before the first run stops, relates the two runs up to and including the stop. -/
theorem run_simulation_until {step' : τ → κ → τ} {s' : τ} {i' : ℕ → κ} {R : σ → τ → Prop}
    {Q : σ → Prop} {A : ι → κ → Prop} (h0 : R s s')
    (hstep : ∀ s s' x x', A x x' → ¬ Q s → R s s' → R (step s x) (step' s' x'))
    (hi : ∀ t, A (i t) (i' t)) {t : ℕ} (ht : ∀ u < t, ¬ Q (run step s i u)) :
    R (run step s i t) (run step' s' i' t) :=
  run_until (P := fun t => R (run step s i t) (run step' s' i' t))
    (Q := fun t => Q (run step s i t)) h0 (fun t hs => hstep _ _ _ _ (hi t) hs) ht

/-- What a part of a machine goes through is a run of the part alone, on the inputs that it gets
from the rest of the machine. -/
theorem run_part {part : τ → κ → τ} {f : σ → τ} {g : σ → ι → κ}
    (h : ∀ s x, f (step s x) = part (f s) (g s x)) (t : ℕ) :
    f (run step s i t) = run part (f s) (fun u => g (run step s i u) (i u)) t := by
  induction t with
  | zero => rfl
  | succ t ih => rw [run_succ, run_succ, h, ih]

/-- A state is reachable when some run from an initial state passes through it. -/
def Reachable (init : σ → Prop) (step : σ → ι → σ) (s : σ) : Prop :=
  ∃ (s₀ : σ) (i : ℕ → ι) (t : ℕ), init s₀ ∧ run step s₀ i t = s

variable {init : σ → Prop}

/-- The states passed by a run from an initial state are reachable. -/
lemma reachable_run (h : init s) (i : ℕ → ι) (t : ℕ) : Reachable init step (run step s i t) :=
  ⟨s, i, t, h, rfl⟩

/-- What holds initially and is kept by every step holds in every reachable state. -/
theorem Reachable.invariant {P : σ → Prop} (h : Reachable init step s)
    (hinit : ∀ s, init s → P s) (hstep : ∀ s x, P s → P (step s x)) : P s := by
  obtain ⟨s₀, i, t, h0, rfl⟩ := h
  exact run_invariant (A := fun _ => True) (hinit s₀ h0) (fun s x _ => hstep s x)
    (fun _ => trivial) t

end Synchronous
