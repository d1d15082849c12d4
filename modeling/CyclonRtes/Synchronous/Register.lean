import CyclonRtes.Synchronous.Trace

/-!
# Registers and latches

What two common parts of a synchronous machine hold after any history.  A register that follows
commands holds the value of the most recent one (`register_run`).  A latch with dominant set is high
exactly when it has been set since it was last cleared (`latch_run`).
-/

namespace Synchronous

section Register

variable {σ ι α : Type*} {step : σ → ι → σ} {s : σ} {i : ℕ → ι}

/-- A register that every step loads with the command of its inputs, if there is one, holds the most
recent command. -/
theorem register_run {f : σ → α} {command : ι → Option α}
    (h : ∀ s x, f (step s x) = (command x).getD (f s)) (t : ℕ) :
    f (run step s i t) = (latest command i t).getD (f s) := by
  induction t with
  | zero => rfl
  | succ t ih => rw [run_succ, h, ih, getD_latest_succ]

end Register

section Latch

variable {Q S R : ℕ → Prop}

/-- A latch `Q` is high if it has been set by `S` in some cycle and not been cleared by `R` since,
or was high from the beginning. -/
theorem latch_run (h : ∀ t, Q (t + 1) ↔ S t ∨ ¬ R t ∧ Q t) (t : ℕ) :
    Q t ↔ (∃ c < t, S c ∧ ∀ u, c < u → u < t → ¬ R u) ∨ Q 0 ∧ ∀ u < t, ¬ R u := by
  induction t with
  | zero => simp
  | succ t ih =>
    rw [h, ih]
    constructor
    · rintro (hset | ⟨hkeep, ⟨c, hc, hset, hclear⟩ | ⟨h0, hclear⟩⟩)
      · exact .inl ⟨t, Nat.lt_succ_self t, hset, fun u htu hu => absurd hu (by omega)⟩
      · refine .inl ⟨c, Nat.lt_succ_of_lt hc, hset, fun u hcu hu => ?_⟩
        rcases Nat.lt_succ_iff_lt_or_eq.mp hu with hu | rfl
        · exact hclear u hcu hu
        · exact hkeep
      · refine .inr ⟨h0, fun u hu => ?_⟩
        rcases Nat.lt_succ_iff_lt_or_eq.mp hu with hu | rfl
        · exact hclear u hu
        · exact hkeep
    · rintro (⟨c, hc, hset, hclear⟩ | ⟨h0, hclear⟩)
      · rcases Nat.lt_succ_iff_lt_or_eq.mp hc with hc | rfl
        · exact .inr ⟨hclear t hc (Nat.lt_succ_self t),
            .inl ⟨c, hc, hset, fun u hcu hu => hclear u hcu (Nat.lt_succ_of_lt hu)⟩⟩
        · exact .inl hset
      · exact .inr ⟨hclear t (Nat.lt_succ_self t),
          .inr ⟨h0, fun u hu => hclear u (Nat.lt_succ_of_lt hu)⟩⟩

end Latch

end Synchronous
