import Mathlib.Data.Set.Basic
import CyclonRtes.Synchronous.Trace

/-!
# Progress under fairness

The rule for systems of several actors that a scheduler lets act one at a time.  In every cycle some
actors are owed a turn: if one of them acts, the measure drops, and as long as none of them does,
they stay owed.  When every actor acts again and again, the measure is exhausted and the goal is
reached (`exists_of_fair`).  It is not required that the same actor is owed from beginning to end.
-/

namespace Synchronous

variable {α : Type*} {G : ℕ → Prop}

/-- As long as nothing happens, those who are owed a turn stay owed. -/
lemma owed_of_le {owed : ℕ → Set α} {t u : ℕ} (htu : t ≤ u)
    (h : ∀ w, t ≤ w → w < u → owed w ⊆ owed (w + 1)) : owed t ⊆ owed u := by
  induction u, htu using Nat.le_induction with
  | base => exact subset_rfl
  | succ u htu ih =>
    exact (ih fun w htw hwu => h w htw (Nat.lt_succ_of_lt hwu)).trans
      (h u htu (Nat.lt_succ_self u))

/-- A measure that drops whenever an actor acts who is owed a turn, and otherwise drops or stays as
it is with the same actors owed, leads to the goal under every fair schedule. -/
theorem exists_of_fair (m : ℕ → ℕ) (owed : ℕ → Set α) (acts : ℕ → α → Prop)
    (hne : ∀ t, ¬ G t → (owed t).Nonempty)
    (hstep : ∀ t, ¬ G t → m (t + 1) < m t ∨
      m (t + 1) = m t ∧ owed t ⊆ owed (t + 1) ∧ ∀ a ∈ owed t, ¬ acts t a)
    (hfair : ∀ a t, ∃ u, t ≤ u ∧ acts u a) : ∃ t, G t := by
  by_contra hno
  have hno' : ∀ t, ¬ G t := fun t ht => hno ⟨t, ht⟩
  refine hno (exists_of_measure (S := fun t => m (t + 1) = m t ∧ owed t ⊆ owed (t + 1) ∧
    ∀ a ∈ owed t, ¬ acts t a) m (fun t ht => ?_) fun t => ?_)
  · exact (hstep t ht).imp_right fun h => ⟨h, h.1⟩
  · by_contra hidle
    have hidle' : ∀ u, t ≤ u → owed u ⊆ owed (u + 1) ∧ ∀ a ∈ owed u, ¬ acts u a := by
      intro u htu
      by_contra hu
      exact hidle ⟨u, htu, fun h => hu h.2⟩
    obtain ⟨a, ha⟩ := hne t (hno' t)
    obtain ⟨u, htu, hacts⟩ := hfair a t
    exact (hidle' u htu).2 a (owed_of_le htu (fun w htw _ => (hidle' w htw).1) ha) hacts

end Synchronous
