import Mathlib.Data.Finset.Card
import Mathlib.Data.Nat.SuccPred
import Mathlib.Algebra.Order.Interval.Finset.SuccPred
import Mathlib.Order.Interval.Finset.Nat
import CyclonRtes.Synchronous.Run

/-!
# Traces of synchronous runs

What an observer sees of a run: the list of events it emits (`log`), the cycles in which a signal
rises (`Rises`, `FirstRise`), the most recent command in the history of its inputs (`latest`), and
the number of cycles of a window in which a signal is high (`highCycles`).

The last section is the termination rule for machines that an environment may stall: a measure
that decreases on every unstalled step is exhausted as soon as the stalls do not last for ever
(`exists_of_measure`).
-/

namespace Synchronous

/-! ## Event logs -/

section Log

variable {σ ι ε : Type*}

/-- The events emitted in the cycles before cycle `t`, oldest first. -/
def log (emit : σ → ι → List ε) (step : σ → ι → σ) (s : σ) (i : ℕ → ι) : ℕ → List ε
  | 0 => []
  | t + 1 => log emit step s i t ++ emit (run step s i t) (i t)

variable {emit : σ → ι → List ε} {step : σ → ι → σ} {s : σ} {i : ℕ → ι}

@[simp] lemma log_zero : log emit step s i 0 = [] := rfl

lemma log_succ (t : ℕ) :
    log emit step s i (t + 1) = log emit step s i t ++ emit (run step s i t) (i t) := rfl

/-- A log only grows. -/
lemma log_mono {t u : ℕ} (htu : t ≤ u) : log emit step s i t <+: log emit step s i u := by
  induction u, htu using Nat.le_induction with
  | base => exact List.prefix_rfl
  | succ u _ ih => exact ih.trans (List.prefix_append _ _)

end Log

/-! ## Rising edges -/

section Rises

variable {f : ℕ → Bool} {t u : ℕ}

/-- The signal `f` rises between cycle `t` and cycle `t + 1`. -/
def Rises (f : ℕ → Bool) (t : ℕ) : Prop := f t = false ∧ f (t + 1) = true

/-- Cycle `t` is the first one after which the signal `f` rises. -/
def FirstRise (f : ℕ → Bool) (t : ℕ) : Prop := Rises f t ∧ ∀ u < t, ¬ Rises f u

instance (f : ℕ → Bool) (t : ℕ) : Decidable (Rises f t) := inferInstanceAs (Decidable (_ ∧ _))

instance (f : ℕ → Bool) (t : ℕ) : Decidable (FirstRise f t) := inferInstanceAs (Decidable (_ ∧ _))

/-- A signal that starts low stays low until its first rise. -/
lemma low_of_not_rises (h0 : f 0 = false) (h : ∀ u < t, ¬ Rises f u) : f t = false := by
  refine run_until (P := fun t => f t = false) (Q := Rises f) h0 (fun t ht hf => ?_) h
  by_contra hne
  exact ht ⟨hf, by simpa using hne⟩

/-- A signal that rises has a first rise. -/
lemma Rises.exists_firstRise (h : Rises f t) : ∃ u ≤ t, FirstRise f u := by
  have hex : ∃ u, Rises f u := ⟨t, h⟩
  exact ⟨Nat.find hex, Nat.find_min' hex h, Nat.find_spec hex, fun _ hv => Nat.find_min hex hv⟩

/-- A signal that starts low and is high at some time has a first rise before. -/
lemma exists_firstRise (h0 : f 0 = false) (ht : f t = true) : ∃ u < t, FirstRise f u := by
  have hex : ∃ u < t, Rises f u := by
    by_contra hno
    have hlow := low_of_not_rises h0 fun u hu hr => hno ⟨u, hu, hr⟩
    rw [hlow] at ht
    exact Bool.false_ne_true ht
  obtain ⟨u, hut, hu⟩ := hex
  obtain ⟨w, hwu, hw⟩ := hu.exists_firstRise
  exact ⟨w, lt_of_le_of_lt hwu hut, hw⟩

end Rises

/-! ## The most recent command -/

section Latest

variable {ι α : Type*} {f : ι → Option α} {i : ℕ → ι} {t : ℕ}

/-- The most recent command that `f` decodes from the inputs of the cycles before cycle `t`. -/
def latest (f : ι → Option α) (i : ℕ → ι) : ℕ → Option α
  | 0 => none
  | t + 1 => (f (i t)).or (latest f i t)

@[simp] lemma latest_zero : latest f i 0 = none := rfl

/-- A command of the current cycle is the most recent one from the next cycle on. -/
lemma latest_succ_of_some {a : α} (h : f (i t) = some a) : latest f i (t + 1) = some a := by
  simp [latest, h]

/-- A cycle without a command leaves the most recent command as it was. -/
lemma latest_succ_of_none (h : f (i t) = none) : latest f i (t + 1) = latest f i t := by
  simp [latest, h]

/-- A register that follows the commands is updated by the command of the current cycle. -/
lemma getD_latest_succ (c : α) :
    (latest f i (t + 1)).getD c = (f (i t)).getD ((latest f i t).getD c) := by
  cases h : f (i t) with
  | none => rw [latest_succ_of_none h, Option.getD_none]
  | some a => rw [latest_succ_of_some h, Option.getD_some, Option.getD_some]

end Latest

/-! ## Counting cycles -/

section HighCycles

variable {f : ℕ → Bool} {a b c : ℕ}

/-- The number of cycles `x` with `a ≤ x < b` in which the signal `f` is high. -/
def highCycles (f : ℕ → Bool) (a b : ℕ) : ℕ := ((Finset.Ico a b).filter fun x => f x = true).card

@[simp] lemma highCycles_self : highCycles f a a = 0 := by simp [highCycles]

/-- Extending a window by one cycle counts that cycle if it is high. -/
lemma highCycles_succ (hab : a ≤ b) :
    highCycles f a (b + 1) = highCycles f a b + if f b = true then 1 else 0 := by
  unfold highCycles
  rw [← Finset.insert_Ico_right_eq_Ico_add_one hab, Finset.filter_insert]
  split_ifs with hf
  · rw [Finset.card_insert_of_notMem (by simp)]
  · rw [Nat.add_zero]

/-- Adjacent windows add up. -/
lemma highCycles_add (hab : a ≤ b) (hbc : b ≤ c) :
    highCycles f a c = highCycles f a b + highCycles f b c := by
  induction c, hbc using Nat.le_induction with
  | base => simp
  | succ c hbc ih => rw [highCycles_succ (hab.trans hbc), highCycles_succ hbc, ih, Nat.add_assoc]

/-- A window in which the signal is low throughout has no high cycle. -/
lemma highCycles_eq_zero (h : ∀ x, a ≤ x → x < b → f x = false) : highCycles f a b = 0 := by
  unfold highCycles
  rw [Finset.card_eq_zero, Finset.filter_eq_empty_iff]
  intro x hx
  rw [Finset.mem_Ico] at hx
  simp [h x hx.1 hx.2]

/-- In a window in which the signal is high throughout every cycle counts. -/
lemma highCycles_eq_length (h : ∀ x, a ≤ x → x < b → f x = true) : highCycles f a b = b - a := by
  unfold highCycles
  rw [Finset.filter_true_of_mem fun x hx => ?_, Nat.card_Ico]
  rw [Finset.mem_Ico] at hx
  exact h x hx.1 hx.2

/-- A signal that is high whenever another one is has at least as many high cycles. -/
lemma highCycles_mono {g : ℕ → Bool} (h : ∀ x, f x = true → g x = true) (a b : ℕ) :
    highCycles f a b ≤ highCycles g a b :=
  Finset.card_le_card (Finset.monotone_filter_right _ fun x _ => h x)

/-- A signal that is high again and again has any number of high cycles. -/
lemma exists_le_highCycles (h : ∀ t, ∃ u, t ≤ u ∧ f u = true) (a k : ℕ) :
    ∃ b, a ≤ b ∧ k ≤ highCycles f a b := by
  induction k with
  | zero => exact ⟨a, le_rfl, Nat.zero_le _⟩
  | succ k ih =>
    obtain ⟨b, hab, hk⟩ := ih
    obtain ⟨u, hbu, hu⟩ := h b
    refine ⟨u + 1, by omega, ?_⟩
    rw [highCycles_succ (hab.trans hbu), highCycles_add hab hbu, if_pos hu]
    omega

end HighCycles

/-! ## Termination under stalls -/

/-- A measure that decreases on every step, unless the step is stalled and leaves it as it is,
forces the goal `G` as soon as the stalls `S` do not last for ever. -/
theorem exists_of_measure {G S : ℕ → Prop} (m : ℕ → ℕ)
    (hstep : ∀ t, ¬ G t → m (t + 1) < m t ∨ S t ∧ m (t + 1) = m t)
    (hfair : ∀ t, ∃ u, t ≤ u ∧ ¬ S u) : ∃ t, G t := by
  by_contra hno
  have hno' : ∀ t, ¬ G t := fun t ht => hno ⟨t, ht⟩
  have hle : ∀ t, m (t + 1) ≤ m t := fun t => by
    rcases hstep t (hno' t) with h | ⟨-, h⟩ <;> omega
  have hanti : ∀ t u, t ≤ u → m u ≤ m t := fun t u htu =>
    Nat.le_induction (le_refl (m t)) (fun u _ ih => (hle u).trans ih) u htu
  have hdrop : ∀ k, ∃ t, m t + k ≤ m 0 := by
    intro k
    induction k with
    | zero => exact ⟨0, le_refl _⟩
    | succ k ih =>
      obtain ⟨t, ht⟩ := ih
      obtain ⟨u, htu, hu⟩ := hfair t
      have h1 : m (u + 1) < m u := (hstep u (hno' u)).resolve_right fun h => hu h.1
      have h2 := hanti t u htu
      exact ⟨u + 1, by omega⟩
  obtain ⟨t, ht⟩ := hdrop (m 0 + 1)
  omega

end Synchronous
