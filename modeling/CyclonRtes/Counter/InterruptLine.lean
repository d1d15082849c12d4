import CyclonRtes.Counter.Entity
import CyclonRtes.Synchronous.Register

/-!
# The interrupt line of the counter over its history

When the line `IRQ` is high, told from the commands and resets that the counter has received and
from the cycles in which its count was zero (`irq_iff`).  The state at power-up is arbitrary and
resets may occur at any time: a reset takes the line down at once, by clearing the run flag and the
interrupt enable, but it leaves the end-of-time flag and a pending clear pulse as they are.
-/

namespace CyclonRtes.Counter

open Synchronous

/-! ## The registers behind the line -/

/-- The command for the interrupt enable in a cycle; a reset disables the interrupt. -/
def enabling (i : Inputs) : Option Bool := if i.nReset then enableCommand i else some false

/-- The command for the run flag in a cycle; a reset stops the counter. -/
def starting (i : Inputs) : Option Bool := if i.nReset then startStop i else some false

/-- The command for the clear pulse in a cycle; in a reset it stays as it is. -/
def clearing (i : Inputs) : Option Bool := if i.nReset then some (clearCommand i) else none

section Edge

variable (e : Entity) (i : Inputs)

/-- The interrupt enable after an edge. -/
lemma iIRQEn_step : (e.step i).iIRQEn = (enabling i).getD e.iIRQEn := by
  unfold enabling
  cases hi : i.nReset with
  | true => exact step_iIRQEn hi
  | false => simp [Entity.step, Entity.settle, pRegWr, Entity.reset, hi]

/-- The run flag after an edge. -/
lemma iEn_step : (e.step i).iEn = (starting i).getD e.iEn := by
  unfold starting
  cases hi : i.nReset with
  | true => exact step_iEn hi
  | false => exact (step_of_reset hi).1

/-- The clear pulse after an edge. -/
lemma iClrEOT_step : (e.step i).iClrEOT = (clearing i).getD e.iClrEOT := by
  unfold clearing
  cases hi : i.nReset with
  | true => exact step_iClrEOT hi
  | false => simp [Entity.step, Entity.settle, pRegWr, Entity.reset, hi]

/-- The end-of-time flag after an edge. -/
lemma iEOT_step : (e.step i).iEOT = pInterrupt e := by
  cases hi : i.nReset with
  | true => exact step_iEOT hi
  | false => simp [Entity.step, Entity.settle, pInterrupt, Entity.reset, hi]

end Edge

/-! ## The line -/

section Line

variable (e : Entity) (i : ℕ → Inputs)

/-- The interrupt line in a cycle.  A reset acts in its own cycle. -/
def irqLine (t : ℕ) : Bool := irq ((run Entity.step e i t).settle (i t).nReset)

/-- The clear pulse is high in cycle `t`. -/
def Clearing (t : ℕ) : Prop := (latest clearing i t).getD e.iClrEOT = true

/-- The count has been zero in some cycle before cycle `t` and no clear pulse has come since, or the
flag was set at power-up and there has been no clear pulse at all. -/
def EndOfTime (t : ℕ) : Prop :=
  (∃ c < t, (run Entity.step e i c).iCounter = 0 ∧ ∀ u, c < u → u < t → ¬ Clearing e i u) ∨
    e.iEOT = true ∧ ∀ u < t, ¬ Clearing e i u

variable {e i}

/-- The end-of-time flag in a run. -/
lemma iEOT_iff (t : ℕ) : (run Entity.step e i t).iEOT = true ↔ EndOfTime e i t := by
  refine latch_run (Q := fun t => (run Entity.step e i t).iEOT = true)
    (S := fun t => (run Entity.step e i t).iCounter = 0) (R := Clearing e i) (fun t => ?_) t
  have hclear : (run Entity.step e i t).iClrEOT = (latest clearing i t).getD e.iClrEOT :=
    register_run (f := Entity.iClrEOT) iClrEOT_step t
  rw [run_succ, iEOT_step, pInterrupt, hclear, Clearing]
  split_ifs with h0 hc
  · exact iff_of_true rfl (.inl h0)
  · exact iff_of_false (by simp) fun h => h.elim h0 fun h => h.1 hc
  · exact ⟨fun h => .inr ⟨hc, h⟩, fun h => (h.resolve_left h0).2⟩

/-- The interrupt line is high exactly when the counter is not being reset, the most recent enable
command has enabled the interrupt, the counter has been started and not been stopped since, and its
count has been zero since the flag was last cleared. -/
theorem irq_iff (t : ℕ) :
    irqLine e i t = true ↔ (i t).nReset = true ∧ (latest enabling i t).getD e.iIRQEn = true ∧
      (latest starting i t).getD e.iEn = true ∧ EndOfTime e i t := by
  have henable : (run Entity.step e i t).iIRQEn = (latest enabling i t).getD e.iIRQEn :=
    register_run (f := Entity.iIRQEn) iIRQEn_step t
  have hstart : (run Entity.step e i t).iEn = (latest starting i t).getD e.iEn :=
    register_run (f := Entity.iEn) iEn_step t
  rw [← henable, ← hstart, ← iEOT_iff]
  cases hi : (i t).nReset with
  | true =>
    simp only [irqLine, Entity.settle, irq, hi, if_true, Bool.and_eq_true, true_and]
    tauto
  | false => simp [irqLine, Entity.settle, irq, Entity.reset, hi]

end Line

end CyclonRtes.Counter
