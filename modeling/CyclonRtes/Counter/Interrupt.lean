import CyclonRtes.Counter.Entity

/-!
# The interrupt of the counter

The interrupt line looks at the end-of-time flag `iEOT`.  The flag is set whenever the clock finds
the count at zero, and cleared by a pulse that follows the clear command one cycle later; setting
has priority.  Two things follow that software has to know.

A counter that stands at zero sets the flag again after every clear command, so that a clear command
at the beginning does not help: the interrupt fires as soon as it is enabled and the counter is
started (`noSpuriousInterrupt_iff`).  And the priority protects an overflow from the clear commands
written before it, but not from a clear command written in the cycle of the overflow, before the
flag could be seen (`overflowKept_iff`).
-/

namespace CyclonRtes.Counter

open Synchronous

section Properties

variable (e : Entity) (i : ℕ → Inputs)

/-- The count has just become zero in cycle `t`. -/
def BecomesZero : ℕ → Prop
  | 0 => False
  | t + 1 => (run Entity.step e i t).iCounter ≠ 0 ∧ (run Entity.step e i (t + 1)).iCounter = 0

/-- After the clear command of cycle `w` the interrupt does not fire, unless the count becomes zero
again. -/
def NoSpuriousInterrupt (w : ℕ) : Prop :=
  (∀ c, w ≤ c → ¬ BecomesZero e i c) →
    ∀ c, w + 2 ≤ c → irq (run Entity.step e i c) = false

/-- The count has just become zero in cycle `t` by counting up. -/
def Overflows : ℕ → Prop
  | 0 => False
  | t + 1 => (run Entity.step e i t).iCounter = BitVec.allOnes 32 ∧
      (run Entity.step e i t).iEn = true ∧ (run Entity.step e i t).iRz = false

/-- The overflow of cycle `c` is seen from the next cycle on, until a later clear command takes
effect. -/
def OverflowKept (c : ℕ) : Prop :=
  ∀ t, c < t → (∀ v, c < v → v + 2 ≤ t → clearCommand (i v) = false) →
    (run Entity.step e i t).iEOT = true

end Properties

/-- The count is not zero, or it counts on from zero at the next clock edge. -/
def LeavesZero (e : Entity) : Prop := e.iCounter ≠ 0 ∨ (e.iEn = true ∧ e.iRz = false)

/-! ## The end-of-time flag -/

section Flag

variable {e : Entity} {i : ℕ → Inputs} {c t w : ℕ}

/-- The end-of-time flag in a run: set at zero, else cleared by the command before, else kept. -/
lemma iEOT_run (hi : ∀ t, (i t).nReset = true) :
    (run Entity.step e i (t + 2)).iEOT =
      if (run Entity.step e i (t + 1)).iCounter = 0 then true
      else if clearCommand (i t) then false else (run Entity.step e i (t + 1)).iEOT := by
  rw [run_succ, step_iEOT (hi _), pInterrupt]
  congr 2
  rw [run_succ, step_iClrEOT (hi t)]

/-- Whether the count becomes zero in a cycle depends on the inputs of the cycles before. -/
lemma becomesZero_congr {i' : ℕ → Inputs} (h : ∀ u < t, i u = i' u) :
    BecomesZero e i t ↔ BecomesZero e i' t := by
  cases t with
  | zero => rfl
  | succ t =>
    rw [BecomesZero, BecomesZero, run_congr h,
      run_congr fun u hu => h u (Nat.lt_succ_of_lt hu)]

/-- After a splice the count becomes zero where it does in the second run. -/
lemma becomesZero_splice {j : ℕ → Inputs} :
    BecomesZero e (splice i j w) (w + (t + 1)) ↔
      BecomesZero (run Entity.step e i w) j (t + 1) := by
  rw [← Nat.add_assoc, BecomesZero, BecomesZero, Nat.add_assoc, run_splice, run_splice]

/-- A count that is not zero in cycle `a` and does not become zero stays so. -/
lemma iCounter_ne_zero {a : ℕ} (ha : (run Entity.step e i a).iCounter ≠ 0)
    (h : ∀ c, a < c → ¬ BecomesZero e i c) (hat : a ≤ t) :
    (run Entity.step e i t).iCounter ≠ 0 := by
  induction t, hat using Nat.le_induction with
  | base => exact ha
  | succ t hat ih => exact fun hzero => h (t + 1) (Nat.lt_succ_of_le hat) ⟨ih, hzero⟩

/-- If a clear pulse finds the count away from zero, and it does not become zero any more, the flag
is cleared for good. -/
lemma iEOT_of_clear (hi : ∀ t, (i t).nReset = true) (hclear : clearCommand (i w) = true)
    (hne : (run Entity.step e i (w + 1)).iCounter ≠ 0)
    (h : ∀ c, w ≤ c → ¬ BecomesZero e i c) (hwt : w + 2 ≤ t) :
    (run Entity.step e i t).iEOT = false := by
  have hcount : ∀ t, w + 1 ≤ t → (run Entity.step e i t).iCounter ≠ 0 := fun t ht =>
    iCounter_ne_zero hne (fun c hc => h c (by omega)) ht
  induction t, hwt using Nat.le_induction with
  | base => rw [iEOT_run hi, if_neg hne, hclear, if_pos rfl]
  | succ t hwt ih =>
    obtain ⟨t, rfl⟩ := Nat.exists_eq_add_of_le' (Nat.one_le_of_lt hwt)
    rw [iEOT_run hi, if_neg (hcount _ (by omega)), ih]
    exact ite_self false

/-- A count that has left zero one cycle after the clear command has not just become zero. -/
lemma iCounter_succ_ne_zero (hi : ∀ t, (i t).nReset = true)
    (h : LeavesZero (run Entity.step e i w)) (hzero : ¬ BecomesZero e i (w + 1)) :
    (run Entity.step e i (w + 1)).iCounter ≠ 0 := by
  intro hcount
  by_cases hw : (run Entity.step e i w).iCounter = 0
  · obtain ⟨hEn, hRz⟩ := h.resolve_left fun hne => hne hw
    rw [run_succ, step_iCounter (hi w), pCounter, hRz, hEn, hw] at hcount
    exact absurd hcount (by decide)
  · exact hzero ⟨hw, hcount⟩

end Flag

/-! ## A spurious interrupt -/

section Spurious

variable {e : Entity} {x : Inputs}

/-- After the clear command `x` the interrupt is enabled, the counter is started, and stopped in the
next cycle. -/
def enableAndStart (x : Inputs) : ℕ → Inputs
  | 0 => x
  | 1 => ⟨true, .iowr32Direct (4 * 4) 1⟩
  | 2 => ⟨true, .iowr32Direct (2 * 4) 0⟩
  | 3 => ⟨true, .iowr32Direct (3 * 4) 0⟩
  | _ => ⟨true, .iord32Direct 0⟩

/-- There is no reset after the clear command. -/
lemma nReset_enableAndStart (hx : x.nReset = true) (t : ℕ) :
    (enableAndStart x t).nReset = true := by
  unfold enableAndStart
  split
  · exact hx
  all_goals rfl

/-- No reset of the count is under way after the clear command. -/
lemma iRz_enableAndStart (hx : x.nReset = true) (hclear : clearCommand x = true) (t : ℕ) :
    (run Entity.step e (enableAndStart x) (t + 1)).iRz = false := by
  rw [run_succ, step_iRz (nReset_enableAndStart hx t)]
  unfold enableAndStart
  split
  · exact (commands_of_clear hclear).1
  all_goals decide

/-- The run flag after the clear command: as before, then set, then cleared. -/
lemma iEn_enableAndStart (hx : x.nReset = true) (hclear : clearCommand x = true) :
    (run Entity.step e (enableAndStart x) 1).iEn = e.iEn ∧
      (run Entity.step e (enableAndStart x) 2).iEn = e.iEn ∧
      (run Entity.step e (enableAndStart x) 3).iEn = true ∧
      ∀ t, (run Entity.step e (enableAndStart x) (t + 4)).iEn = false := by
  have hn := nReset_enableAndStart hx
  have h1 : (run Entity.step e (enableAndStart x) 1).iEn = e.iEn := by
    rw [run_succ, step_iEn (hn 0)]
    exact congrArg (fun o => o.getD e.iEn) (commands_of_clear hclear).2
  refine ⟨h1, ?_, ?_, ?_⟩
  · rw [run_succ, step_iEn (hn 1), h1]
    rfl
  · rw [run_succ, step_iEn (hn 2)]
    rfl
  · intro t
    induction t with
    | zero =>
      rw [run_succ, step_iEn (hn 3)]
      rfl
    | succ t ih =>
      rw [run_succ, step_iEn (hn (t + 4)), ih]
      rfl

/-- A count at zero that is stopped or being reset stays at zero. -/
lemma pCounter_eq_zero (hcount : e.iCounter = 0) (hstays : e.iEn = false ∨ e.iRz = true) :
    pCounter e = 0 := by
  unfold pCounter
  rcases hstays with hstop | hreset
  · simp [hstop, hcount]
  · simp [hreset]

/-- If the clear command finds a count that stays at zero, the count does not become zero again when
the counter is started and stopped. -/
lemma not_becomesZero_enableAndStart (hx : x.nReset = true) (hclear : clearCommand x = true)
    (hcount : e.iCounter = 0) (hstays : e.iEn = false ∨ e.iRz = true) (t : ℕ) :
    ¬ BecomesZero e (enableAndStart x) t := by
  have hstep : ∀ t, (run Entity.step e (enableAndStart x) (t + 2)).iCounter =
      if (run Entity.step e (enableAndStart x) (t + 1)).iEn
      then (run Entity.step e (enableAndStart x) (t + 1)).iCounter + 1
      else (run Entity.step e (enableAndStart x) (t + 1)).iCounter := by
    intro t
    rw [run_succ, step_iCounter (nReset_enableAndStart hx _), pCounter,
      iRz_enableAndStart hx hclear t]
    rfl
  obtain ⟨hEn1, hEn2, hEn3, hEn4⟩ := iEn_enableAndStart (e := e) hx hclear
  have h1 : (run Entity.step e (enableAndStart x) 1).iCounter = 0 := by
    rw [run_succ, step_iCounter (nReset_enableAndStart hx 0)]
    exact pCounter_eq_zero hcount hstays
  have h2 := hstep 0
  have h3 := hstep 1
  have h4 := hstep 2
  rw [hEn1, h1] at h2
  rw [hEn2, h2] at h3
  rw [hEn3, h3, if_pos rfl] at h4
  have hstopped : ∀ t, (run Entity.step e (enableAndStart x) (t + 4)).iCounter ≠ 0 := by
    intro t
    induction t with
    | zero =>
      rw [h4]
      cases e.iEn <;> decide
    | succ t ih =>
      rw [hstep (t + 3), hEn4 t]
      exact ih
  match t with
  | 0 => exact id
  | 1 => exact fun h => h.1 hcount
  | 2 => exact fun h => h.1 h1
  | 3 =>
    intro h
    rw [BecomesZero, h3, h2] at h
    cases hEn : e.iEn <;> simp [hEn] at h
  | t + 4 => exact fun h => hstopped t h.2

/-- If the clear command finds a count that stays at zero, the interrupt fires in the cycle after
the counter has been started. -/
lemma irq_enableAndStart (hx : x.nReset = true) (hclear : clearCommand x = true)
    (hcount : e.iCounter = 0) (hstays : e.iEn = false ∨ e.iRz = true) :
    irq (run Entity.step e (enableAndStart x) 3) = true := by
  have hn := nReset_enableAndStart hx
  have h1 : (run Entity.step e (enableAndStart x) 1).iCounter = 0 := by
    rw [run_succ, step_iCounter (hn 0)]
    exact pCounter_eq_zero hcount hstays
  -- the flag is set again by the count, and the enable command does not clear it
  have hEOT2 : (run Entity.step e (enableAndStart x) 2).iEOT = true := by
    rw [iEOT_run hn, h1, if_pos rfl]
  have hEOT3 : (run Entity.step e (enableAndStart x) 3).iEOT = true := by
    rw [iEOT_run hn, hEOT2]
    exact ite_self true
  have hIRQEn : (run Entity.step e (enableAndStart x) 3).iIRQEn = true := by
    have henable : enableCommand ⟨true, .iowr32Direct (4 * 4) 1⟩ = some true := by decide
    have hstart : enableCommand ⟨true, .iowr32Direct (2 * 4) 0⟩ = none := by decide
    rw [run_succ, step_iIRQEn (hn 2), run_succ, step_iIRQEn (hn 1), enableAndStart, enableAndStart,
      henable, hstart]
    rfl
  rw [irq, hEOT3, hIRQEn, (iEn_enableAndStart hx hclear).2.2.1]
  rfl

/-- A run whose clear command finds a count that stays at zero can be continued so that the
interrupt fires, although the count does not become zero again. -/
lemma exists_spurious {i : ℕ → Inputs} {w : ℕ} (hi : ∀ t, (i t).nReset = true)
    (hclear : clearCommand (i w) = true) (hzero : ¬ BecomesZero e i w)
    (hcount : (run Entity.step e i w).iCounter = 0)
    (hstays : (run Entity.step e i w).iEn = false ∨ (run Entity.step e i w).iRz = true) :
    ∃ i' : ℕ → Inputs, (∀ t, (i' t).nReset = true) ∧ (∀ t ≤ w, i' t = i t) ∧
      ¬ NoSpuriousInterrupt e i' w := by
  let i' : ℕ → Inputs := splice i (enableAndStart (i w)) w
  have htail : ∀ t, i' (w + t) = enableAndStart (i w) t := splice_add i _ w
  have hagree : ∀ t ≤ w, i' t = i t := by
    intro t ht
    rcases Nat.lt_or_eq_of_le ht with hlt | rfl
    · exact splice_of_lt hlt
    · exact htail 0
  refine ⟨i', fun t => ?_, hagree, fun h => ?_⟩
  · rcases Nat.lt_or_ge t w with ht | ht
    · rw [hagree t ht.le]
      exact hi t
    · obtain ⟨k, rfl⟩ := Nat.exists_eq_add_of_le ht
      rw [htail]
      exact nReset_enableAndStart (hi w) k
  · have hquiet : ∀ c, w ≤ c → ¬ BecomesZero e i' c := by
      intro c hc hbz
      obtain ⟨t, rfl⟩ := Nat.exists_eq_add_of_le hc
      cases t with
      | zero => exact hzero ((becomesZero_congr fun u hu => hagree u hu.le).mp hbz)
      | succ t =>
        rw [becomesZero_splice] at hbz
        exact not_becomesZero_enableAndStart (hi w) hclear hcount hstays (t + 1) hbz
    have hirq := h hquiet (w + 3) (by omega)
    rw [run_splice, irq_enableAndStart (hi w) hclear hcount hstays] at hirq
    exact absurd hirq (by simp)

end Spurious

/-- After a clear command the interrupt does not fire, whatever follows, if and only if the count is
not at zero or counts on from zero when the command is written.  The count has not just become zero
in that cycle. -/
theorem noSpuriousInterrupt_iff {e : Entity} {i : ℕ → Inputs} {w : ℕ}
    (hi : ∀ t, (i t).nReset = true) (hclear : clearCommand (i w) = true)
    (hzero : ¬ BecomesZero e i w) :
    (∀ i' : ℕ → Inputs, (∀ t, (i' t).nReset = true) → (∀ t ≤ w, i' t = i t) →
        NoSpuriousInterrupt e i' w) ↔
      LeavesZero (run Entity.step e i w) := by
  constructor
  · intro h
    by_contra hstays
    obtain ⟨hcount, hstays⟩ := not_or.mp hstays
    rw [not_not] at hcount
    rw [not_and_or, Bool.not_eq_true, Bool.not_eq_false] at hstays
    obtain ⟨i', hi', hagree, hspurious⟩ := exists_spurious hi hclear hzero hcount hstays
    exact hspurious (h i' hi' hagree)
  · intro hleaves i' hi' hagree hquiet c hc
    have hsame : run Entity.step e i' w = run Entity.step e i w :=
      run_congr fun u hu => hagree u hu.le
    rw [← hsame] at hleaves
    rw [← hagree w (le_refl w)] at hclear
    have hne := iCounter_succ_ne_zero hi' hleaves (hquiet (w + 1) (Nat.le_succ w))
    rw [irq, iEOT_of_clear hi' hclear hne hquiet hc]
    rfl

/-- A counter whose device has been configured to zero, in the first cycle after a reset. -/
def afterReset : Entity :=
  (⟨0, false, false, false, false, false, 0⟩ : Entity).step ⟨false, .iord32Direct 0⟩

/-- The write of the clear command. -/
def clearWrite : Inputs := ⟨true, .iowr32Direct (5 * 4) 1⟩

/-- Software clears the flag after the reset, enables the interrupt and starts the counter: the
interrupt fires at once. -/
theorem noSpuriousInterrupt_fails_afterReset :
    clearCommand clearWrite = true ∧
      (∀ c, ¬ BecomesZero afterReset (enableAndStart clearWrite) c) ∧
      irq (run Entity.step afterReset (enableAndStart clearWrite) 3) = true ∧
      ¬ NoSpuriousInterrupt afterReset (enableAndStart clearWrite) 0 := by
  have hquiet : ∀ c, ¬ BecomesZero afterReset (enableAndStart clearWrite) c :=
    not_becomesZero_enableAndStart rfl (by decide) (by decide) (.inl (by decide))
  have hirq : irq (run Entity.step afterReset (enableAndStart clearWrite) 3) = true := by decide
  refine ⟨by decide, hquiet, hirq, ?_⟩
  intro h
  exact absurd (hirq.symm.trans (h (fun c _ => hquiet c) 3 (by decide))) (by decide)

/-- A counter that has counted to five with its interrupt enabled; the flag of an earlier overflow
is still set. -/
def countedToFive : Entity := ⟨5, true, false, true, false, true, 0⟩

/-- The flag is cleared while the counter counts on; three cycles later the counter is stopped. -/
def clearAndStop : ℕ → Inputs
  | 0 => clearWrite
  | 3 => ⟨true, .iowr32Direct (3 * 4) 0⟩
  | _ => ⟨true, .iord32Direct 0⟩

/-- Nothing changes any more after the counter has been stopped at nine. -/
lemma run_clearAndStop (t : ℕ) :
    run Entity.step countedToFive clearAndStop (t + 5) =
      ⟨9, false, false, false, false, true, 9⟩ := by
  induction t with
  | zero => decide
  | succ t ih =>
    rw [Nat.add_right_comm, run_succ, ih]
    change Entity.step _ ⟨true, .iord32Direct 0⟩ = _
    decide

/-- The counter is stopped before it comes round to zero. -/
lemma not_becomesZero_clearAndStop (c : ℕ) : ¬ BecomesZero countedToFive clearAndStop c := by
  have hcount : ∀ t, (run Entity.step countedToFive clearAndStop t).iCounter ≠ 0 := by
    intro t
    match t with
    | 0 | 1 | 2 | 3 | 4 => decide
    | t + 5 =>
      rw [run_clearAndStop]
      decide
  cases c with
  | zero => exact id
  | succ c => exact fun h => hcount (c + 1) h.2

/-- The theorem at a counter that has counted to five: the interrupt is still pending one cycle
after the clear command, and then it is silent, although the counter counts on. -/
theorem noSpuriousInterrupt_iff_five :
    irq (run Entity.step countedToFive clearAndStop 1) = true ∧
      (run Entity.step countedToFive clearAndStop 3).iEn = true ∧
      ∀ c, 2 ≤ c → irq (run Entity.step countedToFive clearAndStop c) = false := by
  have hi : ∀ t, (clearAndStop t).nReset = true := fun t => by
    unfold clearAndStop
    split <;> rfl
  have h := (noSpuriousInterrupt_iff (e := countedToFive) (w := 0) hi (by decide) id).mpr
    (.inl (by decide)) clearAndStop hi fun _ _ => rfl
  exact ⟨by decide, by decide, h fun c _ => not_becomesZero_clearAndStop c⟩

/-! ## A lost overflow -/

section Overflow

variable {e : Entity} {i : ℕ → Inputs} {c t : ℕ}

/-- An overflow leaves the count at zero. -/
lemma iCounter_of_overflows (hi : ∀ t, (i t).nReset = true) (h : Overflows e i c) :
    (run Entity.step e i c).iCounter = 0 := by
  cases c with
  | zero => exact h.elim
  | succ c =>
    obtain ⟨hcount, hEn, hRz⟩ := h
    rw [run_succ, step_iCounter (hi c), pCounter, hRz, hEn, hcount]
    decide

/-- In the cycle after the overflow the count is zero, unless it has counted on. -/
lemma iCounter_succ_of_overflows (hi : ∀ t, (i t).nReset = true) (h : Overflows e i c) :
    (run Entity.step e i (c + 1)).iCounter ≠ 0 ↔
      (run Entity.step e i c).iEn = true ∧ (run Entity.step e i c).iRz = false := by
  rw [run_succ, step_iCounter (hi c), pCounter, iCounter_of_overflows hi h]
  cases (run Entity.step e i c).iRz <;> cases (run Entity.step e i c).iEn <;> decide

/-- The overflow of cycle `c` is kept until a later clear command if and only if the cycle of the
overflow carries no clear command, or the count stays at zero in the next cycle. -/
theorem overflowKept_iff (hi : ∀ t, (i t).nReset = true) (h : Overflows e i c) :
    OverflowKept e i c ↔
      ¬ (clearCommand (i c) = true ∧
        (run Entity.step e i c).iEn = true ∧ (run Entity.step e i c).iRz = false) := by
  have hcount := iCounter_of_overflows hi h
  have hfirst : (run Entity.step e i (c + 1)).iEOT = true := by
    rw [run_succ, step_iEOT (hi c), pInterrupt, hcount, if_pos rfl]
  rw [← iCounter_succ_of_overflows hi h]
  constructor
  · rintro hkept ⟨hclear, hne⟩
    have hflag := hkept (c + 2) (by omega) fun v hcv hvt => by omega
    rw [iEOT_run hi, if_neg hne, hclear, if_pos rfl] at hflag
    exact Bool.false_ne_true hflag
  · intro hno t hct hlater
    induction t, hct using Nat.le_induction with
    | base => exact hfirst
    | succ t hct ih =>
      obtain ⟨t, rfl⟩ := Nat.exists_eq_add_of_le' (Nat.one_le_of_lt hct)
      have hprev := ih fun v hcv hvt => hlater v hcv (by omega)
      rw [iEOT_run hi, hprev]
      split_ifs with hzero hclear
      · rfl
      · -- a clear command that takes effect now was written in the cycle of the overflow
        rcases Nat.lt_or_eq_of_le (Nat.le_of_lt_succ (Nat.lt_of_succ_le hct)) with hlt | rfl
        · exact absurd (hclear.symm.trans (hlater t hlt (le_refl _))) (by decide)
        · exact absurd ⟨hclear, hzero⟩ hno
      · rfl

end Overflow

/-- A running counter one cycle before the overflow. -/
def beforeOverflow : Entity := ⟨0xFFFFFFFF, true, false, false, false, true, 0⟩

/-- The clear command is written in the cycle of the overflow and the interrupt is gone after one
cycle. -/
theorem overflowKept_fails_sameCycle :
    let i : ℕ → Inputs := fun t => if t = 1 then clearWrite else ⟨true, .iord32Direct 0⟩
    Overflows beforeOverflow i 1 ∧
      (run Entity.step beforeOverflow i 2).iEOT = true ∧
      (run Entity.step beforeOverflow i 3).iEOT = false ∧ ¬ OverflowKept beforeOverflow i 1 := by
  intro i
  have hgone : (run Entity.step beforeOverflow i 3).iEOT = false := by decide
  refine ⟨⟨by decide, by decide, by decide⟩, by decide, hgone, ?_⟩
  intro hkept
  have hflag := hkept 3 (by decide) fun v hv hv3 => by omega
  exact Bool.false_ne_true (hgone.symm.trans hflag)

/-- The clear command is written in the cycle before the overflow: the flag stays set. -/
theorem overflowKept_iff_cycleBefore :
    let i : ℕ → Inputs := fun t => if t = 0 then clearWrite else ⟨true, .iord32Direct 0⟩
    OverflowKept beforeOverflow i 1 := by
  intro i
  have hi : ∀ t, (i t).nReset = true := by
    intro t
    by_cases ht : t = 0 <;> simp [i, ht, clearWrite]
  have hover : Overflows beforeOverflow i 1 := ⟨by decide, by decide, by decide⟩
  refine (overflowKept_iff hi hover).mpr ?_
  rintro ⟨hclear, -⟩
  exact absurd hclear (by decide)

end CyclonRtes.Counter
