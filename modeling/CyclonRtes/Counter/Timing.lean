import Mathlib.Algebra.BigOperators.Group.List.Defs
import Mathlib.Tactic.IntervalCases
import CyclonRtes.Counter.Entity

/-!
# The counter measures time

A cycle is *running* when the last start or stop command written in a strictly earlier cycle was a
start.  Between two effective reset commands the count goes up by the number of running cycles
(`iCounter_eq_add`), so that the software can read off how long it has been started
(`measuresTime`).  All numbers are modulo `2 ^ 32`.
-/

namespace CyclonRtes.Counter

open Synchronous

/-- Cycle `t` is running. -/
def running (i : ℕ → Inputs) (t : ℕ) : Bool := (latest startStop i t).getD false

/-- No reset command takes effect on the counts of the cycles after `a` up to `c`: a command written
in cycle `u` clears the count of cycle `u + 2`. -/
def Undisturbed (i : ℕ → Inputs) (a c : ℕ) : Prop :=
  ∀ u, a ≤ u + 1 → u + 2 ≤ c → resetCommand (i u) = false

/-- From cycle `a`, in which the counter is stopped, to cycle `c` the counter is started and stopped
in the cycles of the pairs `(s, e)` of the list.  A stop command of a stopped counter and a start
command of a started one may be repeated. -/
def Intervals (i : ℕ → Inputs) : ℕ → List (ℕ × ℕ) → ℕ → Prop
  | a, [], c => a ≤ c ∧ ∀ u, a ≤ u → u < c → startStop (i u) ≠ some true
  | a, (s, e) :: l, c =>
    a ≤ s ∧ s < e ∧ (∀ u, a ≤ u → u < s → startStop (i u) ≠ some true) ∧
      startStop (i s) = some true ∧ (∀ u, s < u → u < e → startStop (i u) ≠ some false) ∧
      startStop (i e) = some false ∧ Intervals i (e + 1) l c

/-- The total length of a list of intervals. -/
def totalLength (l : List (ℕ × ℕ)) : ℕ := (l.map fun p => p.2 - p.1).sum

/-! ## Running cycles -/

section Running

variable {i : ℕ → Inputs} {a c s e : ℕ}

/-- A start or stop command decides whether the next cycle is running. -/
lemma running_succ (t : ℕ) : running i (t + 1) = (startStop (i t)).getD (running i t) :=
  getD_latest_succ false

/-- A stopped counter stays stopped until it is started. -/
lemma running_of_no_start (hac : a ≤ c) (ha : running i a = false)
    (h : ∀ u, a ≤ u → u < c → startStop (i u) ≠ some true) : running i c = false := by
  induction c, hac using Nat.le_induction with
  | base => exact ha
  | succ c hac ih =>
    have hc := h c hac (Nat.lt_succ_self c)
    rw [running_succ, ih fun u hu huc => h u hu (Nat.lt_succ_of_lt huc)]
    cases hcmd : startStop (i c) with
    | none => rfl
    | some b =>
      cases b with
      | true => exact absurd hcmd hc
      | false => rfl

/-- A started counter stays started until it is stopped. -/
lemma running_of_no_stop (hac : a ≤ c) (ha : running i a = true)
    (h : ∀ u, a ≤ u → u < c → startStop (i u) ≠ some false) : running i c = true := by
  induction c, hac using Nat.le_induction with
  | base => exact ha
  | succ c hac ih =>
    have hc := h c hac (Nat.lt_succ_self c)
    rw [running_succ, ih fun u hu huc => h u hu (Nat.lt_succ_of_lt huc)]
    cases hcmd : startStop (i c) with
    | none => rfl
    | some b =>
      cases b with
      | true => rfl
      | false => exact absurd hcmd hc

/-- After a stop command the counter is stopped. -/
lemma running_succ_of_stop (h : startStop (i e) = some false) : running i (e + 1) = false := by
  rw [running_succ, h]
  rfl

/-- While the counter is not started no running cycle is added. -/
lemma highCycles_of_no_start (ha : running i a = false)
    (h : ∀ u, a ≤ u → u + 1 < c → startStop (i u) ≠ some true) :
    highCycles (running i) a c = 0 := by
  apply highCycles_eq_zero
  intro x hax hxc
  exact running_of_no_start hax ha fun u hu hux => h u hu (by omega)

/-- From a start command to the next stop command there are as many running cycles as there are
cycles between the commands. -/
lemma highCycles_of_no_stop (hstart : startStop (i s) = some true)
    (h : ∀ u, s < u → u < e → startStop (i u) ≠ some false) :
    highCycles (running i) (s + 1) (e + 1) = e - s := by
  have hfirst : running i (s + 1) = true := by
    rw [running_succ, hstart]
    rfl
  rw [highCycles_eq_length, Nat.add_sub_add_right]
  intro x hx hxe
  exact running_of_no_stop hx hfirst fun u hu hux => h u hu (by omega)

/-- A list of intervals does not end before it begins. -/
lemma Intervals.le {l : List (ℕ × ℕ)} (h : Intervals i a l c) : a ≤ c := by
  induction l generalizing a with
  | nil => exact h.1
  | cons p l ih =>
    obtain ⟨has, hse, -, -, -, -, hrest⟩ := h
    have := ih hrest
    omega

/-- Over a list of intervals the running cycles add up. -/
theorem highCycles_intervals {l : List (ℕ × ℕ)} (ha : running i a = false)
    (h : Intervals i a l c) : highCycles (running i) a c = totalLength l := by
  induction l generalizing a with
  | nil => exact highCycles_of_no_start ha fun u hu huc => h.2 u hu (by omega)
  | cons p l ih =>
    obtain ⟨s, e⟩ := p
    obtain ⟨has, hse, hquiet, hstart, hnostop, hstop, hrest⟩ := h
    have hec : e + 1 ≤ c := hrest.le
    have hbefore : highCycles (running i) a (s + 1) = 0 :=
      highCycles_of_no_start ha fun u hu hus => hquiet u hu (by omega)
    have hinterval : highCycles (running i) (s + 1) (e + 1) = e - s :=
      highCycles_of_no_stop hstart hnostop
    have hafter : highCycles (running i) (e + 1) c = totalLength l :=
      ih (running_succ_of_stop hstop) hrest
    calc highCycles (running i) a c
        = highCycles (running i) a (s + 1) + highCycles (running i) (s + 1) c :=
          highCycles_add (by omega) (by omega)
      _ = highCycles (running i) a (s + 1) +
            (highCycles (running i) (s + 1) (e + 1) + highCycles (running i) (e + 1) c) := by
          rw [highCycles_add (b := e + 1) (by omega) hec]
      _ = totalLength ((s, e) :: l) := by
          rw [hbefore, hinterval, hafter, Nat.zero_add]
          rfl

end Running

/-! ## The count -/

section Count

variable {e : Entity} {i : ℕ → Inputs} {a c r t : ℕ}

/-- After a reset the run flag says whether the cycle is running. -/
lemma iEn_run (hi : ∀ t, (i t).nReset = true) (he : e.iEn = false) :
    (run Entity.step e i t).iEn = running i t := by
  induction t with
  | zero => exact he
  | succ t ih => rw [run_succ, step_iEn (hi t), ih, running_succ]

/-- The reset pulse of a cycle is the reset command of the cycle before. -/
lemma iRz_run (hi : ∀ t, (i t).nReset = true) :
    (run Entity.step e i (t + 1)).iRz = resetCommand (i t) := by
  rw [run_succ, step_iRz (hi t)]

/-- Where no reset command takes effect there is no reset pulse. -/
lemma iRz_of_undisturbed (hi : ∀ t, (i t).nReset = true) (he : e.iRz = false)
    (h : Undisturbed i a c) (hat : a ≤ t) (htc : t < c) : (run Entity.step e i t).iRz = false := by
  cases t with
  | zero => exact he
  | succ t => rw [iRz_run hi, h t hat htc]

/-- Where no reset command takes effect the count goes up by the number of running cycles. -/
theorem iCounter_eq_add (hi : ∀ t, (i t).nReset = true) (hEn : e.iEn = false)
    (hRz : e.iRz = false) (hac : a ≤ c) (h : Undisturbed i a c) :
    (run Entity.step e i c).iCounter =
      (run Entity.step e i a).iCounter + BitVec.ofNat 32 (highCycles (running i) a c) := by
  induction c, hac using Nat.le_induction with
  | base => simp
  | succ c hac ih =>
    have hprev := ih fun u hu huc => h u hu (by omega)
    rw [run_succ, step_iCounter (hi c), highCycles_succ hac]
    unfold pCounter
    rw [iRz_of_undisturbed hi hRz h hac (Nat.lt_succ_self c), iEn_run hi hEn, hprev]
    cases running i c with
    | false => simp
    | true =>
      rw [if_neg (by simp), if_pos rfl, if_pos rfl, BitVec.ofNat_add, BitVec.add_assoc]
      rfl

/-- A reset command clears the count two cycles later. -/
lemma iCounter_of_resetCommand (hi : ∀ t, (i t).nReset = true)
    (hr : resetCommand (i r) = true) : (run Entity.step e i (r + 2)).iCounter = 0 := by
  rw [run_succ, step_iCounter (hi _)]
  unfold pCounter
  rw [iRz_run hi, hr]
  rfl

/-- A read of the count shows it in the next cycle. -/
lemma readData_of_readsFrom (hi : ∀ t, (i t).nReset = true)
    (hc : (i c).slave.readsFrom 0b000 = true) :
    (run Entity.step e i (c + 1)).readData = (run Entity.step e i c).iCounter := by
  have hread : (i c).slave.reads = true ∧ (i c).slave.address = 0b000 := by
    simpa [SlavePort.readsFrom] using hc
  rw [run_succ, step_readData (hi c)]
  unfold pRegRd
  rw [hread.1, hread.2]
  rfl

end Count

/-! ## Measuring time -/

/-- What the counter, in the state `e` after a reset, owes to software that measures time with
it. -/
structure MeasuresTime (e : Entity) (i : ℕ → Inputs) : Prop where
  /-- After a reset command the count is the number of running cycles since. -/
  count : ∀ r c, resetCommand (i r) = true → r + 2 ≤ c →
    (∀ r', r < r' → r' + 2 ≤ c → resetCommand (i r') = false) →
    (run Entity.step e i c).iCounter = BitVec.ofNat 32 (highCycles (running i) (r + 2) c)
  /-- A read of the count that begins in cycle `c` returns the count of cycle `c`. -/
  read : ∀ c, (i c).slave.readsFrom 0b000 = true →
    (run Entity.step e i (c + 1)).readData = (run Entity.step e i c).iCounter
  /-- A start in cycle `s`, which takes effect on cycle `s + 1`, with the next stop in cycle `t`
  adds `t - s`. -/
  interval : ∀ s t c, startStop (i s) = some true → s < t →
    (∀ u, s < u → u < t → startStop (i u) ≠ some false) → startStop (i t) = some false → t < c →
    (∀ u, t < u → u < c → startStop (i u) ≠ some true) → Undisturbed i (s + 1) c →
    (run Entity.step e i c).iCounter =
      (run Entity.step e i (s + 1)).iCounter + BitVec.ofNat 32 (t - s)
  /-- All reads after a stop agree. -/
  agree : ∀ t c c', startStop (i t) = some false → t < c → c ≤ c' →
    (∀ u, t < u → u < c' → startStop (i u) ≠ some true) → Undisturbed i c c' →
    (i c).slave.readsFrom 0b000 = true → (i c').slave.readsFrom 0b000 = true →
    (run Entity.step e i (c + 1)).readData = (run Entity.step e i (c' + 1)).readData
  /-- Several intervals add up. -/
  intervals : ∀ b l c, running i b = false → Intervals i b l c → Undisturbed i b c →
    (run Entity.step e i c).iCounter =
      (run Entity.step e i b).iCounter + BitVec.ofNat 32 (totalLength l)

/-- After a reset the counter measures time exactly, whatever the slave cycles are. -/
theorem measuresTime (e : Entity) {x : Inputs} (hx : x.nReset = false) {i : ℕ → Inputs}
    (hi : ∀ t, (i t).nReset = true) : MeasuresTime (e.step x) i := by
  obtain ⟨hEn, hRz⟩ := step_of_reset (e := e) hx
  constructor
  · intro r c hr hc hno
    rw [iCounter_eq_add hi hEn hRz hc fun u hu huc => hno u (by omega) huc,
      iCounter_of_resetCommand hi hr]
    exact BitVec.zero_add _
  · intro c hc
    exact readData_of_readsFrom hi hc
  · intro s t c hstart hst hnostop hstop htc hnostart hund
    have hafter : highCycles (running i) (t + 1) c = 0 :=
      highCycles_of_no_start (running_succ_of_stop hstop) fun u hu huc =>
        hnostart u hu (by omega)
    rw [iCounter_eq_add hi hEn hRz (by omega) hund, highCycles_add (b := t + 1) (by omega) htc,
      highCycles_of_no_stop hstart hnostop, hafter]
    rfl
  · intro t c c' hstop htc hcc' hnostart hund hread hread'
    have hstopped : running i c = false :=
      running_of_no_start htc (running_succ_of_stop hstop) fun u hu huc =>
        hnostart u hu (by omega)
    rw [readData_of_readsFrom hi hread, readData_of_readsFrom hi hread',
      iCounter_eq_add hi hEn hRz hcc' hund,
      highCycles_of_no_start hstopped fun u hu huc => hnostart u (by omega) (by omega)]
    simp
  · intro b l c hb hl hund
    rw [iCounter_eq_add hi hEn hRz hl.le hund, highCycles_intervals hb hl]

/-- The count is reset in cycle 0, started in cycle 2 and stopped in cycle 5: a read then returns
three, whatever the registers held at first. -/
theorem measuresTime_threeCycles :
    let e : Entity := ⟨0xFFFFFFFF, true, true, true, true, true, 0xFFFFFFFF⟩
    let x : Inputs := ⟨false, .iord32Direct 0⟩
    let i : ℕ → Inputs := fun t =>
      ⟨true, if t = 0 then .iowr32Direct 4 0 else if t = 2 then .iowr32Direct 8 0
        else if t = 5 then .iowr32Direct 12 0 else .iord32Direct 0⟩
    (run Entity.step (e.step x) i 8).readData = 3 := by
  intro e x i
  have h : MeasuresTime (e.step x) i := measuresTime e rfl fun _ => rfl
  rw [h.read 7 (by decide), h.count 0 7 (by decide) (by decide) fun r hr hrc => ?_]
  · decide
  · have hlt : r < 6 := by omega
    interval_cases r <;> decide

end CyclonRtes.Counter
