import CyclonRtes.Multiprocessor.Counting
import CyclonRtes.Multiprocessor.MutexCore
import CyclonRtes.Synchronous.Fairness

/-!
# The two processors go on counting

A mutex that is granted when it is free, and is free when its holder has unlocked it, keeps the two
programs going: under every schedule in which each processor has its turn again and again, the LEDs
show one count after the other, without end and without a gap (`showsEveryCount`).  No processor is
promised a share of its own; the other one may be faster each time.

`MutexDriver.Grants` is what this asks of the driver, beyond `MutexDriver.Excludes`.  The hardware
mutex gives it (`grants_writeAndReadBack`).
-/

namespace CyclonRtes.Multiprocessor

open Synchronous

variable {μ : Type*}

/-- A free mutex is granted to whoever asks for it, and unlocking the mutex frees it. -/
structure MutexDriver.Grants (M : MutexDriver μ) (free : μ → Prop) : Prop where
  lock : ∀ c {m}, free m → ∃ m', M.lock c m = some m'
  unlock : ∀ {c m}, M.holder m = some c → free (M.unlock c m)

/-! ## The measure -/

/-- The steps that a processor which has the mutex makes until it adds again, counted from `add`;
before `lock` it has two of them to make. -/
def CpuPc.rank : CpuPc → ℕ
  | .add => 1
  | .lock => 2
  | .unlock => 3
  | .led => 4
  | .readHold => 5
  | .read => 6

namespace System

/-- The measure of the system. -/
def rank (s : System μ) : ℕ := (s.cpu .cpu0).pc.rank + (s.cpu .cpu1).pc.rank

/-- The processors whose turn brings the next addition closer: the one that is past `lock`, or both
if there is none. -/
def owed (s : System μ) : Set Cpu := {c | (s.cpu c).pc ≠ .lock ∨ s.Initial}

end System

/-- No processor is past `lock` and the mutex is free, or one is and holds it. -/
def Running (M : MutexDriver μ) (free : μ → Prop) (s : System μ) : Prop :=
  s.Initial ∧ free s.mutex ∨ ∃ c, Inside M s c ∧ (s.cpu c).pc ≠ .lock

section Step

variable {M : MutexDriver μ} {free : μ → Prop} {s s' : System μ} {x : Schedule} {c : Cpu}

/-- Past `lock` every step but the addition takes one off the rank. -/
lemma rank_next {m : μ} {d : Word} {st : CpuState} (hlock : st.pc ≠ .lock) (hadd : st.pc ≠ .add) :
    (st.next M c m d).pc.rank < st.pc.rank := by
  cases hpc : st.pc <;> simp_all [CpuState.next, CpuPc.rank]

/-- The rank drops with the rank of one processor. -/
lemma rank_lt (hother : ∀ d, d ≠ c → s'.cpu d = s.cpu d)
    (hc : (s'.cpu c).pc.rank < (s.cpu c).pc.rank) : s'.rank < s.rank := by
  unfold System.rank
  cases c with
  | cpu0 => rw [hother .cpu1 (by simp)]; omega
  | cpu1 => rw [hother .cpu0 (by simp)]; omega

/-- Before `lock` a processor makes its step when it is its turn. -/
lemma moves_of_lock (h : (s.cpu c).pc = .lock) : s.moves x c = (x.turn == some c) := by
  unfold System.moves
  rw [h]

/-- The processor that gets the free mutex goes on to its addition, the other one stays. -/
lemma step_of_initial (hM : M.Excludes) (hG : M.Grants free) (hs : s.Initial)
    (hfree : free s.mutex) (hx : x.turn = some c) :
    Inside M (s.step M x) c ∧ ((s.step M x).cpu c).pc = .add ∧
      ∀ d, d ≠ c → (s.step M x).cpu d = s.cpu d := by
  obtain ⟨m, hlock⟩ := hG.lock c hfree
  have hother : ∀ d, d ≠ c → (s.step M x).cpu d = s.cpu d := fun d hd =>
    cpu_of_not_moves (by rw [moves_of_lock (hs d), hx]; simpa using hd.symm)
  have hmutex : (s.step M x).mutex = m := by
    simp [System.step, MutexDriver.next, hx, hs c, hlock]
  refine ⟨⟨?_, fun d hd => ?_⟩, ?_, hother⟩
  · rw [hmutex]
    exact hM.holder_lock hlock
  · rw [hother d hd]
    exact hs d
  · rw [cpu_of_moves (by rw [moves_of_lock (hs c), hx]; simp)]
    simp [CpuState.next, hs c, hlock]

/-- Without a turn a system before `lock` stays as it is. -/
lemma step_of_no_turn (hs : s.Initial) (hx : x.turn = none) :
    (s.step M x).cpu = s.cpu ∧ (s.step M x).mutex = s.mutex := by
  refine ⟨funext fun d => cpu_of_not_moves ?_, by simp [System.step, hx]⟩
  rw [moves_of_lock (hs d), hx]
  rfl

/-- A processor inside that has its turn makes its step, and so does one that completes a read. -/
lemma moves_of_inside (hc : Inside M s c) (h : x.turn = some c ∨ (s.cpu c).pc = .readHold) :
    s.moves x c = true := by
  have hbusy := hc.busy
  unfold System.moves
  cases hpc : (s.cpu c).pc <;> simp_all

/-- When the processor inside unlocks the mutex, nobody is inside and the mutex is free. -/
lemma running_of_unlock (hM : M.Excludes) (hG : M.Grants free) (hc : Inside M s c)
    (hpc : (s.cpu c).pc = .unlock) (hx : x.turn = some c) : Running M free (s.step M x) := by
  refine .inl ⟨fun d => ?_, ?_⟩
  · by_cases hd : d = c
    · rw [hd, cpu_of_moves (moves_of_inside hc (.inl hx))]
      simp [CpuState.next, hpc]
    · rw [hc.cpu_other hM hd]
      exact hc.others d hd
  · have hmutex : (s.step M x).mutex = M.unlock c s.mutex := by
      simp [System.step, MutexDriver.next, hx, hpc]
    rw [hmutex]
    exact hG.unlock hc.holder

/-- The step lemma of the invariant. -/
lemma Running.step (hM : M.Excludes) (hG : M.Grants free) (h : Running M free s) :
    Running M free (s.step M x) := by
  rcases h with ⟨hs, hfree⟩ | ⟨c, hc, hlock⟩
  · cases hx : x.turn with
    | none =>
      obtain ⟨hcpu, hmutex⟩ := step_of_no_turn (M := M) hs hx
      exact .inl ⟨fun d => by rw [hcpu]; exact hs d, hmutex ▸ hfree⟩
    | some c =>
      obtain ⟨hc, hpc, -⟩ := step_of_initial hM hG hs hfree hx
      exact .inr ⟨c, hc, by simp [hpc]⟩
  · by_cases hm : s.moves x c = true
    · by_cases hunlock : (s.cpu c).pc = .unlock
      · have hx : x.turn = some c := by simpa [System.moves, hunlock] using hm
        exact running_of_unlock hM hG hc hunlock hx
      · refine .inr ⟨c, hc.step hM hlock hunlock, ?_⟩
        rw [cpu_of_moves hm]
        cases hpc : (s.cpu c).pc <;> simp_all [CpuState.next]
    · rw [Bool.not_eq_true] at hm
      by_cases hunlock : (s.cpu c).pc = .unlock
      · have hx : x.turn ≠ some c := by simpa [System.moves, hunlock] using hm
        refine .inr ⟨c, ⟨?_, fun d hd => ?_⟩, ?_⟩
        · rw [hc.mutex hM hx]
          exact hc.holder
        · rw [hc.cpu_other hM hd]
          exact hc.others d hd
        · rwa [cpu_of_not_moves hm]
      · refine .inr ⟨c, hc.step hM hlock hunlock, ?_⟩
        rwa [cpu_of_not_moves hm]

/-- The step lemma of the measure: without an addition the measure drops, or the processors stay
where they are and no turn was given to one that is owed it. -/
lemma Running.rank_step (hM : M.Excludes) (hG : M.Grants free) (h : Running M free s)
    (hadds : s.adds x = []) :
    (s.step M x).rank < s.rank ∨
      (s.step M x).cpu = s.cpu ∧ ∀ c ∈ s.owed, x.turn ≠ some c := by
  rcases h with ⟨hs, hfree⟩ | ⟨c, hc, hlock⟩
  · cases hx : x.turn with
    | none => exact .inr ⟨(step_of_no_turn hs hx).1, fun _ _ => by simp⟩
    | some c =>
      obtain ⟨-, hpc, hother⟩ := step_of_initial hM hG hs hfree hx
      exact .inl (rank_lt hother (by rw [hpc, hs c]; decide))
  · by_cases hm : s.moves x c = true
    · have hadd : (s.cpu c).pc ≠ .add := by
        intro hpc
        simp only [System.moves, hpc, Bool.and_eq_true, beq_iff_eq, Bool.not_eq_true'] at hm
        simp [System.adds, hm.1, hm.2, hpc] at hadds
      refine .inl (rank_lt (fun d => hc.cpu_other hM) ?_)
      rw [cpu_of_moves hm]
      exact rank_next hlock hadd
    · refine .inr ⟨funext fun d => ?_, fun d hd hx => ?_⟩
      · by_cases hd : d = c
        · rw [hd]
          exact cpu_of_not_moves (by simpa using hm)
        · exact hc.cpu_other hM hd
      · -- only the processor inside is owed a turn
        have hdc : d = c := by
          by_contra hne
          exact hd.elim (fun h => h (hc.others d hne)) fun h => hlock (h c)
        exact hm (moves_of_inside hc (.inl (hdc ▸ hx)))

/-- Somebody is owed a turn. -/
lemma Running.owed_nonempty (h : Running M free s) : s.owed.Nonempty := by
  rcases h with ⟨hs, -⟩ | ⟨c, -, hc⟩
  · exact ⟨.cpu0, .inr hs⟩
  · exact ⟨c, .inl hc⟩

/-- Who is owed a turn is a matter of the processors only. -/
lemma owed_congr (h : s'.cpu = s.cpu) : s'.owed = s.owed := by
  simp [System.owed, System.Initial, h]

/-- So is the measure. -/
lemma rank_congr (h : s'.cpu = s.cpu) : s'.rank = s.rank := by
  simp [System.rank, h]

end Step

section Run

variable {M : MutexDriver μ} {free : μ → Prop} {s : System μ} {x : ℕ → Schedule}

/-- The run lemma of the invariant. -/
lemma running_run (hM : M.Excludes) (hG : M.Grants free) (hs : s.Initial) (hfree : free s.mutex)
    (t : ℕ) : Running M free (run (System.step M) s x t) :=
  run_invariant (A := fun _ => True) (.inl ⟨hs, hfree⟩) (fun _ _ _ h => h.step hM hG)
    (fun _ => trivial) t

/-- Under a fair schedule there is always another addition. -/
lemma exists_adds (hM : M.Excludes) (hG : M.Grants free) (hs : s.Initial) (hfree : free s.mutex)
    (hfair : ∀ c t, ∃ u, t ≤ u ∧ (x u).turn = some c) (t : ℕ) :
    ∃ u, t ≤ u ∧ (run (System.step M) s x u).adds (x u) ≠ [] := by
  have hrun : ∀ k, Running M free (run (System.step M) s x (t + k)) := fun k =>
    running_run hM hG hs hfree _
  obtain ⟨k, hk⟩ := exists_of_fair
    (G := fun k => (run (System.step M) s x (t + k)).adds (x (t + k)) ≠ [])
    (fun k => (run (System.step M) s x (t + k)).rank)
    (fun k => (run (System.step M) s x (t + k)).owed) (fun k c => (x (t + k)).turn = some c)
    (fun k _ => (hrun k).owed_nonempty)
    (fun k hk => by
      refine ((hrun k).rank_step hM hG (not_not.mp hk)).imp_right fun ⟨hcpu, hx⟩ => ?_
      exact ⟨rank_congr hcpu, (owed_congr hcpu).ge, hx⟩)
    fun c k => by
      obtain ⟨u, htu, hu⟩ := hfair c (t + k)
      exact ⟨u - t, by omega, by rwa [Nat.add_sub_cancel' (by omega)]⟩
  exact ⟨t + k, Nat.le_add_right t k, hk⟩

/-- The additions and the LED writes of a run become more, never fewer. -/
lemma length_additions_mono {t u : ℕ} (htu : t ≤ u) :
    (additions M s x t).length ≤ (additions M s x u).length := by
  induction u, htu using Nat.le_induction with
  | base => exact le_rfl
  | succ u htu ih =>
    rw [additions_succ, List.length_append]
    omega

/-- Under a fair schedule there are as many additions as one likes. -/
lemma exists_length_additions (hM : M.Excludes) (hG : M.Grants free) (hs : s.Initial)
    (hfree : free s.mutex) (hfair : ∀ c t, ∃ u, t ≤ u ∧ (x u).turn = some c) (n : ℕ) :
    ∃ t, n ≤ (additions M s x t).length := by
  induction n with
  | zero => exact ⟨0, Nat.zero_le _⟩
  | succ n ih =>
    obtain ⟨t, ht⟩ := ih
    obtain ⟨u, htu, hu⟩ := exists_adds hM hG hs hfree hfair t
    refine ⟨u + 1, ?_⟩
    have hmono := length_additions_mono (M := M) (s := s) (x := x) htu
    have hpos := List.length_pos_iff.mpr hu
    rw [additions_succ, List.length_append]
    omega

/-- The two programs go on counting.  If each processor has its turn again and again, then for every
`n` the LEDs come to show the count after `n + 1` additions, as their `n`-th value counted from
zero. -/
theorem showsEveryCount (hM : M.Excludes) (hG : M.Grants free) (hs : s.Initial)
    (hfree : free s.mutex) (hfair : ∀ c t, ∃ u, t ≤ u ∧ (x u).turn = some c) (n : ℕ) :
    ∃ t c, (ledWrites M s x t)[n]? =
      some (c, s.counter.iCounter + BitVec.ofNat 32 (n + 1)) := by
  obtain ⟨t, ht⟩ := exists_length_additions hM hG hs hfree hfair (n + 2)
  obtain ⟨l, hl, hw⟩ := (stage_run (x := x) hM hs t).exists_display
  have hlen : n < l.length := by
    rcases hl with hl | ⟨c, hl⟩ <;> simp [hl] at ht <;> omega
  refine ⟨t, l.get ⟨n, hlen⟩, ?_⟩
  rw [hw, getElem?_display, List.getElem?_eq_getElem hlen]
  rfl

end Run

/-! ## The hardware mutex -/

/-- The hardware mutex is granted when no number holds it, and is free when its holder has written
zero. -/
lemma MutexCore.grants_writeAndReadBack {number : Cpu → BitVec 16} {value : BitVec 16}
    (hn : Function.Injective number) :
    (MutexCore.writeAndReadBack number value).Grants fun m => m.holder = none := by
  constructor
  · intro c m hfree
    have hset := MutexCore.mutexState_of_attempt (x := .writeMutex (number c) value) rfl rfl
      (.inl hfree)
    rw [MutexCore.owner_writeMutex, MutexCore.value_writeMutex] at hset
    simp only [MutexCore.writeAndReadBack]
    rw [MutexCore.dataToCpu_of_reads rfl, hset, if_pos rfl]
    exact ⟨_, rfl⟩
  · intro c m hc
    rw [MutexCore.holder_writeAndReadBack hn] at hc
    change (m.step (.writeMutex (number c) 0)).holder = none
    have hrequest : (MutexCore.Inputs.writeMutex (number c) 0).request =
        some (.release (number c)) := by
      have hwrites : (MutexCore.Inputs.writeMutex (number c) 0).writesMutex = true := rfl
      rw [MutexCore.Inputs.request, if_pos hwrites, MutexCore.value_writeMutex, if_pos rfl,
        MutexCore.owner_writeMutex]
    rw [MutexCore.holder_step rfl, hrequest, hc]
    simp [Locking.serve]

/-- Two processors with the numbers 1 and 2 at the hardware mutex, before their loops. -/
def atHardwareMutex : System MutexCore.Entity where
  counter := ⟨41, false, false, false, false, false, 0⟩
  mutex := .reset
  cpu _ := ⟨.lock, 0⟩

/-- The numbers of the processors. -/
def cpuNumber : Cpu → BitVec 16
  | .cpu0 => 1
  | .cpu1 => 2

/-- At the hardware mutex and with the processors taking turns, the count 45 is shown after 42, 43
and 44. -/
theorem showsEveryCount_hardwareMutex : ∃ t c,
    (ledWrites (MutexCore.writeAndReadBack cpuNumber 2) atHardwareMutex takeTurns t)[3]? =
      some (c, 45) := by
  have hnumber : Function.Injective cpuNumber := by
    intro c d h
    cases c <;> cases d <;> simp_all [cpuNumber]
  refine showsEveryCount (s := atHardwareMutex)
    (MutexCore.excludes_writeAndReadBack hnumber (by decide))
    (MutexCore.grants_writeAndReadBack hnumber) (fun _ => rfl) (by decide) (fun c t => ?_) 3
  cases c with
  | cpu0 => exact ⟨2 * t, by omega, by simp [takeTurns]⟩
  | cpu1 => exact ⟨2 * t + 1, by omega, by simp [takeTurns, Nat.add_mod]⟩

end CyclonRtes.Multiprocessor
