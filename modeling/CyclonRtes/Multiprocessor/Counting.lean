import Mathlib.Data.List.Basic
import CyclonRtes.Multiprocessor.Protocol

/-!
# No increment is lost, shown twice or shown out of order

The mutex admits one processor at a time to the part of the program between `lock` and `unlock`, so
the run is at every moment either before an increment or in the middle of one (`Stage`).  From this
invariant follows that the two programs count in order for every interleaving of their accesses
(`countsInOrder`).
-/

namespace CyclonRtes.Multiprocessor

open Synchronous

variable {μ : Type*}

/-! ## One access to the counter -/

section Counter

variable {e : Counter.Entity} {p : SlavePort}

/-- A cycle in which nothing is written leaves the count as it is. -/
lemma iCounter_of_not_writes (hp : p.writes = false) :
    (e.sharedStep ⟨true, p⟩).iCounter = e.iCounter := by
  simp [Counter.Entity.sharedStep, Counter.Entity.settle, Counter.sharedPRegWr, hp]

/-- A write to the add register adds one to the count. -/
lemma iCounter_of_add :
    (e.sharedStep ⟨true, .iowr32Direct counterAddWrAdress 1⟩).iCounter = e.iCounter + 1 := rfl

/-- A read of the count shows it in the next cycle. -/
lemma readData_of_read :
    (e.sharedStep ⟨true, .iord32Direct counterValueRdAdress⟩).readData = e.iCounter := rfl

/-- In each cycle the count goes up by the number of additions. -/
lemma iCounter_step (M : MutexDriver μ) (s : System μ) (x : Schedule) :
    (s.step M x).counter.iCounter =
      s.counter.iCounter + BitVec.ofNat 32 (s.adds x).length := by
  unfold System.step System.port System.adds
  cases hb : s.busy with
  | true =>
    have hread := iCounter_of_not_writes (e := s.counter)
      (SlavePort.writes_iord32Direct counterValueRdAdress)
    cases x.turn <;> simp [hread]
  | false =>
    cases x.turn with
    | none => simp [iCounter_of_not_writes (SlavePort.writes_deselect _)]
    | some c =>
      cases hpc : (s.cpu c).pc with
      | add => simpa [CpuPc.access, hpc] using iCounter_of_add
      | read | readHold =>
        simpa [CpuPc.access, hpc] using iCounter_of_not_writes (SlavePort.writes_iord32Direct _)
      | lock | led | unlock =>
        simpa [CpuPc.access, hpc] using iCounter_of_not_writes (SlavePort.writes_deselect _)

end Counter

/-! ## The values shown -/

/-- The LED writes that follow the additions of the processors of a list. -/
def display (c₀ : Word) (l : List Cpu) : List (Cpu × Word) :=
  l.zipIdx.map fun p => (p.1, c₀ + BitVec.ofNat 32 (p.2 + 1))

/-- One more addition is shown by one more LED write. -/
lemma display_concat (c₀ : Word) (l : List Cpu) (c : Cpu) :
    display c₀ (l ++ [c]) = display c₀ l ++ [(c, c₀ + BitVec.ofNat 32 (l.length + 1))] := by
  simp [display, List.zipIdx_append]

/-- The `j`-th LED write belongs to the `j`-th addition. -/
lemma getElem?_display (c₀ : Word) (l : List Cpu) (j : ℕ) :
    (display c₀ l)[j]? = l[j]?.map fun c => (c, c₀ + BitVec.ofNat 32 (j + 1)) := by
  simp [display, List.getElem?_zipIdx, Option.map_map, Function.comp_def]

/-- Every addition is shown once. -/
lemma length_display (c₀ : Word) (l : List Cpu) : (display c₀ l).length = l.length := by
  simp [display]

/-! ## The invariant -/

/-- Processor `c` is the one between `lock` and `unlock`: it holds the mutex, and the other one is
waiting for it or elsewhere in its program. -/
structure Inside (M : MutexDriver μ) (s : System μ) (c : Cpu) : Prop where
  holder : M.holder s.mutex = some c
  others : ∀ d, d ≠ c → (s.cpu d).pc = .lock

/-- How far processor `c` has come with its increment; `l` are the additions and `w` the LED writes
so far. -/
def Phase (c₀ : Word) (s : System μ) (c : Cpu) (l : List Cpu) (w : List (Cpu × Word)) : Prop :=
  match (s.cpu c).pc with
  | .lock => False
  | .add | .unlock => w = display c₀ l
  | .read => ∃ l', l = l' ++ [c] ∧ w = display c₀ l'
  | .readHold => (∃ l', l = l' ++ [c] ∧ w = display c₀ l') ∧ s.counter.readData = s.counter.iCounter
  | .led => (∃ l', l = l' ++ [c] ∧ w = display c₀ l') ∧ (s.cpu c).value = s.counter.iCounter

/-- The stages of a run: no processor is between `lock` and `unlock`, or one is. -/
inductive Stage (M : MutexDriver μ) (c₀ : Word) (s : System μ) (l : List Cpu)
    (w : List (Cpu × Word)) : Prop where
  | outside (hs : s.Initial) (hw : w = display c₀ l)
  | inside (c : Cpu) (hc : Inside M s c) (hp : Phase c₀ s c l w)

section Step

variable {M : MutexDriver μ} {c₀ : Word} {s : System μ} {x : Schedule} {c d : Cpu} {l : List Cpu}
  {w : List (Cpu × Word)}

/-- The counter is busy when the processor inside is in the middle of a read. -/
lemma Inside.busy (h : Inside M s c) : s.busy = ((s.cpu c).pc == .readHold) := by
  unfold System.busy
  cases c with
  | cpu0 => simp [h.others .cpu1 (by simp)]
  | cpu1 => simp [h.others .cpu0 (by simp)]

/-- The processor that is not inside stays where it is. -/
lemma Inside.cpu_other (h : Inside M s c) (hM : M.Excludes) (hd : d ≠ c) :
    (s.step M x).cpu d = s.cpu d := by
  have hpc := h.others d hd
  have hlock : M.lock d s.mutex = none := hM.blocks h.holder hd.symm
  unfold System.step CpuState.next
  simp [hpc, hlock]

/-- As long as it is not the turn of the processor inside, the mutex does not change. -/
lemma Inside.mutex (h : Inside M s c) (hM : M.Excludes) (hx : x.turn ≠ some c) :
    (s.step M x).mutex = s.mutex := by
  unfold System.step MutexDriver.next
  cases hturn : x.turn with
  | none => rfl
  | some d =>
    have hd : d ≠ c := fun hdc => hx (by rw [hturn, hdc])
    simp [h.others d hd, hM.blocks h.holder hd.symm]

/-- As long as it is not the turn of the processor inside, nothing is added. -/
lemma Inside.adds_eq_nil (h : Inside M s c) (hx : x.turn ≠ some c) : s.adds x = [] := by
  unfold System.adds
  cases hturn : x.turn with
  | none => rfl
  | some d =>
    have hd : d ≠ c := fun hdc => hx (by rw [hturn, hdc])
    simp [h.others d hd]

/-- As long as it is not the turn of the processor inside, nothing is shown. -/
lemma Inside.shows_eq_nil (h : Inside M s c) (hx : x.turn ≠ some c) : s.shows x = [] := by
  unfold System.shows
  cases hturn : x.turn with
  | none => rfl
  | some d =>
    have hd : d ≠ c := fun hdc => hx (by rw [hturn, hdc])
    simp [h.others d hd]

/-- A processor that makes a step is in the next state of its program. -/
lemma cpu_of_moves (h : s.moves x c = true) :
    (s.step M x).cpu c = (s.cpu c).next M c s.mutex s.counter.readData := by
  simp [System.step, h]

/-- A processor that makes no step stays where it is. -/
lemma cpu_of_not_moves (h : s.moves x c = false) : (s.step M x).cpu c = s.cpu c := by
  simp [System.step, h]

/-- Without an addition the count stays as it is. -/
lemma iCounter_of_adds_eq_nil (h : s.adds x = []) :
    (s.step M x).counter.iCounter = s.counter.iCounter := by
  rw [iCounter_step, h]
  simp

/-- The processor inside stays inside until it unlocks the mutex. -/
lemma Inside.step (h : Inside M s c) (hM : M.Excludes) (hlock : (s.cpu c).pc ≠ .lock)
    (hunlock : (s.cpu c).pc ≠ .unlock) : Inside M (s.step M x) c := by
  constructor
  · by_cases hx : x.turn = some c
    · have hmutex : (s.step M x).mutex = s.mutex := by
        unfold System.step MutexDriver.next
        rw [hx]
        cases hpc : (s.cpu c).pc <;> simp_all
      rw [hmutex]
      exact h.holder
    · rw [h.mutex hM hx]
      exact h.holder
  · intro d hd
    rw [h.cpu_other hM hd]
    exact h.others d hd

/-- While nobody is inside, a processor may go inside. -/
lemma stage_of_outside (hM : M.Excludes) (hs : s.Initial) (hw : w = display c₀ l) :
    Stage M c₀ (s.step M x) (l ++ s.adds x) (w ++ s.shows x) := by
  have hadds : s.adds x = [] := by
    unfold System.adds
    cases x.turn <;> simp [hs _]
  have hshows : s.shows x = [] := by
    unfold System.shows
    cases x.turn <;> simp [hs _]
  have hmoves : ∀ d, s.moves x d = (x.turn == some d) := by
    intro d
    unfold System.moves
    rw [hs d]
  rw [hadds, hshows, List.append_nil, List.append_nil]
  cases hx : x.turn with
  | none =>
    refine .outside ?_ hw
    intro d
    rw [cpu_of_not_moves (by rw [hmoves, hx]; rfl)]
    exact hs d
  | some c =>
    have hother : ∀ d, d ≠ c → ((s.step M x).cpu d).pc = .lock := by
      intro d hd
      rw [cpu_of_not_moves (by rw [hmoves, hx]; simpa using hd.symm)]
      exact hs d
    have hcpu : (s.step M x).cpu c = (s.cpu c).next M c s.mutex s.counter.readData :=
      cpu_of_moves (by rw [hmoves, hx]; simp)
    cases hlock : M.lock c s.mutex with
    | none =>
      refine .outside ?_ hw
      intro d
      by_cases hd : d = c
      · subst hd
        rw [hcpu]
        simp [CpuState.next, hs d, hlock]
      · exact hother d hd
    | some m =>
      have hpc : ((s.step M x).cpu c).pc = .add := by
        rw [hcpu]
        simp [CpuState.next, hs c, hlock]
      have hmutex : (s.step M x).mutex = m := by
        simp [System.step, MutexDriver.next, hx, hs c, hlock]
      refine .inside c ⟨?_, hother⟩ ?_
      · rw [hmutex]
        exact hM.holder_lock hlock
      · rw [Phase, hpc]
        exact hw

/-- When it is not the turn of the processor inside, its increment stays where it is, unless a read
is to be completed. -/
lemma stage_of_still (hM : M.Excludes) (hc : Inside M s c) (hp : Phase c₀ s c l w)
    (hx : x.turn ≠ some c) (hhold : (s.cpu c).pc ≠ .readHold) :
    Stage M c₀ (s.step M x) (l ++ s.adds x) (w ++ s.shows x) := by
  have hadds := hc.adds_eq_nil hx
  have hmoves : s.moves x c = false := by
    unfold System.moves
    cases hpc : (s.cpu c).pc <;> simp_all
  have hcpu : (s.step M x).cpu c = s.cpu c := cpu_of_not_moves hmoves
  rw [hadds, hc.shows_eq_nil hx, List.append_nil, List.append_nil]
  refine .inside c ⟨?_, ?_⟩ ?_
  · rw [hc.mutex hM hx]
    exact hc.holder
  · intro d hd
    rw [hc.cpu_other hM hd]
    exact hc.others d hd
  · unfold Phase at hp ⊢
    rw [hcpu, iCounter_of_adds_eq_nil hadds]
    cases hpc : (s.cpu c).pc <;> simp_all

/-- A read is completed in its second cycle. -/
lemma stage_of_readHold (hM : M.Excludes) (hc : Inside M s c) (hp : Phase c₀ s c l w)
    (hpc : (s.cpu c).pc = .readHold) :
    Stage M c₀ (s.step M x) (l ++ s.adds x) (w ++ s.shows x) := by
  rw [Phase, hpc] at hp
  obtain ⟨hl, hread⟩ := hp
  have hadds : s.adds x = [] := by
    by_cases hx : x.turn = some c
    · simp [System.adds, hx, hpc]
    · exact hc.adds_eq_nil hx
  have hshows : s.shows x = [] := by
    by_cases hx : x.turn = some c
    · simp [System.shows, hx, hpc]
    · exact hc.shows_eq_nil hx
  have hcpu : (s.step M x).cpu c = ⟨.led, s.counter.readData⟩ := by
    rw [cpu_of_moves (by simp [System.moves, hpc])]
    simp [CpuState.next, hpc]
  rw [hadds, hshows, List.append_nil, List.append_nil]
  refine .inside c (hc.step hM (by simp [hpc]) (by simp [hpc])) ?_
  rw [Phase, hcpu]
  exact ⟨hl, by rw [iCounter_of_adds_eq_nil hadds, hread]⟩

/-- When it is the turn of the processor inside, its increment goes on. -/
lemma stage_of_turn (hM : M.Excludes) (hc : Inside M s c) (hp : Phase c₀ s c l w)
    (hcount : s.counter.iCounter = c₀ + BitVec.ofNat 32 l.length) (hx : x.turn = some c)
    (hhold : (s.cpu c).pc ≠ .readHold) :
    Stage M c₀ (s.step M x) (l ++ s.adds x) (w ++ s.shows x) := by
  have hbusy : s.busy = false := by
    rw [hc.busy]
    simpa using hhold
  have hmoves : s.moves x c = true := by
    unfold System.moves
    cases hpc : (s.cpu c).pc <;> simp [hx, hbusy]
  have hcpu := cpu_of_moves (M := M) hmoves
  have hadds : s.adds x = if (s.cpu c).pc = .add then [c] else [] := by
    simp [System.adds, hx, hbusy]
  have hshows : s.shows x = if (s.cpu c).pc = .led then [(c, (s.cpu c).value)] else [] := by
    simp [System.shows, hx]
  unfold CpuState.next at hcpu
  unfold Phase at hp
  cases hpc : (s.cpu c).pc with
  | lock => simp [hpc] at hp
  | readHold => exact absurd hpc hhold
  | add =>
    simp only [hpc] at hp hcpu
    rw [hadds, hshows, if_pos hpc, if_neg (by simp [hpc]), List.append_nil]
    refine .inside c (hc.step hM (by simp [hpc]) (by simp [hpc])) ?_
    rw [Phase, hcpu]
    exact ⟨l, rfl, hp⟩
  | read =>
    simp only [hpc] at hp hcpu
    have hnil : s.adds x = [] := by rw [hadds, if_neg (by simp [hpc])]
    have hport : s.port x = .iord32Direct counterValueRdAdress := by
      simp [System.port, hbusy, hx, hpc, CpuPc.access]
    rw [hnil, hshows, if_neg (by simp [hpc]), List.append_nil, List.append_nil]
    refine .inside c (hc.step hM (by simp [hpc]) (by simp [hpc])) ?_
    rw [Phase, hcpu, iCounter_of_adds_eq_nil hnil]
    refine ⟨hp, ?_⟩
    rw [System.step, hport]
    exact readData_of_read
  | led =>
    simp only [hpc] at hp hcpu
    obtain ⟨⟨l', rfl, rfl⟩, hvalue⟩ := hp
    rw [hadds, hshows, if_neg (by simp [hpc]), if_pos hpc, List.append_nil]
    refine .inside c (hc.step hM (by simp [hpc]) (by simp [hpc])) ?_
    rw [Phase, hcpu]
    rw [List.length_append, List.length_singleton] at hcount
    rw [display_concat, hvalue, hcount]
  | unlock =>
    simp only [hpc] at hp hcpu
    rw [hadds, hshows, if_neg (by simp [hpc]), if_neg (by simp [hpc]), List.append_nil,
      List.append_nil]
    refine .outside ?_ hp
    intro d
    by_cases hd : d = c
    · rw [hd, hcpu]
    · rw [hc.cpu_other hM hd]
      exact hc.others d hd

/-- The step lemma: a stage is followed by a stage. -/
lemma Stage.step (hM : M.Excludes) (h : Stage M c₀ s l w)
    (hcount : s.counter.iCounter = c₀ + BitVec.ofNat 32 l.length) :
    Stage M c₀ (s.step M x) (l ++ s.adds x) (w ++ s.shows x) := by
  cases h with
  | outside hs hw => exact stage_of_outside hM hs hw
  | inside c hc hp =>
    by_cases hpc : (s.cpu c).pc = .readHold
    · exact stage_of_readHold hM hc hp hpc
    · by_cases hx : x.turn = some c
      · exact stage_of_turn hM hc hp hcount hx hpc
      · exact stage_of_still hM hc hp hx hpc

end Step

/-! ## Runs -/

section Run

variable {M : MutexDriver μ} {s : System μ} {x : ℕ → Schedule} {t : ℕ}

/-- Each cycle adds its additions to those before it. -/
lemma additions_succ : additions M s x (t + 1) =
    additions M s x t ++ (run (System.step M) s x t).adds (x t) := rfl

/-- Each cycle adds its LED writes to those before it. -/
lemma ledWrites_succ : ledWrites M s x (t + 1) =
    ledWrites M s x t ++ (run (System.step M) s x t).shows (x t) := rfl

/-- After `m` additions the count has gone up by `m`, whatever the mutex does. -/
lemma iCounter_run (M : MutexDriver μ) (s : System μ) (x : ℕ → Schedule) (t : ℕ) :
    (run (System.step M) s x t).counter.iCounter =
      s.counter.iCounter + BitVec.ofNat 32 (additions M s x t).length := by
  induction t with
  | zero => simp [additions]
  | succ t ih =>
    rw [run_succ, iCounter_step, ih, additions_succ, List.length_append, BitVec.ofNat_add,
      BitVec.add_assoc]

/-- The run lemma: every cycle is at one of the stages. -/
theorem stage_run (hM : M.Excludes) (hs : s.Initial) (t : ℕ) :
    Stage M s.counter.iCounter (run (System.step M) s x t) (additions M s x t)
      (ledWrites M s x t) := by
  induction t with
  | zero => exact .outside hs rfl
  | succ t ih =>
    rw [run_succ, additions_succ, ledWrites_succ]
    exact ih.step hM (iCounter_run M s x t)

/-- At each stage the LED writes belong to the additions, except perhaps for the last one. -/
lemma Stage.exists_display {c₀ : Word} {s : System μ} {l : List Cpu} {w : List (Cpu × Word)}
    (h : Stage M c₀ s l w) :
    ∃ l', (l = l' ∨ ∃ c, l = l' ++ [c]) ∧ w = display c₀ l' := by
  cases h with
  | outside hs hw => exact ⟨l, .inl rfl, hw⟩
  | inside c hc hp =>
    unfold Phase at hp
    cases hpc : (s.cpu c).pc <;> simp only [hpc] at hp
    · exact ⟨l, .inl rfl, hp⟩
    · obtain ⟨l', hl, hw⟩ := hp
      exact ⟨l', .inr ⟨c, hl⟩, hw⟩
    · obtain ⟨⟨l', hl, hw⟩, -⟩ := hp
      exact ⟨l', .inr ⟨c, hl⟩, hw⟩
    · obtain ⟨⟨l', hl, hw⟩, -⟩ := hp
      exact ⟨l', .inr ⟨c, hl⟩, hw⟩
    · exact ⟨l, .inl rfl, hp⟩

/-- The two programs count in order, for every initial count and every interleaving of their
accesses, provided that the mutex excludes one processor while the other holds it. -/
theorem countsInOrder (hM : M.Excludes) (hs : s.Initial) (x : ℕ → Schedule) (t : ℕ) :
    CountsInOrder M s x t := by
  obtain ⟨l', hl, hw⟩ := (stage_run (x := x) hM hs t).exists_display
  refine ⟨iCounter_run M s x t, ?_, ?_⟩
  · intro j w hj
    rw [hw, getElem?_display] at hj
    obtain ⟨c, hc, rfl⟩ := Option.map_eq_some_iff.mp hj
    refine ⟨c, ?_, rfl⟩
    rcases hl with hl | ⟨d, hl⟩
    · rw [hl]
      exact hc
    · rw [hl, List.getElem?_append_left (List.getElem?_eq_some_iff.mp hc).1]
      exact hc
  · rw [hw, length_display]
    rcases hl with hl | ⟨d, hl⟩ <;> rw [hl] <;> simp

end Run

/-! ## A run of two increments -/

/-- A mutex that remembers who holds it. -/
def ownerMutex : MutexDriver (Option Cpu) where
  lock c m := if m = none ∨ m = some c then some (some c) else none
  unlock c m := if m = some c then none else m
  holder m := m

/-- That mutex excludes one processor while the other holds it. -/
lemma excludes_ownerMutex : ownerMutex.Excludes := by
  constructor
  · intro c m m' h
    change (if m = none ∨ m = some c then some (some c) else none) = some m' at h
    split_ifs at h
    exact (Option.some.inj h).symm
  · intro c d m h hd
    change m = some d at h
    subst h
    simp [ownerMutex, hd]

/-- The system before the loops, with the count `c₀`. -/
def beforeLoops (c₀ : Word) : System (Option Cpu) where
  counter := ⟨c₀, false, false, false, false, false, 0⟩
  mutex := none
  cpu _ := ⟨.lock, 0⟩

/-- The processors take turns; the second one waits until the first one has unlocked the mutex. -/
def takeTurns (t : ℕ) : Schedule :=
  { turn := some (if t % 2 = 0 then .cpu0 else .cpu1), idlePort := .iowr32Direct 28 5 }

/-- The first two LED writes of that run show the first two increments. -/
theorem countsInOrder_takeTurns :
    ∃ c, (additions ownerMutex (beforeLoops 41) takeTurns 40)[1]? = some c ∧
      (ledWrites ownerMutex (beforeLoops 41) takeTurns 40)[1]? = some (c, 43) := by
  have hled : (ledWrites ownerMutex (beforeLoops 41) takeTurns 40)[1]? = some (.cpu1, 43) := by
    decide +kernel
  obtain ⟨c, hc, hw⟩ :=
    (countsInOrder excludes_ownerMutex (fun _ => rfl) takeTurns 40).shown 1 _ hled
  exact ⟨c, hc, hled.trans (congrArg some hw)⟩

end CyclonRtes.Multiprocessor
