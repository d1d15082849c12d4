import CyclonRtes.Counter.Entity

/-!
# The commands of the shared counter

The counter of `multiprocessor` is documented by the comments of its write decoder: a command resets
the count, loads it, adds to it or leaves it unchanged (`documented`).  In this version the process
that carried out the reset command is commented out, so that the command is still decoded and has no
effect on the count (`carriedOut`).

A read after a sequence of commands that starts with a load returns the documented value exactly
when the reset command that matters, the last one after the last load, finds a count of zero
(`commandSemantics_iff`).
-/

namespace CyclonRtes.Counter

open Synchronous

/-- The commands of the write decoder. -/
inductive Command where
  | resetCounter | startRun | stopRun
  | irqEnable (enable : Bool)
  | clearEOT (clear : Bool)
  | load (value : Word)
  | add (value : Word)
  deriving DecidableEq, Repr

/-- The command that a slave cycle writes. -/
def command (p : SlavePort) : Option Command :=
  if p.writes then
    match p.address with
    | 0b001#3 => some .resetCounter
    | 0b010#3 => some .startRun
    | 0b011#3 => some .stopRun
    | 0b100#3 => some (.irqEnable (p.writeData.getLsbD 0))
    | 0b101#3 => some (.clearEOT (p.writeData.getLsbD 0))
    | 0b110#3 => some (.load p.writeData)
    | 0b111#3 => some (.add p.writeData)
    | _ => none
  else none

/-- The commands written in the cycles before cycle `t`, oldest first. -/
def commands (i : ℕ → Inputs) : ℕ → List Command
  | 0 => []
  | t + 1 => commands i t ++ (command (i t).slave).toList

/-- What a command is documented to do to the count. -/
def documented (count : Word) : Command → Word
  | .resetCounter => 0
  | .load value => value
  | .add value => count + value
  | .startRun | .stopRun | .irqEnable _ | .clearEOT _ => count

/-- What a command does to the count. -/
def carriedOut (count : Word) : Command → Word
  | .load value => value
  | .add value => count + value
  | .resetCounter | .startRun | .stopRun | .irqEnable _ | .clearEOT _ => count

/-- The command is a load. -/
def Command.isLoad : Command → Bool
  | .load _ => true
  | _ => false

/-- The sum of the words added by a list of commands. -/
def added : List Command → Word
  | [] => 0
  | .add value :: l => value + added l
  | _ :: l => added l

/-- The last reset command after the last load finds a count of zero: the word of that load and the
words added between the two commands have the sum zero. -/
def ResetsAtZero (l : List Command) : Prop :=
  ∀ pre value mid post, l = pre ++ .load value :: (mid ++ .resetCounter :: post) →
    (∀ c ∈ mid ++ post, c.isLoad = false) → .resetCounter ∉ post → value + added mid = 0

/-! ## The count in a run -/

section Run

variable {e : Entity} {i : ℕ → Inputs} {t : ℕ}

/-- The count after one cycle. -/
lemma sharedStep_iCounter {x : Inputs} (hx : x.nReset = true) :
    (e.sharedStep x).iCounter = (command x.slave).toList.foldl carriedOut e.iCounter := by
  unfold Entity.sharedStep Entity.settle sharedPRegWr command
  rw [hx]
  cases hw : x.slave.writes
  · simp
  · simp only [Bool.not_true, Bool.false_eq_true, if_false, if_true, commandWrite]
    split <;> simp_all [carriedOut]
    split <;> simp_all

/-- The count in a run is what the commands before have made of it. -/
theorem iCounter_sharedRun (hi : ∀ t, (i t).nReset = true) (t : ℕ) :
    (run Entity.sharedStep e i t).iCounter = (commands i t).foldl carriedOut e.iCounter := by
  induction t with
  | zero => rfl
  | succ t ih => rw [run_succ, sharedStep_iCounter (hi t), ih, commands, List.foldl_append]

/-- A read of the count returns what the commands before have made of it. -/
lemma readData_sharedRun (hi : ∀ t, (i t).nReset = true)
    (hread : (i t).slave.readsFrom 0b000 = true) :
    (run Entity.sharedStep e i (t + 1)).readData = (commands i t).foldl carriedOut e.iCounter := by
  have hr : (i t).slave.reads = true ∧ (i t).slave.address = 0b000 := by
    simpa [SlavePort.readsFrom] using hread
  rw [← iCounter_sharedRun hi, run_succ]
  unfold Entity.sharedStep Entity.settle pRegRd
  rw [hi t, hr.1, hr.2]
  rfl

/-- The list of commands begins with that of the first cycle. -/
lemma commands_succ_eq_cons {c : Command} (h : command (i 0).slave = some c) (t : ℕ) :
    ∃ l, commands i (t + 1) = c :: l := by
  induction t with
  | zero => exact ⟨[], by rw [commands, commands, h]; rfl⟩
  | succ t ih =>
    obtain ⟨l, hl⟩ := ih
    exact ⟨l ++ (command (i (t + 1)).slave).toList, by rw [commands, hl, List.cons_append]⟩

end Run

/-! ## Two readings of a list of commands -/

section Fold

variable {l mid post pre : List Command} {count value : Word}

/-- Without a load the commands add to the count. -/
lemma foldl_carriedOut (h : ∀ c ∈ l, c.isLoad = false) :
    l.foldl carriedOut count = count + added l := by
  induction l generalizing count with
  | nil => simp [added]
  | cons c l ih =>
    have hc := h c List.mem_cons_self
    rw [List.foldl_cons, ih fun c hc => h c (List.mem_cons_of_mem _ hc)]
    cases c with
    | load value => exact Bool.noConfusion hc
    | add value => exact BitVec.add_assoc _ _ _
    | _ => rfl

/-- Without a load and a reset the commands are documented to add to the count. -/
lemma foldl_documented (h : ∀ c ∈ l, c.isLoad = false) (hreset : .resetCounter ∉ l) :
    l.foldl documented count = count + added l := by
  induction l generalizing count with
  | nil => simp [added]
  | cons c l ih =>
    have hc := h c List.mem_cons_self
    rw [List.foldl_cons, ih (fun c hc => h c (List.mem_cons_of_mem _ hc))
      fun hmem => hreset (List.mem_cons_of_mem _ hmem)]
    cases c with
    | load value => exact Bool.noConfusion hc
    | resetCounter => exact absurd List.mem_cons_self hreset
    | add value => exact BitVec.add_assoc _ _ _
    | _ => rfl

/-- With a load and a later reset, both the last of their kind, the two readings agree exactly when
the reset finds a count of zero. -/
lemma foldl_eq_iff_of_reset (h : ∀ c ∈ mid ++ post, c.isLoad = false)
    (hreset : .resetCounter ∉ post) :
    (pre ++ .load value :: (mid ++ .resetCounter :: post)).foldl carriedOut count =
        (pre ++ .load value :: (mid ++ .resetCounter :: post)).foldl documented count ↔
      value + added mid = 0 := by
  have hmid : ∀ c ∈ mid, c.isLoad = false := fun c hc => h c (List.mem_append_left _ hc)
  have hpost : ∀ c ∈ post, c.isLoad = false := fun c hc => h c (List.mem_append_right _ hc)
  simp only [List.foldl_append, List.foldl_cons, carriedOut, documented]
  rw [foldl_carriedOut hmid, foldl_carriedOut hpost, foldl_documented hpost hreset]
  exact BitVec.add_left_inj _

/-- A list with an element that satisfies a condition has a last one. -/
lemma exists_last {α : Type*} {P : α → Prop} {l : List α} (h : ∃ a ∈ l, P a) :
    ∃ pre a post, l = pre ++ a :: post ∧ P a ∧ ∀ b ∈ post, ¬ P b := by
  induction l with
  | nil =>
    obtain ⟨a, ha, -⟩ := h
    exact absurd ha List.not_mem_nil
  | cons x l ih =>
    by_cases hl : ∃ a ∈ l, P a
    · obtain ⟨pre, a, post, rfl, ha, hpost⟩ := ih hl
      exact ⟨x :: pre, a, post, rfl, ha, hpost⟩
    · obtain ⟨a, ha, hPa⟩ := h
      rcases List.mem_cons.mp ha with rfl | ha
      · exact ⟨[], a, l, rfl, hPa, fun b hb hPb => hl ⟨b, hb, hPb⟩⟩
      · exact absurd ⟨a, ha, hPa⟩ hl

/-- The two readings of a list that contains a load agree exactly when the reset that matters finds
a count of zero. -/
theorem foldl_eq_iff (h : ∃ c ∈ l, c.isLoad = true) :
    l.foldl carriedOut count = l.foldl documented count ↔ ResetsAtZero l := by
  constructor
  · rintro heq pre value mid post rfl hload hreset
    exact (foldl_eq_iff_of_reset hload hreset).mp heq
  · intro hzero
    obtain ⟨pre, c, rest, rfl, hc, hrest⟩ := exists_last h
    have hrest : ∀ c ∈ rest, c.isLoad = false := fun c hc => by simpa using hrest c hc
    obtain ⟨value, rfl⟩ : ∃ value, c = .load value := by
      cases c <;> simp_all [Command.isLoad]
    by_cases hreset : Command.resetCounter ∈ rest
    · obtain ⟨mid, c, post, rfl, rfl, hpost⟩ :=
        exists_last (P := fun c => c = .resetCounter) ⟨_, hreset, rfl⟩
      have hload : ∀ c ∈ mid ++ post, c.isLoad = false := by
        intro c hc
        rcases List.mem_append.mp hc with hc | hc
        · exact hrest c (List.mem_append_left _ hc)
        · exact hrest c (List.mem_append_right _ (List.mem_cons_of_mem _ hc))
      have hlast : Command.resetCounter ∉ post := fun hmem => hpost _ hmem rfl
      exact (foldl_eq_iff_of_reset hload hlast).mpr (hzero pre value mid post rfl hload hlast)
    · simp only [List.foldl_append, List.foldl_cons, carriedOut, documented]
      rw [foldl_carriedOut hrest, foldl_documented hrest hreset]

end Fold

/-- A read of the shared counter, after a sequence of commands of which the first is a load, returns
the value documented for the sequence if and only if the last reset command after the last load
finds a count of zero. -/
theorem commandSemantics_iff (e : Entity) {i : ℕ → Inputs} (hi : ∀ t, (i t).nReset = true)
    {value : Word} (hload : command (i 0).slave = some (.load value)) {t : ℕ} (ht : 0 < t)
    (hread : (i t).slave.readsFrom 0b000 = true) :
    (run Entity.sharedStep e i (t + 1)).readData = (commands i t).foldl documented 0 ↔
      ResetsAtZero (commands i t) := by
  obtain ⟨t, rfl⟩ := Nat.exists_eq_add_of_lt ht
  obtain ⟨l, hl⟩ := commands_succ_eq_cons hload (0 + t)
  rw [readData_sharedRun hi hread, hl]
  exact foldl_eq_iff ⟨_, List.mem_cons_self, rfl⟩

/-- Five is loaded, then the counter is reset. -/
def loadThenReset (t : ℕ) : Inputs :=
  ⟨true, if t = 0 then .iowr32Direct (6 * 4) 5 else if t = 1 then .iowr32Direct (1 * 4) 0
    else .iord32Direct 0⟩

/-- After the reset command the count is still five. -/
theorem commandSemantics_fails_reset :
    commands loadThenReset 4 = [.load 5, .resetCounter] ∧
      (run Entity.sharedStep ⟨0, false, false, false, false, false, 0⟩ loadThenReset 5).readData =
        5 ∧
      (commands loadThenReset 4).foldl documented 0 = 0 ∧
      (run Entity.sharedStep ⟨0, false, false, false, false, false, 0⟩ loadThenReset 5).readData ≠
        (commands loadThenReset 4).foldl documented 0 := by
  have hread : (run Entity.sharedStep ⟨0, false, false, false, false, false, 0⟩ loadThenReset
      5).readData = 5 := by decide
  have hfold : (commands loadThenReset 4).foldl documented 0 = 0 := by decide
  refine ⟨by decide, hread, hfold, ?_⟩
  rw [hread, hfold]
  decide

/-- The theorem at a load, an addition and a start command. -/
theorem commandSemantics_iff_add :
    let i : ℕ → Inputs := fun t =>
      ⟨true, if t = 0 then .iowr32Direct (6 * 4) 5 else if t = 1 then .iowr32Direct (7 * 4) 3
        else if t = 2 then .iowr32Direct (2 * 4) 0 else .iord32Direct 0⟩
    (run Entity.sharedStep ⟨0, false, false, false, false, false, 0⟩ i 6).readData = 8 := by
  intro i
  have hlist : commands i 5 = [.load 5, .add 3, .startRun] := by decide
  have hzero : ResetsAtZero (commands i 5) := by
    rintro pre value mid post heq - -
    have hmem : Command.resetCounter ∈ commands i 5 := by
      rw [heq]
      simp
    rw [hlist] at hmem
    exact absurd hmem (by decide)
  have hload : command (i 0).slave = some (.load 5) := by decide
  have h := (commandSemantics_iff ⟨0, false, false, false, false, false, 0⟩ (fun _ => rfl)
    hload (by decide) (by decide)).mpr hzero
  rw [h, hlist]
  decide

end CyclonRtes.Counter
