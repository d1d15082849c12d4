import CyclonRtes.Counter.Entity
import CyclonRtes.ParallelPort.Entity
import CyclonRtes.Synchronous.Observation

/-!
# What a reset leaves behind

A reset of the counter clears the run flag, the reset pulse and the interrupt enable, but neither
the count nor the end-of-time flag.  A reset of the parallel port clears the direction register
only.  The rest can be read after the reset, or seen on the pins and on the interrupt line.

`residue` collects what remains.  Two histories that end with a reset cannot be told apart
afterwards if and only if they have left the same residue (`resetErasesHistory_iff`).
-/

namespace CyclonRtes

open Synchronous

/-! ## The counter -/

namespace Counter

/-- What can be seen of the counter in a cycle: the interrupt line, and the read data that the cycle
leaves. -/
def outputs (e : Entity) (i : Inputs) : Bool × Word :=
  (irq (e.settle i.nReset), (e.step i).readData)

/-- What a reset leaves behind: the count, and the end-of-time flag as the next clock edge sets
it. -/
def residue (e : Entity) : Word × Bool := (e.iCounter, pInterrupt e)

/-- The state after a reset of one or more cycles that has found the residue `r`. -/
structure Released (r : Word × Bool) (e : Entity) : Prop where
  iEn : e.iEn = false
  iRz : e.iRz = false
  iIRQEn : e.iIRQEn = false
  iEOT : e.iEOT = r.2
  residue : residue e = r

/-- Two states that agree in everything that can be seen. -/
structure LooksLike (e e' : Entity) : Prop where
  iEn : e.iEn = e'.iEn
  iRz : e.iRz = e'.iRz
  iIRQEn : e.iIRQEn = e'.iIRQEn
  iEOT : e.iEOT = e'.iEOT
  residue : Counter.residue e = Counter.residue e'

section Step

variable {e e' : Entity} {x : Inputs} {r : Word × Bool}

/-- One reset cycle keeps the residue. -/
lemma residue_step_of_reset (hx : x.nReset = false) : residue (e.step x) = residue e := by
  unfold residue Entity.step Entity.settle pRegWr pCounter pInterrupt Entity.reset
  rw [hx]
  cases e.iClrEOT <;> by_cases hcount : e.iCounter = 0 <;> simp [hcount]

/-- One reset cycle leads to a released state. -/
lemma released_step (hx : x.nReset = false) : Released (residue e) (e.step x) := by
  constructor
  · exact (step_of_reset hx).1
  · exact (step_of_reset hx).2
  · simp [Entity.step, Entity.settle, pRegWr, Entity.reset, hx]
  · simp [Entity.step, Entity.settle, Entity.reset, pInterrupt, residue, hx]
  · exact residue_step_of_reset hx

/-- A reset of one or more cycles leads to a released state. -/
lemma released_of_held {i : ℕ → Inputs} {a c : ℕ} (h : Held (fun x => x.nReset = false) i a c) :
    Released (residue (run Entity.step e i a)) (run Entity.step e i c) := by
  refine h.run (fun x hx => released_step hx) fun s x hx hs => ?_
  rw [← hs.residue]
  exact released_step hx

/-- A read of the status register of a stopped counter shows the end-of-time flag. -/
lemma pRegRd_status (h : e.iEn = false) :
    pRegRd (.iord32Direct (5 * 4)) e = if e.iEOT then 1 else 0 := by
  change ((if e.iEOT then 1 else 0) ||| (if e.iEn then 2 else 0) : Word) = _
  rw [h]
  cases e.iEOT <;> rfl

/-- Released states with the same residue look alike. -/
lemma Released.looksLike (h : Released r e) (h' : Released r e') : LooksLike e e' :=
  ⟨h.iEn.trans h'.iEn.symm, h.iRz.trans h'.iRz.symm, h.iIRQEn.trans h'.iIRQEn.symm,
    h.iEOT.trans h'.iEOT.symm, h.residue.trans h'.residue.symm⟩

/-- States that look alike go on looking alike. -/
lemma LooksLike.step (h : LooksLike e e') (x : Inputs) : LooksLike (e.step x) (e'.step x) := by
  have hcount : e.iCounter = e'.iCounter := congrArg Prod.fst h.residue
  have hflag : pInterrupt e = pInterrupt e' := congrArg Prod.snd h.residue
  cases hx : x.nReset with
  | false =>
    have hs := released_step (e := e) hx
    have hs' := released_step (e := e') hx
    rw [h.residue] at hs
    exact hs.looksLike hs'
  | true =>
    have hc : (e.step x).iCounter = (e'.step x).iCounter := by
      rw [step_iCounter hx, step_iCounter hx, pCounter, pCounter, h.iRz, h.iEn, hcount]
    have hf : (e.step x).iEOT = (e'.step x).iEOT := by
      rw [step_iEOT hx, step_iEOT hx, hflag]
    constructor
    · rw [step_iEn hx, step_iEn hx, h.iEn]
    · rw [step_iRz hx, step_iRz hx]
    · rw [step_iIRQEn hx, step_iIRQEn hx, h.iIRQEn]
    · exact hf
    · unfold Counter.residue pInterrupt
      rw [step_iClrEOT hx, step_iClrEOT hx, hc, hf]

/-- States that look alike have the same outputs. -/
lemma LooksLike.outputs (h : LooksLike e e') (x : Inputs) : outputs e x = outputs e' x := by
  have hcount : e.iCounter = e'.iCounter := congrArg Prod.fst h.residue
  unfold Counter.outputs
  cases hx : x.nReset <;>
    simp [irq, Entity.step, Entity.settle, Entity.reset, pRegRd, hx, h.iEn, h.iIRQEn, h.iEOT,
      hcount]

end Step

/-- After a reset of the counter two histories cannot be told apart if and only if they have left
the same count and, away from zero, the same end-of-time flag. -/
theorem indistinguishable_iff {e e' : Entity} {i i' : ℕ → Inputs} {a c a' c' : ℕ}
    (h : Held (fun x => x.nReset = false) i a c) (h' : Held (fun x => x.nReset = false) i' a' c') :
    Indistinguishable Entity.step outputs (fun x => (x 0).nReset = true)
        (run Entity.step e i c) (run Entity.step e' i' c') ↔
      residue (run Entity.step e i a) = residue (run Entity.step e' i' a') := by
  have hr := released_of_held (e := e) h
  have hr' := released_of_held (e := e') h'
  constructor
  · intro hind
    -- the count and the status register are read in the first cycle
    have hread : ∀ p : SlavePort, pRegRd p (run Entity.step e i c) =
        pRegRd p (run Entity.step e' i' c') := by
      intro p
      have hout := congrArg Prod.snd (hind (fun _ => ⟨true, p⟩) rfl 0)
      exact (step_readData rfl).symm.trans (hout.trans (step_readData rfl))
    have hcount := hread (.iord32Direct (0 * 4))
    have hstatus := hread (.iord32Direct (5 * 4))
    rw [pRegRd_status hr.iEn, pRegRd_status hr'.iEn, hr.iEOT, hr'.iEOT] at hstatus
    have hcount' : (residue (run Entity.step e i c)).1 = (residue (run Entity.step e' i' c')).1 :=
      hcount
    rw [hr.residue, hr'.residue] at hcount'
    exact Prod.ext hcount' (eq_of_flag hstatus)
  · intro hres
    rw [hres] at hr
    exact indistinguishable_of_relation (hr.looksLike hr') (fun _ _ x hs => hs.step x)
      fun _ _ x hs => hs.outputs x

end Counter

/-! ## The parallel port -/

namespace ParallelPort

variable {N : ℕ}

/-- What can be seen of the port in a cycle: what it puts on the pins, the interrupt line, and the
read data that the cycle leaves. -/
def outputs (e : Entity N) (i : Inputs N) : (ℕ → Option Bool) × Bool × Word :=
  (pPort (e.settle i.nReset), irq (e.settle i.nReset), (e.step i).readData)

/-- What a reset leaves behind: the data register and the interrupt enable. -/
def residue (e : Entity N) : BitVec N × Bool := (e.iRegPort, e.iIRQEn)

/-- Two states that agree in everything that can be seen. -/
structure LooksLike (e e' : Entity N) : Prop where
  iRegDir : e.iRegDir = e'.iRegDir
  iRegPort : e.iRegPort = e'.iRegPort
  iIRQEn : e.iIRQEn = e'.iIRQEn

section Step

variable {e e' : Entity N} {x : Inputs N}

/-- States that look alike go on looking alike. -/
lemma LooksLike.step (h : LooksLike e e') (x : Inputs N) : LooksLike (e.step x) (e'.step x) := by
  obtain ⟨dir, port, en, data⟩ := e
  obtain ⟨dir', port', en', data'⟩ := e'
  obtain ⟨rfl, rfl, rfl⟩ : dir = dir' ∧ port = port' ∧ en = en' := ⟨h.1, h.2, h.3⟩
  cases hx : x.nReset with
  | false =>
    rw [step_of_reset hx, step_of_reset hx]
    exact ⟨rfl, rfl, rfl⟩
  | true =>
    rw [step_of_nReset hx, step_of_nReset hx]
    unfold pRegWr
    simp only [Bool.not_true, Bool.false_eq_true, if_false]
    split_ifs
    · split <;> exact ⟨rfl, rfl, rfl⟩
    · exact ⟨rfl, rfl, rfl⟩

/-- States that look alike have the same outputs. -/
lemma LooksLike.outputs (h : LooksLike e e') (x : Inputs N) : outputs e x = outputs e' x := by
  obtain ⟨dir, port, en, data⟩ := e
  obtain ⟨dir', port', en', data'⟩ := e'
  obtain ⟨rfl, rfl, rfl⟩ : dir = dir' ∧ port = port' ∧ en = en' := ⟨h.1, h.2, h.3⟩
  unfold ParallelPort.outputs
  cases hx : x.nReset with
  | false =>
    rw [step_of_reset hx, step_of_reset hx]
    rfl
  | true =>
    rw [step_of_nReset hx, step_of_nReset hx]
    rfl

/-- A read of the data register. -/
lemma pRegRd_data (external : BitVec N) :
    pRegRd (.iord32Direct (1 * 4)) external e = e.iRegPort.setWidth 32 := rfl

/-- A read of the interrupt enable. -/
lemma pRegRd_enable (external : BitVec N) :
    pRegRd (.iord32Direct (3 * 4)) external e = if e.iIRQEn then 1 else 0 := rfl

/-- A reset of one or more cycles clears the direction register and keeps the residue. -/
lemma released_of_held {i : ℕ → Inputs N} {a c : ℕ}
    (h : Held (fun x => x.nReset = false) i a c) :
    (run Entity.step e i c).iRegDir = 0 ∧
      residue (run Entity.step e i c) = residue (run Entity.step e i a) := by
  refine h.run (Q := fun s => s.iRegDir = 0 ∧ residue s = residue (run Entity.step e i a))
    (fun x hx => ?_) fun s x hx hs => ?_
  · rw [step_of_reset hx]
    exact ⟨rfl, rfl⟩
  · rw [step_of_reset hx]
    exact ⟨rfl, hs.2⟩

end Step

/-- After a reset of the parallel port two histories cannot be told apart if and only if they have
left the same data register and the same interrupt enable. -/
theorem indistinguishable_iff (hN : N ≤ 32) {e e' : Entity N} {i i' : ℕ → Inputs N}
    {a c a' c' : ℕ} (h : Held (fun x => x.nReset = false) i a c)
    (h' : Held (fun x => x.nReset = false) i' a' c') :
    Indistinguishable Entity.step outputs (fun x => (x 0).nReset = true)
        (run Entity.step e i c) (run Entity.step e' i' c') ↔
      residue (run Entity.step e i a) = residue (run Entity.step e' i' a') := by
  obtain ⟨hdir, hres⟩ := released_of_held (e := e) h
  obtain ⟨hdir', hres'⟩ := released_of_held (e := e') h'
  rw [← hres, ← hres']
  constructor
  · intro hind
    -- the data register and the interrupt enable are read in the first cycle
    have hread : ∀ p : SlavePort, pRegRd p 0 (run Entity.step e i c) =
        pRegRd p 0 (run Entity.step e' i' c') := by
      intro p
      have hout := congrArg (fun o => o.2.2) (hind (fun _ => ⟨true, p, 0⟩) rfl 0)
      rw [outputs, outputs, run_zero, run_zero, step_of_nReset rfl, step_of_nReset rfl] at hout
      exact hout
    have hport := congrArg (BitVec.setWidth N) (hread (.iord32Direct (1 * 4)))
    rw [pRegRd_data, pRegRd_data, BitVec.setWidth_setWidth_of_le _ hN,
      BitVec.setWidth_setWidth_of_le _ hN, BitVec.setWidth_eq, BitVec.setWidth_eq] at hport
    have hen := hread (.iord32Direct (3 * 4))
    rw [pRegRd_enable, pRegRd_enable] at hen
    exact Prod.ext hport (eq_of_flag hen)
  · intro heq
    have hlike : LooksLike (run Entity.step e i c) (run Entity.step e' i' c') :=
      ⟨hdir.trans hdir'.symm, congrArg Prod.fst heq, congrArg Prod.snd heq⟩
    exact indistinguishable_of_relation hlike (fun _ _ x hs => hs.step x)
      fun _ _ x hs => hs.outputs x

end ParallelPort

/-! ## Both entities -/

/-- What the reset of the two entities erases.  After two histories that each end with a reset of
one or more cycles, no common input sequence tells the two runs apart if and only if, when the reset
came, the two counters agreed on the count and on the end-of-time flag that the next clock edge
leaves, and the two ports on the data register and the interrupt enable. -/
theorem resetErasesHistory_iff {N : ℕ} (hN : N ≤ 32) :
    (∀ (e e' : Counter.Entity) (i i' : ℕ → Counter.Inputs) (a c a' c' : ℕ),
      Held (fun x => x.nReset = false) i a c → Held (fun x => x.nReset = false) i' a' c' →
      (Indistinguishable Counter.Entity.step Counter.outputs (fun x => (x 0).nReset = true)
          (run Counter.Entity.step e i c) (run Counter.Entity.step e' i' c') ↔
        Counter.residue (run Counter.Entity.step e i a) =
          Counter.residue (run Counter.Entity.step e' i' a'))) ∧
    ∀ (e e' : ParallelPort.Entity N) (i i' : ℕ → ParallelPort.Inputs N) (a c a' c' : ℕ),
      Held (fun x => x.nReset = false) i a c → Held (fun x => x.nReset = false) i' a' c' →
      (Indistinguishable ParallelPort.Entity.step ParallelPort.outputs
          (fun x => (x 0).nReset = true)
          (run ParallelPort.Entity.step e i c) (run ParallelPort.Entity.step e' i' c') ↔
        ParallelPort.residue (run ParallelPort.Entity.step e i a) =
          ParallelPort.residue (run ParallelPort.Entity.step e' i' a')) :=
  ⟨fun _ _ _ _ _ _ _ _ h h' => Counter.indistinguishable_iff h h',
    fun _ _ _ _ _ _ _ _ h h' => ParallelPort.indistinguishable_iff hN h h'⟩

/-- A history of the counter: a write to the register at address `w`, two more cycles, then the
reset. -/
def counterHistory (w t : ℕ) : Counter.Inputs :=
  ⟨decide (t ≠ 3), if t = 0 then .iowr32Direct (4 * w) 0 else .iord32Direct 0⟩

/-- A history of the port: a write of `d` to the data register, then the reset. -/
def portHistory (d : Word) (t : ℕ) : ParallelPort.Inputs 8 :=
  ⟨decide (t ≠ 1), .iowr32Direct (1 * 4) d, 0⟩

/-- Configuration of the counter with zeros. -/
def counterZero : Counter.Entity := ⟨0, false, false, false, false, false, 0⟩

/-- Configuration of the port; the interrupt enable starts set. -/
def portZero : ParallelPort.Entity 8 := ⟨0, 0, true, 0⟩

/-- A counter that was started before the reset shows its count after it, and a port shows the data
written before the reset. -/
theorem resetErasesHistory_fails_countAndData :
    (Counter.outputs (run Counter.Entity.step counterZero (counterHistory 2) 4)
        ⟨true, .iord32Direct 0⟩).2 = 2 ∧
      (Counter.outputs (run Counter.Entity.step counterZero (counterHistory 0) 4)
        ⟨true, .iord32Direct 0⟩).2 = 0 ∧
      ¬ Indistinguishable Counter.Entity.step Counter.outputs (fun x => (x 0).nReset = true)
        (run Counter.Entity.step counterZero (counterHistory 2) 4)
        (run Counter.Entity.step counterZero (counterHistory 0) 4) ∧
      ¬ Indistinguishable ParallelPort.Entity.step ParallelPort.outputs
        (fun x => (x 0).nReset = true)
        (run ParallelPort.Entity.step portZero (portHistory 0xAA) 2)
        (run ParallelPort.Entity.step portZero (portHistory 0) 2) := by
  have hcounter : ∀ w, Held (fun x => x.nReset = false) (counterHistory w) 3 4 :=
    fun _ => held_single rfl
  have hport : ∀ d, Held (fun x => x.nReset = false) (portHistory d) 1 2 :=
    fun _ => held_single rfl
  refine ⟨by decide, by decide, ?_, ?_⟩
  · rw [Counter.indistinguishable_iff (hcounter 2) (hcounter 0)]
    decide
  · rw [ParallelPort.indistinguishable_iff (by decide) (hport 0xAA) (hport 0)]
    decide

/-- The counter is started in the cycle before the reset. -/
def startedLate (t : ℕ) : Counter.Inputs := ⟨decide (t ≠ 1), .iowr32Direct (2 * 4) 0⟩

/-- All pins are made outputs in the cycle before the reset. -/
def directedLate (t : ℕ) : ParallelPort.Inputs 8 := ⟨decide (t ≠ 1), .iowr32Direct (0 * 4) 0xFF, 0⟩

/-- The theorem at histories that differ only in what the reset does clear: the counter was started
in the cycle before it, or not, and the port had its direction set, or not. -/
theorem resetErasesHistory_iff_cleared :
    let i' : ℕ → Counter.Inputs := fun t => ⟨decide (t ≠ 1), .iord32Direct 0⟩
    let j' : ℕ → ParallelPort.Inputs 8 := fun t => ⟨decide (t ≠ 1), .iord32Direct 0, 0⟩
    ((run Counter.Entity.step counterZero startedLate 1).iEn = true ∧
      Indistinguishable Counter.Entity.step Counter.outputs (fun x => (x 0).nReset = true)
        (run Counter.Entity.step counterZero startedLate 2)
        (run Counter.Entity.step counterZero i' 2)) ∧
    (run ParallelPort.Entity.step portZero directedLate 1).iRegDir = 0xFF ∧
      Indistinguishable ParallelPort.Entity.step ParallelPort.outputs
        (fun x => (x 0).nReset = true)
        (run ParallelPort.Entity.step portZero directedLate 2)
        (run ParallelPort.Entity.step portZero j' 2) := by
  intro i' j'
  have hcounter := (resetErasesHistory_iff (N := 8) (by decide)).1 counterZero counterZero
    startedLate i' 1 2 1 2 (held_single rfl) (held_single rfl)
  have hport := (resetErasesHistory_iff (N := 8) (by decide)).2 portZero portZero
    directedLate j' 1 2 1 2 (held_single rfl) (held_single rfl)
  exact ⟨⟨by decide, hcounter.mpr (by decide)⟩, by decide, hport.mpr (by decide)⟩

end CyclonRtes
