import Mathlib.Tactic.Common
import CyclonRtes.Synchronous.Run

/-!
# Programs that are interrupted

A processor runs a main program and one interrupt service routine over a device.  In every clock
cycle it makes at most one step: of the routine if that has begun, otherwise of the main program, or
it begins the routine if the interrupt line is high.  When the steps are made is up to the schedule,
except that a step which continues a bus access is made at once.

`Code` is the program, `Device` is what it runs on.  `State.step_cases` says once what a cycle can
do, and `run_invariant_of_moves` is the induction rule that follows from it.
-/

namespace Interrupts

open Synchronous

/-- What the processor would do in a clock cycle if it could. -/
inductive Turn where
  | pause
  /-- It makes the next step of the program that it runs. -/
  | go
  /-- It begins the interrupt service routine. -/
  | interrupt
  deriving DecidableEq, Repr

/-- A device: its clock edge under the inputs `β` of its environment and an access `α` of the
processor, what it shows to the processor, and its interrupt line. -/
structure Device (δ α β ρ : Type*) where
  step : δ → β → Option α → δ
  view : δ → ρ
  irq : δ → Bool

/-- A main program with the state `μ` and an interrupt service routine with the steps `ι`. -/
structure Code (μ ι α ρ : Type*) where
  mainAccess : μ → Option α
  /-- The next step continues a bus access. -/
  mainHolds : μ → Bool
  mainStep : ρ → μ → μ
  /-- The first step of the routine. -/
  entry : ι
  isrAccess : ι → Option α
  /-- The next step of the routine continues a bus access. -/
  isrHolds : ι → Bool
  isrStep : ρ → ι → μ → Option ι × μ

/-- The device, the main program, and the next step of the routine if it runs. -/
structure State (μ ι δ : Type*) where
  device : δ
  main : μ
  isr : Option ι
  deriving DecidableEq, Repr

/-- What happens in a clock cycle. -/
structure Schedule (β : Type*) where
  turn : Turn
  env : β
  deriving DecidableEq, Repr

/-- What the processor does in a clock cycle. -/
inductive Move (ι : Type*) where
  | stall
  | main
  | isr (pc : ι)
  | enter
  deriving DecidableEq, Repr

variable {μ ι δ α β ρ : Type*}

namespace State

/-- The next step continues a bus access. -/
def holds (C : Code μ ι α ρ) (s : State μ ι δ) : Bool :=
  match s.isr with
  | some pc => C.isrHolds pc
  | none => C.mainHolds s.main

/-- What the processor does in the cycle. -/
def move (C : Code μ ι α ρ) (D : Device δ α β ρ) (s : State μ ι δ) (x : Schedule β) : Move ι :=
  match s.isr with
  | some pc => if C.isrHolds pc || x.turn == .go then .isr pc else .stall
  | none =>
    if C.mainHolds s.main || x.turn == .go then .main
    else if x.turn == .interrupt && D.irq s.device then .enter
    else .stall

/-- The access of the cycle. -/
def access (C : Code μ ι α ρ) (D : Device δ α β ρ) (s : State μ ι δ) (x : Schedule β) : Option α :=
  match s.move C D x with
  | .stall | .enter => none
  | .main => C.mainAccess s.main
  | .isr pc => C.isrAccess pc

/-- One clock cycle. -/
def step (C : Code μ ι α ρ) (D : Device δ α β ρ) (s : State μ ι δ) (x : Schedule β) :
    State μ ι δ :=
  let device := D.step s.device x.env (s.access C D x)
  match s.move C D x with
  | .stall => ⟨device, s.main, s.isr⟩
  | .main => ⟨device, C.mainStep (D.view s.device) s.main, none⟩
  | .isr pc =>
    let (isr, main) := C.isrStep (D.view s.device) pc s.main
    ⟨device, main, isr⟩
  | .enter => ⟨device, s.main, some C.entry⟩

variable {C : Code μ ι α ρ} {D : Device δ α β ρ} {s : State μ ι δ} {x : Schedule β} {pc : ι}

/-- The device makes a step with the access of the cycle. -/
lemma device_step : (s.step C D x).device = D.step s.device x.env (s.access C D x) := by
  unfold step
  split <;> rfl

/-- The processor pauses only between two accesses. -/
lemma holds_of_move_stall (h : s.move C D x = .stall) : s.holds C = false := by
  unfold move at h
  unfold holds
  cases hisr : s.isr with
  | none =>
    simp only [hisr] at h ⊢
    split_ifs at h
    simp_all
  | some pc =>
    simp only [hisr] at h ⊢
    split_ifs at h
    simp_all

/-- The main program makes a step only if the routine does not run. -/
lemma isr_of_move_main (h : s.move C D x = .main) : s.isr = none := by
  unfold move at h
  cases hisr : s.isr with
  | none => rfl
  | some pc =>
    simp only [hisr] at h
    split_ifs at h

/-- The routine makes the step that is next. -/
lemma isr_of_move_isr (h : s.move C D x = .isr pc) : s.isr = some pc := by
  unfold move at h
  cases hisr : s.isr with
  | none =>
    simp only [hisr] at h
    split_ifs at h
  | some pc' =>
    simp only [hisr] at h
    split_ifs at h
    rw [Move.isr.inj h]

/-- The routine begins only if it does not run already, between two accesses, and when the interrupt
line is high. -/
lemma of_move_enter (h : s.move C D x = .enter) :
    s.isr = none ∧ s.holds C = false ∧ D.irq s.device = true := by
  unfold move at h
  unfold holds
  cases hisr : s.isr with
  | none =>
    simp only [hisr] at h ⊢
    split_ifs at h
    simp_all
  | some pc =>
    simp only [hisr] at h
    split_ifs at h

/-- What a clock cycle can do. -/
lemma step_cases (C : Code μ ι α ρ) (D : Device δ α β ρ) (s : State μ ι δ) (x : Schedule β) :
    (s.move C D x = .stall ∧ s.holds C = false ∧
      s.step C D x = ⟨D.step s.device x.env none, s.main, s.isr⟩) ∨
    (s.move C D x = .main ∧ s.isr = none ∧
      s.step C D x = ⟨D.step s.device x.env (C.mainAccess s.main),
        C.mainStep (D.view s.device) s.main, none⟩) ∨
    (∃ pc, s.move C D x = .isr pc ∧ s.isr = some pc ∧
      s.step C D x = ⟨D.step s.device x.env (C.isrAccess pc),
        (C.isrStep (D.view s.device) pc s.main).2, (C.isrStep (D.view s.device) pc s.main).1⟩) ∨
    (s.move C D x = .enter ∧ s.isr = none ∧ s.holds C = false ∧ D.irq s.device = true ∧
      s.step C D x = ⟨D.step s.device x.env none, s.main, some C.entry⟩) := by
  cases hm : s.move C D x with
  | stall => exact .inl ⟨rfl, holds_of_move_stall hm, by simp [step, access, hm]⟩
  | main => exact .inr (.inl ⟨rfl, isr_of_move_main hm, by simp [step, access, hm]⟩)
  | isr pc =>
    exact .inr (.inr (.inl ⟨pc, rfl, isr_of_move_isr hm, by simp [step, access, hm]⟩))
  | enter =>
    obtain ⟨hnone, hholds, hirq⟩ := of_move_enter hm
    exact .inr (.inr (.inr ⟨rfl, hnone, hholds, hirq, by simp [step, access, hm]⟩))

end State

section Run

variable {C : Code μ ι α ρ} {D : Device δ α β ρ} {s : State μ ι δ} {x : ℕ → Schedule β}

/-- The induction rule: what holds at the beginning and is kept by a pause, by every step of the
main program while the routine does not run, by every step of the routine, and by its beginning when
the interrupt line is high, holds in every cycle. -/
theorem run_invariant_of_moves {P : State μ ι δ → Prop} (h0 : P s)
    (hstall : ∀ s env, P s → s.holds C = false → P ⟨D.step s.device env none, s.main, s.isr⟩)
    (hmain : ∀ s env, P s → s.isr = none →
      P ⟨D.step s.device env (C.mainAccess s.main), C.mainStep (D.view s.device) s.main, none⟩)
    (hisr : ∀ s env pc, P s → s.isr = some pc →
      P ⟨D.step s.device env (C.isrAccess pc), (C.isrStep (D.view s.device) pc s.main).2,
        (C.isrStep (D.view s.device) pc s.main).1⟩)
    (henter : ∀ s env, P s → s.isr = none → s.holds C = false → D.irq s.device = true →
      P ⟨D.step s.device env none, s.main, some C.entry⟩) (t : ℕ) :
    P (run (State.step C D) s x t) := by
  refine run_invariant (A := fun _ => True) h0 (fun r y _ ih => ?_) (fun _ => trivial) t
  obtain ⟨-, hholds, h⟩ | ⟨-, hnone, h⟩ | ⟨pc, -, hpc, h⟩ | ⟨-, hnone, hholds, hirq, h⟩ :=
    State.step_cases C D r y
  · rw [h]
    exact hstall r _ ih hholds
  · rw [h]
    exact hmain r _ ih hnone
  · rw [h]
    exact hisr r _ pc ih hpc
  · rw [h]
    exact henter r _ ih hnone hholds hirq

end Run

end Interrupts
