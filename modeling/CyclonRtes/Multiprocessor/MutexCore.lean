import CyclonRtes.Avalon.Port
import CyclonRtes.Locking.Holder
import CyclonRtes.Multiprocessor.Protocol

/-!
# The hardware mutex

The mutex of the multiprocessor system, `soc_system_mutex_0.v`: a register for a value and its
owner.  The mutex is free while the value is zero.  A write to address 0 carries the number of a
processor and a value; it takes effect only if the mutex is free or the number is that of the owner.
The driver that uses the register is not part of the repository.  What is proved here holds for any
software in which every processor writes only its own number.

`Entity.holder` is the abstract lock that the register implements (`holder_step`).  From the general
facts about such locks follow mutual exclusion (`mutualExclusion`) and what a processor that writes
and later reads the register back can conclude from what it reads (`attemptReadBack_iff`).
-/

namespace CyclonRtes.Multiprocessor.MutexCore

open Synchronous Locking

/-- The registers of the mutex. -/
structure Entity where
  mutexValue : BitVec 16
  mutexOwner : BitVec 16
  resetReg : Bool
  deriving DecidableEq, Repr

/-- The inputs of the mutex in one clock cycle, and the number of the processor that the bus
connects to it. -/
structure Inputs where
  resetN : Bool
  cpu : BitVec 16
  address : Bool
  chipselect : Bool
  dataFromCpu : Word
  read : Bool
  write : Bool
  deriving DecidableEq, Repr

/-- The processor with number `cpu` writes its number and `value` to the mutex register. -/
def Inputs.writeMutex (cpu value : BitVec 16) : Inputs :=
  { resetN := true, cpu := cpu, address := false, chipselect := true, dataFromCpu := cpu ++ value,
    read := false, write := true }

/-- The processor with number `cpu` reads the mutex register. -/
def Inputs.readMutex (cpu : BitVec 16) : Inputs :=
  { resetN := true, cpu := cpu, address := false, chipselect := true, dataFromCpu := 0,
    read := true, write := false }

/-- The bits 31 to 16 of the written data. -/
def Inputs.owner (x : Inputs) : BitVec 16 := x.dataFromCpu.extractLsb' 16 16

/-- The bits 15 to 0 of the written data. -/
def Inputs.value (x : Inputs) : BitVec 16 := x.dataFromCpu.extractLsb' 0 16

/-- The cycle is a write to the mutex register. -/
def Inputs.writesMutex (x : Inputs) : Bool := x.chipselect && x.write && !x.address

/-- The cycle is a read of the mutex register. -/
def Inputs.readsMutex (x : Inputs) : Bool := x.chipselect && x.read && !x.address

/-- A write carries the number of its processor. -/
lemma owner_writeMutex (c v : BitVec 16) : (Inputs.writeMutex c v).owner = c :=
  BitVec.extractLsb'_append_eq_left

/-- A write carries its value. -/
lemma value_writeMutex (c v : BitVec 16) : (Inputs.writeMutex c v).value = v :=
  BitVec.extractLsb'_append_eq_right

namespace Entity

/-- `mutex_free`. -/
def mutexFree (e : Entity) : Bool := e.mutexValue == 0

/-- `owner_valid`. -/
def ownerValid (e : Entity) (x : Inputs) : Bool := e.mutexOwner == x.owner

/-- `mutex_reg_enable`. -/
def mutexRegEnable (e : Entity) (x : Inputs) : Bool :=
  (e.mutexFree || e.ownerValid x) && x.chipselect && x.write && !x.address

/-- `reset_reg_enable`. -/
def resetRegEnable (x : Inputs) : Bool := x.chipselect && x.write && x.address

/-- `mutex_state`. -/
def mutexState (e : Entity) : Word := e.mutexOwner ++ e.mutexValue

/-- `data_to_cpu`. -/
def dataToCpu (e : Entity) (x : Inputs) : Word :=
  if x.address then (if e.resetReg then 1 else 0) else e.mutexState

/-- The registers after a reset. -/
def reset : Entity := ⟨0, 0, true⟩

/-- One rising edge of `clk`. -/
def step (e : Entity) (x : Inputs) : Entity :=
  if x.resetN then
    { mutexValue := if e.mutexRegEnable x then x.value else e.mutexValue
      mutexOwner := if e.mutexRegEnable x then x.owner else e.mutexOwner
      resetReg := if resetRegEnable x then false else e.resetReg }
  else reset

/-- The number of the processor that holds the mutex. -/
def holder (e : Entity) : Option (BitVec 16) := if e.mutexFree then none else some e.mutexOwner

end Entity

/-! ## The register is a lock -/

/-- What a cycle asks of the lock: writing a value other than zero attempts to take it, writing zero
releases it. -/
def Inputs.request (x : Inputs) : Option (Request (BitVec 16)) :=
  if x.writesMutex then some (if x.value = 0 then .release x.owner else .attempt x.owner) else none

section Edge

variable {e : Entity} {x : Inputs}

/-- Without a write to it the mutex register stays as it is. -/
lemma mutexRegEnable_of_not_writes (hw : x.writesMutex = false) : e.mutexRegEnable x = false := by
  unfold Inputs.writesMutex at hw
  unfold Entity.mutexRegEnable
  rw [Bool.and_assoc, Bool.and_assoc, ← Bool.and_assoc x.chipselect, hw, Bool.and_false]

/-- A write to the mutex register takes effect if the mutex is free or the owner's. -/
lemma mutexRegEnable_of_writes (hw : x.writesMutex = true) :
    e.mutexRegEnable x = (e.mutexFree || e.ownerValid x) := by
  unfold Inputs.writesMutex at hw
  unfold Entity.mutexRegEnable
  rw [Bool.and_assoc, Bool.and_assoc, ← Bool.and_assoc x.chipselect, hw, Bool.and_true]

/-- The refinement: each clock edge without reset serves the request of its cycle. -/
lemma holder_step (hx : x.resetN = true) :
    (e.step x).holder = serve e.holder x.request := by
  unfold Entity.step Inputs.request Entity.holder Entity.mutexFree
  rw [if_pos hx]
  cases hw : x.writesMutex with
  | false => simp [mutexRegEnable_of_not_writes hw, serve]
  | true =>
    rw [mutexRegEnable_of_writes hw]
    unfold Entity.mutexFree Entity.ownerValid
    by_cases hv : x.value = 0#16 <;> by_cases hf : e.mutexValue = 0#16 <;>
      by_cases ho : e.mutexOwner = x.owner <;> simp [hv, hf, ho, serve]

/-- A processor that does not hold the mutex changes neither its value nor its owner while it is
held. -/
lemma mutexState_kept {c : BitVec 16} (hx : x.resetN = true) (hh : e.holder = some c)
    (hw : x.writesMutex = true → x.owner ≠ c) :
    (e.step x).mutexState = e.mutexState := by
  have hdisabled : e.mutexRegEnable x = false := by
    cases hwr : x.writesMutex with
    | false => exact mutexRegEnable_of_not_writes hwr
    | true =>
      unfold Entity.holder at hh
      split_ifs at hh with hfree
      obtain rfl := Option.some.inj hh
      simp [mutexRegEnable_of_writes hwr, hfree, Entity.ownerValid, (hw hwr).symm]
  simp [Entity.step, Entity.mutexState, hx, hdisabled]

/-- A write that finds the mutex free or its own sets value and owner. -/
lemma mutexState_of_attempt (hx : x.resetN = true) (hw : x.writesMutex = true)
    (hh : e.holder = none ∨ e.holder = some x.owner) :
    (e.step x).mutexState = x.owner ++ x.value := by
  have henabled : e.mutexRegEnable x = true := by
    rw [mutexRegEnable_of_writes hw]
    unfold Entity.holder at hh
    unfold Entity.ownerValid
    cases hfree : e.mutexFree <;> simp_all
  simp [Entity.step, Entity.mutexState, hx, henabled]

/-- The register tells its holder. -/
lemma holder_of_mutexState {c v : BitVec 16} (h : e.mutexState = c ++ v) (hv : v ≠ 0) :
    e.holder = some c := by
  have howner : e.mutexOwner = c := by
    simpa only [Entity.mutexState, BitVec.extractLsb'_append_eq_left] using
      congrArg (BitVec.extractLsb' 16 16) h
  have hvalue : e.mutexValue = v := by
    simpa only [Entity.mutexState, BitVec.extractLsb'_append_eq_right] using
      congrArg (BitVec.extractLsb' 0 16) h
  simpa [Entity.holder, Entity.mutexFree, howner, hvalue] using hv

end Edge

/-! ## Runs -/

/-- The processor that the bus connects writes no other number than its own. -/
def Inputs.WritesOwn (x : Inputs) : Prop := x.writesMutex = true → x.owner = x.cpu

/-- Processor `c` knows in cycle `t` that it holds the mutex: it has read its own number and a value
other than zero, and it has not written zero since. -/
def Knows (e : Entity) (x : ℕ → Inputs) (c : BitVec 16) (t : ℕ) : Prop :=
  ∃ u < t, ((x u).cpu = c ∧ (x u).readsMutex = true ∧
    ∃ v : BitVec 16, v ≠ 0 ∧ (run Entity.step e x u).dataToCpu (x u) = c ++ v) ∧
    ∀ w, u ≤ w → w < t → ¬ ((x w).cpu = c ∧ (x w).writesMutex = true ∧ (x w).value = 0)

section Run

variable {e : Entity} {x : ℕ → Inputs} {c : BitVec 16} {t u : ℕ}

/-- The refinement of runs: the mutex register is the lock that serves the requests. -/
lemma holder_run (hx : ∀ t, (x t).resetN = true) (t : ℕ) :
    (run Entity.step e x t).holder = run serve e.holder (fun u => (x u).request) t := by
  induction t with
  | zero => rfl
  | succ t ih => rw [run_succ, run_succ, holder_step (hx t), ih]

/-- A read of the mutex register shows its state. -/
lemma dataToCpu_of_reads {y : Inputs} (h : y.readsMutex = true) :
    e.dataToCpu y = e.mutexState := by
  unfold Inputs.readsMutex at h
  simp_all [Entity.dataToCpu]

/-- The requests of a processor are its own. -/
lemma client_of_request {y : Inputs} {r : Request (BitVec 16)} (hown : y.WritesOwn)
    (h : y.request = some r) : y.writesMutex = true ∧ r.client = y.cpu := by
  unfold Inputs.request at h
  split_ifs at h with hw hv
  all_goals
    obtain rfl := Option.some.inj h
    exact ⟨hw, hown hw⟩

/-- Only a processor that writes zero releases the mutex. -/
lemma request_ne_release {y : Inputs} (hown : y.WritesOwn)
    (h : ¬ (y.cpu = c ∧ y.writesMutex = true ∧ y.value = 0)) : y.request ≠ some (.release c) := by
  intro hr
  obtain ⟨hw, hclient⟩ := client_of_request hown hr
  refine h ⟨hclient.symm, hw, ?_⟩
  unfold Inputs.request at hr
  rw [if_pos hw] at hr
  by_contra hv
  rw [if_neg hv] at hr
  exact absurd hr (by simp)

/-- Mutual exclusion: whatever the processors write and read, and in whatever order, a processor
that knows that it holds the mutex does hold it, and no other processor knows the same. -/
theorem mutualExclusion (hx : ∀ t, (x t).resetN = true) (hown : ∀ t, (x t).WritesOwn)
    (hc : Knows e x c t) :
    (run Entity.step e x t).holder = some c ∧ ∀ d, Knows e x d t → d = c := by
  have hholds : ∀ d, Knows e x d t → (run Entity.step e x t).holder = some d := by
    rintro d ⟨u, hut, ⟨-, hread, v, hv, hdata⟩, hkeep⟩
    rw [dataToCpu_of_reads hread] at hdata
    have hu := holder_of_mutexState hdata hv
    rw [holder_run hx] at hu ⊢
    exact holder_kept hut.le hu fun w huw hwt => request_ne_release (hown w) (hkeep w huw hwt)
  refine ⟨hholds c hc, fun d hd => ?_⟩
  exact Option.some.inj ((hholds d hd).symm.trans (hholds c hc))

/-- The processor `c` writes a value other than zero with its number in cycle `t` and does not write
again before it reads the register back in cycle `u`.  It reads what it wrote if and only if the
mutex was free or its own in cycle `t`, whatever the others did in between. -/
theorem attemptReadBack_iff (hx : ∀ t, (x t).resetN = true) (hown : ∀ t, (x t).WritesOwn)
    (ht : (x t).writesMutex = true) (hc : (x t).cpu = c) (hv : (x t).value ≠ 0) (htu : t < u)
    (hread : (x u).readsMutex = true)
    (hquiet : ∀ w, t < w → w < u → (x w).writesMutex = true → (x w).cpu ≠ c) :
    (run Entity.step e x u).dataToCpu (x u) = c ++ (x t).value ↔
      (run Entity.step e x t).holder = none ∨ (run Entity.step e x t).holder = some c := by
  have howner : (x t).owner = c := (hown t ht).trans hc
  have hattempt : (x t).request = some (.attempt c) := by
    unfold Inputs.request
    rw [if_pos ht, if_neg hv, howner]
  have hlock : ∀ w, t < w → w ≤ u → ((run Entity.step e x w).holder = some c ↔
      (run Entity.step e x t).holder = none ∨ (run Entity.step e x t).holder = some c) := by
    intro w htw hwu
    rw [holder_run hx, holder_run hx]
    refine holder_iff_of_attempt hattempt htw fun v htv hvw r hr hrc => ?_
    obtain ⟨hw, hclient⟩ := client_of_request (hown v) hr
    exact hquiet v htv (lt_of_lt_of_le hvw hwu) hw (hclient.symm.trans hrc)
  rw [dataToCpu_of_reads hread]
  constructor
  · intro hdata
    exact (hlock u htu le_rfl).mp (holder_of_mutexState hdata hv)
  · intro hh
    -- the write sets the register, and nobody else can change it as long as `c` holds the mutex
    have hset : (run Entity.step e x (t + 1)).mutexState = c ++ (x t).value := by
      rw [run_succ, mutexState_of_attempt (hx t) ht (by rwa [howner]), howner]
    rw [← hset]
    refine run_kept htu fun w htw hwu => ?_
    rw [run_succ]
    refine mutexState_kept (hx w) ((hlock w htw hwu.le).mpr hh) fun hw => ?_
    rw [hown w hw]
    exact hquiet w htw hwu hw

/-! ### Two processors at the mutex -/

/-- Processor 1 takes the free mutex, processor 2 tries in vain, and both read the register. -/
def contention : ℕ → Inputs
  | 0 => .writeMutex 1 2
  | 1 => .writeMutex 2 2
  | 2 => .readMutex 2
  | _ => .readMutex 1

/-- The mutex is not reset meanwhile. -/
lemma resetN_contention (t : ℕ) : (contention t).resetN = true := by
  unfold contention
  split <;> rfl

/-- Both processors write their own numbers. -/
lemma writesOwn_contention (t : ℕ) : (contention t).WritesOwn :=
  match t with
  | 0 => fun _ => owner_writeMutex 1 2
  | 1 => fun _ => owner_writeMutex 2 2
  | 2 => fun h => absurd h Bool.false_ne_true
  | _ + 3 => fun h => absurd h Bool.false_ne_true

/-- After its read processor 1 is the one that holds the mutex. -/
theorem mutualExclusion_contention :
    (run Entity.step Entity.reset contention 4).holder = some 1 ∧
      ∀ d, Knows Entity.reset contention d 4 → d = 1 := by
  refine mutualExclusion resetN_contention writesOwn_contention
    ⟨3, by decide, ⟨by decide, by decide, 2, by decide, by decide⟩, ?_⟩
  intro w hw hw4
  obtain rfl : w = 3 := by omega
  decide

/-- Processor 1 reads back what it has written. -/
theorem attemptReadBack_iff_contention :
    (run Entity.step Entity.reset contention 3).dataToCpu (contention 3) =
      (1 : BitVec 16) ++ (2 : BitVec 16) := by
  refine (attemptReadBack_iff (t := 0) resetN_contention writesOwn_contention (by decide)
    (by decide) (by decide) (by decide) (by decide) fun w h0 h3 => ?_).mpr (.inl (by decide))
  obtain rfl | rfl : w = 1 ∨ w = 2 := by omega
  all_goals decide

end Run

/-! ## The lock of the programs -/

section Driver

variable {number : Cpu → BitVec 16} {value : BitVec 16}

/-- A driver that takes the mutex by writing and reading back, with `number` for the numbers of the
processors.  Both accesses are one step here: by `attemptReadBack_iff` the read tells what the write
has found. -/
def writeAndReadBack (number : Cpu → BitVec 16) (value : BitVec 16) : MutexDriver Entity where
  lock c m :=
    let m' := m.step (.writeMutex (number c) value)
    if m'.dataToCpu (.readMutex (number c)) = number c ++ value then some m' else none
  unlock c m := m.step (.writeMutex (number c) 0)
  holder m :=
    if m.holder = some (number .cpu0) then some .cpu0
    else if m.holder = some (number .cpu1) then some .cpu1
    else none

/-- The driver tells the processor whose number is in the register. -/
lemma holder_writeAndReadBack (hn : Function.Injective number) {m : Entity} {c : Cpu} :
    (writeAndReadBack number value).holder m = some c ↔ m.holder = some (number c) := by
  have hne : number .cpu0 ≠ number .cpu1 := fun h => by simpa using hn h
  simp only [writeAndReadBack]
  split_ifs with h0 h1
  · cases c <;> simp [h0, hne]
  · cases c <;> simp [h1, hne.symm]
  · cases c <;> simp [h0, h1]

/-- The hardware mutex gives what the counting programs rely on, if the processors have different
numbers and the driver writes a value other than zero. -/
theorem excludes_writeAndReadBack (hn : Function.Injective number) (hv : value ≠ 0) :
    (writeAndReadBack number value).Excludes := by
  constructor
  · intro c m m' h
    rw [holder_writeAndReadBack hn]
    simp only [writeAndReadBack] at h
    split_ifs at h with hdata
    obtain rfl := Option.some.inj h
    exact holder_of_mutexState hdata hv
  · intro c d m h hdc
    rw [holder_writeAndReadBack hn] at h
    -- the write of `c` is ignored, and what it reads back has the number of `d`
    have hkept : (m.step (.writeMutex (number c) value)).mutexState = m.mutexState := by
      refine mutexState_kept rfl h fun _ hcd => hdc (hn ?_)
      rw [← hcd, owner_writeMutex]
    simp only [writeAndReadBack]
    refine if_neg fun hdata => hdc (hn ?_)
    rw [dataToCpu_of_reads rfl, hkept] at hdata
    exact Option.some.inj (h.symm.trans (holder_of_mutexState hdata hv))

end Driver

end CyclonRtes.Multiprocessor.MutexCore
