import Mathlib.Data.List.Flatten
import CyclonRtes.Swap.Service
import CyclonRtes.Swap.Termination

/-!
# The memory footprint of a job

Which addresses a job of each variant touches, and in which order.

The length register is documented as the number of array elements, so a job of length `n` should
complete `n` reads and `n` writes in alternation (`ExactFootprint`).  The down counter is tested
after the word has been written, so the machine of `custom_instruction_profiling` always processes
one word more: it meets its documentation on no job that ends (`exactFootprint_never`).

The machine of `burst_mode` is meant to copy one word out of every 44 (`StridedCopy`), but its
address counters advance by 174 instead of 176 bytes.  It does what it is meant to do exactly for
jobs that have no second word (`stridedCopy_iff`).
-/

namespace CyclonRtes.Swap

open Synchronous

/-! ## The word-by-word job -/

/-- A transfer without its data. -/
inductive Access where
  | read (address : Word)
  | write (address : Word)
  deriving DecidableEq, Repr

/-- The access of a transfer. -/
def access : Transfer → Access
  | .read a _ => .read a
  | .write a _ _ => .write a

/-- The accesses of a job on `n` successive words: for each of them a read, then a write. -/
def footprint (source destination : Word) (n : ℕ) : List Access :=
  (List.range n).flatMap fun i => [.read (element source 4 i), .write (element destination 4 i)]

/-- A footprint has two accesses for each word. -/
lemma length_footprint (source destination : Word) (n : ℕ) :
    (footprint source destination n).length = 2 * n := by
  induction n with
  | zero => rfl
  | succ n ih =>
    rw [footprint, List.range_succ, List.flatMap_append, ← footprint, List.length_append, ih]
    rfl

/-- The accesses of the element pairs of a word-by-word job. -/
lemma map_access_pairs (j : Job) (ws : List Word) :
    (j.pairs customInstruction ws).map access = footprint j.source j.destination ws.length := by
  have hidx : List.range ws.length = ws.zipIdx.map Prod.snd := by
    rw [List.zipIdx_map_snd, List.range_eq_range']
  rw [footprint, hidx, List.flatMap_map, Job.pairs, List.map_flatMap]
  rfl

/-- A job that ends has accessed one word more than the length register says. -/
theorem map_access_of_firstRise {e : Entity} {i : ℕ → Inputs} {t : ℕ}
    (hload : e.master.state = .loadParameters) (hreq : Requests e.master)
    (hi : ∀ t, (i t).nReset = true) (ht : FirstRise (finishTrace customInstruction e i) t) :
    (transferLog customInstruction e i (t + 1)).map access =
      footprint e.regs.regAddStart e.regs.resultRegAddStart (e.regs.regLgt.toNat + 1) := by
  obtain ⟨ws, h⟩ := finished_of_firstRise hload hreq hi ht
  rw [h.transfers, map_access_pairs, h.length]
  rfl

/-- The documented footprint of a job that starts in `LOAD_PARAMETERS`: when `finish` next rises,
the master has completed one read and one write for each of the `RegLgt` elements. -/
def ExactFootprint (e : Entity) (i : ℕ → Inputs) : Prop :=
  ∀ t, FirstRise (finishTrace customInstruction e i) t →
    (transferLog customInstruction e i (t + 1)).map access =
      footprint e.regs.regAddStart e.regs.resultRegAddStart e.regs.regLgt.toNat

/-- No job that ends has the documented footprint, whatever its parameters, the memory and the
stalls of the bus are; and every job ends unless the bus stalls for ever. -/
theorem exactFootprint_never {e : Entity} {i : ℕ → Inputs}
    (he : Reachable PowerUp (Entity.step customInstruction) e)
    (hload : e.master.state = .loadParameters) (hi : ∀ t, (i t).nReset = true) :
    (∀ t, FirstRise (finishTrace customInstruction e i) t → ¬ ExactFootprint e i) ∧
      ((∀ t, ∃ u, t ≤ u ∧ (i u).mWaitRequest = false) → ¬ ExactFootprint e i) := by
  have hreq := requests_of_reachable he
  have hne : ∀ t, FirstRise (finishTrace customInstruction e i) t → ¬ ExactFootprint e i := by
    intro t ht hexact
    have hlen := congrArg List.length ((map_access_of_firstRise hload hreq hi ht).symm.trans
      (hexact t ht))
    rw [length_footprint, length_footprint] at hlen
    omega
  constructor
  · exact hne
  · intro hfair
    obtain ⟨t, ht⟩ := exists_firstRise_of_fair hload hreq hi hfair
    exact hne t ht

/-- The call of the driver's own test: one word. -/
def oneWordCall : Call := ⟨0x1000, 0x2000, 1⟩

/-- The machine in `LOAD_PARAMETERS` after a call has been programmed. -/
def loaded (v : Variant) (c : Call) : Entity :=
  run (Entity.step v) Entity.zero (c.inputs 0x12345678) 5

/-- The inputs of a machine that has been programmed and whose bus never stalls. -/
def promptInputs (c : Call) (t : ℕ) : Inputs := c.inputs 0x12345678 (5 + t)

/-- A call can be programmed. -/
lemma reachable_loaded (v : Variant) (c : Call) :
    Reachable PowerUp (Entity.step v) (loaded v c) :=
  reachable_run powerUp_zero _ _

/-- The programmed machine is in `LOAD_PARAMETERS` with the parameters of the call. -/
lemma loaded_spec (v : Variant) (c : Call) :
    (loaded v c).master.state = .loadParameters ∧
      (loaded v c).regs = ⟨c.data, c.size, c.result, false⟩ :=
  run_programming rfl rfl (fun _ => rfl) fun _ _ => rfl

/-- A job of length one reads and writes two words. -/
theorem exactFootprint_fails_oneWord :
    (loaded customInstruction oneWordCall).regs.regLgt = 1 ∧
      FirstRise (finishTrace customInstruction (loaded customInstruction oneWordCall)
        (promptInputs oneWordCall)) 10 ∧
      (transferLog customInstruction (loaded customInstruction oneWordCall)
        (promptInputs oneWordCall) 11).map access =
        [.read 0x1000, .write 0x2000, .read 0x1004, .write 0x2004] ∧
      ¬ ExactFootprint (loaded customInstruction oneWordCall) (promptInputs oneWordCall) := by
  have hrise : FirstRise (finishTrace customInstruction (loaded customInstruction oneWordCall)
      (promptInputs oneWordCall)) 10 := by decide +kernel
  have hlog : (transferLog customInstruction (loaded customInstruction oneWordCall)
      (promptInputs oneWordCall) 11).map access =
      [.read 0x1000, .write 0x2000, .read 0x1004, .write 0x2004] := by decide +kernel
  refine ⟨by decide +kernel, hrise, hlog, ?_⟩
  intro hexact
  have hlen := congrArg List.length (hlog.symm.trans (hexact 10 hrise))
  rw [length_footprint, (loaded_spec _ _).2] at hlen
  exact absurd hlen (by decide)

/-- The theorem at a job of length one. -/
theorem exactFootprint_never_oneWord :
    ¬ ExactFootprint (loaded customInstruction oneWordCall) (promptInputs oneWordCall) :=
  (exactFootprint_never (reachable_loaded _ _) (loaded_spec _ _).1 fun _ => rfl).2
    fun t => ⟨t, le_refl t, rfl⟩

/-! ## The strided copy -/

/-- The address and the data of the read transfers of a list, in order. -/
def reads (l : List Transfer) : List (Word × Word) :=
  l.filterMap fun
    | .read a d => some (a, d)
    | .write _ _ _ => none

/-- The address and the data of the write transfers of a list, in order. -/
def writes (l : List Transfer) : List (Word × Word) :=
  l.filterMap fun
    | .read _ _ => none
    | .write a _ d => some (a, d)

/-- The `i`-th read of a job is at the `i`-th read address. -/
lemma getElem?_reads_pairs (v : Variant) (j : Job) (ws : List Word) (i : ℕ) :
    (reads (j.pairs v ws))[i]? = ws[i]?.map fun w => (j.readAddress v i, w) := by
  have hmap : reads (j.pairs v ws) = ws.zipIdx.map fun x => (j.readAddress v x.2, x.1) := by
    rw [reads, Job.pairs, List.filterMap_flatMap, List.map_eq_flatMap]
    rfl
  rw [hmap, List.getElem?_map, List.getElem?_zipIdx, Option.map_map, Nat.zero_add]
  rfl

/-- The copy that the burst variant is meant for: the `i`-th read is at `D + 176 * i`, the `i`-th
write is at `R + 176 * i` and carries the word of the `i`-th read.  All addresses are then aligned
and element `44 * i` of the result receives element `44 * i` of the data. -/
structure StridedCopy (source destination : Word) (l : List Transfer) : Prop where
  /-- Where the reads go. -/
  readAddress : ∀ i a d, (reads l)[i]? = some (a, d) → a = element source 176 i
  /-- Where the writes go, and what they carry. -/
  writeAddress : ∀ i a d, (writes l)[i]? = some (a, d) →
    a = element destination 176 i ∧ (reads l)[i]? = some (element source 176 i, d)
  /-- Every address is that of a whole word. -/
  aligned : ∀ x ∈ reads l ++ writes l, WordAligned x.1
  /-- In terms of the C arrays. -/
  receives : ∀ i a d, (writes l)[i]? = some (a, d) →
    a = element destination 4 (44 * i) ∧ (reads l)[i]? = some (element source 4 (44 * i), d)

/-- With at most one element the copy is as intended: the strides do not matter yet. -/
lemma stridedCopy_of_single {source destination w : Word} (hs : WordAligned source)
    (hd : WordAligned destination) {l : List Transfer}
    (hl : l = [] ∨ l = [.read source w] ∨ l = [.read source w, .write destination 0b1111 w]) :
    StridedCopy source destination l := by
  rcases hl with rfl | rfl | rfl <;>
    refine ⟨fun i a d h => ?_, fun i a d h => ?_, ?_, fun i a d h => ?_⟩ <;>
    first
    | (cases i <;> simp_all [reads, writes])
    | simp [reads, writes, hs, hd]

/-- The second read of the burst variant misses its address. -/
lemma not_stridedCopy {j : Job} {ws : List Word} (h : 2 ≤ ws.length) :
    ¬ StridedCopy j.source j.destination (j.pairs burstMode ws) := by
  intro hcopy
  have hread := getElem?_reads_pairs burstMode j ws 1
  rw [List.getElem?_eq_getElem h, Option.map_some] at hread
  have hstride : element j.source 174 1 = element j.source 176 1 := hcopy.readAddress _ _ _ hread
  rw [element, element, BitVec.add_right_inj] at hstride
  exact absurd hstride (by decide)

/-- With a length register of zero every transfer up to the rise of `finish` is right. -/
lemma stridedCopy_of_length_zero {e : Entity} {i : ℕ → Inputs}
    (hload : e.master.state = .loadParameters) (hreq : Requests e.master)
    (hi : ∀ t, (i t).nReset = true) (hs : WordAligned e.regs.regAddStart)
    (hd : WordAligned e.regs.resultRegAddStart) (hlgt : e.regs.regLgt = 0) {t : ℕ}
    (ht : ∀ u < t, ¬ Rises (finishTrace burstMode e i) u) :
    StridedCopy e.regs.regAddStart e.regs.resultRegAddStart
      (transferLog burstMode e i (t + 1)) := by
  have hlen : e.regs.job.length.toNat = 0 := by rw [SlaveRegisters.job, hlgt]; rfl
  have hr0 : e.regs.job.readAddress burstMode 0 = e.regs.regAddStart := element_zero _ _
  have hw0 : e.regs.job.writeAddress burstMode 0 = e.regs.resultRegAddStart := element_zero _ _
  rcases progress_or_finished hload hreq hi ht with ⟨ws, h⟩ | ⟨ws, h⟩
  · have hcnt := h.cntLgt
    obtain rfl : ws = [] := List.length_eq_zero_iff.mp (by omega)
    rcases h.transfers with hl | ⟨w, hl⟩
    · exact stridedCopy_of_single (w := 0) hs hd (.inl hl)
    · refine stridedCopy_of_single (w := w) hs hd (.inr (.inl ?_))
      rw [hl, Job.readOf, List.length_nil, hr0]
      rfl
  · have hws := h.length
    obtain ⟨w, rfl⟩ := List.length_eq_one_iff.mp (hws.trans (by rw [hlen]))
    refine stridedCopy_of_single (w := w) hs hd (.inr (.inr ?_))
    rw [h.transfers, ← List.nil_append [w], Job.pairs_concat, Job.readOf, Job.writeOf,
      List.length_nil, hr0, hw0]
    rfl

/-- The job of the burst variant copies as intended exactly when the length register is zero: then
every transfer up to the rise of `finish` is right, and otherwise no job that ends is. -/
theorem stridedCopy_iff {e : Entity} {i : ℕ → Inputs}
    (he : Reachable PowerUp (Entity.step burstMode) e)
    (hload : e.master.state = .loadParameters) (hi : ∀ t, (i t).nReset = true)
    (hs : WordAligned e.regs.regAddStart) (hd : WordAligned e.regs.resultRegAddStart) :
    (e.regs.regLgt = 0 → ∀ t, (∀ u < t, ¬ Rises (finishTrace burstMode e i) u) →
      StridedCopy e.regs.regAddStart e.regs.resultRegAddStart
        (transferLog burstMode e i (t + 1))) ∧
    ∀ t, FirstRise (finishTrace burstMode e i) t →
      (StridedCopy e.regs.regAddStart e.regs.resultRegAddStart
        (transferLog burstMode e i (t + 1)) ↔ e.regs.regLgt = 0) := by
  have hreq := requests_of_reachable he
  refine ⟨fun hlgt t => stridedCopy_of_length_zero hload hreq hi hs hd hlgt, ?_⟩
  intro t ht
  constructor
  · intro hcopy
    obtain ⟨ws, h⟩ := finished_of_firstRise hload hreq hi ht
    by_contra hne
    have hpos : e.regs.job.length.toNat ≠ 0 := fun h0 => hne (BitVec.eq_of_toNat_eq h0)
    have hlen : 2 ≤ ws.length := by
      have := h.length
      omega
    rw [h.transfers] at hcopy
    exact not_stridedCopy (j := e.regs.job) hlen hcopy
  · intro hlgt
    exact stridedCopy_of_length_zero hload hreq hi hs hd hlgt ht.2

/-- The call of `burst/src/main.c`: ten words out of arrays of 440. -/
def tenWordCall : Call := ⟨0x1000, 0x2000, 10⟩

/-- The second read of that call is at byte 174 of the array, which is not an element. -/
theorem stridedCopy_fails_tenWords :
    FirstRise (finishTrace burstMode (loaded burstMode tenWordCall) (promptInputs tenWordCall))
      55 ∧
      (reads (transferLog burstMode (loaded burstMode tenWordCall) (promptInputs tenWordCall)
        56))[1]? = some (0x10AE, 0x12345678) ∧
      ¬ StridedCopy 0x1000 0x2000
        (transferLog burstMode (loaded burstMode tenWordCall) (promptInputs tenWordCall) 56) := by
  have hread : (reads (transferLog burstMode (loaded burstMode tenWordCall)
      (promptInputs tenWordCall) 56))[1]? = some (0x10AE, 0x12345678) := by decide +kernel
  refine ⟨by decide +kernel, hread, ?_⟩
  intro hcopy
  exact absurd (hcopy.readAddress _ _ _ hread) (by decide)

/-- The theorem at the call of `burst/src/main.c`. -/
theorem stridedCopy_iff_tenWords :
    ¬ StridedCopy 0x1000 0x2000
      (transferLog burstMode (loaded burstMode tenWordCall) (promptInputs tenWordCall) 56) := by
  have hregs := (loaded_spec burstMode tenWordCall).2
  have hrise : FirstRise (finishTrace burstMode (loaded burstMode tenWordCall)
      (promptInputs tenWordCall)) 55 := by decide +kernel
  have h := (stridedCopy_iff (reachable_loaded burstMode tenWordCall) (loaded_spec _ _).1
    (fun _ => rfl) (by rw [hregs]; decide) (by rw [hregs]; decide)).2 55 hrise
  rw [hregs] at h
  exact fun hcopy => absurd (h.mp hcopy) (by decide)

end CyclonRtes.Swap
