import CyclonRtes.DmaIn.Entity

/-!
# One word, one bit too long

The bit counter is tested after a bit has been sampled, so a word is taken to be complete when 17
bits have been sampled, and after the word the machine stops in `IDLE` with the counter at 16.
`Stage` says where the machine is at each edge of a run that starts with a word: it samples 17 bits,
writes one word to its address and stops.  The recorder therefore never does what it is for,
whatever the bits and the stalls are (`framing_never`).  The address of its only word is right
(`address_of_start`).
-/

namespace CyclonRtes.DmaIn

open Bits Synchronous

variable {fit : BitVec 17 → BitVec 16} {e : Entity} {i : ℕ → Inputs} {t : ℕ}

/-- The first `t` bits of the stream. -/
def bits (i : ℕ → Inputs) (t : ℕ) : List Bool := (List.range t).map fun u => (i u).adcData

lemma bits_succ (t : ℕ) : bits i (t + 1) = bits i t ++ [(i t).adcData] := by
  simp [bits, List.range_succ]

@[simp] lemma length_bits : (bits i t).length = t := by simp [bits]

/-- What holds at every edge: the entity is in its first word, or has written it, or has stopped. -/
inductive Stage (fit : BitVec 17 → BitVec 16) (e : Entity) (i : ℕ → Inputs) (t : ℕ) : Prop where
  /-- Bit `t` is sampled next. -/
  | reading (ht : t ≤ 16) (hs : (entity fit e i t).state = .readingData)
      (hc : (entity fit e i t).dataCount.toNat = t)
      (hw : (entity fit e i t).writeReg = e.writeReg)
      (hd : ∀ j < t, (entity fit e i t).sampleData.getLsbD j = (i j).adcData)
      (hb : sampled fit e i t = bits i t)
  /-- All 17 bits have been sampled. -/
  | sending (ht : t = 17) (hs : (entity fit e i t).state = .sendWriteRequest)
      (hc : (entity fit e i t).dataCount = 16) (hw : (entity fit e i t).writeReg = e.writeReg)
      (hd : ∀ j < 17, (entity fit e i t).sampleData.getLsbD j = (i j).adcData)
      (hb : sampled fit e i t = bits i 17)
  /-- The word is being written. -/
  | writing (ht : 17 < t) (hs : (entity fit e i t).state = .waitForWrite)
      (hc : (entity fit e i t).dataCount = 16) (ha : (entity fit e i t).mAddress = e.writeReg)
  /-- The word has been written. -/
  | stopped (ht : 17 < t) (hs : (entity fit e i t).state = .idle)
      (hc : (entity fit e i t).dataCount = 16)

/-- The registers after one more edge. -/
lemma entity_succ (t : ℕ) : entity fit e i (t + 1) = (entity fit e i t).step fit (i t) := rfl

/-- A bit that is sampled is kept with the others. -/
lemma sampled_of_readingData (hs : (entity fit e i t).state = .readingData) :
    sampled fit e i (t + 1) = sampled fit e i t ++ [(i t).adcData] := by
  simp only [sampled, hs]

/-- Assigning the bit that comes next keeps the ones before. -/
lemma getLsbD_assignBit_next {w : BitVec 17} (ht : t < 17)
    (hd : ∀ j < t, w.getLsbD j = (i j).adcData) {j : ℕ} (hj : j < t + 1) :
    (assignBit w t (i t).adcData).getLsbD j = (i j).adcData := by
  rw [getLsbD_assignBit _ _ (by omega)]
  by_cases hjt : t = j
  · rw [if_pos hjt, hjt]
  · rw [if_neg hjt]
    exact hd j (by omega)

/-- A bit is sampled: either another one follows, or this was bit 16, the seventeenth. -/
lemma stage_of_reading (ht : t ≤ 16) (hs : (entity fit e i t).state = .readingData)
    (hc : (entity fit e i t).dataCount.toNat = t) (hw : (entity fit e i t).writeReg = e.writeReg)
    (hd : ∀ j < t, (entity fit e i t).sampleData.getLsbD j = (i j).adcData)
    (hb : sampled fit e i t = bits i t) : Stage fit e i (t + 1) := by
  have hb' : sampled fit e i (t + 1) = bits i (t + 1) := by
    rw [sampled_of_readingData hs, hb, bits_succ]
  have hd' : ∀ j < t + 1, (assignBit (entity fit e i t).sampleData
      (entity fit e i t).dataCount.toNat (i t).adcData).getLsbD j = (i j).adcData := by
    intro j hj
    rw [hc]
    exact getLsbD_assignBit_next (by omega) hd hj
  by_cases hge : (entity fit e i t).dataCount ≥ 16
  · have h16 : 16 ≤ (entity fit e i t).dataCount.toNat := hge
    obtain rfl : t = 16 := by omega
    have hcount : (entity fit e i 16).dataCount = 16 := BitVec.eq_of_toNat_eq hc
    refine .sending rfl ?_ ?_ ?_ ?_ hb' <;> rw [entity_succ, step_readingData_last hs hge]
    · exact hcount
    · exact hw
    · exact hd'
  · have hlt : (entity fit e i t).dataCount.toNat < 16 := Nat.lt_of_not_le hge
    refine .reading (by omega) ?_ ?_ ?_ ?_ hb' <;> rw [entity_succ, step_readingData hs hge]
    · exact hs
    · change ((entity fit e i t).dataCount + 1).toNat = t + 1
      rw [BitVec.toNat_add, hc, show (1 : BitVec 6).toNat = 1 from rfl]
      omega
    · exact hw
    · exact hd'

/-- The step lemma: an edge leads from a stage to a stage. -/
lemma Stage.succ (h : Stage fit e i t) : Stage fit e i (t + 1) := by
  cases h with
  | reading ht hs hc hw hd hb => exact stage_of_reading ht hs hc hw hd hb
  | sending ht hs hc hw hd hb =>
    refine .writing (by omega) ?_ ?_ ?_ <;> rw [entity_succ, step_sendWriteRequest hs]
    · exact hc
    · exact hw
  | writing ht hs hc ha =>
    cases hwait : (i t).mWaitRequest with
    | true =>
      refine .writing (by omega) ?_ ?_ ?_ <;> rw [entity_succ, step_waitForWrite_stall hs hwait]
      · exact hs
      · exact hc
      · exact ha
    | false =>
      refine .stopped (by omega) ?_ ?_ <;> rw [entity_succ, step_waitForWrite hs hwait]
      exact hc
  | stopped ht hs hc =>
    refine .stopped (by omega) ?_ ?_ <;> rw [entity_succ, step_idle hs]
    · exact hs
    · exact hc

variable (fit i) in
/-- The run lemma: a run that starts with a word is at one of the stages at every edge. -/
theorem stage_of_start (h : e.Start) (t : ℕ) : Stage fit e i t := by
  induction t with
  | zero =>
    refine .reading (by omega) h.state ?_ rfl (fun j hj => absurd hj (Nat.not_lt_zero j)) rfl
    change e.dataCount.toNat = 0
    rw [h.dataCount]
    rfl
  | succ t ih => exact ih.succ

/-- The machine comes to `SEND_WRITE_REQUEST` once, with 17 bits. -/
theorem enters_iff (h : e.Start) : Enters fit e i t ↔ t = 16 := by
  constructor
  · rintro ⟨-, hs⟩
    cases stage_of_start fit i h (t + 1) with
    | sending ht _ _ _ _ _ => omega
    | _ => simp_all
  · rintro rfl
    constructor
    · cases stage_of_start fit i h 16 with
      | reading _ hs _ _ _ _ => simp [hs]
      | _ => omega
    · cases stage_of_start fit i h 17 with
      | sending _ hs _ _ _ _ => exact hs
      | _ => omega

/-- A word is taken to be complete when 17 bits have been sampled. -/
theorem length_sampled_of_enters (h : e.Start) (ht : Enters fit e i t) :
    (sampled fit e i (t + 1)).length = 17 := by
  obtain rfl : t = 16 := (enters_iff h).mp ht
  cases stage_of_start fit i h 17 with
  | sending _ _ _ _ _ hb => rw [hb, length_bits]
  | _ => omega

/-- What is made to fit `mWriteData` is the vector of the first 17 bits of the stream. -/
theorem mWriteData_of_start (h : e.Start) :
    ∃ w : BitVec 17, (entity fit e i 18).mWriteData = fit w ∧
      ∀ j < 17, w.getLsbD j = (i j).adcData := by
  cases stage_of_start fit i h 17 with
  | sending _ hs _ _ hd _ =>
    exact ⟨(entity fit e i 17).sampleData, by rw [entity_succ, step_sendWriteRequest hs], hd⟩
  | _ => omega

/-- After an accepted write the counter is where it was. -/
theorem dataCount_of_accepts (h : e.Start) (ht : Accepts fit e i t) :
    (entity fit e i (t + 1)).dataCount = 16 := by
  have hs := ht.1
  cases stage_of_start fit i h t with
  | writing _ _ hc _ => rw [entity_succ, step_waitForWrite hs ht.2]; exact hc
  | _ => simp_all

/-- The only word is written to the address it was to be written to. -/
theorem address_of_start (h : e.Start) (hs : (entity fit e i t).state = .waitForWrite) :
    regWriteStart ≤ (entity fit e i t).mAddress ∧ (entity fit e i t).mAddress < regWriteMax := by
  cases stage_of_start fit i h t with
  | writing _ _ _ ha => rw [ha]; exact h.writeReg
  | _ => simp_all

/-- After the word the machine never samples another bit. -/
theorem state_ne_readingData (h : e.Start) (ht : 17 ≤ t) :
    (entity fit e i t).state ≠ .readingData := by
  cases stage_of_start fit i h t with
  | reading ht' _ _ _ _ _ => omega
  | _ => simp_all

/-- Whatever the bits and the stalls are, and however the 17 bits are made to fit: a run that starts
with a word does not cut the stream into words of 16 bits. -/
theorem framing_never (h : e.Start) : ¬ Framing fit e i := by
  intro hf
  have henters : Enters fit e i 16 := (enters_iff h).mpr rfl
  have hlength := hf.count 16 henters
  rw [length_sampled_of_enters h henters] at hlength
  omega

/-! ## A stream of alternating bits -/

/-- The machine before the first bit of the first word. -/
def firstWord : Entity where
  state := .readingData
  dataCount := 0
  sampleData := 0
  writeReg := regWriteStart
  mAddress := 0
  mWriteData := 0

/-- Bits that alternate, on a bus that never stalls. -/
def alternating (t : ℕ) : Inputs := ⟨t % 2 == 0, false⟩

/-- The machine starts with a word. -/
lemma start_firstWord : firstWord.Start := ⟨rfl, rfl, by decide, by decide⟩

/-- With the upper bit cut off to make the 17 bits fit: the machine comes to `SEND_WRITE_REQUEST` at
edge 16, and it has sampled 17 bits. -/
theorem framing_fails_alternating :
    firstWord.Start ∧ Enters (BitVec.setWidth 16) firstWord alternating 16 ∧
      (sampled (BitVec.setWidth 16) firstWord alternating 17).length = 17 ∧
      ¬ Framing (BitVec.setWidth 16) firstWord alternating := by
  have henters : Enters (BitVec.setWidth 16) firstWord alternating 16 := by
    constructor <;> decide
  have hlength : (sampled (BitVec.setWidth 16) firstWord alternating 17).length = 17 := by decide
  refine ⟨start_firstWord, henters, hlength, fun hf => ?_⟩
  have h16 := hf.count 16 henters
  rw [hlength] at h16
  omega

/-- The theorem at the same stream. -/
theorem framing_never_alternating : ¬ Framing (BitVec.setWidth 16) firstWord alternating :=
  framing_never start_firstWord

end CyclonRtes.DmaIn
