import Mathlib.Algebra.Group.Nat.Defs
import Mathlib.Logic.Function.Basic
import CyclonRtes.Avalon.Port

/-!
# Word memory behind an Avalon master

An Avalon master with a 32-bit data path addresses memory in bytes, but every transfer concerns the
word that contains the byte; `Memory` is therefore indexed by `wordIndex`.  `Memory.replay` is the
effect of a list of completed transfers, and `Memory.Answered` says that every read in such a list
returned what the memory held at that moment.

`element base stride i` is the address of element `i` of an array with the given element distance.
-/

namespace CyclonRtes

/-- A completed transfer of an Avalon master. -/
inductive Transfer where
  /-- A read of the word at `address` returned `data`. -/
  | read (address data : Word)
  /-- A write of `data` to the word at `address`, for the enabled bytes. -/
  | write (address : Word) (byteEnable : BitVec 4) (data : Word)
  deriving DecidableEq, Repr

/-- The index of the word that contains the byte at a given address. -/
def wordIndex (a : Word) : BitVec 30 := a.extractLsb' 2 30

/-- The bits of a word selected by the byte enables. -/
def byteMask (byteEnable : BitVec 4) : Word :=
  (if byteEnable.getLsbD 0 then 0x000000FF#32 else 0) |||
    (if byteEnable.getLsbD 1 then 0x0000FF00#32 else 0) |||
    (if byteEnable.getLsbD 2 then 0x00FF0000#32 else 0) |||
    (if byteEnable.getLsbD 3 then 0xFF000000#32 else 0)

/-- The word `old` with the enabled bytes replaced by those of `new`. -/
def mergeBytes (byteEnable : BitVec 4) (old new : Word) : Word :=
  (old &&& ~~~byteMask byteEnable) ||| (new &&& byteMask byteEnable)

/-- With all bytes enabled a write replaces the whole word. -/
@[simp] lemma mergeBytes_all (old new : Word) : mergeBytes 0xF#4 old new = new := by
  have hmask : byteMask 0xF#4 = BitVec.allOnes 32 := by decide
  rw [mergeBytes, hmask, BitVec.and_allOnes]
  simp

/-- The contents of a word memory. -/
abbrev Memory := BitVec 30 → Word

namespace Memory

/-- The effect of one transfer on the memory. -/
def apply (M : Memory) : Transfer → Memory
  | .read _ _ => M
  | .write a be d => Function.update M (wordIndex a) (mergeBytes be (M (wordIndex a)) d)

/-- The memory after a list of transfers. -/
def replay (M : Memory) (l : List Transfer) : Memory := l.foldl apply M

/-- A read transfer returned what the memory held; a write has nothing to answer. -/
def Answers (M : Memory) : Transfer → Prop
  | .read a d => d = M (wordIndex a)
  | .write _ _ _ => True

/-- Every read of the list returned what the memory held after the preceding transfers. -/
def Answered (M : Memory) : List Transfer → Prop
  | [] => True
  | x :: l => M.Answers x ∧ Answered (M.apply x) l

@[simp] lemma replay_nil (M : Memory) : M.replay [] = M := rfl

/-- Transfers take effect in the order of the list. -/
lemma replay_append (M : Memory) (l l' : List Transfer) :
    M.replay (l ++ l') = (M.replay l).replay l' := by
  simp [replay, List.foldl_append]

/-- One more transfer acts on the memory that the earlier ones left. -/
lemma replay_concat (M : Memory) (l : List Transfer) (x : Transfer) :
    M.replay (l ++ [x]) = (M.replay l).apply x := by
  rw [replay_append]; rfl

/-- What a transfer does to a cell depends on that cell only. -/
lemma apply_congr {M M' : Memory} {a : BitVec 30} (h : M a = M' a) (x : Transfer) :
    M.apply x a = M'.apply x a := by
  cases x with
  | read b d => exact h
  | write b be d =>
    by_cases hab : a = wordIndex b
    · subst hab
      simp [apply, h]
    · simp [apply, hab, h]

/-- What a list of transfers does to a cell depends on that cell only. -/
lemma replay_congr {M M' : Memory} {a : BitVec 30} (h : M a = M' a) (l : List Transfer) :
    M.replay l a = M'.replay l a := by
  induction l generalizing M M' with
  | nil => exact h
  | cons x l ih => exact ih (apply_congr h x)

/-- The answers of a list of transfers can be checked part by part. -/
lemma answered_append {M : Memory} {l l' : List Transfer} :
    M.Answered (l ++ l') ↔ M.Answered l ∧ (M.replay l).Answered l' := by
  induction l generalizing M with
  | nil => simp [Answered]
  | cons x l ih =>
    rw [List.cons_append, Answered, Answered, ih, and_assoc]
    rfl

end Memory

/-! ## Element addresses -/

/-- The address of element `i` of an array at `base` with element distance `stride`, as 32-bit
address arithmetic computes it. -/
def element (base stride : Word) (i : ℕ) : Word := base + stride * BitVec.ofNat 32 i

@[simp] lemma element_zero (base stride : Word) : element base stride 0 = base := by
  simp [element]

/-- Successive elements are one stride apart. -/
lemma element_succ (base stride : Word) (i : ℕ) :
    element base stride (i + 1) = element base stride i + stride := by
  rw [element, element, BitVec.ofNat_add, BitVec.mul_add, BitVec.add_assoc]
  simp

/-- A byte address of a whole word. -/
def WordAligned (a : Word) : Prop := a.toNat % 4 = 0

instance (a : Word) : Decidable (WordAligned a) := inferInstanceAs (Decidable (_ = _))

/-- The number of a word index is the byte address divided by four. -/
lemma toNat_wordIndex (a : Word) : (wordIndex a).toNat = a.toNat / 4 := by
  have := a.isLt
  simp only [wordIndex, BitVec.extractLsb'_toNat, Nat.shiftRight_eq_div_pow]
  omega

/-- Different aligned addresses belong to different words. -/
lemma wordIndex_inj {a b : Word} (ha : WordAligned a) (hb : WordAligned b)
    (h : wordIndex a = wordIndex b) : a = b := by
  unfold WordAligned at ha hb
  have h' : a.toNat / 4 = b.toNat / 4 := by rw [← toNat_wordIndex, ← toNat_wordIndex, h]
  apply BitVec.eq_of_toNat_eq
  omega

/-- The byte address of a word of a word array. -/
lemma toNat_element_four (base : Word) (i : ℕ) :
    (element base 4 i).toNat = (base.toNat + 4 * i) % 2 ^ 32 := by
  have h4 : (4 : Word).toNat = 4 := rfl
  simp only [element, BitVec.toNat_add, BitVec.toNat_mul, BitVec.toNat_ofNat, h4]
  omega

/-- The words of an array are aligned exactly when its base is. -/
lemma wordAligned_element_four (base : Word) (i : ℕ) :
    WordAligned (element base 4 i) ↔ WordAligned base := by
  unfold WordAligned
  rw [toNat_element_four]
  omega

/-- Up to the size of the address space, the words of an array are different words. -/
lemma wordIndex_element_inj (base : Word) {i j : ℕ} (hi : i < 2 ^ 30) (hj : j < 2 ^ 30)
    (h : wordIndex (element base 4 i) = wordIndex (element base 4 j)) : i = j := by
  have h' : (element base 4 i).toNat / 4 = (element base 4 j).toNat / 4 := by
    rw [← toNat_wordIndex, ← toNat_wordIndex, h]
  rw [toNat_element_four, toNat_element_four] at h'
  omega

end CyclonRtes
