import Mathlib.Data.Nat.Notation
import Mathlib.Logic.Function.Basic

/-!
# Element-by-element maps over a store

`mapSeq f src dst n M` is the store after the `n` assignments
`M[dst i] := f M[src i]`, `i = 0, …, n - 1`, carried out one after the other.  The source and the
destination of different elements may overlap; what each destination cell holds at the end is then
a matter of the order of the assignments.  `mapSeq_dst` says when the outcome is the pointwise one:
no destination is used twice and no source is overwritten before it has been read.
-/

namespace Storage

variable {α β : Type*} [DecidableEq α]

/-- The store after the assignments `M[dst i] := f M[src i]` for `i < n`, in order. -/
def mapSeq (f : β → β) (src dst : ℕ → α) : ℕ → (α → β) → α → β
  | 0, M => M
  | n + 1, M =>
    Function.update (mapSeq f src dst n M) (dst n) (f (mapSeq f src dst n M (src n)))

variable {f : β → β} {src dst : ℕ → α} {n : ℕ} {M : α → β} {a : α}

@[simp] lemma mapSeq_zero : mapSeq f src dst 0 M = M := rfl

lemma mapSeq_succ :
    mapSeq f src dst (n + 1) M =
      Function.update (mapSeq f src dst n M) (dst n) (f (mapSeq f src dst n M (src n))) := rfl

/-- A cell that is no destination keeps its content. -/
theorem mapSeq_of_forall_ne (h : ∀ i < n, dst i ≠ a) : mapSeq f src dst n M a = M a := by
  induction n with
  | zero => rfl
  | succ n ih =>
    rw [mapSeq_succ, Function.update_of_ne (h n (Nat.lt_succ_self n)).symm,
      ih fun i hi => h i (Nat.lt_succ_of_lt hi)]

/-- If no two destinations coincide and no source is overwritten before it is read, every
destination ends up with the image of the original content of its source. -/
theorem mapSeq_dst (hdst : ∀ i < n, ∀ j < n, dst i = dst j → i = j)
    (hsrc : ∀ i j, i < j → j < n → dst i ≠ src j) {i : ℕ} (hi : i < n) :
    mapSeq f src dst n M (dst i) = f (M (src i)) := by
  induction n with
  | zero => exact absurd hi (Nat.not_lt_zero i)
  | succ n ih =>
    rw [mapSeq_succ]
    rcases Nat.lt_succ_iff_lt_or_eq.mp hi with hlt | rfl
    · have hne : dst i ≠ dst n := fun h =>
        absurd (hdst i hi n (Nat.lt_succ_self n) h) (Nat.ne_of_lt hlt)
      rw [Function.update_of_ne hne]
      exact ih (fun i hi j hj => hdst i (Nat.lt_succ_of_lt hi) j (Nat.lt_succ_of_lt hj))
        (fun i j hij hj => hsrc i j hij (Nat.lt_succ_of_lt hj)) hlt
    · rw [Function.update_self,
        mapSeq_of_forall_ne fun j hj => hsrc j i hj (Nat.lt_succ_self i)]

end Storage
