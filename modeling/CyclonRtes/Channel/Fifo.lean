import Mathlib.Data.Nat.Notation

/-!
# Bounded first-in first-out channels

A `Fifo` holds at most `n` messages, which its bound guarantees.  `post` puts a message behind the
others and is refused by a full channel; `pend` takes the oldest message and fails on an empty one.

The balance `taken ++ q.items = posted` relates the messages in the channel to the whole history:
every post that is not refused and every take keeps it, so the messages taken are those posted, in
the same order.
-/

namespace Channel

/-- A channel for at most `n` messages, the oldest one first. -/
structure Fifo (α : Type*) (n : ℕ) where
  items : List α
  bounded : items.length ≤ n

namespace Fifo

variable {α : Type*} {n : ℕ} {q q' : Fifo α n} {a : α} {taken posted : List α}

/-- The empty channel. -/
def empty : Fifo α n := ⟨[], Nat.zero_le n⟩

/-- The channel after a post; a full channel refuses the message. -/
def post (q : Fifo α n) (a : α) : Fifo α n :=
  if h : q.items.length < n then ⟨q.items ++ [a], by simpa using Nat.succ_le_of_lt h⟩ else q

/-- The oldest message and the channel without it. -/
def pend (q : Fifo α n) : Option (α × Fifo α n) :=
  match q with
  | ⟨[], _⟩ => none
  | ⟨a :: l, hl⟩ => some (a, ⟨l, Nat.le_of_succ_le hl⟩)

@[simp] lemma items_empty : (empty : Fifo α n).items = [] := rfl

/-- A channel that is not full accepts a message. -/
lemma items_post (h : q.items.length < n) : (q.post a).items = q.items ++ [a] := by
  rw [post, dif_pos h]

/-- A full channel refuses a message. -/
lemma post_of_full (h : q.items.length = n) : q.post a = q := by
  rw [post, dif_neg (by omega)]

/-- A take removes the oldest message. -/
lemma items_of_pend (h : q.pend = some (a, q')) : q.items = a :: q'.items := by
  obtain ⟨_ | ⟨b, l⟩, hl⟩ := q
  · exact absurd h (by simp [pend])
  · obtain ⟨rfl, rfl⟩ := Prod.mk.inj (Option.some.inj h)
    rfl

/-- A post that is not refused keeps the balance. -/
lemma balance_post (h : taken ++ q.items = posted) (hroom : q.items.length < n) :
    taken ++ (q.post a).items = posted ++ [a] := by
  rw [items_post hroom, ← h, List.append_assoc]

/-- A take keeps the balance. -/
lemma balance_pend (h : taken ++ q.items = posted) (hp : q.pend = some (a, q')) :
    (taken ++ [a]) ++ q'.items = posted := by
  rw [List.append_assoc, List.singleton_append, ← items_of_pend hp, h]

end Fifo

end Channel
