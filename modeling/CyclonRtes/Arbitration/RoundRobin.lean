import CyclonRtes.Synchronous.Trace

/-!
# Round robin

Requesters in `n` places on a circle share a resource.  The priority is at one of the places; a
decision is for the first requester from there on, and the priority moves to the place after it.

`exists_first_of_decisions` says that nobody waits for long: a requester that does not withdraw its
request is the one that is chosen in one of any `n` decisions.  How the first requester is found is
up to the arbiter.
-/

namespace Arbitration

open Synchronous

variable {n p i j : ℕ} {r : ℕ → Prop}

/-- The number of places from `p` on to `i`. -/
def distance (n p i : ℕ) : ℕ := if p ≤ i then i - p else i + n - p

/-- The place after `i`. -/
def next (n i : ℕ) : ℕ := if i + 1 < n then i + 1 else 0

/-- The requester `i` is the first one from `p` on. -/
structure First (n : ℕ) (r : ℕ → Prop) (p i : ℕ) : Prop where
  lt : i < n
  requests : r i
  le : ∀ j < n, r j → distance n p i ≤ distance n p j

/-- All places are less than one round away. -/
lemma distance_lt (hi : i < n) : distance n p i < n := by
  unfold distance
  split_ifs <;> omega

/-- Different places are at different distances. -/
lemma eq_of_distance (hp : p < n) (hi : i < n) (hj : j < n)
    (h : distance n p i = distance n p j) : i = j := by
  unfold distance at h
  split_ifs at h <;> omega

/-- There is the place after each place. -/
lemma next_lt (hi : i < n) : next n i < n := by
  unfold next
  split_ifs <;> omega

/-- There is only one first requester. -/
lemma First.unique (hp : p < n) (hi : First n r p i) (hj : First n r p j) : i = j :=
  eq_of_distance hp hi.lt hj.lt
    (Nat.le_antisymm (hi.le j hj.lt hj.requests) (hj.le i hi.lt hi.requests))

/-- If there is a requester, there is a first one. -/
lemma exists_first (p : ℕ) (hi : i < n) (hr : r i) : ∃ j, First n r p j := by
  classical
  have hex : ∃ d, ∃ j < n, r j ∧ distance n p j = d := ⟨_, i, hi, hr, rfl⟩
  obtain ⟨j, hj, hrj, hd⟩ := Nat.find_spec hex
  exact ⟨j, hj, hrj, fun k hk hrk => hd.le.trans (Nat.find_min' hex ⟨k, hk, hrk, rfl⟩)⟩

/-- The decision for another requester brings the priority closer. -/
lemma First.distance_next_lt (hp : p < n) (h : First n r p j) (hi : i < n) (hr : r i)
    (hne : i ≠ j) : distance n (next n j) i < distance n p i := by
  have hj := h.lt
  have hle := h.le i hi hr
  have hneq : distance n p j ≠ distance n p i := fun heq => hne (eq_of_distance hp hj hi heq).symm
  unfold distance next at *
  split_ifs at * <;> omega

/-- From the place after `j` it is less than a round to another place, even with one place more. -/
lemma distance_next_lt (hi : i < n) (hj : j < n) (hne : i ≠ j) :
    distance n (next n j) i + 1 < n := by
  unfold distance next
  split_ifs <;> omega

section Run

variable {decides : ℕ → Bool} {r : ℕ → ℕ → Prop} {p : ℕ → ℕ} {a b : ℕ}

/-- A requester that is never chosen comes closer to the priority with every decision. -/
lemma distance_add_highCycles_le (hp : ∀ t, p t < n)
    (hkeep : ∀ t, decides t = false → p (t + 1) = p t)
    (hnext : ∀ t j, decides t = true → First n (r t) (p t) j → p (t + 1) = next n j) (hi : i < n)
    (hab : a ≤ b) (hr : ∀ t, a ≤ t → t < b → r t i)
    (hno : ∀ t, a ≤ t → t < b → decides t = true → ¬ First n (r t) (p t) i) :
    distance n (p b) i + highCycles decides a b ≤ distance n (p a) i := by
  induction b, hab using Nat.le_induction with
  | base => simp
  | succ b hab ih =>
    have ih' := ih (fun t hat htb => hr t hat (Nat.lt_succ_of_lt htb))
      fun t hat htb => hno t hat (Nat.lt_succ_of_lt htb)
    rw [highCycles_succ hab]
    cases hd : decides b with
    | false =>
      rw [hkeep b hd]
      simpa using ih'
    | true =>
      have hrb := hr b hab (Nat.lt_succ_self b)
      obtain ⟨j, hj⟩ := exists_first (p b) hi hrb
      have hne : i ≠ j := fun heq => hno b hab (Nat.lt_succ_self b) hd (heq ▸ hj)
      have hlt := hj.distance_next_lt (hp b) hi hrb hne
      rw [hnext b j hd hj]
      simp only [if_true]
      omega

/-- A requester that does not withdraw its request is chosen in one of any `n` decisions. -/
theorem exists_first_of_decisions (hp : ∀ t, p t < n)
    (hkeep : ∀ t, decides t = false → p (t + 1) = p t)
    (hnext : ∀ t j, decides t = true → First n (r t) (p t) j → p (t + 1) = next n j) (hi : i < n)
    (hab : a ≤ b) (hr : ∀ t, a ≤ t → t < b → r t i) (hn : n ≤ highCycles decides a b) :
    ∃ t, a ≤ t ∧ t < b ∧ decides t = true ∧ First n (r t) (p t) i := by
  by_contra hno
  have hle := distance_add_highCycles_le hp hkeep hnext hi hab hr
    fun t hat htb hd hfirst => hno ⟨t, hat, htb, hd, hfirst⟩
  have hlt := distance_lt (p := p a) hi
  omega

end Run

end Arbitration
