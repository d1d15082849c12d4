import Mathlib.Tactic.Common
import CyclonRtes.Synchronous.Run

/-!
# Locks that know their holder

A lock is free (`none`) or held by a client.  In every step at most one client makes a request: an
attempt takes a free lock, a release frees the lock if it comes from the holder, and every other
request is ignored.

The file proves what a client can conclude from its own requests whatever the others do: it keeps
the lock until it releases it (`holder_kept`), and its attempt has succeeded if and only if the lock
was free or its own at the moment of the attempt (`holder_iff_of_attempt`).
-/

namespace Locking

open Synchronous

/-- What a client asks of a lock. -/
inductive Request (ι : Type*) where
  | attempt (c : ι)
  | release (c : ι)
  deriving DecidableEq, Repr

variable {ι : Type*}

/-- The client that makes a request. -/
def Request.client : Request ι → ι
  | .attempt c | .release c => c

variable [DecidableEq ι]

/-- The holder after a step in which the request `r`, if any, is made. -/
def serve (h : Option ι) (r : Option (Request ι)) : Option ι :=
  match r with
  | none => h
  | some (.attempt c) => h.or (some c)
  | some (.release c) => if h = some c then none else h

variable {h : Option ι} {r : Option (Request ι)} {c : ι}

/-- The holder keeps the lock in a step in which it does not release it. -/
lemma serve_some (hr : r ≠ some (.release c)) : serve (some c) r = some c := by
  match r with
  | none => rfl
  | some (.attempt d) => rfl
  | some (.release d) =>
    have hdc : c ≠ d := fun hcd => hr (by rw [hcd])
    simp [serve, hdc]

/-- A client does not get the lock in a step in which it does not attempt to. -/
lemma serve_ne_some (hr : r ≠ some (.attempt c)) (hh : h ≠ some c) : serve h r ≠ some c := by
  match r, h with
  | none, h => exact hh
  | some (.attempt d), none =>
    have hdc : d ≠ c := fun hdc => hr (by rw [hdc])
    simpa [serve] using hdc
  | some (.attempt d), some b => simpa [serve] using hh
  | some (.release d), h =>
    simp only [serve]
    split_ifs with hd
    · simp
    · exact hh

/-- After an attempt the client holds the lock if and only if it was free or its own before. -/
lemma serve_attempt_iff : serve h (some (.attempt c)) = some c ↔ h = none ∨ h = some c := by
  cases h <;> simp [serve]

section Run

variable {h₀ : Option ι} {q : ℕ → Option (Request ι)} {t u : ℕ}

/-- A client that holds the lock keeps it until it releases it. -/
lemma holder_kept (htu : t ≤ u) (hh : run serve h₀ q t = some c)
    (hq : ∀ v, t ≤ v → v < u → q v ≠ some (.release c)) : run serve h₀ q u = some c := by
  induction u, htu using Nat.le_induction with
  | base => exact hh
  | succ u htu ih =>
    rw [run_succ, ih fun v htv hvu => hq v htv (Nat.lt_succ_of_lt hvu)]
    exact serve_some (hq u htu (Nat.lt_succ_self u))

/-- A client that does not hold the lock does not get it until it attempts to. -/
lemma holder_ne_kept (htu : t ≤ u) (hh : run serve h₀ q t ≠ some c)
    (hq : ∀ v, t ≤ v → v < u → q v ≠ some (.attempt c)) : run serve h₀ q u ≠ some c := by
  induction u, htu using Nat.le_induction with
  | base => exact hh
  | succ u htu ih =>
    rw [run_succ]
    exact serve_ne_some (hq u htu (Nat.lt_succ_self u))
      (ih fun v htv hvu => hq v htv (Nat.lt_succ_of_lt hvu))

/-- As long as the client makes no further request, it holds the lock after an attempt if and only
if the lock was free or its own when it made the attempt. -/
theorem holder_iff_of_attempt (ht : q t = some (.attempt c)) (htu : t < u)
    (hq : ∀ v, t < v → v < u → ∀ r, q v = some r → r.client ≠ c) :
    run serve h₀ q u = some c ↔ run serve h₀ q t = none ∨ run serve h₀ q t = some c := by
  have hafter : run serve h₀ q (t + 1) = serve (run serve h₀ q t) (some (.attempt c)) := by
    rw [run_succ, ht]
  rw [← serve_attempt_iff, ← hafter]
  have hno : ∀ r : Request ι, r.client = c → ∀ v, t + 1 ≤ v → v < u → q v ≠ some r :=
    fun r hr v htv hvu hv => hq v htv hvu r hv hr
  constructor
  · intro hu
    by_contra hne
    exact holder_ne_kept htu hne (hno _ rfl) hu
  · intro hh
    exact holder_kept htu hh (hno _ rfl)

end Run

end Locking
